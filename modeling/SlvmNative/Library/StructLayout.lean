import Mathlib.Data.Nat.Init
import Mathlib.Tactic.Common

/-!
# Layout of C structures

Offsets and sizes the way a C compiler lays structures out: every member at the next multiple of
its alignment, the structure padded at its end to the largest alignment of its members.

## Main definitions

* `CType` — size and alignment of a type
* `CType.memberOffset`, `CType.ofMembers` — where the members are, and the structure they make

## Main results

* `CType.memberOffset_add_size_le` — members lie inside the structure
* `CType.memberOffset_add_size_le_memberOffset` — and one after another
-/

/-- Size and alignment of a C type, in bytes. -/
structure CType where
  size : ℕ
  alignment : ℕ
  alignment_pos : 0 < alignment

namespace CType

/-- The next multiple of an alignment. -/
def alignUp (offset alignment : ℕ) : ℕ := (offset + (alignment - 1)) / alignment * alignment

theorem le_alignUp (offset : ℕ) {alignment : ℕ} (h : 0 < alignment) :
    offset ≤ alignUp offset alignment := by
  have hdiv := Nat.div_add_mod (offset + (alignment - 1)) alignment
  have hmod := Nat.mod_lt (offset + (alignment - 1)) h
  rw [alignUp, Nat.mul_comm]
  omega

/-- Where members laid out from an offset on end. -/
def endOffset : ℕ → List CType → ℕ
  | offset, [] => offset
  | offset, t :: ts => endOffset (alignUp offset t.alignment + t.size) ts

/-- Where the member of an index is among members laid out from an offset on. -/
def memberOffset : ℕ → List CType → ℕ → ℕ
  | offset, [], _ => offset
  | offset, t :: _, 0 => alignUp offset t.alignment
  | offset, t :: ts, i + 1 => memberOffset (alignUp offset t.alignment + t.size) ts i

/-- The largest alignment of some members. -/
def maxAlignment (members : List CType) : ℕ := members.foldr (fun t a => max t.alignment a) 1

theorem maxAlignment_pos (members : List CType) : 0 < maxAlignment members := by
  induction members with
  | nil => exact Nat.one_pos
  | cons t ts ih => exact Nat.lt_of_lt_of_le ih (Nat.le_max_right _ _)

/-- `struct { … }` -/
def ofMembers (members : List CType) : CType where
  size := alignUp (endOffset 0 members) (maxAlignment members)
  alignment := maxAlignment members
  alignment_pos := maxAlignment_pos members

theorem le_endOffset (offset : ℕ) (members : List CType) : offset ≤ endOffset offset members := by
  induction members generalizing offset with
  | nil => exact Nat.le_refl offset
  | cons t ts ih =>
    have halign := le_alignUp offset t.alignment_pos
    have hrest := ih (alignUp offset t.alignment + t.size)
    rw [endOffset]
    omega

theorem le_memberOffset (offset : ℕ) (members : List CType) (i : ℕ) :
    offset ≤ memberOffset offset members i := by
  induction members generalizing offset i with
  | nil => cases i <;> exact Nat.le_refl offset
  | cons t ts ih =>
    have halign := le_alignUp offset t.alignment_pos
    cases i with
    | zero => exact halign
    | succ i =>
      have hrest := ih (alignUp offset t.alignment + t.size) i
      rw [memberOffset]
      omega

/-- **Members lie one after another.** -/
theorem memberOffset_add_size_le_memberOffset {members : List CType} {i j : ℕ} {t : CType}
    (hi : members[i]? = some t) (hij : i < j) (offset : ℕ) :
    memberOffset offset members i + t.size ≤ memberOffset offset members j := by
  induction members generalizing offset i j with
  | nil => cases hi
  | cons u us ih =>
    obtain ⟨j, rfl⟩ : ∃ k, j = k + 1 := ⟨j - 1, by omega⟩
    cases i with
    | zero =>
      obtain rfl : u = t := Option.some.inj hi
      exact le_memberOffset _ us j
    | succ i => exact ih hi (by omega) _

theorem memberOffset_add_size_le_endOffset {members : List CType} {i : ℕ} {t : CType}
    (hi : members[i]? = some t) (offset : ℕ) :
    memberOffset offset members i + t.size ≤ endOffset offset members := by
  induction members generalizing offset i with
  | nil => cases hi
  | cons u us ih =>
    cases i with
    | zero =>
      obtain rfl : u = t := Option.some.inj hi
      exact le_endOffset _ us
    | succ i => exact ih hi _

/-- **Members lie inside the structure.** -/
theorem memberOffset_add_size_le {members : List CType} {i : ℕ} {t : CType}
    (hi : members[i]? = some t) :
    memberOffset 0 members i + t.size ≤ (ofMembers members).size :=
  Nat.le_trans (memberOffset_add_size_le_endOffset hi 0)
    (le_alignUp _ (maxAlignment_pos members))

end CType
