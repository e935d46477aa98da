import Mathlib.Data.Nat.Digits.Defs
import Mathlib.Data.Nat.Digits.Lemmas

/-!
# Decimal numerals

Integers as ASCII digits, the way `%lld` prints them: no leading zeros, and a minus sign in front of
the negative ones.

## Main definitions

* `Decimal.printInt`, `Decimal.printNat` — printing
* `Decimal.readInt`, `Decimal.readNat` — reading

## Main results

* `Decimal.readInt_printInt` — what was printed is read back
* `Decimal.ne_zero_of_mem_printInt` — a numeral is a C string
* `Decimal.length_printInt_le` — how much room a numeral takes
-/

namespace Decimal

/-- The ASCII code of a digit. -/
def digitByte (d : ℕ) : UInt8 := UInt8.ofNat (48 + d)

/-- The bytes that are digits. -/
def IsDigitByte (b : UInt8) : Prop := 48 ≤ b.toNat ∧ b.toNat < 58

instance (b : UInt8) : Decidable (IsDigitByte b) := inferInstanceAs (Decidable (_ ∧ _))

/-- The digits of a number, the most significant one first. -/
def printNat (n : ℕ) : List UInt8 :=
  if n = 0 then [digitByte 0] else ((Nat.digits 10 n).map digitByte).reverse

/-- The minus sign. -/
def minusByte : UInt8 := 45

/-- The numeral of an integer. -/
def printInt (z : ℤ) : List UInt8 :=
  if z < 0 then minusByte :: printNat z.natAbs else printNat z.natAbs

/-- The number a list of digits stands for, leading zeros allowed. -/
def readNat (l : List UInt8) : Option ℕ :=
  if !l.isEmpty && l.all fun b => decide (IsDigitByte b) then
    some (Nat.ofDigits 10 (l.reverse.map fun b => b.toNat - 48))
  else none

/-- The integer a numeral stands for. -/
def readInt (l : List UInt8) : Option ℤ :=
  if l.head? = some minusByte then (readNat l.tail).map fun n : ℕ => -(n : ℤ)
  else (readNat l).map fun n : ℕ => (n : ℤ)

/-! ### Digits -/

theorem toNat_digitByte {d : ℕ} (h : d < 10) : (digitByte d).toNat = 48 + d := by
  rw [digitByte, UInt8.toNat_ofNat']
  exact Nat.mod_eq_of_lt (by omega)

theorem isDigitByte_digitByte {d : ℕ} (h : d < 10) : IsDigitByte (digitByte d) := by
  rw [IsDigitByte, toNat_digitByte h]
  omega

theorem isDigitByte_of_mem_printNat {n : ℕ} {b : UInt8} (hb : b ∈ printNat n) : IsDigitByte b := by
  rw [printNat] at hb
  split_ifs at hb with hn
  · rw [List.mem_singleton.mp hb]
    decide
  · rw [List.mem_reverse, List.mem_map] at hb
    obtain ⟨d, hd, rfl⟩ := hb
    exact isDigitByte_digitByte (Nat.digits_lt_base (by decide) hd)

theorem printNat_ne_nil (n : ℕ) : printNat n ≠ [] := by
  rw [printNat]
  split_ifs with hn
  · exact List.cons_ne_nil _ _
  · rw [ne_eq, List.reverse_eq_nil_iff, List.map_eq_nil_iff, Nat.digits_eq_nil_iff_eq_zero]
    exact hn

/-- **A number is read back as it was printed.** -/
theorem readNat_printNat (n : ℕ) : readNat (printNat n) = some n := by
  have hread :
      (!(printNat n).isEmpty && (printNat n).all fun b => decide (IsDigitByte b)) = true := by
    rw [Bool.and_eq_true, Bool.not_eq_true', List.isEmpty_eq_false_iff, List.all_eq_true]
    exact ⟨printNat_ne_nil n, fun b hb => decide_eq_true (isDigitByte_of_mem_printNat hb)⟩
  rw [readNat, if_pos hread]
  refine congrArg some ?_
  rw [printNat]
  split_ifs with hn
  · rw [hn]
    decide
  · have hdigits : (Nat.digits 10 n).map ((fun b : UInt8 => b.toNat - 48) ∘ digitByte) =
        Nat.digits 10 n := by
      refine (List.map_congr_left fun d hd => ?_).trans (List.map_id _)
      have hlt : d < 10 := Nat.digits_lt_base (by decide) hd
      rw [Function.comp_apply, toNat_digitByte hlt, Nat.add_sub_cancel_left, id_eq]
    rw [List.reverse_reverse, List.map_map, hdigits]
    exact Nat.ofDigits_digits 10 n

theorem isDigitByte_ne_minusByte {b : UInt8} (h : IsDigitByte b) : b ≠ minusByte := by
  rintro rfl
  exact absurd h.1 (by decide)

/-- **An integer is read back as it was printed.** -/
theorem readInt_printInt (z : ℤ) : readInt (printInt z) = some z := by
  rw [printInt]
  split_ifs with hz
  · rw [readInt, if_pos List.head?_cons, List.tail_cons, readNat_printNat, Option.map_some]
    exact congrArg some (by omega)
  · have hhead : (printNat z.natAbs).head? ≠ some minusByte := by
      intro hhead
      exact isDigitByte_ne_minusByte (isDigitByte_of_mem_printNat (List.mem_of_mem_head? hhead)) rfl
    rw [readInt, if_neg hhead, readNat_printNat, Option.map_some]
    exact congrArg some (by omega)

/-! ### Numerals as C strings -/

theorem ne_zero_of_mem_printInt {z : ℤ} {b : UInt8} (hb : b ∈ printInt z) : b ≠ 0 := by
  have hdigit : ∀ c ∈ printNat z.natAbs, c ≠ 0 := by
    rintro c hc rfl
    exact absurd (isDigitByte_of_mem_printNat hc).1 (by decide)
  rw [printInt] at hb
  split_ifs at hb with hz
  · rcases List.mem_cons.mp hb with rfl | hb
    · decide
    · exact hdigit b hb
  · exact hdigit b hb

theorem length_printNat_le {n k : ℕ} (hk : 0 < k) (h : n < 10 ^ k) : (printNat n).length ≤ k := by
  rw [printNat]
  split_ifs with hn
  · exact hk
  · rw [List.length_reverse, List.length_map, Nat.digits_length_le_iff (by decide)]
    exact h

theorem length_printInt_le {z : ℤ} {k : ℕ} (hk : 0 < k) (h : z.natAbs < 10 ^ k) :
    (printInt z).length ≤ k + 1 := by
  have hnat := length_printNat_le hk h
  rw [printInt]
  split_ifs with hz
  · rw [List.length_cons]
    omega
  · omega

end Decimal
