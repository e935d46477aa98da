import SlvmNative.Library.LinearProbing
import SlvmNative.Strings

/-!
# Hashed collections

What the sets and dictionaries of `classes/collections.c` share: the condition under which they
grow, the loop that reinserts their elements, and the way their keys are hashed and compared. A
`KeyScheme` packages a hash function and an equality function with the content they depend on;
the tables of the collections are tables of contents.

## Main definitions

* `ObjectMemory.hashedCollectionFullCondition`
* `ObjectMemory.SameBody` — an object was left alone, but for its slots
* `KeyScheme`, `stringScheme`, `identityScheme`
* `KeyFunctions`, `KeyFunctions.scheme` — any hash function and equality of oops as a key scheme
* `ObjectMemory.storeElement` — the stores of an insertion
* `ObjectMemory.HashedShape` — a collection and the array it stores its elements in

## Main results

* `foldlM_range` — the loops over an array keep what one step keeps
* `ObjectMemory.HashedShape.fullCondition_iff` — when a collection grows
-/

namespace SlvmNative

open LinearProbing

/-- **A loop over the indices below `n`** that cannot fail and whose step leads from `P i` to
`P (i + 1)` leads from `P 0` to `P n`. -/
theorem foldlM_range {σ : Type*} {step : σ → ℕ → Option σ} {P : ℕ → σ → Prop} {n : ℕ} {s : σ}
    (hstart : P 0 s) (hstep : ∀ i < n, ∀ s, P i s → ∃ s', step s i = some s' ∧ P (i + 1) s') :
    ∃ s', (List.range n).foldlM step s = some s' ∧ P n s' := by
  induction n with
  | zero => exact ⟨s, rfl, hstart⟩
  | succ n ih =>
    obtain ⟨s₁, hs₁, hP₁⟩ := ih fun i hi => hstep i (Nat.lt_succ_of_lt hi)
    obtain ⟨s₂, hs₂, hP₂⟩ := hstep n (Nat.lt_succ_self n) s₁ hP₁
    refine ⟨s₂, ?_, hP₂⟩
    rw [List.range_succ, List.foldlM_append, hs₁]
    simpa using hs₂

/-- A loop keeps what its steps keep. -/
theorem foldlM_invariant {σ ι : Type*} {step : σ → ι → Option σ} {P : σ → Prop} {l : List ι}
    (h : ∀ i ∈ l, ∀ s s', P s → step s i = some s' → P s') {s s' : σ} (hs : P s)
    (hloop : l.foldlM step s = some s') : P s' := by
  induction l generalizing s with
  | nil => exact Option.some.inj hloop ▸ hs
  | cons i l ih =>
    rw [List.foldlM_cons, Option.bind_eq_bind, Option.bind_eq_some_iff] at hloop
    obtain ⟨s₁, hstep, hrest⟩ := hloop
    exact ih (fun j hj => h j (List.mem_cons_of_mem i hj)) (h i List.mem_cons_self s s₁ hs hstep)
      hrest

namespace ObjectMemory

/-- `slvm_HashedCollection_fullCondition` -/
def hashedCollectionFullCondition (m : ObjectMemory) (collection : ℕ) : Bool :=
  let arraySize := m.basicSize (m.slot collection Field.array)
  arraySize < 4 ||
    unsignedSub 64 arraySize (decodeSmallInteger (m.slot collection Field.tally)) < arraySize / 4

/-- The size the arrays of collections are doubled to. -/
def doubledArraySize (arraySize : ℕ) : ℕ := if arraySize * 2 < 4 then 4 else arraySize * 2

/-- The step from `m` to `m'` changed nothing of an object but its slots. -/
def SameBody (m m' : ObjectMemory) (oop : ℕ) : Prop :=
  oopIsImmediate oop ∨ m'.header oop = m.header oop ∧ m'.byte oop = m.byte oop ∧
    m'.sizeWord (oop - 8) = m.sizeWord (oop - 8)

theorem SameBody.refl (m : ObjectMemory) (oop : ℕ) : SameBody m m oop := Or.inr ⟨rfl, rfl, rfl⟩

theorem Frame.sameBody {L : ℕ} {F : Set (ℕ × ℕ)} {m m' : ObjectMemory} (h : Frame L F m m')
    {oop : ℕ} (hoop : oopIsImmediate oop ∨ oop < L) : SameBody m m' oop :=
  hoop.imp_right fun hlt =>
    ⟨h.header oop hlt, h.byte oop hlt, h.sizeWord (oop - 8) ((Nat.sub_le _ _).trans_lt hlt)⟩

theorem SameBody.basicSize {m m' : ObjectMemory} {oop : ℕ} (h : SameBody m m' oop) :
    m'.basicSize oop = m.basicSize oop := by
  rcases h with h | ⟨hheader, -, hsize⟩
  · rw [ObjectMemory.basicSize, ObjectMemory.basicSize, if_pos h, if_pos h]
  · rw [ObjectMemory.basicSize, ObjectMemory.basicSize, hheader, hsize]

theorem SameBody.identityHash {m m' : ObjectMemory} {oop : ℕ} (h : SameBody m m' oop) :
    m'.identityHash oop = m.identityHash oop := by
  rcases h with h | ⟨hheader, -, -⟩
  · rw [ObjectMemory.identityHash, ObjectMemory.identityHash, if_pos h, if_pos h]
  · rw [ObjectMemory.identityHash, ObjectMemory.identityHash, hheader]

end ObjectMemory

/-! ### Keys -/

/-- A way of hashing and comparing keys: both functions depend on a content of the key that no
collection operation changes. `Stored` are the keys that may be in a collection, `Probed` those
that may be looked up. -/
structure KeyScheme (β : Type) where
  hash : ObjectMemory → ℕ → Option ℕ
  equals : ObjectMemory → ℕ → ℕ → Bool
  Probed : ObjectMemory → ℕ → Prop
  Stored : ObjectMemory → ℕ → Prop
  content : ObjectMemory → ℕ → β
  /-- The hash of a content. -/
  hashOf : ObjectMemory → β → ℕ
  probed_of_stored : ∀ {m k}, Stored m k → Probed m k
  hash_eq : ∀ {m k}, Probed m k → hash m k = some (hashOf m (content m k))
  equals_iff : ∀ {m a b}, Probed m a → Stored m b →
    (equals m a b = true ↔ content m a = content m b)
  probed_congr : ∀ {m m' k}, Probed m k → ObjectMemory.SameBody m m' k → Probed m' k
  stored_congr : ∀ {m m' k}, Stored m k → ObjectMemory.SameBody m m' k → Stored m' k
  content_congr : ∀ {m m' k}, Probed m k → ObjectMemory.SameBody m m' k →
    content m' k = content m k
  hashOf_congr : ∀ {m m' k}, Probed m k → ObjectMemory.SameBody m m' k →
    hashOf m' (content m k) = hashOf m (content m k)

namespace ObjectMemory

variable {m m' : ObjectMemory} {o : ℕ}

theorem IsByteString.congr (h : m.IsByteString o) (hb : SameBody m m' o) : m'.IsByteString o := by
  rcases hb with himm | ⟨hheader, -, -⟩
  · exact absurd h.1 himm
  · exact ⟨h.1, by rw [hheader]; exact h.2⟩

theorem IsByteSymbol.congr (h : m.IsByteSymbol o) (hb : SameBody m m' o) : m'.IsByteSymbol o := by
  rcases hb with himm | ⟨hheader, -, -⟩
  · exact absurd h.1 himm
  · exact ⟨h.1, by rw [hheader]; exact h.2⟩

theorem IsByteString.bytes_congr (h : m.IsByteString o) (hb : SameBody m m' o) :
    m'.bytes o = m.bytes o := by
  have hsize := hb.basicSize
  rcases hb with himm | ⟨-, hbyte, -⟩
  · exact absurd h.1 himm
  · rw [bytes, bytes, hsize, hbyte]

end ObjectMemory

/-- The comparison of a dictionary, which gets the stored key first. -/
def KeyScheme.storedEquals {β : Type} (K : KeyScheme β) (m : ObjectMemory)
    (stored key : ℕ) : Bool :=
  K.equals m key stored

/-- Byte strings by their contents; only symbols are stored. -/
def stringScheme : KeyScheme (List UInt8) where
  hash := ObjectMemory.stringHash
  equals := ObjectMemory.stringEquals
  Probed := ObjectMemory.IsByteString
  Stored := ObjectMemory.IsByteSymbol
  content := ObjectMemory.bytes
  hashOf _ := ObjectMemory.hashOfBytes
  probed_of_stored h := h.isByteString
  hash_eq h := ObjectMemory.stringHash_eq h
  equals_iff _ h := ObjectMemory.stringEquals_iff h
  probed_congr h := h.congr
  stored_congr h := h.congr
  content_congr h := h.bytes_congr
  hashOf_congr _ _ := rfl

/-- `slvm_identityHash`, as a hash function. -/
def identityHashFunction (m : ObjectMemory) (key : ℕ) : Option ℕ := some (m.identityHash key)

/-- The comparison of oops. -/
def identityEquals (_m : ObjectMemory) (first second : ℕ) : Bool := first == second

/-- All oops by identity. -/
def identityScheme : KeyScheme ℕ where
  hash := identityHashFunction
  equals m a b := identityEquals m b a
  Probed _ _ := True
  Stored _ _ := True
  content _ k := k
  hashOf m k := m.identityHash k
  probed_of_stored _ := trivial
  hash_eq _ := rfl
  equals_iff _ _ := beq_iff_eq.trans eq_comm
  probed_congr _ _ := trivial
  stored_congr _ _ := trivial
  content_congr _ _ := rfl
  hashOf_congr _ h := h.identityHash

/-- A hash function and an equality of oops that is an equivalence, equal oops hashing equally. -/
structure KeyFunctions where
  hash : ℕ → ℕ
  equals : ℕ → ℕ → Bool
  equivalence : Equivalence fun a b => equals a b = true
  hash_eq : ∀ a b, equals a b = true → hash a = hash b

namespace KeyFunctions

/-- The oops up to equality. -/
def setoid (F : KeyFunctions) : Setoid ℕ := ⟨fun a b => F.equals a b = true, F.equivalence⟩

instance (F : KeyFunctions) : DecidableEq (Quotient F.setoid) :=
  @Quotient.decidableEq _ _ fun a b => inferInstanceAs (Decidable (F.equals a b = true))

/-- The content of a key is its class. -/
def scheme (F : KeyFunctions) : KeyScheme (Quotient F.setoid) where
  hash _ k := some (F.hash k)
  equals _ key stored := F.equals stored key
  Probed _ _ := True
  Stored _ _ := True
  content _ k := Quotient.mk _ k
  hashOf _ := Quotient.lift F.hash F.hash_eq
  probed_of_stored _ := trivial
  hash_eq _ := rfl
  equals_iff := by
    intro m a b _ _
    constructor
    · intro h
      exact (Quotient.sound h).symm
    · intro h
      exact Quotient.exact h.symm
  probed_congr _ _ := trivial
  stored_congr _ _ := trivial
  content_congr _ _ := rfl
  hashOf_congr _ _ := rfl

/-- Equality modulo 64. -/
def modulo : KeyFunctions where
  hash k := k % 64
  equals a b := a % 64 == b % 64
  equivalence := by
    constructor
    · intro a
      exact beq_self_eq_true _
    · intro a b h
      rw [beq_iff_eq] at h ⊢
      exact h.symm
    · intro a b c h h'
      rw [beq_iff_eq] at h h' ⊢
      exact h.trans h'
  hash_eq := by simp

end KeyFunctions

namespace ObjectMemory

/-! ### Storing an element -/

/-- The stores of an insertion: the element goes into the array, and the tally is raised. -/
def storeElement (m : ObjectMemory) (collection index element : ℕ) : ObjectMemory :=
  (m.setSlot (m.slot collection Field.array) index element).setSlot collection Field.tally
    (m.slot collection Field.tally + encodeSmallIntegerOffset 1)

section Store

variable {m : ObjectMemory} {collection index element : ℕ}

theorem storeElement_collection (h : m.slot collection Field.array ≠ collection) {i : ℕ}
    (hi : i ≠ Field.tally) :
    (m.storeElement collection index element).slot collection i = m.slot collection i := by
  rw [storeElement, setSlot_slot_of_ne_index _ _ _ _ hi, setSlot_slot_of_ne _ _ _ _ h.symm]

theorem storeElement_array (h : m.slot collection Field.array ≠ collection) (i : ℕ) :
    (m.storeElement collection index element).slot (m.slot collection Field.array) i =
      Function.update (m.slot (m.slot collection Field.array)) index element i := by
  rw [storeElement, setSlot_slot_of_ne _ _ _ _ h, setSlot_slot_same]

theorem storeElement_of_ne {o : ℕ} (h : o ≠ collection)
    (harray : o ≠ m.slot collection Field.array) :
    (m.storeElement collection index element).slot o = m.slot o := by
  rw [storeElement, setSlot_slot_of_ne _ _ _ _ h, setSlot_slot_of_ne _ _ _ _ harray]

theorem storeElement_frame (L : ℕ) :
    Frame L {p | p.1 = collection ∨ p.1 = m.slot collection Field.array} m
      (m.storeElement collection index element) :=
  (Frame.setSlot L m (Or.inl (Or.inr rfl)) _).trans (Frame.setSlot L _ (Or.inl (Or.inl rfl)) _)

end Store

/-! ### The shape of a collection -/

/-- A hashed collection with an array of `n` elements and the tally `c`, both among the objects
`R` the collection owns. -/
structure HashedShape (m : ObjectMemory) (R : Set ℕ) (collection n c : ℕ) : Prop where
  mem : collection ∈ R
  lt_limit : collection < m.limit
  array_mem : m.slot collection Field.array ∈ R
  array_lt_limit : m.slot collection Field.array < m.limit
  array_ne : m.slot collection Field.array ≠ collection
  basicSize : m.basicSize (m.slot collection Field.array) = n
  tally : m.slot collection Field.tally = encodeSmallInteger c

namespace HashedShape

variable {m m' : ObjectMemory} {R R' : Set ℕ} {collection n c : ℕ}

/-- The collection grows when it is tiny or less than a quarter of it is free. -/
theorem fullCondition_iff (h : HashedShape m R collection n c) (hc : c ≤ n) :
    m.hashedCollectionFullCondition collection = true ↔ n < 4 ∨ n - c < n / 4 := by
  simp only [hashedCollectionFullCondition, h.basicSize, h.tally,
    decodeSmallInteger_encodeSmallInteger, unsignedSub_of_le 64 hc, Bool.or_eq_true,
    decide_eq_true_eq]

/-- A step that changes no cell of a region changes none of a collection in it. -/
theorem not_mem_cells (h : HashedShape m R collection n c) {F : Set (ℕ × ℕ)}
    (hF : ∀ p ∈ F, p.1 ∉ R) : ∀ p ∈ F, p.1 ≠ collection ∧ p.1 ≠ m.slot collection Field.array :=
  fun p hp => ⟨fun heq => hF p hp (heq ▸ h.mem), fun heq => hF p hp (heq ▸ h.array_mem)⟩

/-- A step that changes no cell of the collection. -/
theorem frame (h : HashedShape m R collection n c) {F : Set (ℕ × ℕ)}
    (hf : Frame m.limit F m m')
    (hF : ∀ p ∈ F, p.1 ≠ collection ∧ p.1 ≠ m.slot collection Field.array)
    (hR : ∀ o ∈ R, o < m.limit → o ∈ R') : HashedShape m' R' collection n c := by
  have hslot : ∀ i, m'.slot collection i = m.slot collection i := fun i =>
    hf.slot collection h.lt_limit i fun hmem => (hF _ hmem).1 rfl
  refine ⟨hR _ h.mem h.lt_limit, h.lt_limit.trans_le hf.limit_le, ?_, ?_, ?_, ?_, ?_⟩
  · rw [hslot]; exact hR _ h.array_mem h.array_lt_limit
  · rw [hslot]; exact h.array_lt_limit.trans_le hf.limit_le
  · rw [hslot]; exact h.array_ne
  · rw [hslot, hf.basicSize h.array_lt_limit]; exact h.basicSize
  · rw [hslot]; exact h.tally

theorem mono (h : HashedShape m R collection n c) (hR : R ⊆ R') :
    HashedShape m R' collection n c :=
  ⟨hR h.mem, h.lt_limit, hR h.array_mem, h.array_lt_limit, h.array_ne, h.basicSize, h.tally⟩

/-- The shape after an insertion. -/
theorem store (h : HashedShape m R collection n c) (index element : ℕ) :
    HashedShape (m.storeElement collection index element) R collection n (c + 1) := by
  have harray : (m.storeElement collection index element).slot collection Field.array =
      m.slot collection Field.array := storeElement_collection h.array_ne (by decide)
  refine ⟨h.mem, h.lt_limit, ?_, ?_, ?_, ?_, ?_⟩
  · rw [harray]; exact h.array_mem
  · rw [harray]; exact h.array_lt_limit
  · rw [harray]; exact h.array_ne
  · rw [harray]; exact h.basicSize
  · rw [storeElement, setSlot_slot_self, h.tally, encodeSmallInteger_add_offset]

end HashedShape

end ObjectMemory

end SlvmNative
