import SlvmNative.HashedCollections

/-!
# Comparing and hashing strings

`slvm_String_equals` and `slvm_String_hash` on the four kinds of strings. The hash is a fold of one
modular product over the elements, whatever their width. The comparison decides whether the first
string is a symbol from the class of the second one, so that it goes wrong on a symbol next to a
string and on a string next to a symbol of the other width.

## Main definitions

* `ObjectMemory.IsWideString`, `IsString` — the kinds of strings
* `ObjectMemory.SameContents` — strings of one width with the same elements
* `ObjectMemory.Confused` — the pairs of strings the comparison is wrong about

## Main results

* `stringHashStep_toNat` — one step of the hash is a product modulo `2 ^ 28`
* `ObjectMemory.stringHash_eq_fold` — the hashes of the four kinds of strings
* `ObjectMemory.stringEquals_iff_not_confused` — where the comparison is right
-/

namespace SlvmNative

/-! ### The hash -/

/-- One step of the hash: the product is formed from halves of 14 bits, so that none of its parts
overflows. -/
theorem stringHashStep_toNat (hash element : UInt32) :
    (stringHashStep hash element).toNat = (hash.toNat + element.toNat) * 1664525 % 2 ^ 28 := by
  have hlow : ∀ x : ℕ, x &&& 16383 = x % 16384 := fun x => Nat.and_two_pow_sub_one_eq_mod x 14
  have hmask : ∀ x : ℕ, x &&& 268435455 = x % 268435456 :=
    fun x => Nat.and_two_pow_sub_one_eq_mod x 28
  simp only [stringHashStep, UInt32.toNat_and, UInt32.toNat_add, UInt32.toNat_mul,
    UInt32.toNat_shiftRight, UInt32.toNat_ofNat, Nat.shiftRight_eq_div_pow, Nat.reducePow,
    Nat.reduceMod, hlow, hmask]
  -- the sum may have wrapped; its upper half has 18 bits
  generalize hx : (hash.toNat + element.toNat) % 4294967296 = x
  omega

/-- The fold the hash is meant to be. -/
def hashFold (elements : List ℕ) (initialHash : ℕ) : ℕ :=
  elements.foldl (fun h element => (h + element) * 1664525 % 2 ^ 28) (initialHash % 2 ^ 28)

theorem foldl_stringHashStep {α : Type*} (value : α → UInt32) (elements : List α) (hash : UInt32) :
    (elements.foldl (fun h a => stringHashStep h (value a)) hash).toNat =
      elements.foldl (fun h a => (h + (value a).toNat) * 1664525 % 2 ^ 28) hash.toNat := by
  induction elements generalizing hash with
  | nil => rfl
  | cons a elements ih => rw [List.foldl_cons, List.foldl_cons, ih, stringHashStep_toNat]

theorem initialHash_toNat (initialHash : UInt32) :
    (initialHash &&& 0xFFFFFFF).toNat = initialHash.toNat % 2 ^ 28 := by
  rw [UInt32.toNat_and]
  exact Nat.and_two_pow_sub_one_eq_mod _ 28

/-- **`slvm_ByteArrayData_stringHash`** is the fold over the bytes. -/
theorem byteArrayDataStringHash_toNat (data : List UInt8) (initialHash : UInt32) :
    (byteArrayDataStringHash data initialHash).toNat =
      hashFold (data.map UInt8.toNat) initialHash.toNat := by
  rw [byteArrayDataStringHash, foldl_stringHashStep, initialHash_toNat, hashFold, List.foldl_map]
  rfl

namespace ObjectMemory

/-- `slvm_CString_hash` -/
def cStringHash (cstring : List UInt8) : UInt32 :=
  byteArrayDataStringHash (cStringBytes cstring) initialStringHash

/-! ### Strings -/

/-- An object that is a wide string, symbol or not. -/
def IsWideString (m : ObjectMemory) (o : ℕ) : Prop :=
  oopIsPointers o ∧ ((m.header o).classIndex = KernelClass.WideString.index ∨
    (m.header o).classIndex = KernelClass.WideSymbol.index)

/-- An object that is a string. -/
def IsString (m : ObjectMemory) (o : ℕ) : Prop := m.IsByteString o ∨ m.IsWideString o

instance (m : ObjectMemory) (o : ℕ) : Decidable (m.IsByteString o) :=
  inferInstanceAs (Decidable (_ ∧ _))

instance (m : ObjectMemory) (o : ℕ) : Decidable (m.IsWideString o) :=
  inferInstanceAs (Decidable (_ ∧ _))

instance (m : ObjectMemory) (o : ℕ) : Decidable (m.IsString o) :=
  inferInstanceAs (Decidable (_ ∨ _))

variable {m m' : ObjectMemory} {o : ℕ}

/-- No string is of both widths. -/
theorem IsWideString.not_isByteString (h : m.IsWideString o) : ¬ m.IsByteString o := by
  rintro ⟨-, hbyte⟩
  rcases h.2 with hwide | hwide <;> rw [hwide] at hbyte <;> exact absurd hbyte (by decide)

theorem IsWideString.congr (h : m.IsWideString o) (hb : SameBody m m' o) : m'.IsWideString o := by
  rcases hb with himm | ⟨hheader, -, -⟩
  · exact absurd h.1 himm
  · exact ⟨h.1, by rw [hheader]; exact h.2⟩

theorem IsString.congr (h : m.IsString o) (hb : SameBody m m' o) : m'.IsString o :=
  h.imp (fun hbyte => hbyte.congr hb) fun hwide => hwide.congr hb

theorem IsString.pointers (h : m.IsString o) : oopIsPointers o := h.elim And.left And.left

/-- The 32-bit units of a wide string. -/
def units (m : ObjectMemory) (o : ℕ) : List UInt32 :=
  (List.range (m.basicSize o)).map (m.wideUnit o)

theorem wideStringEquals_iff (m : ObjectMemory) (first second : ℕ) :
    m.wideStringEquals first second = true ↔ m.units first = m.units second := by
  rw [wideStringEquals, Bool.and_eq_true, beq_iff_eq, List.all_eq_true]
  constructor
  · rintro ⟨hsize, hunits⟩
    rw [units, units, ← hsize]
    exact List.map_congr_left fun i hi => beq_iff_eq.mp (hunits i hi)
  · intro h
    have hsize : m.basicSize first = m.basicSize second := by
      simpa [units] using congrArg List.length h
    refine ⟨hsize, fun i hi => beq_iff_eq.mpr ?_⟩
    have hget := congrArg (fun l => l[i]?) h
    simpa [units, List.mem_range.mp hi, ← hsize] using hget

/-- **`slvm_WideString_hash`** is the fold over the units. -/
theorem wideStringHash_toNat (m : ObjectMemory) (o : ℕ) (initialHash : UInt32) :
    (m.wideStringHash o initialHash).toNat =
      hashFold ((m.units o).map UInt32.toNat) initialHash.toNat := by
  have hfold := foldl_stringHashStep id (m.units o) (initialHash &&& 0xFFFFFFF)
  rw [initialHash_toNat] at hfold
  rw [hashFold, List.foldl_map]
  exact hfold

/-- The hash of a byte string. -/
theorem stringHash_of_isByteString (h : m.IsByteString o) :
    m.stringHash o = some (hashFold ((m.bytes o).map UInt8.toNat) initialStringHash.toNat) := by
  rw [stringHash_eq h, hashOfBytes, byteArrayDataStringHash_toNat]

/-- The hash of a wide string, which starts like that of a byte string. -/
theorem stringHash_of_isWideString (h : m.IsWideString o) :
    m.stringHash o = some (hashFold ((m.units o).map UInt32.toNat) initialStringHash.toNat) := by
  have hbyte : ¬ ((m.header o).classIndex = KernelClass.ByteString.index ∨
      (m.header o).classIndex = KernelClass.ByteSymbol.index) :=
    fun hclass => h.not_isByteString ⟨h.1, hclass⟩
  rw [stringHash]
  simp only [if_neg hbyte, if_pos h.2, wideStringHash_toNat]

/-- **The hashes of strings.** Each is the fold of one modular product over the elements, starting
from the initial value modulo `2 ^ 28`; a C string hashes like the byte string and the byte symbol
with its bytes, and a wide string whose units are bytes like the byte string with the same ones. -/
theorem stringHash_eq_fold :
    (∀ data initialHash, (byteArrayDataStringHash data initialHash).toNat =
      hashFold (data.map UInt8.toNat) initialHash.toNat) ∧
      (∀ (m : ObjectMemory) (o : ℕ) (initialHash : UInt32), (m.wideStringHash o initialHash).toNat =
        hashFold ((m.units o).map UInt32.toNat) initialHash.toNat) ∧
      (∀ (m : ObjectMemory) (o : ℕ) (cstring : List UInt8), m.IsByteString o →
        m.bytes o = cStringBytes cstring → m.stringHash o = some (cStringHash cstring).toNat) ∧
      ∀ (m : ObjectMemory) (o p : ℕ), m.IsWideString o → m.IsByteString p →
        (m.units o).map UInt32.toNat = (m.bytes p).map UInt8.toNat →
        m.stringHash o = m.stringHash p := by
  refine ⟨byteArrayDataStringHash_toNat, wideStringHash_toNat, fun m o cstring ho hbytes => ?_,
    fun m o p ho hp hunits => ?_⟩
  · rw [stringHash_eq ho, hbytes]
    rfl
  · rw [stringHash_of_isWideString ho, stringHash_of_isByteString hp, hunits]

/-- The byte symbol, the byte string and the wide string `a`, one after the other. -/
def letterStrings : ObjectMemory where
  forwardingWord _ := 0
  sizeWord _ := 0
  header a :=
    if a = 8 then ObjectHeader.ofFields KernelClass.ByteSymbol.index
      (ObjectFormat.indexable8 + 7) 0 1
    else if a = 40 then
      ObjectHeader.ofFields KernelClass.ByteString.index (ObjectFormat.indexable8 + 7) 0 1
    else ObjectHeader.ofFields KernelClass.WideString.index (ObjectFormat.indexable32 + 1) 0 1
  slot _ _ := 0
  byte _ i := if i = 0 then 97 else 0
  heapStart := 0
  heapSize := 96
  heapStart_aligned := rfl

theorem stringHash_eq_fold_letterStrings :
    (byteArrayDataStringHash [97] 80).toNat = hashFold [97] 80 ∧
      letterStrings.stringHash 8 = some (cStringHash [97]).toNat ∧
      letterStrings.stringHash 40 = some (cStringHash [97]).toNat ∧
      letterStrings.stringHash 72 = letterStrings.stringHash 40 := by
  obtain ⟨hbytes, -, hcstring, hwide⟩ := stringHash_eq_fold
  exact ⟨hbytes [97] 80, hcstring letterStrings 8 [97] (by decide) (by decide),
    hcstring letterStrings 40 [97] (by decide) (by decide),
    hwide letterStrings 72 40 (by decide) (by decide) (by decide)⟩

/-! ### The comparison -/

/-- Strings of one width with the same elements. -/
def SameContents (m : ObjectMemory) (first second : ℕ) : Prop :=
  m.IsByteString first ∧ m.IsByteString second ∧ m.bytes first = m.bytes second ∨
    m.IsWideString first ∧ m.IsWideString second ∧ m.units first = m.units second

/-- The pairs of strings the comparison is wrong about: a symbol with a string of its contents, and
a string with a symbol of the other width that its body, read with the width of the symbol, begins
with. -/
def Confused (m : ObjectMemory) (first second : ℕ) : Prop :=
  first ≠ second ∧
    ((m.header first).classIndex = KernelClass.ByteSymbol.index ∧
        (m.header second).classIndex = KernelClass.ByteString.index ∧
        m.bytes first = m.bytes second ∨
      (m.header first).classIndex = KernelClass.WideSymbol.index ∧
        (m.header second).classIndex = KernelClass.WideString.index ∧
        m.units first = m.units second ∨
      m.IsWideString first ∧ (m.header second).classIndex = KernelClass.ByteSymbol.index ∧
        m.bytes first = m.bytes second ∨
      m.IsByteString first ∧ (m.header second).classIndex = KernelClass.WideSymbol.index ∧
        m.units first = m.units second)

instance (m : ObjectMemory) (first second : ℕ) : Decidable (m.SameContents first second) :=
  inferInstanceAs (Decidable (_ ∨ _))

instance (m : ObjectMemory) (first second : ℕ) : Decidable (m.Confused first second) :=
  inferInstanceAs (Decidable (_ ∧ _))

/-- What the comparison of different strings tests, by the class of the second one. -/
theorem stringEquals_of_ne {first second : ℕ} (hne : first ≠ second) (hs : m.IsString second) :
    m.stringEquals first second = true ↔
      (m.header second).classIndex = KernelClass.ByteSymbol.index ∧ m.bytes first = m.bytes second ∨
      (m.header second).classIndex = KernelClass.ByteString.index ∧
        (m.header first).classIndex = KernelClass.ByteString.index ∧
        m.bytes first = m.bytes second ∨
      (m.header second).classIndex = KernelClass.WideSymbol.index ∧ m.units first = m.units second ∨
      (m.header second).classIndex = KernelClass.WideString.index ∧
        (m.header first).classIndex = KernelClass.WideString.index ∧
        m.units first = m.units second := by
  rw [stringEquals, if_neg hne]
  rcases hs with ⟨-, hclass | hclass⟩ | ⟨-, hclass | hclass⟩
  · simp +decide [hclass, byteStringEquals_iff]
  · simp +decide [hclass, byteStringEquals_iff]
  · simp +decide [hclass, wideStringEquals_iff]
  · simp +decide [hclass, wideStringEquals_iff]

theorem SameContents.refl (h : m.IsString o) : m.SameContents o o :=
  h.imp (fun hbyte => ⟨hbyte, hbyte, rfl⟩) fun hwide => ⟨hwide, hwide, rfl⟩

/-- Strings with the same contents have one hash. -/
theorem SameContents.stringHash_eq {first second : ℕ} (h : m.SameContents first second) :
    m.stringHash first = m.stringHash second := by
  rcases h with ⟨hfirst, hsecond, hbytes⟩ | ⟨hfirst, hsecond, hunits⟩
  · rw [ObjectMemory.stringHash_eq hfirst, ObjectMemory.stringHash_eq hsecond, hbytes]
  · rw [stringHash_of_isWideString hfirst, stringHash_of_isWideString hsecond, hunits]

/-- **Where the comparison is right.** Two strings are found equal just in case they are of one
width and have the same elements, and only if they have one hash, unless they are confused. -/
theorem stringEquals_iff_not_confused {first second : ℕ} (hfirst : m.IsString first)
    (hsecond : m.IsString second) :
    ((m.stringEquals first second = true ↔ m.SameContents first second) ∧
        (m.stringEquals first second = true → m.stringHash first = m.stringHash second)) ↔
      ¬ m.Confused first second := by
  have hhash : ((m.stringEquals first second = true ↔ m.SameContents first second) ∧
      (m.stringEquals first second = true → m.stringHash first = m.stringHash second)) ↔
      (m.stringEquals first second = true ↔ m.SameContents first second) :=
    and_iff_left_of_imp fun hiff hequals => (hiff.mp hequals).stringHash_eq
  rw [hhash]
  by_cases heq : first = second
  · subst heq
    simp [stringEquals, SameContents.refl hfirst, Confused]
  · rw [stringEquals_of_ne heq hsecond]
    -- the pairs of classes
    rcases hfirst with ⟨hp, hfirst | hfirst⟩ | ⟨hp, hfirst | hfirst⟩ <;>
      rcases hsecond with ⟨hq, hsecond | hsecond⟩ | ⟨hq, hsecond | hsecond⟩ <;>
      simp +decide [SameContents, Confused, IsByteString, IsWideString, heq, hp, hq,
        hfirst, hsecond]

/-- The string compared with the symbol. -/
theorem stringEquals_iff_not_confused_symbol :
    (letterStrings.stringEquals 40 8 = true ↔ letterStrings.SameContents 40 8) ∧
      (letterStrings.stringEquals 40 8 = true →
        letterStrings.stringHash 40 = letterStrings.stringHash 8) :=
  (stringEquals_iff_not_confused (by decide) (by decide)).mpr (by decide)

/-- The symbol compared with the string: they have the same contents, but are not found equal. -/
theorem stringEquals_letterStrings :
    letterStrings.IsString 8 ∧ letterStrings.IsString 40 ∧
      ¬ (letterStrings.stringEquals 8 40 = true ↔ letterStrings.SameContents 8 40) := by
  decide

end ObjectMemory

end SlvmNative
