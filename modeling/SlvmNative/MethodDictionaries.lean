import SlvmNative.Dictionaries

/-!
# Method dictionaries

`SLVM_MethodDictionary`: selectors in one array and methods in another one, under the same index. A
slot is free when its selector is nil; its method is nil then, which is why looking up an unbound
selector can return the slot unseen.

## Main definitions

* `ObjectMemory.methodDictionaryAtPut`, `methodDictionaryAtOrNil`, `methodDictionaryNew`
* `ObjectMemory.MethodDictionaryValid` — the dictionary stands for a map from selectors to methods

## Main results

* `ObjectMemory.MethodDictionaryValid.atOrNil` — looking up a selector
* `ObjectMemory.MethodDictionaryValid.atPut` — binding a selector
* `ObjectMemory.methodDictionaryNew_spec` — a new dictionary is empty
-/

namespace SlvmNative

open LinearProbing

namespace ObjectMemory

variable [KernelImage]

/-! ### The operations -/

/-- `slvm_MethodDictionary_newWithCapacity` -/
def methodDictionaryNewWithCapacity (m : ObjectMemory) (n : ℕ) : Option (ℕ × ObjectMemory) := do
  let (result, m) ← m.dictionaryNewWithCapacity (kernelClass .MethodDictionary) n
  let (keys, m) ← m.kernelNew .Array n
  return (result, m.setSlot result Field.keys keys)

/-- `slvm_MethodDictionary_new` -/
def methodDictionaryNew (m : ObjectMemory) : Option (ℕ × ObjectMemory) :=
  m.methodDictionaryNewWithCapacity 5

/-- `slvm_MethodDictionary_scanFor`: the index found, or nothing for -1. -/
def methodDictionaryScanFor (m : ObjectMemory) (dictionary key : ℕ) : Option ℕ :=
  let array := m.slot dictionary Field.keys
  let arraySize := m.basicSize array
  if arraySize = 0 then none
  else probe arraySize (m.identityHash key % arraySize) fun index =>
    let element := m.slot array index
    element == nilOop || element == key

/-- `slvm_MethodDictionary_grow`, with the function that puts an element again. -/
def methodDictionaryGrow (m : ObjectMemory) (dictionary : ℕ)
    (atPut : ObjectMemory → ℕ → ℕ → Option ObjectMemory) : Option ObjectMemory := do
  -- duplicate the dictionary capacity
  let oldValues := m.slot dictionary Field.array
  let oldKeys := m.slot dictionary Field.keys
  let arraySize := m.basicSize oldKeys
  let m := m.setSlot dictionary Field.tally (encodeSmallInteger 0)
  let (array, m) ← m.kernelNew .Array (doubledArraySize arraySize)
  let m := m.setSlot dictionary Field.array array
  let (keys, m) ← m.kernelNew .Array (doubledArraySize arraySize)
  let m := m.setSlot dictionary Field.keys keys
  -- reinsert the elements
  (List.range arraySize).foldlM (fun m i =>
    let element := m.slot oldKeys i
    if element = nilOop then some m else atPut m element (m.slot oldValues i)) m

/-- The stores of an insertion. -/
def storeMethod (m : ObjectMemory) (dictionary index key value : ℕ) : ObjectMemory :=
  let m := m.setSlot (m.slot dictionary Field.keys) index key
  let m := m.setSlot (m.slot dictionary Field.array) index value
  m.setSlot dictionary Field.tally (m.slot dictionary Field.tally + encodeSmallIntegerOffset 1)

/-- The recursion of `slvm_MethodDictionary_atPut`, with a bound on its depth. -/
def methodDictionaryAtPutLoop (dictionary : ℕ) :
    ℕ → ObjectMemory → ℕ → ℕ → Option ObjectMemory
  | 0, _, _, _ => none
  | fuel + 1, m, key, value =>
    if dictionary = nilOop then none
    else
      match m.methodDictionaryScanFor dictionary key with
      | none => do
        let m ← m.methodDictionaryGrow dictionary (methodDictionaryAtPutLoop dictionary fuel)
        methodDictionaryAtPutLoop dictionary fuel m key value
      | some index =>
        if m.slot (m.slot dictionary Field.keys) index = nilOop then
          let m := m.storeMethod dictionary index key value
          if m.hashedCollectionFullCondition dictionary then
            m.methodDictionaryGrow dictionary (methodDictionaryAtPutLoop dictionary fuel)
          else some m
        else some (m.setSlot (m.slot dictionary Field.array) index value)

/-- `slvm_MethodDictionary_atPut` -/
def methodDictionaryAtPut (m : ObjectMemory) (dictionary key value : ℕ) : Option ObjectMemory :=
  methodDictionaryAtPutLoop dictionary 2 m key value

/-- `slvm_MethodDictionary_atOrNil` -/
def methodDictionaryAtOrNil (m : ObjectMemory) (dictionary key : ℕ) : Option ℕ :=
  if dictionary = nilOop then none
  else
    match m.methodDictionaryScanFor dictionary key with
    | none => some nilOop
    | some index => some (m.slot (m.slot dictionary Field.array) index)

/-! ### The invariant -/

/-- The two arrays of a method dictionary as one table. -/
def methodTable (m : ObjectMemory) (dictionary i : ℕ) : Option (ℕ × ℕ) :=
  let element := m.slot (m.slot dictionary Field.keys) i
  if element = nilOop then none
  else some (element, m.slot (m.slot dictionary Field.array) i)

/-- A method dictionary of `n` slots and `c` methods that stands for the map `f`. -/
structure MethodDictionaryValid (m : ObjectMemory) (R : Set ℕ) (dictionary n c : ℕ)
    (f : ℕ → Option ℕ) : Prop where
  shape : HashedShape m R dictionary n c
  ne_nilOop : dictionary ≠ nilOop
  keys_mem : m.slot dictionary Field.keys ∈ R
  keys_lt_limit : m.slot dictionary Field.keys < m.limit
  keys_ne : m.slot dictionary Field.keys ≠ dictionary
  keys_ne_array : m.slot dictionary Field.keys ≠ m.slot dictionary Field.array
  keys_basicSize : m.basicSize (m.slot dictionary Field.keys) = n
  occupied_eq : occupied n (methodTable m dictionary) = c
  /-- The method in a free slot is nil. -/
  free : ∀ i < n, methodTable m dictionary i = none →
    m.slot (m.slot dictionary Field.array) i = nilOop
  live : ∀ i < n, ∀ k v, methodTable m dictionary i = some (k, v) → m.Live k
  represents : Represents n (fun k => m.identityHash k % n) (methodTable m dictionary) f

theorem methodTable_eq_none {m : ObjectMemory} {dictionary i : ℕ} :
    methodTable m dictionary i = none ↔ m.slot (m.slot dictionary Field.keys) i = nilOop := by
  simp [methodTable]

theorem methodTable_eq_some {m : ObjectMemory} {dictionary i k v : ℕ} :
    methodTable m dictionary i = some (k, v) ↔ m.slot (m.slot dictionary Field.keys) i = k ∧
      k ≠ nilOop ∧ m.slot (m.slot dictionary Field.array) i = v := by
  simp only [methodTable]
  split
  · rename_i h
    constructor
    · intro h'
      cases h'
    · rintro ⟨rfl, hne, -⟩
      exact absurd h hne
  · rename_i h
    constructor
    · intro h'
      obtain ⟨rfl, hv⟩ := Prod.mk.inj (Option.some.inj h')
      exact ⟨rfl, h, hv⟩
    · rintro ⟨rfl, -, rfl⟩
      rfl

/-- The table depends on the two arrays only. -/
theorem methodTable_congr {m m' : ObjectMemory} {dictionary i : ℕ}
    (hkeys : m'.slot (m'.slot dictionary Field.keys) i = m.slot (m.slot dictionary Field.keys) i)
    (harray : m'.slot (m'.slot dictionary Field.array) i =
      m.slot (m.slot dictionary Field.array) i) :
    methodTable m' dictionary i = methodTable m dictionary i := by
  rw [methodTable, methodTable, hkeys, harray]

namespace MethodDictionaryValid

variable {m m' : ObjectMemory} {R R' : Set ℕ} {dictionary n c key value : ℕ} {f : ℕ → Option ℕ}

theorem tally_le (h : MethodDictionaryValid m R dictionary n c f) : c ≤ n := by
  rw [← h.occupied_eq]
  exact occupied_le _ _

theorem mono (h : MethodDictionaryValid m R dictionary n c f) (hR : R ⊆ R') :
    MethodDictionaryValid m R' dictionary n c f :=
  { h with shape := h.shape.mono hR, keys_mem := hR h.keys_mem }

/-- The test of the scan accepts what it should. -/
theorem accepts (m : ObjectMemory) (dictionary n key : ℕ) :
    Accepts n Eq (methodTable m dictionary) key fun index =>
      m.slot (m.slot dictionary Field.keys) index == nilOop ||
        m.slot (m.slot dictionary Field.keys) index == key := by
  intro i _
  cases htable : methodTable m dictionary i with
  | none => simp [methodTable_eq_none.mp htable]
  | some entry =>
    obtain ⟨k, v⟩ := entry
    obtain ⟨hslot, hne, -⟩ := methodTable_eq_some.mp htable
    simp [hslot, hne]

/-- The scan is a probe of the table. -/
theorem scanFor_eq (h : MethodDictionaryValid m R dictionary n c f) (hpos : 0 < n) (key : ℕ) :
    m.methodDictionaryScanFor dictionary key =
      probe n (m.identityHash key % n) fun index =>
        m.slot (m.slot dictionary Field.keys) index == nilOop ||
          m.slot (m.slot dictionary Field.keys) index == key := by
  simp only [methodDictionaryScanFor, h.keys_basicSize, if_neg hpos.ne']

/-- **Scanning for a bound selector** finds its slot. -/
theorem scanFor_of_some (h : MethodDictionaryValid m R dictionary n c f)
    (hf : f key = some value) :
    ∃ i < n, m.methodDictionaryScanFor dictionary key = some i ∧
      methodTable m dictionary i = some (key, value) := by
  have hpos : 0 < n := by
    obtain ⟨i, hi, -⟩ := (h.represents.maps key value).mpr hf
    exact Nat.zero_lt_of_lt hi
  obtain ⟨i, hi, hprobe, ht⟩ :=
    h.represents.probe_of_some hf (accepts m dictionary n key) (Nat.mod_lt _ hpos)
  exact ⟨i, hi, by rw [h.scanFor_eq hpos, hprobe], ht⟩

/-- **Scanning for an unbound selector** finds the slot it belongs in, if there is a free one. -/
theorem scanFor_of_none (h : MethodDictionaryValid m R dictionary n c f) (hroom : c < n)
    (hf : f key = none) :
    ∃ i < n, m.methodDictionaryScanFor dictionary key = some i ∧
      methodTable m dictionary i = none ∧
      Reached n (methodTable m dictionary) (m.identityHash key % n) i := by
  have hhole := exists_hole (h.occupied_eq ▸ hroom)
  have hpos : 0 < n := Nat.zero_lt_of_lt hroom
  obtain ⟨i, hi, hprobe, ht, hreached⟩ :=
    h.represents.probe_of_none hf (accepts m dictionary n key) (Nat.mod_lt _ hpos) hhole
  exact ⟨i, hi, by rw [h.scanFor_eq hpos, hprobe], ht, hreached⟩

/-- **`slvm_MethodDictionary_atOrNil`** -/
theorem atOrNil (h : MethodDictionaryValid m R dictionary n c f) (hroom : c < n) (key : ℕ) :
    m.methodDictionaryAtOrNil dictionary key = some ((f key).getD nilOop) := by
  rw [methodDictionaryAtOrNil, if_neg h.ne_nilOop]
  cases hf : f key with
  | none =>
    obtain ⟨i, hi, hscan, ht, -⟩ := h.scanFor_of_none hroom hf
    rw [hscan]
    exact congrArg some (h.free i hi ht)
  | some v =>
    obtain ⟨i, -, hscan, ht⟩ := h.scanFor_of_some hf
    rw [hscan]
    exact congrArg some (methodTable_eq_some.mp ht).2.2

/-- **The dictionary survives a step** that changes no cell of its region. -/
theorem frame (h : MethodDictionaryValid m R dictionary n c f) {F : Set (ℕ × ℕ)}
    (hf : Frame m.limit F m m') (hF : ∀ p ∈ F, p.1 ∉ R) (hR : ∀ o ∈ R, o < m.limit → o ∈ R') :
    MethodDictionaryValid m' R' dictionary n c f := by
  have hdictionary : ∀ i, m'.slot dictionary i = m.slot dictionary i := fun i =>
    hf.slot dictionary h.shape.lt_limit i fun hmem => hF _ hmem h.shape.mem
  have harray : ∀ i, m'.slot (m.slot dictionary Field.array) i =
      m.slot (m.slot dictionary Field.array) i := fun i =>
    hf.slot _ h.shape.array_lt_limit i fun hmem => hF _ hmem h.shape.array_mem
  have hkeys : ∀ i, m'.slot (m.slot dictionary Field.keys) i =
      m.slot (m.slot dictionary Field.keys) i := fun i =>
    hf.slot _ h.keys_lt_limit i fun hmem => hF _ hmem h.keys_mem
  have htable : ∀ i < n, methodTable m' dictionary i = methodTable m dictionary i := by
    intro i _
    apply methodTable_congr
    · rw [hdictionary, hkeys]
    · rw [hdictionary, harray]
  refine ⟨h.shape.frame hf (h.shape.not_mem_cells hF) hR, h.ne_nilOop, ?_, ?_, ?_, ?_, ?_,
    ?_, fun i hi ht => ?_, fun i hi k v ht => ?_, ?_⟩
  · rw [hdictionary]; exact hR _ h.keys_mem h.keys_lt_limit
  · rw [hdictionary]; exact h.keys_lt_limit.trans_le hf.limit_le
  · rw [hdictionary]; exact h.keys_ne
  · rw [hdictionary, hdictionary]; exact h.keys_ne_array
  · rw [hdictionary, hf.basicSize h.keys_lt_limit]; exact h.keys_basicSize
  · rw [occupied_congr htable]
    exact h.occupied_eq
  · rw [hdictionary, harray]
    exact h.free i hi (by rw [← htable i hi, ht])
  · rw [htable i hi] at ht
    exact hf.live (h.live i hi k v ht)
  · refine (h.represents.congr_home ?_).congr htable
    rintro i hi ⟨k, v⟩ ht
    exact congrArg (· % n) (hf.sameBody (h.live i hi k v ht)).identityHash

end MethodDictionaryValid

/-! ### Storing a method -/

/-- The step from `m` to `m'` put a selector and a method at an index of the arrays of a method
dictionary, and changed no other object but the dictionary itself. -/
structure MethodStoredAt (m : ObjectMemory) (dictionary index key value : ℕ) (m' : ObjectMemory) :
    Prop where
  array : m'.slot dictionary Field.array = m.slot dictionary Field.array
  keys : m'.slot dictionary Field.keys = m.slot dictionary Field.keys
  key : m'.slot (m.slot dictionary Field.keys) =
    Function.update (m.slot (m.slot dictionary Field.keys)) index key
  value : m'.slot (m.slot dictionary Field.array) =
    Function.update (m.slot (m.slot dictionary Field.array)) index value
  header : m'.header = m.header
  sizeWord : m'.sizeWord = m.sizeWord
  limit : m'.limit = m.limit

section MethodStoredAt

variable {m m' : ObjectMemory} {R : Set ℕ} {dictionary n c c' index key value : ℕ}
  {f g : ℕ → Option ℕ}

omit [KernelImage] in
theorem storeMethod_storedAt (harray : m.slot dictionary Field.array ≠ dictionary)
    (hkeys : m.slot dictionary Field.keys ≠ dictionary)
    (hne : m.slot dictionary Field.keys ≠ m.slot dictionary Field.array) :
    MethodStoredAt m dictionary index key value (m.storeMethod dictionary index key value) := by
  have hslot : (m.setSlot (m.slot dictionary Field.keys) index key).slot dictionary =
      m.slot dictionary := setSlot_slot_of_ne _ _ _ _ hkeys.symm
  refine ⟨?_, ?_, ?_, ?_, rfl, rfl, rfl⟩
  · rw [storeMethod, setSlot_slot_of_ne_index _ _ _ _ (by decide), hslot,
      setSlot_slot_of_ne _ _ _ _ harray.symm, hslot]
  · rw [storeMethod, setSlot_slot_of_ne_index _ _ _ _ (by decide), hslot,
      setSlot_slot_of_ne _ _ _ _ harray.symm, hslot]
  · rw [storeMethod, setSlot_slot_of_ne _ _ _ _ hkeys, hslot, setSlot_slot_of_ne _ _ _ _ hne,
      setSlot_slot_same]
  · rw [storeMethod, setSlot_slot_of_ne _ _ _ _ harray, hslot, setSlot_slot_same,
      setSlot_slot_of_ne _ _ _ _ hne.symm]

omit [KernelImage] in
theorem storeMethod_frame (L : ℕ) (hkeys : m.slot dictionary Field.keys ≠ dictionary) :
    Frame L {p | p.1 = dictionary ∨ p.1 = m.slot dictionary Field.array ∨
      p.1 = m.slot dictionary Field.keys} m (m.storeMethod dictionary index key value) := by
  have hslot : (m.setSlot (m.slot dictionary Field.keys) index key).slot dictionary =
      m.slot dictionary := setSlot_slot_of_ne _ _ _ _ hkeys.symm
  rw [storeMethod, hslot]
  exact ((Frame.setSlot L m (Or.inl (Or.inr (Or.inr rfl))) _).trans
    (Frame.setSlot L _ (Or.inl (Or.inr (Or.inl rfl))) _)).trans
    (Frame.setSlot L _ (Or.inl (Or.inl rfl)) _)

omit [KernelImage] in
theorem MethodStoredAt.sameBody (h : MethodStoredAt m dictionary index key value m') (o : ℕ) :
    m'.basicSize o = m.basicSize o ∧ m'.identityHash o = m.identityHash o := by
  simp only [basicSize, identityHash, h.header, h.sizeWord, and_self]

/-- The table after a store. -/
theorem MethodStoredAt.table (h : MethodStoredAt m dictionary index key value m')
    (hkey : key ≠ nilOop) :
    methodTable m' dictionary =
      Function.update (methodTable m dictionary) index (some (key, value)) := by
  funext i
  by_cases hi : i = index
  · subst hi
    rw [Function.update_self, methodTable_eq_some, h.keys, h.array, h.key, h.value,
      Function.update_self, Function.update_self]
    exact ⟨rfl, hkey, rfl⟩
  · rw [Function.update_of_ne hi]
    apply methodTable_congr
    · rw [h.keys, h.key, Function.update_of_ne hi]
    · rw [h.array, h.value, Function.update_of_ne hi]

/-- A method dictionary after a selector was bound in the slot it belongs in. -/
theorem MethodDictionaryValid.storedAt (hd : MethodDictionaryValid m R dictionary n c f)
    (h : MethodStoredAt m dictionary index key value m') (hkey : key ≠ nilOop) (hlive : m.Live key)
    (htally : m'.slot dictionary Field.tally = encodeSmallInteger c')
    (hoccupied : occupied n (Function.update (methodTable m dictionary) index (some (key, value))) =
      c')
    (hupdate : Represents n (fun k => m.identityHash k % n)
      (Function.update (methodTable m dictionary) index (some (key, value))) g) :
    MethodDictionaryValid m' R dictionary n c' g := by
  have hshape := hd.shape
  refine ⟨⟨hshape.mem, ?_, ?_, ?_, ?_, ?_, htally⟩, hd.ne_nilOop, ?_, ?_, ?_, ?_, ?_, ?_,
    fun i hi ht => ?_, fun i hi k v ht => ?_, ?_⟩
  · rw [h.limit]; exact hshape.lt_limit
  · rw [h.array]; exact hshape.array_mem
  · rw [h.array, h.limit]; exact hshape.array_lt_limit
  · rw [h.array]; exact hshape.array_ne
  · rw [h.array, (h.sameBody _).1]; exact hshape.basicSize
  · rw [h.keys]; exact hd.keys_mem
  · rw [h.keys, h.limit]; exact hd.keys_lt_limit
  · rw [h.keys]; exact hd.keys_ne
  · rw [h.keys, h.array]; exact hd.keys_ne_array
  · rw [h.keys, (h.sameBody _).1]; exact hd.keys_basicSize
  · rw [h.table hkey]; exact hoccupied
  · rw [h.table hkey] at ht
    by_cases hindex : i = index
    · rw [hindex, Function.update_self] at ht
      cases ht
    · rw [Function.update_of_ne hindex] at ht
      rw [h.array, h.value, Function.update_of_ne hindex]
      exact hd.free i hi ht
  · rw [h.table hkey] at ht
    by_cases hindex : i = index
    · rw [hindex, Function.update_self] at ht
      obtain ⟨rfl, -⟩ := Prod.mk.inj (Option.some.inj ht)
      exact hlive.imp_right fun hlt => h.limit ▸ hlt
    · rw [Function.update_of_ne hindex] at ht
      exact (hd.live i hi k v ht).imp_right fun hlt => h.limit ▸ hlt
  · rw [h.table hkey]
    exact hupdate.congr_home fun i _ e _ => congrArg (· % n) (h.sameBody e.1).2

/-- Binding a new selector in the slot it belongs in. -/
theorem MethodDictionaryValid.storeMethod (hd : MethodDictionaryValid m R dictionary n c f)
    (hkey : key ≠ nilOop) (hlive : m.Live key) (hf : f key = none) (hindex : index < n)
    (hslot : methodTable m dictionary index = none)
    (hreached : Reached n (methodTable m dictionary) (m.identityHash key % n) index) (value : ℕ) :
    MethodDictionaryValid (m.storeMethod dictionary index key value) R dictionary n (c + 1)
      (Function.update f key (some value)) := by
  refine hd.storedAt (storeMethod_storedAt hd.shape.array_ne hd.keys_ne hd.keys_ne_array) hkey
    hlive ?_ ?_ (hd.represents.update hindex value (Or.inl ⟨hslot, hf, hreached⟩))
  · rw [ObjectMemory.storeMethod, setSlot_slot_self, setSlot_slot_of_ne _ _ _ _ (by
      rw [setSlot_slot_of_ne _ _ _ _ hd.keys_ne.symm]
      exact hd.shape.array_ne.symm), setSlot_slot_of_ne _ _ _ _ hd.keys_ne.symm, hd.shape.tally,
      encodeSmallInteger_add_offset]
  · rw [occupied_update_of_none hindex hslot, hd.occupied_eq]

/-- Replacing the method of a selector. -/
theorem MethodDictionaryValid.replaceMethod (hd : MethodDictionaryValid m R dictionary n c f)
    (hindex : index < n) {old : ℕ} (hslot : methodTable m dictionary index = some (key, old))
    (value : ℕ) :
    MethodDictionaryValid (m.setSlot (m.slot dictionary Field.array) index value) R dictionary n c
      (Function.update f key (some value)) := by
  obtain ⟨hk, hkey, -⟩ := methodTable_eq_some.mp hslot
  have hslots : (m.setSlot (m.slot dictionary Field.array) index value).slot dictionary =
      m.slot dictionary := setSlot_slot_of_ne _ _ _ _ hd.shape.array_ne.symm
  have hstored : MethodStoredAt m dictionary index key value
      (m.setSlot (m.slot dictionary Field.array) index value) := by
    refine ⟨by rw [hslots], by rw [hslots], ?_, setSlot_slot_same _ _ _ _, rfl, rfl, rfl⟩
    rw [setSlot_slot_of_ne _ _ _ _ hd.keys_ne_array, ← hk, Function.update_eq_self]
  refine hd.storedAt hstored hkey (hd.live index hindex key old hslot) ?_ ?_
    (hd.represents.update hindex value (Or.inr ⟨old, hslot⟩))
  · rw [hslots, hd.shape.tally]
  · rw [occupied_update_of_some hslot, hd.occupied_eq]

end MethodStoredAt

/-! ### Growing -/

namespace MethodDictionaryValid

variable {m : ObjectMemory} {R : Set ℕ} {dictionary n c key : ℕ} {f : ℕ → Option ℕ}

/-- Half way through the reinsertion loop of `slvm_MethodDictionary_grow`, which began in the
memory `m` with the new arrays of `n'` slots. -/
structure Regrown (m : ObjectMemory) (R : Set ℕ) (dictionary n' i : ℕ) (s : ObjectMemory) :
    Prop where
  rehashed : ∃ g, MethodDictionaryValid s (R ∪ {p | m.limit ≤ p}) dictionary n'
      (occupied i (methodTable m dictionary)) g ∧
    Rehashed (methodTable m dictionary) i n' (fun k => s.identityHash k % n')
      (methodTable s dictionary) g
  frame : Frame m.limit {p | p.1 = dictionary} m s
  array_ge : m.limit ≤ s.slot dictionary Field.array
  keys_ge : m.limit ≤ s.slot dictionary Field.keys

/-- The loop starts with two arrays of nils. -/
theorem regrown_start (h : MethodDictionaryValid m R dictionary n c f) (hk : KernelFormats m)
    (n' : ℕ) :
    ∃ array s keys s', (m.setSlot dictionary Field.tally (encodeSmallInteger 0)).kernelNew .Array n'
        = some (array, s) ∧
      (s.setSlot dictionary Field.array array).kernelNew .Array n' = some (keys, s') ∧
      Regrown m R dictionary n' 0 (s'.setSlot dictionary Field.keys keys) := by
  have hk₀ : KernelFormats (m.setSlot dictionary Field.tally (encodeSmallInteger 0)) :=
    hk.setSlot (by decide)
  obtain ⟨array, s, hnew, halloc, -, hnil⟩ :=
    @KernelFormats.kernelNew_pointers _ _ hk₀ .Array (by decide) n'
  have hks : KernelFormats s := hk₀.frame halloc.frame hk₀.lt_limit (by simp)
  have hk₁ : KernelFormats (s.setSlot dictionary Field.array array) := hks.setSlot (by decide)
  obtain ⟨keys, s', hnew', halloc', -, hnil'⟩ :=
    @KernelFormats.kernelNew_pointers _ _ hk₁ .Array (by decide) n'
  have hfixed : KernelClass.Array.info.fixedSize + n' = n' := Nat.zero_add n'
  rw [hfixed] at halloc hnil halloc' hnil'
  have hdictionary := h.shape.lt_limit
  have harray : m.limit < array := halloc.limit_lt
  have hlt : array < s.limit := halloc.lt_limit
  have hkeys : s.limit < keys := halloc'.limit_lt
  have hle : m.limit ≤ s.limit := halloc.frame.limit_le
  have hle' : s.limit ≤ s'.limit := halloc'.frame.limit_le
  let s₃ := s'.setSlot dictionary Field.keys keys
  have hframe : Frame m.limit {p | p.1 = dictionary} m s₃ :=
    (((Frame.setSlot_object m.limit m dictionary _ _).trans
      (halloc.frame.mono (Nat.le_refl _) (by simp))).trans
      (Frame.setSlot_object m.limit s dictionary _ _)).trans
      ((halloc'.frame.mono hle (by simp)).trans (Frame.setSlot_object m.limit s' dictionary _ _))
  have hkeys₃ : s₃.slot dictionary Field.keys = keys := setSlot_slot_self _ _ _ _
  have hslot : ∀ i, i ≠ Field.keys →
      s₃.slot dictionary i = (s.setSlot dictionary Field.array array).slot dictionary i := by
    intro i hi
    rw [setSlot_slot_of_ne_index _ _ _ _ hi]
    exact halloc'.frame.slot dictionary (hdictionary.trans_le hle) i (by simp)
  have harray₃ : s₃.slot dictionary Field.array = array := by
    rw [hslot _ (by decide), setSlot_slot_self]
  have htable : ∀ i < n', methodTable s₃ dictionary i = none := by
    intro i hi
    rw [methodTable_eq_none, hkeys₃, setSlot_slot_of_ne _ _ _ _ (by omega : keys ≠ dictionary),
      hnil' i hi]
  refine ⟨array, s, keys, s', hnew, hnew', ⟨⟨fun _ => none, ?_,
    (Rehashed.start _ n' _).congr htable⟩, hframe, ?_, ?_⟩⟩
  · refine ⟨⟨Or.inl h.shape.mem, hdictionary.trans_le hframe.limit_le, ?_, ?_, ?_, ?_, ?_⟩,
      h.ne_nilOop, ?_, ?_, ?_, ?_, ?_, ?_, fun i hi _ => ?_, fun i hi k v ht => ?_,
      (represents_none n' _).congr htable⟩
    · rw [harray₃]; exact Or.inr harray.le
    · rw [harray₃]; exact hlt.trans_le hle'
    · rw [harray₃]; omega
    · rw [harray₃]
      exact (halloc'.frame.basicSize hlt).trans halloc.basicSize
    · rw [hslot _ (by decide), setSlot_slot_of_ne_index _ _ _ _ (by decide),
        halloc.frame.slot dictionary hdictionary _ (by simp), setSlot_slot_self, occupied_zero]
    · rw [hkeys₃]; exact Or.inr (hle.trans hkeys.le)
    · rw [hkeys₃]; exact halloc'.lt_limit
    · rw [hkeys₃]; omega
    · rw [hkeys₃, harray₃]; omega
    · rw [hkeys₃]; exact halloc'.basicSize
    · rw [occupied_congr htable, occupied_none, occupied_zero]
    · have hold : s'.slot array i = (s.setSlot dictionary Field.array array).slot array i :=
        halloc'.frame.slot array hlt i (by simp)
      rw [harray₃, setSlot_slot_of_ne _ _ _ _ (by omega : array ≠ dictionary), hold,
        setSlot_slot_of_ne _ _ _ _ (by omega : array ≠ dictionary), hnil i hi]
    · rw [htable i hi] at ht
      cases ht
  · rw [harray₃]; exact harray.le
  · rw [hkeys₃]; exact hle.trans hkeys.le

/-- Putting a new selector stores it and its method. -/
theorem atPutLoop_of_none (h : MethodDictionaryValid m R dictionary n c f) {i : ℕ}
    (hscan : m.methodDictionaryScanFor dictionary key = some i)
    (hslot : methodTable m dictionary i = none) (value fuel : ℕ) :
    methodDictionaryAtPutLoop dictionary (fuel + 1) m key value =
      if (m.storeMethod dictionary i key value).hashedCollectionFullCondition dictionary then
        (m.storeMethod dictionary i key value).methodDictionaryGrow dictionary
          (methodDictionaryAtPutLoop dictionary fuel)
      else some (m.storeMethod dictionary i key value) := by
  rw [methodDictionaryAtPutLoop, if_neg h.ne_nilOop, hscan]
  exact if_pos (methodTable_eq_none.mp hslot)

/-- One round of the loop: the new arrays have room for the next method, and do not become full. -/
theorem regrown_step (h : MethodDictionaryValid m R dictionary n c f) (fuel : ℕ) {i : ℕ}
    (hi : i < n) {s : ObjectMemory} (hs : Regrown m R dictionary (doubledArraySize n) i s) :
    ∃ s', (if s.slot (m.slot dictionary Field.keys) i = nilOop then some s
        else methodDictionaryAtPutLoop dictionary (fuel + 1) s
          (s.slot (m.slot dictionary Field.keys) i)
          (s.slot (m.slot dictionary Field.array) i)) = some s' ∧
      Regrown m R dictionary (doubledArraySize n) (i + 1) s' := by
  obtain ⟨g, hvalid, hrehashed⟩ := hs.rehashed
  have hkeys : s.slot (m.slot dictionary Field.keys) i = m.slot (m.slot dictionary Field.keys) i :=
    hs.frame.slot _ h.keys_lt_limit i h.keys_ne
  have harray : s.slot (m.slot dictionary Field.array) i =
      m.slot (m.slot dictionary Field.array) i :=
    hs.frame.slot _ h.shape.array_lt_limit i h.shape.array_ne
  rw [hkeys, harray]
  cases ht : methodTable m dictionary i with
  | none =>
    refine ⟨s, if_pos (methodTable_eq_none.mp ht), ⟨g, ?_, hrehashed.skip ht⟩, hs.frame,
      hs.array_ge, hs.keys_ge⟩
    rw [occupied_succ, ht]
    exact hvalid
  | some entry =>
    obtain ⟨k, v⟩ := entry
    obtain ⟨hk, hne, hv⟩ := methodTable_eq_some.mp ht
    have hlive : s.Live k := hs.frame.live (h.live i hi k v ht)
    have hsucc : occupied (i + 1) (methodTable m dictionary) =
        occupied i (methodTable m dictionary) + 1 := by
      rw [occupied_succ, ht]
      rfl
    have hle := occupied_le i (methodTable m dictionary)
    have hdouble : n * 2 ≤ doubledArraySize n ∧ 4 ≤ doubledArraySize n := by
      simp only [doubledArraySize]
      split <;> omega
    -- the selector has not been inserted yet
    have hnone : g k = none := hrehashed.not_mem h.represents.isTable hi ht
    obtain ⟨j, hj, hscan, hjslot, hreached⟩ := hvalid.scanFor_of_none (by omega) hnone
    have hstored := hvalid.storeMethod hne hlive hnone hj hjslot hreached v
    have hfull := hstored.shape.fullCondition_iff hstored.tally_le
    have hmstored : MethodStoredAt s dictionary j k v (s.storeMethod dictionary j k v) :=
      storeMethod_storedAt hvalid.shape.array_ne hvalid.keys_ne hvalid.keys_ne_array
    have htable := hmstored.table hne
    have hstep := hrehashed.store h.represents.isTable hi ht hj hjslot
      (hvalid.represents.update hj v (Or.inl ⟨hjslot, hnone, hreached⟩))
    refine ⟨s.storeMethod dictionary j k v, ?_, ⟨_, ?_, hstored.represents, hstep.entries, ?_⟩,
      ?_, ?_, ?_⟩
    · rw [hk, hv, if_neg hne, hvalid.atPutLoop_of_none hscan hjslot, if_neg]
      rw [hfull]
      omega
    · rw [hsucc]
      exact hstored
    · rw [htable]
      exact hstep.occupied
    · refine hs.frame.trans ((storeMethod_frame m.limit hvalid.keys_ne).mono (Nat.le_refl _) ?_)
      have harray_ge := hs.array_ge
      have hkeys_ge := hs.keys_ge
      intro p hp _ hcell
      rcases hcell with hcell | hcell | hcell
      · exact hcell
      · exact absurd (show p = s.slot dictionary Field.array from hcell) (by omega)
      · exact absurd (show p = s.slot dictionary Field.keys from hcell) (by omega)
    · rw [hmstored.array]; exact hs.array_ge
    · rw [hmstored.keys]; exact hs.keys_ge

/-- **`slvm_MethodDictionary_grow`** keeps all methods and doubles the arrays. -/
theorem grow (h : MethodDictionaryValid m R dictionary n c f) (hk : KernelFormats m) (fuel : ℕ) :
    ∃ m', m.methodDictionaryGrow dictionary (methodDictionaryAtPutLoop dictionary (fuel + 1)) =
        some m' ∧
      Frame m.limit {p | p.1 = dictionary} m m' ∧
      MethodDictionaryValid m' (R ∪ {p | m.limit ≤ p}) dictionary (doubledArraySize n) c f ∧
      m.limit ≤ m'.slot dictionary Field.array ∧ m.limit ≤ m'.slot dictionary Field.keys := by
  obtain ⟨array, s, keys, s', hnew, hnew', hstart⟩ := h.regrown_start hk (doubledArraySize n)
  obtain ⟨m', hloop, hend⟩ := foldlM_range hstart fun i hi s hs => h.regrown_step fuel hi hs
  obtain ⟨g, hvalid, hrehashed⟩ := hend.rehashed
  obtain rfl := hrehashed.finish h.represents
  rw [h.occupied_eq] at hvalid
  refine ⟨m', ?_, hend.frame, hvalid, hend.array_ge, hend.keys_ge⟩
  rw [methodDictionaryGrow, h.keys_basicSize, hnew]
  simp only [Option.bind_eq_bind, Option.bind_some, hnew']
  exact hloop

/-- At least a quarter of the slots is free, and one at least. -/
def Roomy (n c : ℕ) : Prop := 4 ≤ n ∧ c ≤ n ∧ n / 4 ≤ n - c

omit [KernelImage] in
theorem Roomy.lt {n c : ℕ} (h : Roomy n c) : c < n := by
  obtain ⟨hn, hc, hfree⟩ := h
  omega

/-- **`slvm_MethodDictionary_atPut`** binds a selector, whatever it was bound to. A new selector is
counted, and leaves a quarter of the slots free; any fuel from 2 on is enough. -/
theorem atPutLoop_roomy (h : MethodDictionaryValid m R dictionary n c f) (hroom : c < n)
    (hk : KernelFormats m) (hR : ∀ k, kernelClass k ∉ R) (hkey : key ≠ nilOop) (hlive : m.Live key)
    (value fuel : ℕ) :
    ∃ m' n' c', methodDictionaryAtPutLoop dictionary (fuel + 2) m key value = some m' ∧
      Frame m.limit {p | p.1 = dictionary ∨ p.1 = m.slot dictionary Field.array ∨
        p.1 = m.slot dictionary Field.keys} m m' ∧
      MethodDictionaryValid m' (R ∪ {p | m.limit ≤ p}) dictionary n' c'
        (Function.update f key (some value)) ∧
      (f key = none ∧ c' = c + 1 ∧ Roomy n' c' ∨ (∃ old, f key = some old) ∧ n' = n ∧ c' = c) := by
  cases hf : f key with
  | none =>
    obtain ⟨i, hi, hscan, hslot, hreached⟩ := h.scanFor_of_none hroom hf
    have hstored := h.storeMethod hkey hlive hf hi hslot hreached value
    have hframe := @storeMethod_frame m dictionary i key value m.limit h.keys_ne
    have hfull := hstored.shape.fullCondition_iff hstored.tally_le
    have htally := hstored.tally_le
    rw [h.atPutLoop_of_none hscan hslot]
    split_ifs with hcond
    · have hk' : KernelFormats (m.storeMethod dictionary i key value) := by
        refine hk.frame hframe hk.lt_limit fun k hcell => ?_
        rcases hcell with hcell | hcell | hcell
        · exact hR k ((show kernelClass k = dictionary from hcell) ▸ h.shape.mem)
        · exact hR k ((show kernelClass k = m.slot dictionary Field.array from hcell) ▸
            h.shape.array_mem)
        · exact hR k ((show kernelClass k = m.slot dictionary Field.keys from hcell) ▸ h.keys_mem)
      obtain ⟨m', hgrow, hframe', hvalid, -⟩ := hstored.grow hk' fuel
      refine ⟨m', _, _, hgrow, hframe.trans (hframe'.mono (Nat.le_refl _) ?_), hvalid,
        Or.inl ⟨rfl, rfl, ?_⟩⟩
      · exact fun p _ i hcell => Or.inl hcell
      · simp only [Roomy, doubledArraySize]
        split <;> omega
    · refine ⟨_, n, c + 1, rfl, hframe, hstored.mono Set.subset_union_left, Or.inl ⟨rfl, rfl, ?_⟩⟩
      rw [hfull] at hcond
      simp only [Roomy]
      omega
  | some old =>
    obtain ⟨i, hi, hscan, hslot⟩ := h.scanFor_of_some hf
    obtain ⟨hk', hne, -⟩ := methodTable_eq_some.mp hslot
    refine ⟨m.setSlot (m.slot dictionary Field.array) i value, n, c, ?_,
      Frame.setSlot m.limit m (Or.inl (Or.inr (Or.inl rfl))) value,
      (h.replaceMethod hi hslot value).mono Set.subset_union_left, Or.inr ⟨⟨old, rfl⟩, rfl, rfl⟩⟩
    rw [methodDictionaryAtPutLoop, if_neg h.ne_nilOop, hscan]
    refine if_neg ?_
    rw [hk']
    exact hne

/-- The same for the source's function, which leaves a slot free. -/
theorem atPut (h : MethodDictionaryValid m R dictionary n c f) (hroom : c < n)
    (hk : KernelFormats m) (hR : ∀ k, kernelClass k ∉ R) (hkey : key ≠ nilOop) (hlive : m.Live key)
    (value : ℕ) :
    ∃ m' n' c', m.methodDictionaryAtPut dictionary key value = some m' ∧
      Frame m.limit {p | p.1 = dictionary ∨ p.1 = m.slot dictionary Field.array ∨
        p.1 = m.slot dictionary Field.keys} m m' ∧
      MethodDictionaryValid m' (R ∪ {p | m.limit ≤ p}) dictionary n' c'
        (Function.update f key (some value)) ∧ c' < n' := by
  obtain ⟨m', n', c', hput, hframe, hvalid, hcases⟩ :=
    h.atPutLoop_roomy hroom hk hR hkey hlive value 0
  refine ⟨m', n', c', hput, hframe, hvalid, ?_⟩
  rcases hcases with ⟨-, -, hroomy⟩ | ⟨-, rfl, rfl⟩
  · exact hroomy.lt
  · exact hroom

/-- **The first `slvm_MethodDictionary_atPut`** into a dictionary of capacity 0 makes the arrays. -/
theorem atPut_of_empty (h : MethodDictionaryValid m R dictionary 0 c f) (hk : KernelFormats m)
    (hkey : key ≠ nilOop) (hlive : m.Live key) (value : ℕ) :
    ∃ m', m.methodDictionaryAtPut dictionary key value = some m' ∧
      Frame m.limit {p | p.1 = dictionary} m m' ∧
      MethodDictionaryValid m' (R ∪ {p | m.limit ≤ p}) dictionary 4 1
        (Function.update f key (some value)) ∧ f key = none ∧ c = 0 := by
  have hc : c = 0 := Nat.le_zero.mp h.tally_le
  subst hc
  have hf : f key = none := by
    cases hf : f key with
    | none => rfl
    | some v =>
      obtain ⟨i, hi, -⟩ := (h.represents.maps key v).mpr hf
      exact absurd hi (Nat.not_lt_zero i)
  have hscan : m.methodDictionaryScanFor dictionary key = none := by
    simp only [methodDictionaryScanFor, h.keys_basicSize, if_true]
  -- the arrays have four slots afterwards
  obtain ⟨m₁, hgrow, hframe, hvalid, harray, hkeys⟩ := h.grow hk 0
  rw [show doubledArraySize 0 = 4 from rfl] at hvalid
  obtain ⟨i, hi, hscan₁, hslot, hreached⟩ := hvalid.scanFor_of_none (by decide) hf
  have hstored := hvalid.storeMethod hkey (hframe.live hlive) hf hi hslot hreached value
  have hfull := hstored.shape.fullCondition_iff hstored.tally_le
  refine ⟨m₁.storeMethod dictionary i key value, ?_, ?_, hstored, hf, rfl⟩
  · rw [methodDictionaryAtPut, methodDictionaryAtPutLoop, if_neg h.ne_nilOop, hscan]
    simp only [hgrow, Option.bind_eq_bind, Option.bind_some]
    rw [hvalid.atPutLoop_of_none hscan₁ hslot, if_neg]
    rw [hfull]
    decide
  · refine hframe.trans ((storeMethod_frame m.limit hvalid.keys_ne).mono (Nat.le_refl _) ?_)
    intro p hp _ hcell
    rcases hcell with hcell | hcell | hcell
    · exact hcell
    · exact absurd (show p = m₁.slot dictionary Field.array from hcell) (by omega)
    · exact absurd (show p = m₁.slot dictionary Field.keys from hcell) (by omega)

/-- **`slvm_MethodDictionary_atPut`** into a dictionary that is empty, of any capacity, or that
something was put into. -/
theorem put (h : MethodDictionaryValid m R dictionary n c f) (hroomy : c = 0 ∨ Roomy n c)
    (hk : KernelFormats m) (hR : ∀ k, kernelClass k ∉ R) (hkey : key ≠ nilOop)
    (hlive : m.Live key) (value : ℕ) :
    ∃ m' n' c', m.methodDictionaryAtPut dictionary key value = some m' ∧
      Frame m.limit {p | p.1 = dictionary ∨ p.1 = m.slot dictionary Field.array ∨
        p.1 = m.slot dictionary Field.keys} m m' ∧
      MethodDictionaryValid m' (R ∪ {p | m.limit ≤ p}) dictionary n' c'
        (Function.update f key (some value)) ∧
      c' = (if f key = none then c + 1 else c) ∧ Roomy n' c' := by
  rcases Nat.eq_zero_or_pos n with rfl | hpos
  · -- the arrays are made now
    obtain ⟨m', hm', hframe, hd', hnone, rfl⟩ := h.atPut_of_empty hk hkey hlive value
    refine ⟨m', 4, 1, hm', hframe.mono (Nat.le_refl _) fun _ _ _ hmem => Or.inl hmem, hd', ?_, ?_⟩
    · rw [if_pos hnone]
    · exact ⟨by decide, by decide, by decide⟩
  · have hroom : c < n := by
      rcases hroomy with rfl | hroomy
      · exact hpos
      · exact hroomy.lt
    obtain ⟨m', n', c', hm', hframe, hd', hcases⟩ :=
      h.atPutLoop_roomy hroom hk hR hkey hlive value 0
    refine ⟨m', n', c', hm', hframe, hd', ?_⟩
    rcases hcases with ⟨hnone, rfl, hroomy'⟩ | ⟨⟨old, hold⟩, rfl, rfl⟩
    · exact ⟨(if_pos hnone).symm, hroomy'⟩
    · -- an empty dictionary binds nothing
      refine ⟨(if_neg (by rw [hold]; simp)).symm, hroomy.resolve_left fun hzero => ?_⟩
      obtain ⟨i, hi, ht⟩ := h.represents.exists_slot hold
      have hused := h.occupied_eq.trans hzero
      rw [occupied, Finset.card_eq_zero, Finset.filter_eq_empty_iff] at hused
      exact hused (Finset.mem_range.mpr hi) (by rw [ht]; rfl)

end MethodDictionaryValid

/-! ### New method dictionaries -/

/-- **`slvm_MethodDictionary_newWithCapacity`** makes an empty method dictionary. -/
theorem methodDictionaryNewWithCapacity_made {m : ObjectMemory} (hk : KernelFormats m) (n : ℕ) :
    ∃ d m', m.methodDictionaryNewWithCapacity n = some (d, m') ∧ Frame m.limit ∅ m m' ∧
      m.limit < d ∧ d < m'.limit ∧ oopIsPointers d ∧
      (m'.header d).classIndex = (m.header (kernelClass .MethodDictionary)).identityHash ∧
      MethodDictionaryValid m' {p | m.limit ≤ p} d n 0 fun _ => none := by
  obtain ⟨d, m₀, hnew₀, -⟩ :=
    @KernelFormats.kernelNew_pointers _ _ hk .MethodDictionary (by decide) 0
  obtain ⟨m₁, hnew₁, h₁, -⟩ := dictionaryNewWithCapacity_made hk hnew₀ n
  have hk₁ : KernelFormats m₁ := hk.frame h₁.frame hk.lt_limit (by simp)
  obtain ⟨keys, m₂, hnew₂, halloc, -, hnil⟩ :=
    @KernelFormats.kernelNew_pointers _ _ hk₁ .Array (by decide) n
  rw [show KernelClass.Array.info.fixedSize + n = n from Nat.zero_add n] at halloc hnil
  have hlt := h₁.limit_lt
  have harray := h₁.lt_array
  have harray' := h₁.array_lt
  have hkeys := halloc.limit_lt
  have hle := halloc.frame.limit_le
  have hd₁ : d < m₁.limit := harray.trans harray'
  let m₃ := m₂.setSlot d Field.keys keys
  have hslot : ∀ i, i ≠ Field.keys → m₃.slot d i = m₁.slot d i := by
    intro i hi
    rw [setSlot_slot_of_ne_index _ _ _ _ hi]
    exact halloc.frame.slot d hd₁ i (by simp)
  have hkeys₃ : m₃.slot d Field.keys = keys := setSlot_slot_self _ _ _ _
  have hframe : Frame m.limit ∅ m m₃ :=
    (h₁.frame.trans (halloc.frame.mono h₁.frame.limit_le (by simp))).trans
      (Frame.setSlot m.limit m₂ (Or.inr hlt.le) keys)
  have htable : ∀ i < n, methodTable m₃ d i = none := by
    intro i hi
    rw [methodTable_eq_none, hkeys₃, setSlot_slot_of_ne _ _ _ _ (by omega : keys ≠ d)]
    exact hnil i hi
  refine ⟨d, m₃, ?_, hframe, hlt, hd₁.trans_le hle, h₁.pointers, ?_,
    ⟨⟨hlt.le, hd₁.trans_le hle, ?_, ?_, ?_, ?_, ?_⟩, ?_, ?_, ?_, ?_, ?_, ?_, ?_,
      fun i hi _ => ?_, fun i hi k v ht => ?_, (represents_none n _).congr htable⟩⟩
  · rw [methodDictionaryNewWithCapacity, hnew₁]
    simp only [Option.bind_eq_bind, Option.bind_some, hnew₂]
    rfl
  · rw [show m₃.header = m₂.header from rfl, halloc.frame.header d hd₁]
    exact h₁.classIndex
  · rw [hslot _ (by decide)]; exact (hlt.trans harray).le
  · rw [hslot _ (by decide)]; exact harray'.trans_le hle
  · rw [hslot _ (by decide)]; exact harray.ne'
  · rw [hslot _ (by decide)]
    exact (halloc.frame.basicSize harray').trans h₁.basicSize
  · rw [hslot _ (by decide)]; exact h₁.tally
  · have := hk.lt_limit .nil
    unfold nilOop
    omega
  · rw [hkeys₃]; exact (h₁.frame.limit_le.trans hkeys.le)
  · rw [hkeys₃]; exact halloc.lt_limit
  · rw [hkeys₃]; omega
  · rw [hkeys₃, hslot _ (by decide)]; omega
  · rw [hkeys₃]; exact halloc.basicSize
  · rw [occupied_congr htable, occupied_none]
  · rw [hslot _ (by decide), setSlot_slot_of_ne _ _ _ _ harray.ne',
      halloc.frame.slot _ harray' i (by simp)]
    exact h₁.element i hi
  · rw [htable i hi] at ht
    cases ht

/-- The same for the kernel as compiled. -/
theorem methodDictionaryNewWithCapacity_spec {m : ObjectMemory} (hk : KernelIntact m) (n : ℕ) :
    ∃ d m', m.methodDictionaryNewWithCapacity n = some (d, m') ∧ Frame m.limit ∅ m m' ∧
      m.limit < d ∧ d < m'.limit ∧ oopIsPointers d ∧
      (m'.header d).classIndex = KernelClass.MethodDictionary.index ∧
      MethodDictionaryValid m' {p | m.limit ≤ p} d n 0 fun _ => none := by
  have hmade := methodDictionaryNewWithCapacity_made hk.formats n
  rwa [hk.identityHash_kernelClass] at hmade

/-- **`slvm_MethodDictionary_new`** makes an empty method dictionary of five slots. -/
theorem methodDictionaryNew_spec {m : ObjectMemory} (hk : KernelIntact m) :
    ∃ d m', m.methodDictionaryNew = some (d, m') ∧ Frame m.limit ∅ m m' ∧ m.limit < d ∧
      d < m'.limit ∧ oopIsPointers d ∧
      (m'.header d).classIndex = KernelClass.MethodDictionary.index ∧
      MethodDictionaryValid m' {p | m.limit ≤ p} d 5 0 fun _ => none :=
  methodDictionaryNewWithCapacity_spec hk 5

end ObjectMemory

end SlvmNative
