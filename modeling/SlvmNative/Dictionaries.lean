import SlvmNative.HashedCollections

/-!
# Dictionaries

`SLVM_Dictionary` and `SLVM_IdentityDictionary`: tables of associations, a free slot being nil.
The functions on identity dictionaries are the ones on dictionaries with the identity hash and the
identity of oops; the source writes both out.

Adding an association to a full dictionary grows it, and growing adds every association again. The
new array has at least twice as many slots, so the recursion is two calls deep; the model bounds
it with a fuel.

## Main definitions

* `ObjectMemory.dictionaryScanFor`, `dictionaryGrow`, `dictionaryAddAssociation`
* `ObjectMemory.identityDictionaryAtPut`, `identityDictionaryAtOrNil`
* `ObjectMemory.DictionaryValid` — the dictionary stands for a map from keys to associations

## Main results

* `ObjectMemory.DictionaryValid.scanFor_of_some`, `scanFor_of_none` — where a key belongs
* `ObjectMemory.DictionaryValid.grow` — growing keeps all associations
* `ObjectMemory.DictionaryValid.addAssociation`, `atPut_of_none` — what the insertions do
* `ObjectMemory.NewDictionary.valid` — a new dictionary is empty
-/

namespace SlvmNative

open LinearProbing

namespace ObjectMemory

section Operations

variable [KernelImage]

/-! ### Associations -/

/-- `slvm_Association_newWithClass` -/
def associationNewWithClass (m : ObjectMemory) (clazz : ℕ) : Option (ℕ × ObjectMemory) :=
  m.basicNew clazz 0

/-- `slvm_Association_new` -/
def associationNew (m : ObjectMemory) : Option (ℕ × ObjectMemory) :=
  m.associationNewWithClass (kernelClass .Association)

/-- `slvm_Association_makeWithClass`, which does not use its class. -/
def associationMakeWithClass (m : ObjectMemory) (_clazz key value : ℕ) :
    Option (ℕ × ObjectMemory) := do
  let (result, m) ← m.associationNew
  let m := m.setSlot result Field.key key
  return (result, m.setSlot result Field.value value)

/-! ### Dictionaries -/

/-- `slvm_Dictionary_newWithCapacity` -/
def dictionaryNewWithCapacity (m : ObjectMemory) (clazz n : ℕ) : Option (ℕ × ObjectMemory) := do
  let (result, m) ← m.basicNew clazz 0
  let (array, m) ← m.kernelNew .Array n
  let m := m.setSlot result Field.array array
  return (result, m.setSlot result Field.tally (encodeSmallInteger 0))

/-- `slvm_Dictionary_new` -/
def dictionaryNew (m : ObjectMemory) (clazz : ℕ) : Option (ℕ × ObjectMemory) :=
  m.dictionaryNewWithCapacity clazz 5

/-- `slvm_Dictionary_scanFor`: the index found, or nothing for -1. It fails where the hash function
does. -/
def dictionaryScanFor (m : ObjectMemory) (dictionary key : ℕ) (hash : ObjectMemory → ℕ → Option ℕ)
    (equals : ObjectMemory → ℕ → ℕ → Bool) : Option (Option ℕ) :=
  let array := m.slot dictionary Field.array
  let arraySize := m.basicSize array
  if arraySize = 0 then some none
  else do
    let h ← hash m key
    return probe arraySize (h % arraySize) fun index =>
      let element := m.slot array index
      element == nilOop || equals m (m.slot element Field.key) key

/-- `slvm_Dictionary_grow`, with the function that adds an association again. -/
def dictionaryGrow (m : ObjectMemory) (dictionary : ℕ)
    (addAssociation : ObjectMemory → ℕ → Option ObjectMemory) : Option ObjectMemory := do
  -- duplicate the dictionary capacity
  let oldArray := m.slot dictionary Field.array
  let arraySize := m.basicSize oldArray
  let m := m.setSlot dictionary Field.tally (encodeSmallInteger 0)
  let (array, m) ← m.kernelNew .Array (doubledArraySize arraySize)
  let m := m.setSlot dictionary Field.array array
  -- reinsert the elements
  (List.range arraySize).foldlM (fun m i =>
    let element := m.slot oldArray i
    if element = nilOop then some m else addAssociation m element) m

/-- Putting an association into a free slot, as every insertion does. -/
def dictionaryInsert (m : ObjectMemory) (dictionary index association : ℕ)
    (addAssociation : ObjectMemory → ℕ → Option ObjectMemory) : Option ObjectMemory :=
  let m := m.storeElement dictionary index association
  if m.hashedCollectionFullCondition dictionary then m.dictionaryGrow dictionary addAssociation
  else some m

/-- The recursion of `slvm_Dictionary_addAssociation`, with a bound on its depth. -/
def dictionaryAddAssociationLoop (hash : ObjectMemory → ℕ → Option ℕ)
    (equals : ObjectMemory → ℕ → ℕ → Bool) (dictionary : ℕ) :
    ℕ → ObjectMemory → ℕ → Option ObjectMemory
  | 0, _, _ => none
  | fuel + 1, m, association => do
    if dictionary = nilOop ∨ association = nilOop then none
    else
      let index ← ← m.dictionaryScanFor dictionary (m.slot association Field.key) hash equals
      if m.slot (m.slot dictionary Field.array) index ≠ nilOop then
        return m.setSlot (m.slot dictionary Field.array) index association
      else
        m.dictionaryInsert dictionary index association
          (dictionaryAddAssociationLoop hash equals dictionary fuel)

/-- `slvm_Dictionary_addAssociation` -/
def dictionaryAddAssociation (m : ObjectMemory) (dictionary association : ℕ)
    (hash : ObjectMemory → ℕ → Option ℕ) (equals : ObjectMemory → ℕ → ℕ → Bool) :
    Option ObjectMemory :=
  dictionaryAddAssociationLoop hash equals dictionary 2 m association

/-- `slvm_Dictionary_associationAt` -/
def dictionaryAssociationAt (m : ObjectMemory) (dictionary key : ℕ)
    (hash : ObjectMemory → ℕ → Option ℕ) (equals : ObjectMemory → ℕ → ℕ → Bool) : Option ℕ := do
  if dictionary = nilOop then none
  else
    let index ← ← m.dictionaryScanFor dictionary key hash equals
    return m.slot (m.slot dictionary Field.array) index

/-! ### Identity dictionaries -/

/-- `slvm_IdentityDictionary_scanFor` -/
def identityDictionaryScanFor (m : ObjectMemory) (dictionary key : ℕ) : Option (Option ℕ) :=
  m.dictionaryScanFor dictionary key identityHashFunction identityEquals

/-- `slvm_IdentityDictionary_addAssociation` -/
def identityDictionaryAddAssociation (m : ObjectMemory) (dictionary association : ℕ) :
    Option ObjectMemory :=
  m.dictionaryAddAssociation dictionary association identityHashFunction identityEquals

/-- `slvm_IdentityDictionary_associationAt` -/
def identityDictionaryAssociationAt (m : ObjectMemory) (dictionary key : ℕ) : Option ℕ :=
  m.dictionaryAssociationAt dictionary key identityHashFunction identityEquals

/-- The tail of an insertion into an identity dictionary. -/
def identityDictionaryInsert (m : ObjectMemory) (dictionary index association : ℕ) :
    Option ObjectMemory :=
  m.dictionaryInsert dictionary index association fun m element =>
    m.identityDictionaryAddAssociation dictionary element

/-- `slvm_IdentityDictionary_addAssociationIfNotExistent` -/
def identityDictionaryAddAssociationIfNotExistent (m : ObjectMemory)
    (dictionary association : ℕ) : Option (ℕ × ObjectMemory) := do
  if dictionary = nilOop ∨ association = nilOop then none
  else
    let index ← ← m.identityDictionaryScanFor dictionary (m.slot association Field.key)
    let element := m.slot (m.slot dictionary Field.array) index
    if element = nilOop then
      let m ← m.identityDictionaryInsert dictionary index association
      return (association, m)
    else return (element, m)

/-- `slvm_IdentityDictionary_atPutWithAssociationClass` -/
def identityDictionaryAtPutWithAssociationClass (m : ObjectMemory)
    (dictionary key value associationClass : ℕ) : Option ObjectMemory := do
  if dictionary = nilOop then none
  else
    let index ← ← m.identityDictionaryScanFor dictionary key
    let element := m.slot (m.slot dictionary Field.array) index
    if element = nilOop then
      let (association, m) ← m.associationMakeWithClass associationClass key value
      m.identityDictionaryInsert dictionary index association
    else return m.setSlot element Field.value value

/-- `slvm_IdentityDictionary_atPut` -/
def identityDictionaryAtPut (m : ObjectMemory) (dictionary key value : ℕ) : Option ObjectMemory :=
  m.identityDictionaryAtPutWithAssociationClass dictionary key value (kernelClass .Association)

/-- `slvm_IdentityDictionary_atOrNil` -/
def identityDictionaryAtOrNil (m : ObjectMemory) (dictionary key : ℕ) : Option ℕ := do
  if dictionary = nilOop then none
  else
    let index ← ← m.identityDictionaryScanFor dictionary key
    let element := m.slot (m.slot dictionary Field.array) index
    return if element = nilOop then nilOop else m.slot element Field.value

/-- `slvm_SystemDictionary_new` -/
def systemDictionaryNew (m : ObjectMemory) : Option (ℕ × ObjectMemory) :=
  m.dictionaryNew (kernelClass .SystemDictionary)

/-- `slvm_SystemDictionary_atPut` -/
def systemDictionaryAtPut (m : ObjectMemory) (dictionary key value : ℕ) : Option ObjectMemory :=
  m.identityDictionaryAtPutWithAssociationClass dictionary key value (kernelClass .GlobalVariable)

end Operations

/-! ### What an addition does -/

section Additions

variable [KernelImage]

/-- What an addition that returns has done: it has replaced an association, or inserted one. -/
theorem dictionaryAddAssociationLoop_cases {hash : ObjectMemory → ℕ → Option ℕ}
    {equals : ObjectMemory → ℕ → ℕ → Bool} {dictionary fuel e : ℕ} {m m' : ObjectMemory}
    (h : dictionaryAddAssociationLoop hash equals dictionary (fuel + 1) m e = some m') :
    ∃ index, m' = m.setSlot (m.slot dictionary Field.array) index e ∨
      m.dictionaryInsert dictionary index e
        (dictionaryAddAssociationLoop hash equals dictionary fuel) = some m' := by
  rw [dictionaryAddAssociationLoop] at h
  split_ifs at h
  simp only [Option.bind_eq_bind, Option.bind_eq_some_iff] at h
  obtain ⟨found, -, index, rfl, h⟩ := h
  split_ifs at h
  · exact ⟨index, Or.inl (Option.some.inj h).symm⟩
  · exact ⟨index, Or.inr h⟩

end Additions

/-! ### New dictionaries, whatever their keys -/

section MadeSince

variable [KernelImage] {L dictionary : ℕ} {m m' : ObjectMemory}

/-- A dictionary and its array were made after the heap ended at `L`. -/
structure MadeSince (L : ℕ) (m : ObjectMemory) (dictionary : ℕ) : Prop where
  le : L ≤ dictionary
  lt_limit : dictionary < m.limit
  le_array : L ≤ m.slot dictionary Field.array
  array_ne : m.slot dictionary Field.array ≠ dictionary

omit [KernelImage] in
theorem MadeSince.of_array (h : MadeSince L m dictionary) (hlimit : m.limit ≤ m'.limit)
    (harray : m'.slot dictionary Field.array = m.slot dictionary Field.array) :
    MadeSince L m' dictionary :=
  ⟨h.le, h.lt_limit.trans_le hlimit, harray ▸ h.le_array, harray ▸ h.array_ne⟩

theorem dictionaryGrow_madeSince {add : ObjectMemory → ℕ → Option ObjectMemory}
    (hadd : ∀ m e m', MadeSince L m dictionary → add m e = some m' →
      Frame L ∅ m m' ∧ MadeSince L m' dictionary)
    (h : MadeSince L m dictionary) (hgrow : m.dictionaryGrow dictionary add = some m') :
    Frame L ∅ m m' ∧ MadeSince L m' dictionary := by
  simp only [dictionaryGrow, Option.bind_eq_bind, Option.bind_eq_some_iff] at hgrow
  obtain ⟨⟨array, m₁⟩, hnew, hloop⟩ := hgrow
  have halloc := basicNew_allocated hnew
  have hlimit : m.limit < array := halloc.limit_lt
  have hlt := h.lt_limit
  have hle := h.le
  have hframe : Frame L ∅ m (m₁.setSlot dictionary Field.array array) :=
    ((Frame.setSlot L m (Or.inr hle) _).trans
      (halloc.frame.mono (hle.trans hlt.le) (by simp))).trans
        (Frame.setSlot L m₁ (Or.inr hle) array)
  have hmade : MadeSince L (m₁.setSlot dictionary Field.array array) dictionary := by
    refine ⟨hle, hlt.trans_le hframe.limit_le, ?_, ?_⟩
    · rw [setSlot_slot_self]
      omega
    · rw [setSlot_slot_self]
      omega
  have hinv : ∀ i ∈ List.range (m.basicSize (m.slot dictionary Field.array)), ∀ s s',
      Frame L ∅ m s ∧ MadeSince L s dictionary →
      (if s.slot (m.slot dictionary Field.array) i = nilOop then some s
        else add s (s.slot (m.slot dictionary Field.array) i)) = some s' →
      Frame L ∅ m s' ∧ MadeSince L s' dictionary := by
    intro i _ s s' hs hstep
    split_ifs at hstep
    · exact Option.some.inj hstep ▸ hs
    · obtain ⟨hf, hm⟩ := hadd s _ s' hs.2 hstep
      exact ⟨hs.1.trans hf, hm⟩
  exact foldlM_invariant hinv ⟨hframe, hmade⟩ hloop

/-- **Adding to a new dictionary changes nothing there was before it**, whatever it is keyed by. -/
theorem dictionaryAddAssociationLoop_madeSince {hash : ObjectMemory → ℕ → Option ℕ}
    {equals : ObjectMemory → ℕ → ℕ → Bool} :
    ∀ (fuel : ℕ) (m : ObjectMemory) (e : ℕ) (m' : ObjectMemory), MadeSince L m dictionary →
      dictionaryAddAssociationLoop hash equals dictionary fuel m e = some m' →
      Frame L ∅ m m' ∧ MadeSince L m' dictionary := by
  intro fuel
  induction fuel with
  | zero =>
    intro m e m' _ hadd
    cases hadd
  | succ fuel ih =>
    intro m e m' h hadd
    obtain ⟨index, rfl | hadd⟩ := dictionaryAddAssociationLoop_cases hadd
    · have hframe : Frame L ∅ m (m.setSlot (m.slot dictionary Field.array) index e) :=
        Frame.setSlot L m (Or.inr h.le_array) e
      exact ⟨hframe, h.of_array hframe.limit_le
        (congrFun (setSlot_slot_of_ne _ _ _ _ h.array_ne.symm) _)⟩
    · have hframe : Frame L ∅ m (m.storeElement dictionary index e) := by
        refine (storeElement_frame L).mono (Nat.le_refl _) fun o ho _ hcell => ?_
        have hle := h.le
        have hle' := h.le_array
        rcases hcell with hcell | hcell
        · exact absurd (show o = dictionary from hcell) (by omega)
        · exact absurd (show o = m.slot dictionary Field.array from hcell) (by omega)
      have hmade : MadeSince L (m.storeElement dictionary index e) dictionary :=
        h.of_array hframe.limit_le (storeElement_collection h.array_ne (by decide))
      rw [dictionaryInsert] at hadd
      split_ifs at hadd
      · obtain ⟨hf, hm⟩ := dictionaryGrow_madeSince ih hmade hadd
        exact ⟨hframe.trans hf, hm⟩
      · exact Option.some.inj hadd ▸ ⟨hframe, hmade⟩

end MadeSince

/-! ### New associations -/

/-- A new association. -/
structure NewAssociation (m : ObjectMemory) (key value e : ℕ) (m' : ObjectMemory) : Prop where
  limit_lt : m.limit < e
  lt_limit : e < m'.limit
  pointers : oopIsPointers e
  /-- Whatever class was asked for. -/
  classIndex : (m'.header e).classIndex = KernelClass.Association.index
  key : m'.slot e Field.key = key
  value : m'.slot e Field.value = value

/-- A new association, of the class that has the index `classIndex`. -/
structure MadeAssociation (m : ObjectMemory) (classIndex key value e : ℕ) (m' : ObjectMemory) :
    Prop where
  limit_lt : m.limit < e
  lt_limit : e < m'.limit
  pointers : oopIsPointers e
  classIndex : (m'.header e).classIndex = classIndex
  key : m'.slot e Field.key = key
  value : m'.slot e Field.value = value

section NewAssociation

variable {m₀ m m' : ObjectMemory} {classIndex key value e : ℕ}

theorem MadeAssociation.new
    (h : MadeAssociation m KernelClass.Association.index key value e m') :
    NewAssociation m key value e m' :=
  ⟨h.limit_lt, h.lt_limit, h.pointers, h.classIndex, h.key, h.value⟩

theorem NewAssociation.made (h : NewAssociation m key value e m') :
    MadeAssociation m KernelClass.Association.index key value e m' :=
  ⟨h.limit_lt, h.lt_limit, h.pointers, h.classIndex, h.key, h.value⟩

theorem MadeAssociation.frame (h : MadeAssociation m₀ classIndex key value e m) {F : Set (ℕ × ℕ)}
    (hf : Frame m.limit F m m') (hF : ∀ i, (e, i) ∉ F) :
    MadeAssociation m₀ classIndex key value e m' where
  limit_lt := h.limit_lt
  lt_limit := h.lt_limit.trans_le hf.limit_le
  pointers := h.pointers
  classIndex := by rw [hf.header e h.lt_limit, h.classIndex]
  key := by rw [hf.slot e h.lt_limit _ (hF _), h.key]
  value := by rw [hf.slot e h.lt_limit _ (hF _), h.value]

theorem NewAssociation.frame (h : NewAssociation m₀ key value e m) {F : Set (ℕ × ℕ)}
    (hf : Frame m.limit F m m') (hF : ∀ i, (e, i) ∉ F) : NewAssociation m₀ key value e m' :=
  (h.made.frame hf hF).new

end NewAssociation

/-- **`slvm_Association_makeWithClass`** makes an association of class `Association`. -/
theorem associationMakeWithClass_made [KernelImage] {m : ObjectMemory} (hk : KernelFormats m)
    (clazz key value : ℕ) :
    ∃ e m', m.associationMakeWithClass clazz key value = some (e, m') ∧ Frame m.limit ∅ m m' ∧
      MadeAssociation m (m.header (kernelClass .Association)).identityHash key value e m' := by
  obtain ⟨e, m', hnew, halloc, -, -⟩ :=
    @KernelFormats.kernelNew_pointers _ _ hk .Association (by decide) 0
  have hlimit := halloc.limit_lt
  refine ⟨e, (m'.setSlot e Field.key key).setSlot e Field.value value, ?_, ?_,
    ⟨hlimit, halloc.lt_limit, halloc.pointers, halloc.classIndex, ?_, setSlot_slot_self _ _ _ _⟩⟩
  · have hnew' : m.associationNew = some (e, m') := hnew
    rw [associationMakeWithClass, hnew']
    rfl
  · exact (halloc.frame.trans (Frame.setSlot m.limit m' (Or.inr hlimit.le) key)).trans
      (Frame.setSlot m.limit _ (Or.inr hlimit.le) value)
  · rw [setSlot_slot_of_ne_index _ _ _ _ (by decide), setSlot_slot_self]

theorem associationMakeWithClass_spec [KernelImage] {m : ObjectMemory} (hk : KernelIntact m)
    (clazz key value : ℕ) :
    ∃ e m', m.associationMakeWithClass clazz key value = some (e, m') ∧ Frame m.limit ∅ m m' ∧
      NewAssociation m key value e m' := by
  obtain ⟨e, m', hmake, hframe, hmade⟩ :=
    associationMakeWithClass_made hk.formats clazz key value
  rw [hk.identityHash_kernelClass] at hmade
  exact ⟨e, m', hmake, hframe, hmade.new⟩

/-! ### The invariant -/

variable [KernelImage] {β : Type} {K : KeyScheme β}

/-- The array of a dictionary as a table of keys and associations. -/
def dictionaryTable (K : KeyScheme β) (m : ObjectMemory) (dictionary i : ℕ) : Option (β × ℕ) :=
  let element := m.slot (m.slot dictionary Field.array) i
  if element = nilOop then none else some (K.content m (m.slot element Field.key), element)

/-- What an association must be like to be in a dictionary. -/
structure DictionaryEntry (K : KeyScheme β) (m : ObjectMemory) (dictionary e : ℕ) : Prop where
  stored : K.Stored m (m.slot e Field.key)
  live : m.Live (m.slot e Field.key)
  lt_limit : e < m.limit
  ne_dictionary : e ≠ dictionary
  ne_array : e ≠ m.slot dictionary Field.array

/-- A dictionary of `n` slots and `c` associations that stands for the map `f`. -/
structure DictionaryValid (K : KeyScheme β) (m : ObjectMemory) (R : Set ℕ) (dictionary n c : ℕ)
    (f : β → Option ℕ) : Prop where
  shape : HashedShape m R dictionary n c
  pos : 0 < n
  ne_nilOop : dictionary ≠ nilOop
  occupied_eq : occupied n (dictionaryTable K m dictionary) = c
  entry : ∀ i < n, ∀ k e, dictionaryTable K m dictionary i = some (k, e) →
    DictionaryEntry K m dictionary e
  represents : Represents n (fun k => K.hashOf m k % n) (dictionaryTable K m dictionary) f

theorem dictionaryTable_eq_none {m : ObjectMemory} {dictionary i : ℕ} :
    dictionaryTable K m dictionary i = none ↔
      m.slot (m.slot dictionary Field.array) i = nilOop := by
  simp [dictionaryTable]

theorem dictionaryTable_eq_some {m : ObjectMemory} {dictionary i e : ℕ} {k : β} :
    dictionaryTable K m dictionary i = some (k, e) ↔
      m.slot (m.slot dictionary Field.array) i = e ∧ e ≠ nilOop ∧
        K.content m (m.slot e Field.key) = k := by
  simp only [dictionaryTable]
  split
  · rename_i h
    constructor
    · intro h'
      cases h'
    · rintro ⟨rfl, hne, -⟩
      exact absurd h hne
  · rename_i h
    constructor
    · intro h'
      obtain ⟨hk, rfl⟩ := Prod.mk.inj (Option.some.inj h')
      exact ⟨rfl, h, hk⟩
    · rintro ⟨rfl, -, rfl⟩
      rfl

omit [KernelImage] in
/-- An entry survives a step that does not change its key. -/
theorem DictionaryEntry.frame {m m' : ObjectMemory} {dictionary e : ℕ}
    (h : DictionaryEntry K m dictionary e) {F : Set (ℕ × ℕ)} (hf : Frame m.limit F m m')
    (hkey : (e, Field.key) ∉ F) (harray : e ≠ m'.slot dictionary Field.array) :
    DictionaryEntry K m' dictionary e := by
  have hslot : m'.slot e Field.key = m.slot e Field.key := hf.slot e h.lt_limit _ hkey
  refine ⟨?_, ?_, h.lt_limit.trans_le hf.limit_le, h.ne_dictionary, harray⟩
  · rw [hslot]
    exact K.stored_congr h.stored (hf.sameBody h.live)
  · rw [hslot]
    exact hf.live h.live

/-- The association `e` is in the array of the dictionary. -/
def DictionaryHolds (m : ObjectMemory) (dictionary e : ℕ) : Prop :=
  e ≠ nilOop ∧ ∃ i < m.basicSize (m.slot dictionary Field.array),
    m.slot (m.slot dictionary Field.array) i = e

namespace DictionaryValid

variable {m m' : ObjectMemory} {R R' : Set ℕ} {dictionary n c key e : ℕ} {f : β → Option ℕ}

theorem tally_le (h : DictionaryValid K m R dictionary n c f) : c ≤ n := by
  rw [← h.occupied_eq]
  exact occupied_le _ _

theorem mono (h : DictionaryValid K m R dictionary n c f) (hR : R ⊆ R') :
    DictionaryValid K m R' dictionary n c f :=
  ⟨h.shape.mono hR, h.pos, h.ne_nilOop, h.occupied_eq, h.entry, h.represents⟩

/-- The associations of the dictionary are what they are stored for. -/
theorem of_some (h : DictionaryValid K m R dictionary n c f) {k : β} (hf : f k = some e) :
    DictionaryEntry K m dictionary e ∧ e ≠ nilOop ∧ K.content m (m.slot e Field.key) = k := by
  obtain ⟨i, hi, ht⟩ := h.represents.exists_slot hf
  exact ⟨h.entry i hi k e ht, (dictionaryTable_eq_some.mp ht).2⟩

/-- The associations in the array are the bound ones. -/
theorem holds_iff (h : DictionaryValid K m R dictionary n c f) :
    m.DictionaryHolds dictionary e ↔ ∃ k, f k = some e := by
  rw [DictionaryHolds, h.shape.basicSize]
  constructor
  · rintro ⟨hne, i, hi, hslot⟩
    have ht : dictionaryTable K m dictionary i = some (K.content m (m.slot e Field.key), e) :=
      dictionaryTable_eq_some.mpr ⟨hslot, hne, rfl⟩
    exact ⟨_, h.represents.eq_some_of_slot hi ht⟩
  · rintro ⟨k, hk⟩
    obtain ⟨i, hi, ht⟩ := h.represents.exists_slot hk
    obtain ⟨hslot, hne, -⟩ := dictionaryTable_eq_some.mp ht
    exact ⟨hne, i, hi, hslot⟩

/-- The test of the scan accepts what it should. -/
theorem accepts (h : DictionaryValid K m R dictionary n c f) (hp : K.Probed m key) :
    Accepts n Eq (dictionaryTable K m dictionary) (K.content m key) fun index =>
      m.slot (m.slot dictionary Field.array) index == nilOop ||
        K.equals m key (m.slot (m.slot (m.slot dictionary Field.array) index) Field.key) := by
  intro i hi
  cases htable : dictionaryTable K m dictionary i with
  | none => simp [dictionaryTable_eq_none.mp htable]
  | some entry =>
    obtain ⟨k, e⟩ := entry
    obtain ⟨hslot, hne, rfl⟩ := dictionaryTable_eq_some.mp htable
    have hstored := (h.entry i hi _ e htable).stored
    simp only [hslot, Bool.or_eq_true, beq_iff_eq, hne, false_or, K.equals_iff hp hstored]
    simp [eq_comm]

/-- The scan is a probe of the table. -/
theorem scanFor_eq (h : DictionaryValid K m R dictionary n c f) (hp : K.Probed m key) :
    m.dictionaryScanFor dictionary key K.hash K.storedEquals =
      some (probe n (K.hashOf m (K.content m key) % n) fun index =>
        m.slot (m.slot dictionary Field.array) index == nilOop ||
          K.equals m key (m.slot (m.slot (m.slot dictionary Field.array) index) Field.key)) := by
  simp only [dictionaryScanFor, h.shape.basicSize, if_neg h.pos.ne', K.hash_eq hp]
  rfl

/-- **Scanning for a bound key** finds its association. -/
theorem scanFor_of_some (h : DictionaryValid K m R dictionary n c f) (hp : K.Probed m key)
    (hf : f (K.content m key) = some e) :
    ∃ i < n, m.dictionaryScanFor dictionary key K.hash K.storedEquals =
      some (some i) ∧ dictionaryTable K m dictionary i = some (K.content m key, e) := by
  obtain ⟨i, hi, hprobe, ht⟩ :=
    h.represents.probe_of_some hf (h.accepts hp) (Nat.mod_lt _ h.pos)
  exact ⟨i, hi, by rw [h.scanFor_eq hp, hprobe], ht⟩

/-- **Scanning for an unbound key** finds the slot it belongs in, if there is a free one. -/
theorem scanFor_of_none (h : DictionaryValid K m R dictionary n c f) (hp : K.Probed m key)
    (hroom : c < n) (hf : f (K.content m key) = none) :
    ∃ i < n, m.dictionaryScanFor dictionary key K.hash K.storedEquals =
      some (some i) ∧ dictionaryTable K m dictionary i = none ∧
      Reached n (dictionaryTable K m dictionary) (K.hashOf m (K.content m key) % n) i := by
  have hhole := exists_hole (h.occupied_eq ▸ hroom)
  obtain ⟨i, hi, hprobe, ht, hreached⟩ :=
    h.represents.probe_of_none hf (h.accepts hp) (Nat.mod_lt _ h.pos) hhole
  exact ⟨i, hi, by rw [h.scanFor_eq hp, hprobe], ht, hreached⟩

/-- **`slvm_Dictionary_associationAt`** -/
theorem associationAt (h : DictionaryValid K m R dictionary n c f) (hp : K.Probed m key)
    (hroom : c < n) :
    m.dictionaryAssociationAt dictionary key K.hash K.storedEquals =
      some ((f (K.content m key)).getD nilOop) := by
  rw [dictionaryAssociationAt, if_neg h.ne_nilOop]
  cases hf : f (K.content m key) with
  | none =>
    obtain ⟨i, -, hscan, ht, -⟩ := h.scanFor_of_none hp hroom hf
    rw [hscan]
    exact congrArg some (dictionaryTable_eq_none.mp ht)
  | some e =>
    obtain ⟨i, -, hscan, ht⟩ := h.scanFor_of_some hp hf
    rw [hscan]
    exact congrArg some (dictionaryTable_eq_some.mp ht).1

/-- The table after a step that changes no cell of the dictionary. -/
theorem table_frame (h : DictionaryValid K m R dictionary n c f) {F : Set (ℕ × ℕ)}
    (hf : Frame m.limit F m m')
    (hF : ∀ p ∈ F, p.1 ≠ dictionary ∧ p.1 ≠ m.slot dictionary Field.array)
    (hkey : ∀ k e, f k = some e → (e, Field.key) ∉ F) :
    ∀ i < n, dictionaryTable K m' dictionary i = dictionaryTable K m dictionary i := by
  intro i hi
  have hdictionary : ∀ i, m'.slot dictionary i = m.slot dictionary i := fun i =>
    hf.slot dictionary h.shape.lt_limit i fun hmem => (hF _ hmem).1 rfl
  have harray : ∀ i, m'.slot (m.slot dictionary Field.array) i =
      m.slot (m.slot dictionary Field.array) i := fun i =>
    hf.slot _ h.shape.array_lt_limit i fun hmem => (hF _ hmem).2 rfl
  cases ht : dictionaryTable K m dictionary i with
  | none =>
    rw [dictionaryTable_eq_none, hdictionary, harray]
    exact dictionaryTable_eq_none.mp ht
  | some entry =>
    obtain ⟨k, e⟩ := entry
    obtain ⟨hslot, hne, hk⟩ := dictionaryTable_eq_some.mp ht
    have hentry := h.entry i hi k e ht
    have hek : m'.slot e Field.key = m.slot e Field.key :=
      hf.slot e hentry.lt_limit _ (hkey k e (h.represents.eq_some_of_slot hi ht))
    rw [dictionaryTable_eq_some, hdictionary, harray, hek]
    refine ⟨hslot, hne, ?_⟩
    rw [K.content_congr (K.probed_of_stored hentry.stored) (hf.sameBody hentry.live), hk]

/-- **The dictionary survives a step** that changes no cell of it and no key in it. -/
theorem frame (h : DictionaryValid K m R dictionary n c f) {F : Set (ℕ × ℕ)}
    (hf : Frame m.limit F m m')
    (hF : ∀ p ∈ F, p.1 ≠ dictionary ∧ p.1 ≠ m.slot dictionary Field.array)
    (hkey : ∀ k e, f k = some e → (e, Field.key) ∉ F) (hR : ∀ o ∈ R, o < m.limit → o ∈ R') :
    DictionaryValid K m' R' dictionary n c f := by
  have htable := h.table_frame hf hF hkey
  have harray : m'.slot dictionary Field.array = m.slot dictionary Field.array :=
    hf.slot dictionary h.shape.lt_limit _ fun hmem => (hF _ hmem).1 rfl
  refine ⟨h.shape.frame hf hF hR, h.pos, h.ne_nilOop, ?_, fun i hi k e ht => ?_, ?_⟩
  · rw [occupied_congr htable]
    exact h.occupied_eq
  · rw [htable i hi] at ht
    have hentry := h.entry i hi k e ht
    refine hentry.frame hf (hkey k e (h.represents.eq_some_of_slot hi ht)) ?_
    rw [harray]
    exact hentry.ne_array
  · refine (h.represents.congr_home ?_).congr htable
    rintro i hi ⟨k, e⟩ ht
    have hentry := h.entry i hi k e ht
    obtain ⟨-, -, rfl⟩ := dictionaryTable_eq_some.mp ht
    exact congrArg (· % n)
      (K.hashOf_congr (K.probed_of_stored hentry.stored) (hf.sameBody hentry.live))

end DictionaryValid

/-! ### Storing an association -/

/-- The step from `m` to `m'` put an association at an index of the array of a dictionary, and
changed no other object but the dictionary itself. -/
structure StoredAt (m : ObjectMemory) (dictionary index e : ℕ) (m' : ObjectMemory) : Prop where
  array : m'.slot dictionary Field.array = m.slot dictionary Field.array
  element : m'.slot (m.slot dictionary Field.array) =
    Function.update (m.slot (m.slot dictionary Field.array)) index e
  other : ∀ o, o ≠ dictionary → o ≠ m.slot dictionary Field.array → m'.slot o = m.slot o
  header : m'.header = m.header
  byte : m'.byte = m.byte
  sizeWord : m'.sizeWord = m.sizeWord
  limit : m'.limit = m.limit

section StoredAt

variable {m m' : ObjectMemory} {R : Set ℕ} {dictionary n c c' index e : ℕ} {f : β → Option ℕ}

omit [KernelImage] in
theorem storedAt_setSlot (h : m.slot dictionary Field.array ≠ dictionary) :
    StoredAt m dictionary index e (m.setSlot (m.slot dictionary Field.array) index e) where
  array := congrFun (setSlot_slot_of_ne _ _ _ _ h.symm) _
  element := setSlot_slot_same _ _ _ _
  other _ _ ho := setSlot_slot_of_ne _ _ _ _ ho
  header := rfl
  byte := rfl
  sizeWord := rfl
  limit := rfl

omit [KernelImage] in
theorem storedAt_storeElement (h : m.slot dictionary Field.array ≠ dictionary) :
    StoredAt m dictionary index e (m.storeElement dictionary index e) where
  array := storeElement_collection h (by decide)
  element := funext fun i => storeElement_array h i
  other o ho harray := storeElement_of_ne ho harray
  header := rfl
  byte := rfl
  sizeWord := rfl
  limit := rfl

omit [KernelImage] in
theorem StoredAt.sameBody (h : StoredAt m dictionary index e m') (o : ℕ) : SameBody m m' o :=
  Or.inr ⟨by rw [h.header], by rw [h.byte], by rw [h.sizeWord]⟩

omit [KernelImage] in
theorem StoredAt.entry (h : StoredAt m dictionary index e m') {a : ℕ}
    (ha : DictionaryEntry K m dictionary a) :
    DictionaryEntry K m' dictionary a ∧
      K.content m' (m'.slot a Field.key) = K.content m (m.slot a Field.key) := by
  have hslot := h.other a ha.ne_dictionary ha.ne_array
  refine ⟨⟨?_, ?_, ?_, ha.ne_dictionary, ?_⟩, ?_⟩
  · rw [hslot]
    exact K.stored_congr ha.stored (h.sameBody _)
  · rw [hslot]
    exact ha.live.imp_right fun hlt => h.limit ▸ hlt
  · rw [h.limit]
    exact ha.lt_limit
  · rw [h.array]
    exact ha.ne_array
  · rw [hslot]
    exact K.content_congr (K.probed_of_stored ha.stored) (h.sameBody _)

/-- The table after a store. -/
theorem DictionaryValid.table_storedAt (hd : DictionaryValid K m R dictionary n c f)
    (h : StoredAt m dictionary index e m') (he : DictionaryEntry K m dictionary e)
    (hne : e ≠ nilOop) :
    ∀ i < n, dictionaryTable K m' dictionary i = Function.update (dictionaryTable K m dictionary)
      index (some (K.content m (m.slot e Field.key), e)) i := by
  intro i hi
  by_cases hindex : i = index
  · subst hindex
    rw [Function.update_self, dictionaryTable_eq_some, h.array, h.element, Function.update_self]
    exact ⟨rfl, hne, (h.entry he).2⟩
  · rw [Function.update_of_ne hindex]
    cases ht : dictionaryTable K m dictionary i with
    | none =>
      rw [dictionaryTable_eq_none, h.array, h.element, Function.update_of_ne hindex]
      exact dictionaryTable_eq_none.mp ht
    | some entry =>
      obtain ⟨k, a⟩ := entry
      obtain ⟨hslot, hne', hk⟩ := dictionaryTable_eq_some.mp ht
      rw [dictionaryTable_eq_some, h.array, h.element, Function.update_of_ne hindex]
      exact ⟨hslot, hne', (h.entry (hd.entry i hi k a ht)).2.trans hk⟩

/-- A dictionary after an association was stored where its key belongs. -/
theorem DictionaryValid.storedAt (hd : DictionaryValid K m R dictionary n c f)
    (h : StoredAt m dictionary index e m') (he : DictionaryEntry K m dictionary e)
    (hne : e ≠ nilOop) (hshape : HashedShape m' R dictionary n c')
    (hoccupied : occupied n (Function.update (dictionaryTable K m dictionary) index
      (some (K.content m (m.slot e Field.key), e))) = c')
    {g : β → Option ℕ} (hupdate : Represents n (fun k => K.hashOf m k % n)
      (Function.update (dictionaryTable K m dictionary) index
        (some (K.content m (m.slot e Field.key), e))) g) :
    DictionaryValid K m' R dictionary n c' g := by
  have htable := hd.table_storedAt h he hne
  -- every entry of the new table was an entry before, or is the new one
  have hentry : ∀ i < n, ∀ k a, dictionaryTable K m' dictionary i = some (k, a) →
      DictionaryEntry K m dictionary a ∧ k = K.content m (m.slot a Field.key) := by
    intro i hi k a ht
    rw [htable i hi] at ht
    by_cases hindex : i = index
    · rw [hindex, Function.update_self] at ht
      obtain ⟨rfl, rfl⟩ := Prod.mk.inj (Option.some.inj ht)
      exact ⟨he, rfl⟩
    · rw [Function.update_of_ne hindex] at ht
      exact ⟨hd.entry i hi k a ht, (dictionaryTable_eq_some.mp ht).2.2.symm⟩
  refine ⟨hshape, hd.pos, hd.ne_nilOop, ?_, fun i hi k a ht => ?_, ?_⟩
  · rw [occupied_congr htable]
    exact hoccupied
  · exact (h.entry (hentry i hi k a ht).1).1
  · refine (hupdate.congr htable).congr_home ?_
    rintro i hi ⟨k, a⟩ ht
    obtain ⟨ha, rfl⟩ := hentry i hi k a ht
    exact congrArg (· % n) (K.hashOf_congr (K.probed_of_stored ha.stored) (h.sameBody _))

variable [DecidableEq β]

/-- Storing an association with a new key in the slot it belongs in. -/
theorem DictionaryValid.storeElement (hd : DictionaryValid K m R dictionary n c f)
    (he : DictionaryEntry K m dictionary e) (hne : e ≠ nilOop)
    (hf : f (K.content m (m.slot e Field.key)) = none) (hindex : index < n)
    (hslot : dictionaryTable K m dictionary index = none)
    (hreached : Reached n (dictionaryTable K m dictionary)
      (K.hashOf m (K.content m (m.slot e Field.key)) % n) index) :
    DictionaryValid K (m.storeElement dictionary index e) R dictionary n (c + 1)
      (Function.update f (K.content m (m.slot e Field.key)) (some e)) := by
  refine hd.storedAt (storedAt_storeElement hd.shape.array_ne) he hne (hd.shape.store index e) ?_ ?_
  · rw [occupied_update_of_none hindex hslot, hd.occupied_eq]
  · exact hd.represents.update hindex e (Or.inl ⟨hslot, hf, hreached⟩)

/-- Replacing the association of a key. -/
theorem DictionaryValid.replaceElement (hd : DictionaryValid K m R dictionary n c f)
    (he : DictionaryEntry K m dictionary e) (hne : e ≠ nilOop) (hindex : index < n) {a : ℕ}
    (hslot : dictionaryTable K m dictionary index =
      some (K.content m (m.slot e Field.key), a)) :
    DictionaryValid K (m.setSlot (m.slot dictionary Field.array) index e) R dictionary n c
      (Function.update f (K.content m (m.slot e Field.key)) (some e)) := by
  have harray : (m.setSlot (m.slot dictionary Field.array) index e).slot dictionary =
      m.slot dictionary := setSlot_slot_of_ne _ _ _ _ hd.shape.array_ne.symm
  refine hd.storedAt (storedAt_setSlot hd.shape.array_ne) he hne ?_ ?_ ?_
  · have hshape := hd.shape
    refine ⟨hshape.mem, hshape.lt_limit, ?_, ?_, ?_, ?_, ?_⟩
    · rw [harray]; exact hshape.array_mem
    · rw [harray]; exact hshape.array_lt_limit
    · rw [harray]; exact hshape.array_ne
    · rw [harray]; exact hshape.basicSize
    · rw [harray]; exact hshape.tally
  · rw [occupied_update_of_some hslot, hd.occupied_eq]
  · exact hd.represents.update hindex e (Or.inr ⟨a, hslot⟩)

end StoredAt

/-! ### Growing -/

namespace DictionaryValid

variable {m : ObjectMemory} {R : Set ℕ} {dictionary n c e : ℕ} {f : β → Option ℕ}

/-- Adding an association with a new key puts it into a free slot. -/
theorem addAssociationLoop_of_none (h : DictionaryValid K m R dictionary n c f) (hne : e ≠ nilOop)
    {i : ℕ} (hscan : m.dictionaryScanFor dictionary (m.slot e Field.key) K.hash K.storedEquals =
      some (some i)) (hslot : dictionaryTable K m dictionary i = none) (fuel : ℕ) :
    dictionaryAddAssociationLoop K.hash K.storedEquals dictionary (fuel + 1) m e =
      m.dictionaryInsert dictionary i e
        (dictionaryAddAssociationLoop K.hash K.storedEquals dictionary fuel) := by
  have hnil : ¬ m.slot (m.slot dictionary Field.array) i ≠ nilOop :=
    not_not.mpr (dictionaryTable_eq_none.mp hslot)
  rw [dictionaryAddAssociationLoop, if_neg (by simp [h.ne_nilOop, hne]), hscan]
  exact if_neg hnil

/-- Half way through the reinsertion loop of `slvm_Dictionary_grow`, which began in the memory `m`
with the new array of `n'` slots. -/
structure Regrown (K : KeyScheme β) (m : ObjectMemory) (R : Set ℕ) (dictionary n' i : ℕ)
    (s : ObjectMemory) : Prop where
  rehashed : ∃ g, DictionaryValid K s (R ∪ {p | m.limit ≤ p}) dictionary n'
      (occupied i (dictionaryTable K m dictionary)) g ∧
    Rehashed (dictionaryTable K m dictionary) i n' (fun k => K.hashOf s k % n')
      (dictionaryTable K s dictionary) g
  frame : Frame m.limit {p | p.1 = dictionary} m s
  array_ge : m.limit ≤ s.slot dictionary Field.array

/-- The loop starts with an empty table. -/
theorem regrown_start (h : DictionaryValid K m R dictionary n c f) (hk : KernelFormats m)
    {n' : ℕ} (hn : 0 < n') :
    ∃ array s, (m.setSlot dictionary Field.tally (encodeSmallInteger 0)).kernelNew .Array n' =
      some (array, s) ∧ Regrown K m R dictionary n' 0 (s.setSlot dictionary Field.array array) := by
  have hformats : KernelFormats (m.setSlot dictionary Field.tally (encodeSmallInteger 0)) :=
    hk.setSlot (by decide)
  obtain ⟨array, s, hnew, halloc, -, hnil⟩ :=
    @KernelFormats.kernelNew_pointers _ _ hformats .Array (by decide) n'
  rw [show KernelClass.Array.info.fixedSize + n' = n' from Nat.zero_add n'] at halloc hnil
  have hdictionary := h.shape.lt_limit
  have harray : m.limit < array := halloc.limit_lt
  have hlt : array < s.limit := halloc.lt_limit
  have hframe : Frame m.limit {p | p.1 = dictionary} m (s.setSlot dictionary Field.array array) :=
    ((Frame.setSlot_object m.limit m dictionary _ _).trans
      (halloc.frame.mono (Nat.le_refl _) (by simp))).trans
      (Frame.setSlot_object m.limit s dictionary _ _)
  have htable : ∀ i < n',
      dictionaryTable K (s.setSlot dictionary Field.array array) dictionary i = none := by
    intro i hi
    rw [dictionaryTable_eq_none, setSlot_slot_self,
      setSlot_slot_of_ne _ _ _ _ (by omega : array ≠ dictionary), hnil i hi]
  refine ⟨array, s, hnew, ⟨⟨fun _ => none, ⟨⟨Or.inl h.shape.mem, ?_, ?_, ?_, ?_, ?_, ?_⟩, hn,
    h.ne_nilOop, ?_, fun i hi k e ht => ?_, (represents_none n' _).congr htable⟩,
    (Rehashed.start _ n' _).congr htable⟩, hframe, ?_⟩⟩
  · exact hdictionary.trans_le hframe.limit_le
  · rw [setSlot_slot_self]
    exact Or.inr harray.le
  · rw [setSlot_slot_self]
    exact hlt
  · rw [setSlot_slot_self]
    omega
  · rw [setSlot_slot_self]
    exact halloc.basicSize
  · rw [setSlot_slot_of_ne_index _ _ _ _ (by decide),
      halloc.frame.slot dictionary hdictionary _ (by simp), setSlot_slot_self, occupied_zero]
  · rw [occupied_congr htable, occupied_none, occupied_zero]
  · rw [htable i hi] at ht
    cases ht
  · rw [setSlot_slot_self]
    exact harray.le

variable [DecidableEq β]

/-- The new array has room for the next association, and does not become full. -/
theorem regrown_store (h : DictionaryValid K m R dictionary n c f) {i : ℕ} (hi : i < n)
    {s : ObjectMemory} (hs : Regrown K m R dictionary (doubledArraySize n) i s) {k : β}
    (ht : dictionaryTable K m dictionary i = some (k, e)) :
    ∃ j, s.dictionaryScanFor dictionary (s.slot e Field.key) K.hash K.storedEquals =
        some (some j) ∧
      dictionaryTable K s dictionary j = none ∧
      (s.storeElement dictionary j e).hashedCollectionFullCondition dictionary = false ∧
      Regrown K m R dictionary (doubledArraySize n) (i + 1) (s.storeElement dictionary j e) := by
  obtain ⟨g, hvalid, hrehashed⟩ := hs.rehashed
  obtain ⟨hslot, hne, hcontent⟩ := dictionaryTable_eq_some.mp ht
  have he := h.entry i hi k e ht
  have hkey : s.slot e Field.key = m.slot e Field.key :=
    hs.frame.slot e he.lt_limit _ he.ne_dictionary
  have harray := hs.array_ge
  have he' : DictionaryEntry K s dictionary e := he.frame hs.frame he.ne_dictionary (by
    have := he.lt_limit
    omega)
  have hcontent' : K.content s (s.slot e Field.key) = k := by
    rw [hkey, K.content_congr (K.probed_of_stored he.stored) (hs.frame.sameBody he.live), hcontent]
  have hsucc : occupied (i + 1) (dictionaryTable K m dictionary) =
      occupied i (dictionaryTable K m dictionary) + 1 := by
    rw [occupied_succ, ht]
    rfl
  have hle := occupied_le i (dictionaryTable K m dictionary)
  have hdouble : n * 2 ≤ doubledArraySize n ∧ 4 ≤ doubledArraySize n := by
    simp only [doubledArraySize]
    split <;> omega
  -- its key has not been inserted yet
  have hnone : g (K.content s (s.slot e Field.key)) = none := by
    rw [hcontent']
    exact hrehashed.not_mem h.represents.isTable hi ht
  obtain ⟨j, hj, hscan, hjslot, hreached⟩ :=
    hvalid.scanFor_of_none (K.probed_of_stored he'.stored) (by omega) hnone
  have hstored := hvalid.storeElement he' hne hnone hj hjslot hreached
  have hfull := hstored.shape.fullCondition_iff hstored.tally_le
  have hstoredAt : StoredAt s dictionary j e (s.storeElement dictionary j e) :=
    storedAt_storeElement hvalid.shape.array_ne
  have htable := hvalid.table_storedAt hstoredAt he' hne
  rw [hcontent'] at hstored htable
  have hstep := hrehashed.store h.represents.isTable hi ht hj hjslot
    (hvalid.represents.update hj e (Or.inl ⟨hjslot, by rw [← hcontent', hnone], by
      rw [← hcontent']
      exact hreached⟩))
  refine ⟨j, hscan, hjslot, ?_, ⟨_, ?_, hstored.represents, hstep.entries, ?_⟩, ?_, ?_⟩
  · rw [Bool.eq_false_iff, ne_eq, hfull]
    omega
  · rw [hsucc]
    exact hstored
  · rw [occupied_congr htable]
    exact hstep.occupied
  · refine hs.frame.trans ((storeElement_frame m.limit).mono (Nat.le_refl _) ?_)
    intro p hp _ hcell
    rcases hcell with hcell | hcell
    · exact hcell
    · exact absurd (show p = s.slot dictionary Field.array from hcell) (by omega)
  · rw [storeElement_collection hvalid.shape.array_ne (by decide)]
    exact harray

omit [DecidableEq β] in
/-- A free slot is passed over. -/
theorem regrown_skip {i : ℕ} {s : ObjectMemory} {n' : ℕ}
    (hs : Regrown K m R dictionary n' i s) (ht : dictionaryTable K m dictionary i = none) :
    Regrown K m R dictionary n' (i + 1) s := by
  obtain ⟨g, hvalid, hrehashed⟩ := hs.rehashed
  refine ⟨⟨g, ?_, hrehashed.skip ht⟩, hs.frame, hs.array_ge⟩
  rw [occupied_succ, ht]
  exact hvalid

omit [DecidableEq β] in
/-- The old array is not changed by the loop. -/
theorem regrown_old (h : DictionaryValid K m R dictionary n c f) {i n' : ℕ} {s : ObjectMemory}
    (hs : Regrown K m R dictionary n' i s) :
    s.slot (m.slot dictionary Field.array) i = m.slot (m.slot dictionary Field.array) i :=
  hs.frame.slot _ h.shape.array_lt_limit i h.shape.array_ne

/-- One round of the loop. -/
theorem regrown_step (h : DictionaryValid K m R dictionary n c f) (fuel : ℕ) {i : ℕ} (hi : i < n)
    {s : ObjectMemory} (hs : Regrown K m R dictionary (doubledArraySize n) i s) :
    ∃ s', (if s.slot (m.slot dictionary Field.array) i = nilOop then some s
        else dictionaryAddAssociationLoop K.hash K.storedEquals dictionary (fuel + 1) s
          (s.slot (m.slot dictionary Field.array) i)) = some s' ∧
      Regrown K m R dictionary (doubledArraySize n) (i + 1) s' := by
  have hold := h.regrown_old hs
  cases ht : dictionaryTable K m dictionary i with
  | none =>
    refine ⟨s, ?_, regrown_skip hs ht⟩
    rw [hold, if_pos (dictionaryTable_eq_none.mp ht)]
  | some entry =>
    obtain ⟨k, e⟩ := entry
    obtain ⟨hslot, hne, -⟩ := dictionaryTable_eq_some.mp ht
    obtain ⟨j, hscan, hjslot, hnotfull, hs'⟩ := h.regrown_store hi hs ht
    obtain ⟨g, hvalid, -⟩ := hs.rehashed
    refine ⟨s.storeElement dictionary j e, ?_, hs'⟩
    rw [hold, hslot, if_neg hne, hvalid.addAssociationLoop_of_none hne hscan hjslot,
      dictionaryInsert, hnotfull]
    rfl

/-- **`slvm_Dictionary_grow`** keeps all associations and doubles the array. -/
theorem grow (h : DictionaryValid K m R dictionary n c f) (hk : KernelFormats m) (fuel : ℕ) :
    ∃ m', m.dictionaryGrow dictionary
        (dictionaryAddAssociationLoop K.hash K.storedEquals dictionary (fuel + 1)) = some m' ∧
      Frame m.limit {p | p.1 = dictionary} m m' ∧
      DictionaryValid K m' (R ∪ {p | m.limit ≤ p}) dictionary (doubledArraySize n) c f := by
  have hpos : 0 < doubledArraySize n := by
    simp only [doubledArraySize]
    split <;> omega
  obtain ⟨array, s, hnew, hstart⟩ := h.regrown_start hk hpos
  obtain ⟨m', hloop, hend⟩ :=
    foldlM_range hstart fun i hi s hs => h.regrown_step fuel hi hs
  obtain ⟨g, hvalid, hrehashed⟩ := hend.rehashed
  obtain rfl := hrehashed.finish h.represents
  rw [h.occupied_eq] at hvalid
  refine ⟨m', ?_, hend.frame, hvalid⟩
  rw [dictionaryGrow, h.shape.basicSize, hnew]
  exact hloop

/-! ### Inserting -/

/-- **Inserting an association** with a new key succeeds, binds the key, and leaves room. -/
theorem insert (h : DictionaryValid K m R dictionary n c f) (hk : KernelFormats m)
    (hR : ∀ k, kernelClass k ∉ R) (he : DictionaryEntry K m dictionary e) (hne : e ≠ nilOop)
    (hf : f (K.content m (m.slot e Field.key)) = none) {index : ℕ} (hindex : index < n)
    (hslot : dictionaryTable K m dictionary index = none)
    (hreached : Reached n (dictionaryTable K m dictionary)
      (K.hashOf m (K.content m (m.slot e Field.key)) % n) index) (fuel : ℕ) :
    ∃ m' n' c', m.dictionaryInsert dictionary index e
        (dictionaryAddAssociationLoop K.hash K.storedEquals dictionary (fuel + 1)) = some m' ∧
      Frame m.limit {p | p.1 = dictionary ∨ p.1 = m.slot dictionary Field.array} m m' ∧
      DictionaryValid K m' (R ∪ {p | m.limit ≤ p}) dictionary n' c'
        (Function.update f (K.content m (m.slot e Field.key)) (some e)) ∧ c' < n' := by
  have hstored := h.storeElement he hne hf hindex hslot hreached
  have hframe : Frame m.limit _ m (m.storeElement dictionary index e) := storeElement_frame m.limit
  have hfull := hstored.shape.fullCondition_iff hstored.tally_le
  have htally := hstored.tally_le
  by_cases hcond : (m.storeElement dictionary index e).hashedCollectionFullCondition
    dictionary = true
  · have hk' : KernelFormats (m.storeElement dictionary index e) := by
      refine hk.frame hframe hk.lt_limit fun k hcell => ?_
      rcases hcell with hcell | hcell
      · exact hR k ((show kernelClass k = dictionary from hcell) ▸ h.shape.mem)
      · exact hR k ((show kernelClass k = m.slot dictionary Field.array from hcell) ▸
          h.shape.array_mem)
    obtain ⟨m', hgrow, hframe', hvalid⟩ := hstored.grow hk' fuel
    refine ⟨m', _, _, ?_, hframe.trans (hframe'.mono (Nat.le_refl _) ?_), hvalid, ?_⟩
    · rw [dictionaryInsert, hcond]
      exact hgrow
    · exact fun p _ i hcell => Or.inl hcell
    · simp only [doubledArraySize]
      split <;> omega
  · refine ⟨_, n, c + 1, ?_, hframe, hstored.mono Set.subset_union_left, ?_⟩
    · rw [dictionaryInsert, if_neg hcond]
    · rw [hfull] at hcond
      omega

/-- **`slvm_Dictionary_addAssociation`** binds the key of the association to it, whatever the key
was bound to; any fuel from 2 on is enough. -/
theorem addAssociationLoop (h : DictionaryValid K m R dictionary n c f) (hroom : c < n)
    (hk : KernelFormats m) (hR : ∀ k, kernelClass k ∉ R) (he : DictionaryEntry K m dictionary e)
    (hne : e ≠ nilOop) (fuel : ℕ) :
    ∃ m' n' c', dictionaryAddAssociationLoop K.hash K.storedEquals dictionary (fuel + 2) m e =
        some m' ∧
      Frame m.limit {p | p.1 = dictionary ∨ p.1 = m.slot dictionary Field.array} m m' ∧
      DictionaryValid K m' (R ∪ {p | m.limit ≤ p}) dictionary n' c'
        (Function.update f (K.content m (m.slot e Field.key)) (some e)) ∧ c' < n' := by
  have hp := K.probed_of_stored he.stored
  cases hf : f (K.content m (m.slot e Field.key)) with
  | none =>
    obtain ⟨i, hi, hscan, hslot, hreached⟩ := h.scanFor_of_none hp hroom hf
    obtain ⟨m', n', c', hinsert, hrest⟩ := h.insert hk hR he hne hf hi hslot hreached fuel
    refine ⟨m', n', c', ?_, hrest⟩
    rw [h.addAssociationLoop_of_none hne hscan hslot]
    exact hinsert
  | some a =>
    obtain ⟨i, hi, hscan, hslot⟩ := h.scanFor_of_some hp hf
    have hused : m.slot (m.slot dictionary Field.array) i ≠ nilOop := by
      obtain ⟨rfl, ha, -⟩ := dictionaryTable_eq_some.mp hslot
      exact ha
    refine ⟨m.setSlot (m.slot dictionary Field.array) i e, n, c, ?_, ?_,
      (h.replaceElement he hne hi hslot).mono Set.subset_union_left, hroom⟩
    · rw [dictionaryAddAssociationLoop, if_neg (by simp [h.ne_nilOop, hne]), hscan]
      exact if_pos hused
    · exact Frame.setSlot m.limit m (Or.inl (Or.inr rfl)) e

/-- The same for the source's function. -/
theorem addAssociation (h : DictionaryValid K m R dictionary n c f) (hroom : c < n)
    (hk : KernelFormats m) (hR : ∀ k, kernelClass k ∉ R) (he : DictionaryEntry K m dictionary e)
    (hne : e ≠ nilOop) :
    ∃ m' n' c', m.dictionaryAddAssociation dictionary e K.hash K.storedEquals = some m' ∧
      Frame m.limit {p | p.1 = dictionary ∨ p.1 = m.slot dictionary Field.array} m m' ∧
      DictionaryValid K m' (R ∪ {p | m.limit ≤ p}) dictionary n' c'
        (Function.update f (K.content m (m.slot e Field.key)) (some e)) ∧ c' < n' :=
  h.addAssociationLoop hroom hk hR he hne 0

/-! ### Identity dictionaries -/

section Identity

variable {g : ℕ → Option ℕ} {key : ℕ}

omit [DecidableEq β]

/-- Scanning for a bound key. -/
theorem identityScanFor_of_some (h : DictionaryValid identityScheme m R dictionary n c g)
    (hg : g key = some e) :
    ∃ i < n, m.identityDictionaryScanFor dictionary key = some (some i) ∧
      m.slot (m.slot dictionary Field.array) i = e ∧ e ≠ nilOop := by
  have hprobed : identityScheme.Probed m key := trivial
  obtain ⟨i, hi, hscan, hslot⟩ := h.scanFor_of_some hprobed hg
  obtain ⟨he, hne, -⟩ := dictionaryTable_eq_some.mp hslot
  exact ⟨i, hi, hscan, he, hne⟩

/-- Scanning for an unbound key. -/
theorem identityScanFor_of_none (h : DictionaryValid identityScheme m R dictionary n c g)
    (hroom : c < n) (hg : g key = none) :
    ∃ i < n, m.identityDictionaryScanFor dictionary key = some (some i) ∧
      dictionaryTable identityScheme m dictionary i = none ∧
      Reached n (dictionaryTable identityScheme m dictionary) (m.identityHash key % n) i := by
  have hprobed : identityScheme.Probed m key := trivial
  exact h.scanFor_of_none hprobed hroom hg

/-- **`slvm_IdentityDictionary_atOrNil`** -/
theorem atOrNil (h : DictionaryValid identityScheme m R dictionary n c g) (hroom : c < n)
    (key : ℕ) :
    m.identityDictionaryAtOrNil dictionary key =
      some (((g key).map fun e => m.slot e Field.value).getD nilOop) := by
  rw [identityDictionaryAtOrNil, if_neg h.ne_nilOop]
  cases hg : g key with
  | none =>
    obtain ⟨i, -, hscan, hslot, -⟩ := h.identityScanFor_of_none hroom hg
    rw [hscan]
    exact congrArg some (if_pos (dictionaryTable_eq_none.mp hslot))
  | some e =>
    obtain ⟨i, -, hscan, rfl, hne⟩ := h.identityScanFor_of_some hg
    rw [hscan]
    exact congrArg some (if_neg hne)

/-- The insertion of an identity dictionary. -/
theorem identityInsert (h : DictionaryValid identityScheme m R dictionary n c g)
    (hk : KernelFormats m) (hR : ∀ k, kernelClass k ∉ R)
    (he : DictionaryEntry identityScheme m dictionary e) (hne : e ≠ nilOop)
    (hg : g (m.slot e Field.key) = none) {index : ℕ} (hindex : index < n)
    (hslot : dictionaryTable identityScheme m dictionary index = none)
    (hreached : Reached n (dictionaryTable identityScheme m dictionary)
      (m.identityHash (m.slot e Field.key) % n) index) :
    ∃ m' n' c', m.identityDictionaryInsert dictionary index e = some m' ∧
      Frame m.limit {p | p.1 = dictionary ∨ p.1 = m.slot dictionary Field.array} m m' ∧
      DictionaryValid identityScheme m' (R ∪ {p | m.limit ≤ p}) dictionary n' c'
        (Function.update g (m.slot e Field.key) (some e)) ∧ c' < n' :=
  h.insert hk hR he hne hg hindex hslot hreached 1

/-- **`slvm_IdentityDictionary_addAssociationIfNotExistent`** of a bound key returns the
association there is, and changes nothing. -/
theorem addAssociationIfNotExistent_of_some {a : ℕ}
    (h : DictionaryValid identityScheme m R dictionary n c g) (hne : e ≠ nilOop)
    (hg : g (m.slot e Field.key) = some a) :
    m.identityDictionaryAddAssociationIfNotExistent dictionary e = some (a, m) := by
  obtain ⟨i, -, hscan, ha, hne'⟩ := h.identityScanFor_of_some hg
  rw [identityDictionaryAddAssociationIfNotExistent, if_neg (by simp [h.ne_nilOop, hne]), hscan]
  simp only [Option.bind_eq_bind, Option.bind_some, ha, hne', if_false]
  rfl

/-- **`slvm_IdentityDictionary_addAssociationIfNotExistent`** of an unbound key binds it to the
association. -/
theorem addAssociationIfNotExistent_of_none
    (h : DictionaryValid identityScheme m R dictionary n c g) (hroom : c < n)
    (hk : KernelFormats m) (hR : ∀ k, kernelClass k ∉ R)
    (he : DictionaryEntry identityScheme m dictionary e) (hne : e ≠ nilOop)
    (hg : g (m.slot e Field.key) = none) :
    ∃ m' n' c', m.identityDictionaryAddAssociationIfNotExistent dictionary e = some (e, m') ∧
      Frame m.limit {p | p.1 = dictionary ∨ p.1 = m.slot dictionary Field.array} m m' ∧
      DictionaryValid identityScheme m' (R ∪ {p | m.limit ≤ p}) dictionary n' c'
        (Function.update g (m.slot e Field.key) (some e)) ∧ c' < n' := by
  obtain ⟨i, hi, hscan, hslot, hreached⟩ := h.identityScanFor_of_none hroom hg
  obtain ⟨m', n', c', hinsert, hrest⟩ := h.identityInsert hk hR he hne hg hi hslot hreached
  refine ⟨m', n', c', ?_, hrest⟩
  rw [identityDictionaryAddAssociationIfNotExistent, if_neg (by simp [h.ne_nilOop, hne]), hscan]
  simp only [Option.bind_eq_bind, Option.bind_some, dictionaryTable_eq_none.mp hslot, if_true,
    hinsert]
  rfl

/-- **`slvm_IdentityDictionary_atPutWithAssociationClass`** of a bound key stores into its
association. -/
theorem atPut_of_some (h : DictionaryValid identityScheme m R dictionary n c g)
    (hg : g key = some e) (value associationClass : ℕ) :
    m.identityDictionaryAtPutWithAssociationClass dictionary key value associationClass =
        some (m.setSlot e Field.value value) ∧
      DictionaryValid identityScheme (m.setSlot e Field.value value) R dictionary n c g := by
  obtain ⟨i, -, hscan, ha, hne⟩ := h.identityScanFor_of_some hg
  have he := (h.of_some hg).1
  constructor
  · rw [identityDictionaryAtPutWithAssociationClass, if_neg h.ne_nilOop, hscan]
    simp only [Option.bind_eq_bind, Option.bind_some, ha, hne, if_false]
    rfl
  · refine h.frame (Frame.setSlot_cell m.limit m e Field.value value) ?_ (by simp) fun o ho _ => ho
    rintro p rfl
    exact ⟨he.ne_dictionary, he.ne_array⟩

/-- **`slvm_IdentityDictionary_atPutWithAssociationClass`** of an unbound key binds it to a new
association. -/
theorem atPut_of_none_made (h : DictionaryValid identityScheme m R dictionary n c g) (hroom : c < n)
    (hk : KernelFormats m) (hR : ∀ k, kernelClass k ∉ R) (hlive : m.Live key)
    (hg : g key = none) (value associationClass : ℕ) :
    ∃ e m' n' c', m.identityDictionaryAtPutWithAssociationClass dictionary key value
        associationClass = some m' ∧
      Frame m.limit {p | p.1 = dictionary ∨ p.1 = m.slot dictionary Field.array} m m' ∧
      DictionaryValid identityScheme m' (R ∪ {p | m.limit ≤ p}) dictionary n' c'
        (Function.update g key (some e)) ∧ c' < n' ∧
      MadeAssociation m (m.header (kernelClass .Association)).identityHash key value e m' := by
  obtain ⟨e, m₁, hmake, hframe₁, hnew⟩ :=
    associationMakeWithClass_made hk associationClass key value
  obtain ⟨i, hi, hscan, hslot, hreached⟩ := h.identityScanFor_of_none hroom hg
  have hdictionary := h.shape.lt_limit
  have harray₁ : m₁.slot dictionary Field.array = m.slot dictionary Field.array :=
    hframe₁.slot dictionary hdictionary _ (by simp)
  have hk₁ : KernelFormats m₁ := hk.frame hframe₁ hk.lt_limit (by simp)
  -- making the association has not changed the dictionary
  have hvalid₁ : DictionaryValid identityScheme m₁ R dictionary n c g :=
    h.frame hframe₁ (by simp) (by simp) fun o ho _ => ho
  have htable₁ := h.table_frame hframe₁ (by simp) (by simp)
  have hash₁ : m₁.identityHash key = m.identityHash key :=
    (hframe₁.sameBody hlive).identityHash
  have hlimit := hnew.limit_lt
  have he : DictionaryEntry identityScheme m₁ dictionary e := by
    refine ⟨trivial, ?_, hnew.lt_limit, by omega, ?_⟩
    · rw [hnew.key]
      exact hframe₁.live hlive
    · have := h.shape.array_lt_limit
      omega
  obtain ⟨m', n', c', hinsert, hframe', hvalid', hroom'⟩ :=
    hvalid₁.identityInsert hk₁ hR he (by have := hk.lt_limit .nil; unfold nilOop; omega)
      (by rw [hnew.key, hg]) hi (by rw [htable₁ i hi, hslot])
      (by rw [hnew.key, hash₁]; exact hreached.congr htable₁)
  rw [hnew.key] at hvalid'
  rw [harray₁] at hframe'
  refine ⟨e, m', n', c', ?_, (hframe₁.mono (Nat.le_refl _) (by simp)).trans
    (hframe'.mono hframe₁.limit_le fun _ _ _ h => h), hvalid'.mono ?_, hroom',
    hnew.frame hframe' fun i hcell => ?_⟩
  · rw [identityDictionaryAtPutWithAssociationClass, if_neg h.ne_nilOop, hscan]
    simp only [Option.bind_eq_bind, Option.bind_some, dictionaryTable_eq_none.mp hslot, if_true,
      hmake]
    exact hinsert
  · rintro p (hp | hp)
    · exact Or.inl hp
    · exact Or.inr (hframe₁.limit_le.trans hp)
  · rcases hcell with hcell | hcell
    · exact he.ne_dictionary hcell
    · exact he.ne_array (hcell.trans harray₁.symm)

/-- The same with the class of the association. -/
theorem atPut_of_none (h : DictionaryValid identityScheme m R dictionary n c g) (hroom : c < n)
    (hk : KernelIntact m) (hR : ∀ k, kernelClass k ∉ R) (hlive : m.Live key)
    (hg : g key = none) (value associationClass : ℕ) :
    ∃ e m' n' c', m.identityDictionaryAtPutWithAssociationClass dictionary key value
        associationClass = some m' ∧
      Frame m.limit {p | p.1 = dictionary ∨ p.1 = m.slot dictionary Field.array} m m' ∧
      DictionaryValid identityScheme m' (R ∪ {p | m.limit ≤ p}) dictionary n' c'
        (Function.update g key (some e)) ∧ c' < n' ∧ NewAssociation m key value e m' := by
  obtain ⟨e, m', n', c', hput, hframe, hvalid, hroom', hmade⟩ :=
    h.atPut_of_none_made hroom hk.formats hR hlive hg value associationClass
  rw [hk.identityHash_kernelClass] at hmade
  exact ⟨e, m', n', c', hput, hframe, hvalid, hroom', hmade.new⟩

end Identity

end DictionaryValid

/-! ### New dictionaries -/

/-- A new dictionary with an array of `n` nils. -/
structure NewDictionary (m : ObjectMemory) (classIndex n dictionary : ℕ) (m' : ObjectMemory) :
    Prop where
  frame : Frame m.limit ∅ m m'
  limit_lt : m.limit < dictionary
  lt_array : dictionary < m'.slot dictionary Field.array
  array_lt : m'.slot dictionary Field.array < m'.limit
  pointers : oopIsPointers dictionary
  classIndex : (m'.header dictionary).classIndex = classIndex
  arrayClass : (m'.header (m'.slot dictionary Field.array)).classIndex = KernelClass.Array.index
  basicSize : m'.basicSize (m'.slot dictionary Field.array) = n
  tally : m'.slot dictionary Field.tally = encodeSmallInteger 0
  element : ∀ i < n, m'.slot (m'.slot dictionary Field.array) i = nilOop

/-- The same, with the index the class of the array has. -/
structure MadeDictionary (m : ObjectMemory) (classIndex arrayClass n dictionary : ℕ)
    (m' : ObjectMemory) : Prop where
  frame : Frame m.limit ∅ m m'
  limit_lt : m.limit < dictionary
  lt_array : dictionary < m'.slot dictionary Field.array
  array_lt : m'.slot dictionary Field.array < m'.limit
  pointers : oopIsPointers dictionary
  classIndex : (m'.header dictionary).classIndex = classIndex
  arrayClass : (m'.header (m'.slot dictionary Field.array)).classIndex = arrayClass
  basicSize : m'.basicSize (m'.slot dictionary Field.array) = n
  tally : m'.slot dictionary Field.tally = encodeSmallInteger 0
  element : ∀ i < n, m'.slot (m'.slot dictionary Field.array) i = nilOop

theorem MadeDictionary.new {m m' : ObjectMemory} {classIndex n d : ℕ}
    (h : MadeDictionary m classIndex KernelClass.Array.index n d m') :
    NewDictionary m classIndex n d m' :=
  ⟨h.frame, h.limit_lt, h.lt_array, h.array_lt, h.pointers, h.classIndex, h.arrayClass,
    h.basicSize, h.tally, h.element⟩

theorem NewDictionary.made {m m' : ObjectMemory} {classIndex n d : ℕ}
    (h : NewDictionary m classIndex n d m') :
    MadeDictionary m classIndex KernelClass.Array.index n d m' :=
  ⟨h.frame, h.limit_lt, h.lt_array, h.array_lt, h.pointers, h.classIndex, h.arrayClass,
    h.basicSize, h.tally, h.element⟩

/-- **`slvm_Dictionary_newWithCapacity`** of any class with instances. -/
theorem dictionaryNewWithCapacity_made {m m₁ : ObjectMemory} (hk : KernelFormats m)
    {clazz d : ℕ} (hnew₁ : m.basicNew clazz 0 = some (d, m₁)) (n : ℕ) :
    ∃ m', m.dictionaryNewWithCapacity clazz n = some (d, m') ∧
      MadeDictionary m (m.header clazz).identityHash
        (m.header (kernelClass .Array)).identityHash n d m' ∧ m'.header d = m₁.header d := by
  have halloc₁ := basicNew_allocated hnew₁
  have hk₁ : KernelFormats m₁ := hk.frame halloc₁.frame hk.lt_limit (by simp)
  obtain ⟨array, m₂, hnew₂, halloc₂, -, hnil⟩ :=
    @KernelFormats.kernelNew_pointers _ _ hk₁ .Array (by decide) n
  have hclass : m₁.header (kernelClass .Array) = m.header (kernelClass .Array) :=
    halloc₁.frame.header _ (hk.lt_limit (.kernelClass .Array))
  rw [hclass] at halloc₂
  rw [show KernelClass.Array.info.fixedSize + n = n from Nat.zero_add n] at halloc₂ hnil
  have hlt := halloc₁.limit_lt
  have hlt₁ := halloc₁.lt_limit
  have hlt₂ := halloc₂.limit_lt
  have hle := halloc₂.frame.limit_le
  let m₃ := (m₂.setSlot d Field.array array).setSlot d Field.tally (encodeSmallInteger 0)
  have harray : m₃.slot d Field.array = array := by
    rw [setSlot_slot_of_ne_index _ _ _ _ (by decide), setSlot_slot_self]
  have hheader : m₃.header d = m₁.header d := halloc₂.frame.header d hlt₁
  refine ⟨m₃, ?_, ⟨?_, hlt, ?_, ?_, halloc₁.pointers, ?_, ?_, ?_, setSlot_slot_self _ _ _ _,
    fun i hi => ?_⟩, hheader⟩
  · rw [dictionaryNewWithCapacity, hnew₁]
    simp only [Option.bind_eq_bind, Option.bind_some, hnew₂]
    rfl
  · exact ((halloc₁.frame.trans (halloc₂.frame.mono halloc₁.frame.limit_le (by simp))).trans
      (Frame.setSlot m.limit m₂ (Or.inr hlt.le) array)).trans
      (Frame.setSlot m.limit _ (Or.inr hlt.le) _)
  · rw [harray]
    omega
  · rw [harray]
    exact halloc₂.lt_limit
  · rw [hheader]
    exact halloc₁.classIndex
  · rw [harray]
    exact halloc₂.classIndex
  · rw [harray]
    exact halloc₂.basicSize
  · rw [harray, setSlot_slot_of_ne _ _ _ _ (by omega : array ≠ d),
      setSlot_slot_of_ne _ _ _ _ (by omega : array ≠ d), hnil i hi]

/-- The same for the kernel as compiled. -/
theorem dictionaryNewWithCapacity_of_basicNew {m m₁ : ObjectMemory} (hk : KernelIntact m)
    {clazz d : ℕ} (hnew₁ : m.basicNew clazz 0 = some (d, m₁)) (n : ℕ) :
    ∃ m', m.dictionaryNewWithCapacity clazz n = some (d, m') ∧
      NewDictionary m (m.header clazz).identityHash n d m' ∧ m'.header d = m₁.header d := by
  obtain ⟨m', hnew, hmade, hheader⟩ := dictionaryNewWithCapacity_made hk.formats hnew₁ n
  rw [hk.identityHash_kernelClass] at hmade
  exact ⟨m', hnew, hmade.new, hheader⟩

/-- The same for the kernel classes with pointer instances. -/
theorem dictionaryNewWithCapacity_spec {m : ObjectMemory} (hk : KernelIntact m) {c : KernelClass}
    (hc : c.info.format < ObjectFormat.indexable64) (n : ℕ) :
    ∃ d m', m.dictionaryNewWithCapacity (kernelClass c) n = some (d, m') ∧
      NewDictionary m c.index n d m' := by
  obtain ⟨d, m₁, hnew₁, -⟩ := hk.kernelNew_pointers hc 0
  obtain ⟨m', hnew, hd, -⟩ := dictionaryNewWithCapacity_of_basicNew hk hnew₁ n
  rw [hk.identityHash_kernelClass] at hd
  exact ⟨d, m', hnew, hd⟩

/-- **A new dictionary is empty.** -/
theorem MadeDictionary.valid {m m' : ObjectMemory} {classIndex arrayClass n d : ℕ}
    (hk : KernelFormats m) (h : MadeDictionary m classIndex arrayClass n d m') (hn : 0 < n) :
    DictionaryValid K m' {p | m.limit ≤ p} d n 0 fun _ => none := by
  have hlt := h.limit_lt
  have harray := h.lt_array
  have htable : ∀ i < n, dictionaryTable K m' d i = none := fun i hi =>
    dictionaryTable_eq_none.mpr (h.element i hi)
  refine ⟨⟨hlt.le, harray.trans h.array_lt, (hlt.trans harray).le, h.array_lt, harray.ne',
    h.basicSize, h.tally⟩, hn, ?_, ?_, fun i hi k e ht => ?_, (represents_none n _).congr htable⟩
  · have := hk.lt_limit .nil
    unfold nilOop
    omega
  · rw [occupied_congr htable, occupied_none]
  · rw [htable i hi] at ht
    cases ht

theorem NewDictionary.valid {m m' : ObjectMemory} {classIndex n d : ℕ} (hk : KernelIntact m)
    (h : NewDictionary m classIndex n d m') (hn : 0 < n) :
    DictionaryValid K m' {p | m.limit ≤ p} d n 0 fun _ => none :=
  h.made.valid hk.formats hn

end ObjectMemory

end SlvmNative
