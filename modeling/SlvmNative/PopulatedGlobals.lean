import SlvmNative.ClassVariables

/-!
# The associations of the globals

What is in the dictionary of the globals whatever the names are. A static heap may have a global
variable of any name, of a wide symbol or of no symbol at all. The dictionary then stands for no map
from names to associations, and an operation on it may fail; if it returns, everything in the
dictionary is still an object of its own: neither an immediate, nor the dictionary, nor its array.

## Main definitions

* `ObjectMemory.OwnAssociation` — an association next to the dictionary
* `ObjectMemory.Populated` — a dictionary of such associations
* `ObjectMemory.Repopulated` — what an insertion leaves behind

## Main results

* `ObjectMemory.dictionaryAddAssociationLoop_repopulated` — an insertion, with any key
* `ObjectMemory.Populated.addAssociationIfNotExistent`, `atPut`
* `World.GlobalsPopulated.run` — a registration
-/

namespace SlvmNative

open LinearProbing Relation

namespace ObjectMemory

variable {L dictionary index e : ℕ} {m m' : ObjectMemory}

/-- An association that is an object of its own, next to the dictionary and its array. -/
structure OwnAssociation (m : ObjectMemory) (dictionary e : ℕ) : Prop where
  pointers : oopIsPointers e
  lt_limit : e < m.limit
  ne_dictionary : e ≠ dictionary
  ne_array : e ≠ m.slot dictionary Field.array

theorem OwnAssociation.of_array (h : OwnAssociation m dictionary e) (hlimit : m.limit ≤ m'.limit)
    (harray : m'.slot dictionary Field.array = m.slot dictionary Field.array) :
    OwnAssociation m' dictionary e :=
  ⟨h.pointers, h.lt_limit.trans_le hlimit, h.ne_dictionary, harray ▸ h.ne_array⟩

variable [KernelImage]

/-- A dictionary made after the heap ended at `L`, with an array of such associations. -/
structure Populated (L : ℕ) (m : ObjectMemory) (dictionary : ℕ) : Prop
    extends MadeSince L m dictionary where
  intact : KernelIntact m
  kernel_ne : ∀ c, kernelClass c ≠ dictionary ∧ kernelClass c ≠ m.slot dictionary Field.array
  array_lt : m.slot dictionary Field.array < m.limit
  entry : ∀ i < m.basicSize (m.slot dictionary Field.array),
    m.slot (m.slot dictionary Field.array) i ≠ nilOop →
      OwnAssociation m dictionary (m.slot (m.slot dictionary Field.array) i)

/-- What an insertion leaves behind. It may have grown the dictionary. -/
structure Repopulated (L : ℕ) (m : ObjectMemory) (dictionary : ℕ) (m' : ObjectMemory) : Prop where
  populated : Populated L m' dictionary
  frame : Frame m.limit {p | p.1 = dictionary ∨ p.1 = m.slot dictionary Field.array} m m'
  array : m'.slot dictionary Field.array = m.slot dictionary Field.array ∨
    m.limit ≤ m'.slot dictionary Field.array

/-- Scanning finds an index of the array. -/
theorem dictionaryScanFor_lt {key : ℕ} {hash : ObjectMemory → ℕ → Option ℕ}
    {equals : ObjectMemory → ℕ → ℕ → Bool}
    (h : m.dictionaryScanFor dictionary key hash equals = some (some index)) :
    index < m.basicSize (m.slot dictionary Field.array) := by
  rw [dictionaryScanFor] at h
  split_ifs at h with hsize
  · cases Option.some.inj h
  · cases hhash : hash m key with
    | none =>
      rw [hhash] at h
      cases h
    | some hashed =>
      rw [hhash] at h
      exact (probe_lt (Nat.mod_lt _ (Nat.pos_of_ne_zero hsize)) (Option.some.inj h)).1

namespace Populated

/-- A step that changes no cell of the dictionary. -/
theorem frame (h : Populated L m dictionary) {F : Set (ℕ × ℕ)} (hf : Frame m.limit F m m')
    (hF : ∀ p ∈ F, p.1 ≠ dictionary ∧ p.1 ≠ m.slot dictionary Field.array)
    (hkernel : ∀ c, (kernelClass c, Field.format) ∉ F) : Populated L m' dictionary := by
  have harray : m'.slot dictionary Field.array = m.slot dictionary Field.array :=
    hf.slot _ h.lt_limit _ fun hmem => (hF _ hmem).1 rfl
  have hslot : m'.slot (m.slot dictionary Field.array) =
      m.slot (m.slot dictionary Field.array) := by
    funext i
    exact hf.slot _ h.array_lt i fun hmem => (hF _ hmem).2 rfl
  refine ⟨h.toMadeSince.of_array hf.limit_le harray, h.intact.frame hf h.intact.lt_limit hkernel,
    ?_, harray ▸ h.array_lt.trans_le hf.limit_le, ?_⟩
  · rw [harray]
    exact h.kernel_ne
  · intro i hi hne
    rw [harray, hf.basicSize h.array_lt] at hi
    rw [harray, hslot] at hne ⊢
    exact (h.entry i hi hne).of_array hf.limit_le harray

/-- A dictionary after an association was stored into its array. -/
theorem storedAt (h : Populated L m dictionary) (hs : StoredAt m dictionary index e m')
    (he : OwnAssociation m dictionary e) (hk : KernelIntact m') : Populated L m' dictionary := by
  refine ⟨h.toMadeSince.of_array hs.limit.ge hs.array, hk, ?_, ?_, fun i hi hne => ?_⟩
  · rw [hs.array]
    exact h.kernel_ne
  · rw [hs.array, hs.limit]
    exact h.array_lt
  rw [basicSize, hs.array, hs.header, hs.sizeWord] at hi
  rw [hs.array, hs.element] at hne ⊢
  have hown : OwnAssociation m dictionary
      (Function.update (m.slot (m.slot dictionary Field.array)) index e i) := by
    by_cases hindex : i = index
    · rw [hindex, Function.update_self]
      exact he
    · rw [Function.update_of_ne hindex] at hne ⊢
      exact h.entry i hi hne
  exact hown.of_array hs.limit.ge hs.array

theorem kernel_not_mem (h : Populated L m dictionary) (c : KernelClass) :
    (kernelClass c, Field.format) ∉
      {p : ℕ × ℕ | p.1 = dictionary ∨ p.1 = m.slot dictionary Field.array} := by
  rintro (heq | heq)
  · exact (h.kernel_ne c).1 heq
  · exact (h.kernel_ne c).2 heq

theorem storeElement (h : Populated L m dictionary) (he : OwnAssociation m dictionary e)
    (index : ℕ) : Repopulated L m dictionary (m.storeElement dictionary index e) where
  populated := h.storedAt (storedAt_storeElement h.array_ne) he (h.intact.frame
    (storeElement_frame m.limit) h.intact.lt_limit h.kernel_not_mem)
  frame := storeElement_frame m.limit
  array := Or.inl (storeElement_collection h.array_ne (by decide))

theorem replaceElement (h : Populated L m dictionary) (he : OwnAssociation m dictionary e)
    (index : ℕ) :
    Repopulated L m dictionary (m.setSlot (m.slot dictionary Field.array) index e) where
  populated := h.storedAt (storedAt_setSlot h.array_ne) he (h.intact.frame
    (Frame.setSlot m.limit m (Or.inl (Or.inr rfl)) e) h.intact.lt_limit h.kernel_not_mem)
  frame := Frame.setSlot m.limit m (Or.inl (Or.inr rfl)) e
  array := Or.inl (congrFun (setSlot_slot_of_ne _ _ _ _ h.array_ne.symm) _)

end Populated

/-- An insertion after a step that left the dictionary and its array alone, or not. -/
theorem Repopulated.trans {m₁ : ObjectMemory} (h : Repopulated L m dictionary m₁)
    (h' : Repopulated L m₁ dictionary m') :
    Repopulated L m dictionary m' where
  populated := h'.populated
  frame := by
    refine h.frame.trans (h'.frame.mono h.frame.limit_le fun o ho _ hcell => ?_)
    rcases hcell with hcell | hcell
    · exact Or.inl hcell
    · rcases h.array with harray | harray
      · exact Or.inr (harray ▸ hcell)
      · exact absurd (harray.trans_eq (show o = m₁.slot dictionary Field.array from hcell).symm)
          (Nat.not_le.mpr ho)
  array := by
    rcases h'.array with harray | harray
    · rw [harray]
      exact h.array
    · exact Or.inr (h.frame.limit_le.trans harray)

/-- **Growing** adds the associations of the old array to the new one. -/
theorem dictionaryGrow_repopulated {add : ObjectMemory → ℕ → Option ObjectMemory}
    (hadd : ∀ m e m', Populated L m dictionary → OwnAssociation m dictionary e →
      add m e = some m' → Repopulated L m dictionary m')
    (h : Populated L m dictionary) (hgrow : m.dictionaryGrow dictionary add = some m') :
    Repopulated L m dictionary m' := by
  simp only [dictionaryGrow, Option.bind_eq_bind, Option.bind_eq_some_iff] at hgrow
  obtain ⟨⟨array, m₁⟩, hnew, hloop⟩ := hgrow
  obtain ⟨hframe, hlimit, harray, -, hnil⟩ := dictionaryGrow_start h.intact h.lt_limit hnew
  have hlt := h.lt_limit
  have hle := h.le
  have hstart : Populated L (m₁.setSlot dictionary Field.array array) dictionary := by
    refine ⟨⟨hle, hlt.trans_le hframe.limit_le, ?_, ?_⟩, h.intact.frame hframe h.intact.lt_limit
      fun c hcell => (h.kernel_ne c).1 hcell, fun c => ⟨(h.kernel_ne c).1, ?_⟩, ?_,
      fun i hi hne => ?_⟩
    · rw [setSlot_slot_self]
      omega
    · rw [setSlot_slot_self]
      omega
    · have hkernel : kernelClass c < m.limit := h.intact.lt_limit (.kernelClass c)
      rw [setSlot_slot_self]
      omega
    · rw [setSlot_slot_self]
      exact harray
    · rw [setSlot_slot_self] at hi hne
      exact absurd (hnil i hi) hne
  -- the old array is not changed any more
  have hinv : ∀ i ∈ List.range (m.basicSize (m.slot dictionary Field.array)), ∀ s s',
      Populated L s dictionary ∧ Frame m.limit {p | p.1 = dictionary} m s ∧
        m.limit ≤ s.slot dictionary Field.array →
      (if s.slot (m.slot dictionary Field.array) i = nilOop then some s
        else add s (s.slot (m.slot dictionary Field.array) i)) = some s' →
      Populated L s' dictionary ∧ Frame m.limit {p | p.1 = dictionary} m s' ∧
        m.limit ≤ s'.slot dictionary Field.array := by
    rintro i hi s s' ⟨hpopulated, hframe, hle⟩ hstep
    have hold : s.slot (m.slot dictionary Field.array) i =
        m.slot (m.slot dictionary Field.array) i :=
      hframe.slot _ h.array_lt i h.array_ne
    split_ifs at hstep with hslot
    · exact Option.some.inj hstep ▸ ⟨hpopulated, hframe, hle⟩
    · rw [hold] at hslot hstep
      have hown := h.entry i (List.mem_range.mp hi) hslot
      have hlt := hown.lt_limit
      have hadded := hadd s _ s' hpopulated ⟨hown.pointers, hlt.trans_le hframe.limit_le,
        hown.ne_dictionary, by omega⟩ hstep
      refine ⟨hadded.populated, hframe.trans (hadded.frame.mono hframe.limit_le
        fun o ho _ hcell => ?_), ?_⟩
      · rcases hcell with hcell | hcell
        · exact hcell
        · exact absurd (hle.trans_eq (show o = s.slot dictionary Field.array from hcell).symm)
            (Nat.not_le.mpr ho)
      · rcases hadded.array with harray | harray
        · exact harray ▸ hle
        · exact hframe.limit_le.trans harray
  obtain ⟨hpopulated, hframe', hle⟩ := foldlM_invariant hinv
    ⟨hstart, hframe, by rw [setSlot_slot_self]; exact hlimit.le⟩ hloop
  exact ⟨hpopulated, hframe'.mono (Nat.le_refl _) fun _ _ _ => Or.inl, Or.inr hle⟩

/-- An insertion. -/
theorem dictionaryInsert_repopulated {add : ObjectMemory → ℕ → Option ObjectMemory}
    (hadd : ∀ m e m', Populated L m dictionary → OwnAssociation m dictionary e →
      add m e = some m' → Repopulated L m dictionary m')
    (h : Populated L m dictionary) (he : OwnAssociation m dictionary e)
    (hinsert : m.dictionaryInsert dictionary index e add = some m') :
    Repopulated L m dictionary m' := by
  have hstored := h.storeElement he index
  rw [dictionaryInsert] at hinsert
  split_ifs at hinsert
  · exact hstored.trans (dictionaryGrow_repopulated hadd hstored.populated hinsert)
  · exact Option.some.inj hinsert ▸ hstored

/-- **Adding an association** of any key, if it returns. -/
theorem dictionaryAddAssociationLoop_repopulated {hash : ObjectMemory → ℕ → Option ℕ}
    {equals : ObjectMemory → ℕ → ℕ → Bool} (fuel : ℕ) :
    ∀ m e m', Populated L m dictionary → OwnAssociation m dictionary e →
      dictionaryAddAssociationLoop hash equals dictionary fuel m e = some m' →
      Repopulated L m dictionary m' := by
  induction fuel with
  | zero =>
    intro m e m' _ _ hadd
    cases hadd
  | succ fuel ih =>
    intro m e m' h he hadd
    obtain ⟨index, rfl | hadd⟩ := dictionaryAddAssociationLoop_cases hadd
    · exact h.replaceElement he index
    · exact dictionaryInsert_repopulated ih h he hadd

namespace Populated

/-- The insertion of an identity dictionary. -/
theorem identityDictionaryInsert (h : Populated L m dictionary)
    (he : OwnAssociation m dictionary e)
    (hinsert : m.identityDictionaryInsert dictionary index e = some m') :
    Repopulated L m dictionary m' :=
  dictionaryInsert_repopulated (dictionaryAddAssociationLoop_repopulated 2) h he hinsert

theorem refl (h : Populated L m dictionary) : Repopulated L m dictionary m :=
  ⟨h, Frame.refl _ _ _, Or.inl rfl⟩

/-- **`slvm_IdentityDictionary_addAssociationIfNotExistent`**, if it returns, returns an
association. -/
theorem addAssociationIfNotExistent (h : Populated L m dictionary)
    (he : OwnAssociation m dictionary e) {result : ℕ}
    (hadd : m.identityDictionaryAddAssociationIfNotExistent dictionary e = some (result, m')) :
    Repopulated L m dictionary m' ∧ oopIsPointers result := by
  rw [identityDictionaryAddAssociationIfNotExistent] at hadd
  split_ifs at hadd
  simp only [Option.bind_eq_bind, Option.bind_eq_some_iff] at hadd
  obtain ⟨found, hscan, index, rfl, hadd⟩ := hadd
  have hindex := dictionaryScanFor_lt hscan
  split_ifs at hadd with hslot
  · obtain ⟨m₁, hinsert, hadd⟩ := Option.bind_eq_some_iff.mp hadd
    obtain ⟨rfl, rfl⟩ := Prod.mk.inj (Option.some.inj hadd)
    exact ⟨h.identityDictionaryInsert he hinsert, he.pointers⟩
  · obtain ⟨rfl, rfl⟩ := Prod.mk.inj (Option.some.inj hadd)
    exact ⟨h.refl, (h.entry index hindex hslot).pointers⟩

/-- **`slvm_IdentityDictionary_atPut`**, if it returns, leaves such a dictionary behind. It changes
static memory only in the slots. -/
theorem atPut (h : Populated L m dictionary) {key value clazz : ℕ}
    (hput : m.identityDictionaryAtPutWithAssociationClass dictionary key value clazz = some m') :
    Populated L m' dictionary ∧ Frame m.limit Set.univ m m' := by
  rw [identityDictionaryAtPutWithAssociationClass] at hput
  split_ifs at hput
  simp only [Option.bind_eq_bind, Option.bind_eq_some_iff] at hput
  obtain ⟨found, hscan, index, rfl, hput⟩ := hput
  have hindex := dictionaryScanFor_lt hscan
  split_ifs at hput with hslot
  · obtain ⟨⟨a, m₁⟩, hmake, hinsert⟩ := Option.bind_eq_some_iff.mp hput
    obtain ⟨a', m₁', hmake', hframe, hnew⟩ := associationMakeWithClass_spec h.intact clazz key value
    rw [hmake] at hmake'
    obtain ⟨rfl, rfl⟩ := Prod.mk.inj (Option.some.inj hmake')
    have hpopulated := h.frame hframe (by simp) (by simp)
    have harray : m₁.slot dictionary Field.array = m.slot dictionary Field.array :=
      hframe.slot _ h.lt_limit _ (by simp)
    have hlimit := hnew.limit_lt
    have hlt := h.lt_limit
    have hlt' := h.array_lt
    have hinserted := hpopulated.identityDictionaryInsert
      ⟨hnew.pointers, hnew.lt_limit, by omega, by omega⟩ hinsert
    exact ⟨hinserted.populated, (hframe.mono (Nat.le_refl _) (by simp)).trans
      (hinserted.frame.mono hframe.limit_le (by simp))⟩
  · obtain rfl := Option.some.inj hput
    have hown := h.entry index hindex hslot
    have hcell := Frame.setSlot_cell m.limit m
      (m.slot (m.slot dictionary Field.array) index) Field.value value
    refine ⟨h.frame hcell ?_ ?_, hcell.mono (Nat.le_refl _) (by simp)⟩
    · rintro p rfl
      exact ⟨hown.ne_dictionary, hown.ne_array⟩
    · intro c hmem
      exact absurd (Prod.mk.inj hmem).2 (by decide)

/-- Such a dictionary does not depend on forwarding pointers. -/
theorem setForwardingWord (h : Populated L m dictionary) (a v : ℕ) :
    Populated L (m.setForwardingWord a v) dictionary := by
  obtain ⟨hmade, ⟨hheader, hformat, hlt⟩, hkernel, harray, hentry⟩ := h
  refine ⟨⟨hmade.le, hmade.lt_limit, hmade.le_array, hmade.array_ne⟩, ⟨hheader, hformat, hlt⟩,
    hkernel, harray, fun i hi hne => ?_⟩
  obtain ⟨hpointers, hlimit, hdictionary, hne'⟩ := hentry i hi hne
  exact ⟨hpointers, hlimit, hdictionary, hne'⟩

end Populated

end ObjectMemory

open ObjectMemory

namespace World

/-- What the walker reads of static memory and the forwarding pointers of a heap are kept. -/
structure ImageKept (objects : List HeapObject) (w w' : World) : Prop where
  heapStart : w'.memory.heapStart = w.memory.heapStart
  header : ∀ x < w.memory.heapStart, w'.memory.header x = w.memory.header x
  sizeWord : ∀ x < w.memory.heapStart, w'.memory.sizeWord x = w.memory.sizeWord x
  word : ∀ o ∈ objects, o.forwardingPointer < w.memory.heapStart →
    w'.memory.forwardingWord o.forwardingPointer = w.memory.forwardingWord o.forwardingPointer

section Registration

variable {objects : List HeapObject} {w w' w'' : World}

theorem ImageKept.refl : ImageKept objects w w :=
  ⟨rfl, fun _ _ => rfl, fun _ _ => rfl, fun _ _ _ => rfl⟩

theorem ImageKept.trans (h : ImageKept objects w w') (h' : ImageKept objects w' w'') :
    ImageKept objects w w'' where
  heapStart := h'.heapStart.trans h.heapStart
  header x hx := (h'.header x (h.heapStart ▸ hx)).trans (h.header x hx)
  sizeWord x hx := (h'.sizeWord x (h.heapStart ▸ hx)).trans (h.sizeWord x hx)
  word o ho hlt := (h'.word o ho (h.heapStart ▸ hlt)).trans (h.word o ho hlt)

theorem ImageKept.of_frame {m : ObjectMemory} {F : Set (ℕ × ℕ)}
    (hf : Frame w.memory.limit F w.memory m) : ImageKept objects w (w.withMemory m) where
  heapStart := hf.heapStart
  header x hx := hf.header x (hx.trans_le w.memory.heapStart_le_limit)
  sizeWord x hx := hf.sizeWord x (hx.trans_le w.memory.heapStart_le_limit)
  word _ _ hlt := hf.forwardingWord _ (hlt.trans_le w.memory.heapStart_le_limit)

variable [KernelImage]

/-- The globals are a dictionary in the compacting heap, of objects of their own. -/
def GlobalsPopulated (w : World) : Prop := Populated w.memory.heapStart w.memory w.globals

namespace GlobalsPopulated

/-- A static object is an association of its own. -/
theorem ownAssociation (h : GlobalsPopulated w) {var : ℕ} (hpointers : oopIsPointers var)
    (hstatic : var < w.memory.heapStart) : OwnAssociation w.memory w.globals var := by
  have hle := h.le
  have hle' := h.le_array
  exact ⟨hpointers, hstatic.trans_le w.memory.heapStart_le_limit, by omega, by omega⟩

/-- A step that changes no cell of the dictionary. -/
theorem frame (h : GlobalsPopulated w) {m : ObjectMemory} {F : Set (ℕ × ℕ)}
    (hf : Frame w.memory.limit F w.memory m)
    (hF : ∀ p ∈ F, p.1 ≠ w.globals ∧ p.1 ≠ w.memory.slot w.globals Field.array)
    (hkernel : ∀ c, (kernelClass c, Field.format) ∉ F) : GlobalsPopulated (w.withMemory m) := by
  have hpopulated := Populated.frame h hf hF hkernel
  rwa [← hf.heapStart] at hpopulated

theorem setForwardingWord (h : GlobalsPopulated w) (a v : ℕ) :
    GlobalsPopulated (w.setForwardingWord a v) :=
  Populated.setForwardingWord h a v

/-- **`slvm_globals_addIfNotExistent`** of a static object, if it returns, returns an object and
changes no static memory. -/
theorem addIfNotExistent (h : GlobalsPopulated w) {var result : ℕ} (hpointers : oopIsPointers var)
    (hstatic : var < w.memory.heapStart)
    (hadd : w.globalsAddIfNotExistent var = some (result, w')) :
    GlobalsPopulated w' ∧ oopIsPointers result ∧ StaticKept w.memory w'.memory ∧
      ImageKept objects w w' := by
  rw [globalsAddIfNotExistent, Option.map_eq_some_iff] at hadd
  obtain ⟨⟨r, m⟩, hadd, heq⟩ := hadd
  obtain ⟨rfl, rfl⟩ := Prod.mk.inj heq
  obtain ⟨⟨hpopulated, hframe, -⟩, hresult⟩ :=
    Populated.addAssociationIfNotExistent h (h.ownAssociation hpointers hstatic) hadd
  rw [← hframe.heapStart] at hpopulated
  refine ⟨hpopulated, hresult, StaticKept.of_frame hframe fun p hp => ?_, ImageKept.of_frame hframe⟩
  rcases hp with hp | hp
  · exact hp ▸ h.le
  · exact hp ▸ h.le_array

/-- **`slvm_globals_atPut`**, if it returns. -/
theorem atPut (h : GlobalsPopulated w) {symbol value : ℕ}
    (hput : w.globalsAtPut symbol value = some w') :
    GlobalsPopulated w' ∧ ImageKept objects w w' := by
  rw [globalsAtPut, Option.map_eq_some_iff] at hput
  obtain ⟨m, hput, rfl⟩ := hput
  obtain ⟨hpopulated, hframe⟩ := Populated.atPut h hput
  rw [← hframe.heapStart] at hpopulated
  exact ⟨hpopulated, ImageKept.of_frame hframe⟩

/-- **One step of a registration** keeps what the walker reads of the heap. -/
theorem step (h : GlobalsPopulated w) (hstep : RegistrationStep objects w w') :
    GlobalsPopulated w' ∧ ImageKept objects w w' := by
  cases hstep with
  | atPut _ hput => exact h.atPut hput
  | addIfNotExistent hvar _ hadd =>
    obtain ⟨hpopulated, -, -, hkept⟩ := h.addIfNotExistent hvar.pointers hvar.static hadd
    exact ⟨hpopulated, hkept⟩
  | @forwardingWord a v hne =>
    exact ⟨h.setForwardingWord a v, rfl, fun _ _ => rfl, fun _ _ => rfl,
      fun o ho _ => setForwardingWord_word_of_ne w (hne o ho).symm v⟩
  | elsewhere hframe =>
    exact ⟨h.frame hframe (fun p hp => ⟨hp.1, hp.2.1⟩) fun c hmem => hmem.2.2.2 c rfl,
      ImageKept.of_frame hframe⟩

/-- **A registration** keeps what the walker reads of the heap. -/
theorem run (h : GlobalsPopulated w) (hrun : ReflTransGen (RegistrationStep objects) w w') :
    GlobalsPopulated w' ∧ ImageKept objects w w' := by
  induction hrun with
  | refl => exact ⟨h, ImageKept.refl⟩
  | tail _ hstep ih =>
    obtain ⟨hpopulated, hkept⟩ := ih
    obtain ⟨hpopulated', hkept'⟩ := hpopulated.step hstep
    exact ⟨hpopulated', hkept.trans hkept'⟩

end GlobalsPopulated

/-- Valid names are bound to objects of their own. -/
theorem NamesValid.globalsPopulated {heap : HeapInformation} {owner : ℕ → Region}
    {f : List UInt8 → Option ℕ} {g : ℕ → Option ℕ} (h : NamesValid heap objects w owner f g) :
    GlobalsPopulated w := by
  obtain ⟨n, c, hd, -⟩ := h.globals.globals
  have hR : ∀ x, owner x = .globals → w.memory.heapStart ≤ x :=
    fun x hx => h.heapStart_le (by simp) (by simp) hx
  have hkernel := h.globals.kernelClass_not_mem (r := .globals) (by simp)
  refine ⟨⟨hR _ hd.shape.mem, hd.shape.lt_limit, hR _ hd.shape.array_mem, hd.shape.array_ne⟩,
    h.globals.symbols.kernel, fun c => ⟨fun heq => ?_, fun heq => ?_⟩, hd.shape.array_lt_limit,
    fun i hi hne => ?_⟩
  · exact hkernel c (heq ▸ hd.shape.mem)
  · exact hkernel c (heq ▸ hd.shape.array_mem)
  · have hstored : w.GlobalsStored (w.memory.slot (w.memory.slot w.globals Field.array) i) :=
      ⟨hne, i, hi, rfl⟩
    obtain ⟨k, hk⟩ := h.stored_iff.mp hstored
    have hentry := (hd.of_some hk).1
    exact ⟨(h.association k _ hk).2.1, hentry.lt_limit, hentry.ne_dictionary, hentry.ne_array⟩

end Registration

end World

end SlvmNative
