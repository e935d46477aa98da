import SlvmNative.Globals

/-!
# Runs of the globals

The dictionary of the globals from its creation on: names are bound by C code and by the variables
of static heaps, in any order, while the rest of the program stores into its own objects. A name
that C code binds first gets an association of class `Association`, since
`slvm_Association_makeWithClass` does not use its class, and it keeps this association.

## Main definitions

* `ObjectMemory.Grown` — a dictionary with an array of class `Array`
* `World.GlobalsStep` — one step of a run
* `World.GlobalsStored`, `World.GlobalsBinds` — what is in the array

## Main results

* `ObjectMemory.dictionaryInsert_grown` — a dictionary that grows has an array of class `Array`
* `World.globalVariables_of_run` — all associations are global variables exactly as long as only
  bound names are put
-/

namespace SlvmNative

open LinearProbing Relation

namespace ObjectMemory

variable [KernelImage] {L dictionary : ℕ} {m m' : ObjectMemory}

/-! ### The class of the array -/

/-- A dictionary that was made, with its array, after the heap ended at `L`, next to the kernel. -/
structure Grown (L : ℕ) (m : ObjectMemory) (dictionary : ℕ) : Prop where
  made : MadeSince L m dictionary
  intact : KernelIntact m
  kernel_lt : ∀ o, KernelImage.address o < L
  array_lt : m.slot dictionary Field.array < m.limit
  arrayClass : (m.header (m.slot dictionary Field.array)).classIndex = KernelClass.Array.index

theorem Grown.of_frame (h : Grown L m dictionary) (hf : Frame L ∅ m m')
    (harray : m'.slot dictionary Field.array = m.slot dictionary Field.array)
    (hheader : m'.header (m.slot dictionary Field.array) =
      m.header (m.slot dictionary Field.array)) : Grown L m' dictionary where
  made := h.made.of_array hf.limit_le harray
  intact := h.intact.frame hf h.kernel_lt (by simp)
  kernel_lt := h.kernel_lt
  array_lt := harray ▸ h.array_lt.trans_le hf.limit_le
  arrayClass := by rw [harray, hheader, h.arrayClass]

/-- Growing starts with a new array full of nil. -/
theorem dictionaryGrow_start (hk : KernelIntact m) {array : ℕ} {m₁ : ObjectMemory}
    (hlt : dictionary < m.limit)
    (hnew : (m.setSlot dictionary Field.tally (encodeSmallInteger 0)).kernelNew .Array
      (doubledArraySize (m.basicSize (m.slot dictionary Field.array))) = some (array, m₁)) :
    Frame m.limit {p | p.1 = dictionary} m (m₁.setSlot dictionary Field.array array) ∧
      m.limit < array ∧ array < m₁.limit ∧
      (m₁.header array).classIndex = KernelClass.Array.index ∧
      ∀ i < m₁.basicSize array, (m₁.setSlot dictionary Field.array array).slot array i =
        nilOop := by
  have hintact : KernelIntact (m.setSlot dictionary Field.tally (encodeSmallInteger 0)) :=
    hk.setSlot (by decide)
  obtain ⟨array', m₁', hnew', halloc, -, hnil⟩ := @KernelIntact.kernelNew_pointers _ _ hintact
    .Array (by decide) (doubledArraySize (m.basicSize (m.slot dictionary Field.array)))
  rw [hnew] at hnew'
  obtain ⟨rfl, rfl⟩ := Prod.mk.inj (Option.some.inj hnew')
  have hlimit : m.limit < array := halloc.limit_lt
  have hcell : ∀ i, (dictionary, i) ∈ {p : ℕ × ℕ | p.1 = dictionary} := fun _ => rfl
  have htally : Frame m.limit {p | p.1 = dictionary} m
      (m.setSlot dictionary Field.tally (encodeSmallInteger 0)) :=
    Frame.setSlot m.limit m (Or.inl (hcell _)) _
  have harray : Frame m.limit {p | p.1 = dictionary} m₁ (m₁.setSlot dictionary Field.array array) :=
    Frame.setSlot m.limit m₁ (Or.inl (hcell _)) array
  refine ⟨(htally.trans (halloc.frame.mono (Nat.le_refl _) (by simp))).trans harray, hlimit,
    halloc.lt_limit, halloc.classIndex, fun i hi => ?_⟩
  rw [setSlot_slot_of_ne _ _ _ _ (by omega)]
  exact hnil i (halloc.basicSize ▸ hi)

theorem dictionaryGrow_grown {add : ObjectMemory → ℕ → Option ObjectMemory}
    (hadd : ∀ m e m', Grown L m dictionary → add m e = some m' → Grown L m' dictionary)
    (h : Grown L m dictionary) (hgrow : m.dictionaryGrow dictionary add = some m') :
    Grown L m' dictionary := by
  simp only [dictionaryGrow, Option.bind_eq_bind, Option.bind_eq_some_iff] at hgrow
  obtain ⟨⟨array, m₁⟩, hnew, hloop⟩ := hgrow
  obtain ⟨hframe, hlimit, harray, hclass, -⟩ := dictionaryGrow_start h.intact h.made.lt_limit hnew
  have hle := h.made.le
  have hlt := h.made.lt_limit
  have hframe' : Frame L ∅ m (m₁.setSlot dictionary Field.array array) := by
    refine hframe.mono (hle.trans hlt.le) fun o ho _ hcell => ?_
    exact absurd (show o = dictionary from hcell) (by omega)
  have hgrown : Grown L (m₁.setSlot dictionary Field.array array) dictionary := by
    refine ⟨⟨hle, hlt.trans_le hframe.limit_le, ?_, ?_⟩,
      h.intact.frame hframe' h.kernel_lt (by simp), h.kernel_lt, ?_, ?_⟩
    · rw [setSlot_slot_self]
      omega
    · rw [setSlot_slot_self]
      omega
    · rw [setSlot_slot_self]
      exact harray
    · rw [setSlot_slot_self]
      exact hclass
  have hinv : ∀ i ∈ List.range (m.basicSize (m.slot dictionary Field.array)), ∀ s s',
      Grown L s dictionary →
      (if s.slot (m.slot dictionary Field.array) i = nilOop then some s
        else add s (s.slot (m.slot dictionary Field.array) i)) = some s' →
      Grown L s' dictionary := by
    intro i _ s s' hs hstep
    split_ifs at hstep
    · exact Option.some.inj hstep ▸ hs
    · exact hadd s _ s' hs hstep
  exact foldlM_invariant hinv hgrown hloop

/-- Storing into the array of a dictionary. -/
theorem Grown.storeElement (h : Grown L m dictionary) (index e : ℕ) :
    Grown L (m.storeElement dictionary index e) dictionary := by
  have hframe : Frame L ∅ m (m.storeElement dictionary index e) := by
    refine (storeElement_frame L).mono (Nat.le_refl _) fun o ho _ hcell => ?_
    have hle := h.made.le
    have hle' := h.made.le_array
    rcases hcell with hcell | hcell
    · exact absurd (show o = dictionary from hcell) (by omega)
    · exact absurd (show o = m.slot dictionary Field.array from hcell) (by omega)
  exact h.of_frame hframe (storeElement_collection h.made.array_ne (by decide)) rfl

theorem Grown.replaceElement (h : Grown L m dictionary) (index e : ℕ) :
    Grown L (m.setSlot (m.slot dictionary Field.array) index e) dictionary :=
  h.of_frame (Frame.setSlot L m (Or.inr h.made.le_array) e)
    (congrFun (setSlot_slot_of_ne _ _ _ _ h.made.array_ne.symm) _) rfl

theorem dictionaryInsert_grown {add : ObjectMemory → ℕ → Option ObjectMemory} {index e : ℕ}
    (hadd : ∀ m e m', Grown L m dictionary → add m e = some m' → Grown L m' dictionary)
    (h : Grown L m dictionary) (hinsert : m.dictionaryInsert dictionary index e add = some m') :
    Grown L m' dictionary := by
  rw [dictionaryInsert] at hinsert
  split_ifs at hinsert
  · exact dictionaryGrow_grown hadd (h.storeElement index e) hinsert
  · exact Option.some.inj hinsert ▸ h.storeElement index e

theorem dictionaryAddAssociationLoop_grown {hash : ObjectMemory → ℕ → Option ℕ}
    {equals : ObjectMemory → ℕ → ℕ → Bool} (fuel : ℕ) (m : ObjectMemory) (e : ℕ)
    (m' : ObjectMemory) (h : Grown L m dictionary)
    (hadd : dictionaryAddAssociationLoop hash equals dictionary fuel m e = some m') :
    Grown L m' dictionary := by
  induction fuel generalizing m e m' with
  | zero => cases hadd
  | succ fuel ih =>
    obtain ⟨index, rfl | hadd⟩ := dictionaryAddAssociationLoop_cases hadd
    · exact h.replaceElement index e
    · exact dictionaryInsert_grown ih h hadd

/-- The insertion of an identity dictionary leaves it with an array of class `Array`. -/
theorem identityDictionaryInsert_grown {index e : ℕ} (h : Grown L m dictionary)
    (hinsert : m.identityDictionaryInsert dictionary index e = some m') : Grown L m' dictionary :=
  dictionaryInsert_grown
    (fun m e m' => dictionaryAddAssociationLoop_grown 2 m e m') h hinsert

end ObjectMemory

open ObjectMemory

namespace World

variable [KernelImage]

/-! ### Runs -/

/-- The association `e` is in the array of the globals. -/
def GlobalsStored (w : World) (e : ℕ) : Prop := w.memory.DictionaryHolds w.globals e

/-- An association in the array of the globals has this name. -/
def GlobalsBinds (w : World) (symbol : ℕ) : Prop :=
  ∃ e, w.GlobalsStored e ∧ w.memory.slot e Field.key = symbol

/-- Every association in the array of the globals is an instance of `GlobalVariable`. -/
def AllGlobalVariables (w : World) : Prop :=
  ∀ e, w.GlobalsStored e → (w.memory.header e).classIndex = KernelClass.GlobalVariable.index

/-- An instance of `GlobalVariable`, with a name. -/
structure IsGlobalVariable (w : World) (var : ℕ) : Prop where
  lt_limit : var < w.memory.limit
  classIndex : (w.memory.header var).classIndex = KernelClass.GlobalVariable.index
  live : w.memory.Live (w.memory.slot var Field.key)

/-- The cells the rest of the program stores into: none of the dictionary, of the names in it and
of what the kernel relies on. -/
def globalsElsewhere (w : World) : Set (ℕ × ℕ) :=
  {p | p.1 ≠ w.globals ∧ p.1 ≠ w.memory.slot w.globals Field.array ∧
    (∀ e, w.GlobalsStored e → p ≠ (e, Field.key)) ∧ ∀ c, p ≠ (kernelClass c, Field.format)}

/-- One step of a run in which C code puts `Allowed` names only. -/
inductive GlobalsStep (Allowed : World → ℕ → Prop) (w : World) : World → Prop
  | atPut {symbol value : ℕ} {w' : World} (hallowed : Allowed w symbol)
      (hlive : w.memory.Live symbol) (hput : w.globalsAtPut symbol value = some w') :
      GlobalsStep Allowed w w'
  | addIfNotExistent {var result : ℕ} {w' : World} (hvar : w.IsGlobalVariable var)
      (hadd : w.globalsAddIfNotExistent var = some (result, w')) : GlobalsStep Allowed w w'
  | elsewhere {m : ObjectMemory}
      (hframe : Frame w.memory.limit w.globalsElsewhere w.memory m) :
      GlobalsStep Allowed w (w.withMemory m)

/-- The dictionary of the globals has just been made by `slvm_SystemDictionary_new`. -/
def GlobalsStart (w : World) : Prop :=
  ∃ m, KernelIntact m ∧ m.systemDictionaryNew = some (w.globals, w.memory)

/-! ### The invariant -/

/-- The globals bind the associations `g`. -/
structure GlobalsRunValid (L : ℕ) (w : World) (g : ℕ → Option ℕ) : Prop where
  grown : Grown L w.memory w.globals
  classIndex : (w.memory.header w.globals).classIndex = KernelClass.SystemDictionary.index
  dictionary : ∃ n c, DictionaryValid identityScheme w.memory
    {o | o = w.globals ∨ o = w.memory.slot w.globals Field.array} w.globals n c g ∧ c < n

namespace GlobalsRunValid

variable {L : ℕ} {w w' : World} {g : ℕ → Option ℕ}

/-- What is in the array is bound. -/
theorem stored_iff (h : GlobalsRunValid L w g) {e : ℕ} :
    w.GlobalsStored e ↔ ∃ k, g k = some e := by
  obtain ⟨n, c, hd, -⟩ := h.dictionary
  exact hd.holds_iff

/-- The names in the array are the bound ones. -/
theorem binds_iff (h : GlobalsRunValid L w g) {symbol : ℕ} :
    w.GlobalsBinds symbol ↔ ∃ e, g symbol = some e := by
  obtain ⟨n, c, hd, -⟩ := h.dictionary
  constructor
  · rintro ⟨e, hstored, hkey⟩
    obtain ⟨k, hk⟩ := h.stored_iff.mp hstored
    have hcontent : w.memory.slot e Field.key = k := (hd.of_some hk).2.2
    exact ⟨e, hkey ▸ hcontent ▸ hk⟩
  · rintro ⟨e, he⟩
    exact ⟨e, h.stored_iff.mpr ⟨symbol, he⟩, (hd.of_some he).2.2⟩

/-- No kernel class is an object of the dictionary. -/
theorem kernelClass_notMem (h : GlobalsRunValid L w g) (c : KernelClass) :
    kernelClass c ∉ {o | o = w.globals ∨ o = w.memory.slot w.globals Field.array} := by
  have hlt := h.grown.kernel_lt (.kernelClass c)
  rintro (heq | heq)
  · exact absurd hlt (not_lt.mpr (h.grown.made.le.trans_eq heq.symm))
  · exact absurd hlt (not_lt.mpr (h.grown.made.le_array.trans_eq heq.symm))

/-- What a step makes of the bindings: the old ones stay, with their classes, and a new one is a
global variable or was put by C code under a name that was not bound. -/
structure Extends (w : World) (g : ℕ → Option ℕ) (w' : World) (g' : ℕ → Option ℕ)
    (Put : ℕ → Prop) : Prop where
  keep : ∀ k e, g k = some e →
    g' k = some e ∧ (w'.memory.header e).classIndex = (w.memory.header e).classIndex
  new : ∀ k e, g' k = some e → g k = some e ∨
    (w'.memory.header e).classIndex = KernelClass.GlobalVariable.index ∨ (Put k ∧ g k = none)

/-- A step that binds nothing. -/
theorem Extends.of_frame (h : GlobalsRunValid L w g) {m : ObjectMemory} {F : Set (ℕ × ℕ)}
    (hf : Frame w.memory.limit F w.memory m) (Put : ℕ → Prop) :
    Extends w g (w.withMemory m) g Put where
  keep k e hk := by
    obtain ⟨n, c, hd, -⟩ := h.dictionary
    exact ⟨hk, congrArg ObjectHeader.classIndex (hf.header e (hd.of_some hk).1.lt_limit)⟩
  new k e hk := Or.inl hk

/-- A dictionary is as good in the region of its objects. -/
theorem of_dictionary (h : GlobalsRunValid L w g) {m : ObjectMemory} {R : Set ℕ} {n c : ℕ}
    {g' : ℕ → Option ℕ} {F : Set (ℕ × ℕ)} (hf : Frame w.memory.limit F w.memory m)
    (hgrown : Grown L m w.globals) (hd : DictionaryValid identityScheme m R w.globals n c g')
    (hroom : c < n) : GlobalsRunValid L (w.withMemory m) g' where
  grown := hgrown
  classIndex := by
    show (m.header w.globals).classIndex = _
    rw [hf.header _ h.grown.made.lt_limit]
    exact h.classIndex
  dictionary := ⟨n, c, { hd with
    shape := { hd.shape with mem := Or.inl rfl, array_mem := Or.inr rfl } }, hroom⟩

/-- **The rest of the program** changes no binding. -/
theorem elsewhere (h : GlobalsRunValid L w g) {m : ObjectMemory}
    (hframe : Frame w.memory.limit w.globalsElsewhere w.memory m) :
    GlobalsRunValid L (w.withMemory m) g := by
  obtain ⟨n, c, hd, hroom⟩ := h.dictionary
  have harray : m.slot w.globals Field.array = w.memory.slot w.globals Field.array :=
    hframe.slot w.globals hd.shape.lt_limit _ fun hmem => hmem.1 rfl
  have hheader := hframe.header _ h.grown.array_lt
  refine h.of_dictionary hframe ?_ (hd.frame hframe (fun p hp => ⟨hp.1, hp.2.1⟩) (fun k e hk hmem =>
    hmem.2.2.1 e (h.stored_iff.mpr ⟨k, hk⟩) rfl) fun o ho _ => ho) hroom
  refine ⟨h.grown.made.of_array hframe.limit_le harray,
    h.grown.intact.frame hframe h.grown.intact.lt_limit fun c hmem => hmem.2.2.2 c rfl,
    h.grown.kernel_lt, ?_, ?_⟩
  · rw [harray]
    exact h.grown.array_lt.trans_le hframe.limit_le
  · rw [harray, hheader]
    exact h.grown.arrayClass

/-- **`slvm_globals_atPut`** of a bound name binds nothing. -/
theorem atPut_of_some (h : GlobalsRunValid L w g) {symbol e value : ℕ}
    (hsymbol : g symbol = some e) (hput : w.globalsAtPut symbol value = some w') (Put : ℕ → Prop) :
    GlobalsRunValid L w' g ∧ Extends w g w' g Put := by
  obtain ⟨n, c, hd, hroom⟩ := h.dictionary
  obtain ⟨hput', hd'⟩ := hd.atPut_of_some hsymbol value (kernelClass .GlobalVariable)
  have hw : w' = w.withMemory (w.memory.setSlot e Field.value value) := by
    rw [globalsAtPut, systemDictionaryAtPut, hput'] at hput
    exact (Option.some.inj hput).symm
  have he := (hd.of_some hsymbol).1
  have hframe := Frame.setSlot_cell w.memory.limit w.memory e Field.value value
  have harray : (w.memory.setSlot e Field.value value).slot w.globals Field.array =
      w.memory.slot w.globals Field.array :=
    congrFun (setSlot_slot_of_ne _ _ _ _ he.ne_dictionary.symm) _
  rw [hw]
  refine ⟨h.of_dictionary hframe ⟨h.grown.made.of_array hframe.limit_le harray,
    h.grown.intact.setSlot (by decide), h.grown.kernel_lt, ?_, ?_⟩ hd' hroom,
    Extends.of_frame h hframe Put⟩
  · rw [harray]
    exact h.grown.array_lt
  · rw [harray]
    exact h.grown.arrayClass

/-- **`slvm_globals_atPut`** of an unbound name binds it to an association of class
`Association`. -/
theorem atPut_of_none (h : GlobalsRunValid L w g) {symbol value : ℕ} (hlive : w.memory.Live symbol)
    (hsymbol : g symbol = none) (hput : w.globalsAtPut symbol value = some w') {Put : ℕ → Prop}
    (hPut : Put symbol) :
    ∃ e, (w'.memory.header e).classIndex = KernelClass.Association.index ∧
      GlobalsRunValid L w' (Function.update g symbol (some e)) ∧
      Extends w g w' (Function.update g symbol (some e)) Put := by
  obtain ⟨n, c, hd, hroom⟩ := h.dictionary
  obtain ⟨e, m, n', c', hput', hframe, hd', hroom', hnew⟩ := hd.atPut_of_none hroom h.grown.intact
    h.kernelClass_notMem hlive hsymbol value (kernelClass .GlobalVariable)
  have hw : w' = w.withMemory m := by
    rw [globalsAtPut, systemDictionaryAtPut, hput'] at hput
    exact (Option.some.inj hput).symm
  have hgrown : Grown L m w.globals := by
    obtain ⟨i, -, hscan, hslot, -⟩ := hd.identityScanFor_of_none hroom hsymbol
    obtain ⟨a, m₁, hmake, hframe₁, -⟩ := associationMakeWithClass_spec h.grown.intact
      (kernelClass .GlobalVariable) symbol value
    rw [identityDictionaryAtPutWithAssociationClass, if_neg hd.ne_nilOop, hscan] at hput'
    simp only [Option.bind_eq_bind, Option.bind_some, dictionaryTable_eq_none.mp hslot, if_true,
      hmake] at hput'
    have hgrown₁ := h.grown.of_frame
      (hframe₁.mono (h.grown.made.le.trans h.grown.made.lt_limit.le) (by simp))
      (hframe₁.slot w.globals hd.shape.lt_limit _ (by simp)) (hframe₁.header _ h.grown.array_lt)
    exact identityDictionaryInsert_grown hgrown₁ hput'
  rw [hw]
  refine ⟨e, hnew.classIndex, h.of_dictionary hframe hgrown hd' hroom', fun k a hk => ?_,
    fun k a hk => ?_⟩
  · have hne : k ≠ symbol := by
      rintro rfl
      rw [hsymbol] at hk
      cases hk
    rw [Function.update_of_ne hne]
    exact ⟨hk, congrArg ObjectHeader.classIndex (hframe.header a (hd.of_some hk).1.lt_limit)⟩
  · by_cases hks : k = symbol
    · rw [hks]
      exact Or.inr (Or.inr ⟨hPut, hsymbol⟩)
    · rw [Function.update_of_ne hks] at hk
      exact Or.inl hk

/-- An instance of `GlobalVariable` is an object of its own. -/
theorem entry_of_isGlobalVariable (h : GlobalsRunValid L w g) {var : ℕ}
    (hvar : w.IsGlobalVariable var) :
    DictionaryEntry identityScheme w.memory w.globals var ∧ var ≠ nilOop := by
  refine ⟨⟨trivial, hvar.live, hvar.lt_limit, ?_, ?_⟩, ?_⟩
  · rintro rfl
    exact absurd (h.classIndex.symm.trans hvar.classIndex) (by decide)
  · rintro rfl
    exact absurd (h.grown.arrayClass.symm.trans hvar.classIndex) (by decide)
  · rintro rfl
    have hclass := hvar.classIndex
    rw [nilOop, h.grown.intact.header .nil] at hclass
    exact absurd hclass (by decide)

/-- **`slvm_globals_addIfNotExistent`** of a global variable whose name is not bound binds it. -/
theorem addIfNotExistent_of_none (h : GlobalsRunValid L w g) {var : ℕ}
    (hvar : w.IsGlobalVariable var) (hg : g (w.memory.slot var Field.key) = none) :
    ∃ w', w.globalsAddIfNotExistent var = some (var, w') ∧
      GlobalsRunValid L w' (Function.update g (w.memory.slot var Field.key) (some var)) ∧
      ∀ Put, Extends w g w' (Function.update g (w.memory.slot var Field.key) (some var)) Put := by
  obtain ⟨n, c, hd, hroom⟩ := h.dictionary
  obtain ⟨hentry, hne⟩ := h.entry_of_isGlobalVariable hvar
  obtain ⟨m, n', c', hadd', hframe, hd', hroom'⟩ := hd.addAssociationIfNotExistent_of_none hroom
    h.grown.intact.formats h.kernelClass_notMem hentry hne hg
  have hgrown : Grown L m w.globals := by
    obtain ⟨i, -, hscan, hslot, -⟩ := hd.identityScanFor_of_none hroom hg
    rw [identityDictionaryAddAssociationIfNotExistent, if_neg (by simp [hd.ne_nilOop, hne]),
      hscan] at hadd'
    simp only [Option.bind_eq_bind, Option.bind_some, dictionaryTable_eq_none.mp hslot, if_true,
      Option.bind_eq_some_iff] at hadd'
    obtain ⟨m', hinsert, hm⟩ := hadd'
    obtain ⟨-, rfl⟩ := Prod.mk.inj (Option.some.inj hm)
    exact identityDictionaryInsert_grown h.grown hinsert
  have hheader : ∀ o < w.memory.limit, m.header o = w.memory.header o := hframe.header
  refine ⟨w.withMemory m, by rw [globalsAddIfNotExistent, hadd']; rfl,
    h.of_dictionary hframe hgrown hd' hroom', fun Put => ⟨fun k a hk => ?_, fun k a hk => ?_⟩⟩
  · have hkey : k ≠ w.memory.slot var Field.key := by
      rintro rfl
      rw [hg] at hk
      cases hk
    rw [Function.update_of_ne hkey]
    exact ⟨hk, congrArg ObjectHeader.classIndex (hheader a (hd.of_some hk).1.lt_limit)⟩
  · by_cases hkey : k = w.memory.slot var Field.key
    · rw [hkey, Function.update_self] at hk
      obtain rfl := Option.some.inj hk
      right
      left
      show (m.header var).classIndex = _
      rw [hheader var hvar.lt_limit]
      exact hvar.classIndex
    · rw [Function.update_of_ne hkey] at hk
      exact Or.inl hk

/-- **`slvm_globals_addIfNotExistent`** of a global variable binds that variable, or nothing. -/
theorem addIfNotExistent (h : GlobalsRunValid L w g) {var result : ℕ}
    (hvar : w.IsGlobalVariable var) (hadd : w.globalsAddIfNotExistent var = some (result, w'))
    (Put : ℕ → Prop) : ∃ g', GlobalsRunValid L w' g' ∧ Extends w g w' g' Put := by
  obtain ⟨n, c, hd, hroom⟩ := h.dictionary
  obtain ⟨hentry, hne⟩ := h.entry_of_isGlobalVariable hvar
  cases hg : g (w.memory.slot var Field.key) with
  | some e =>
    rw [globalsAddIfNotExistent, hd.addAssociationIfNotExistent_of_some hne hg] at hadd
    obtain ⟨-, rfl⟩ := Prod.mk.inj (Option.some.inj hadd)
    exact ⟨g, h, Extends.of_frame h (Frame.refl w.memory.limit ∅ w.memory) Put⟩
  | none =>
    obtain ⟨w'', hadd', h', hextends⟩ := h.addIfNotExistent_of_none hvar hg
    obtain ⟨-, rfl⟩ := Prod.mk.inj (Option.some.inj (hadd'.symm.trans hadd))
    exact ⟨_, h', hextends Put⟩

/-- **One step** keeps the bindings, and says where a new one comes from. -/
theorem step (h : GlobalsRunValid L w g) {Allowed : World → ℕ → Prop}
    (hstep : GlobalsStep Allowed w w') :
    ∃ g', GlobalsRunValid L w' g' ∧ Extends w g w' g' (Allowed w) := by
  cases hstep with
  | @atPut symbol value _ hallowed hlive hput =>
    cases hg : g symbol with
    | some e =>
      obtain ⟨h', hextends⟩ := h.atPut_of_some hg hput (Allowed w)
      exact ⟨g, h', hextends⟩
    | none =>
      obtain ⟨e, -, h', hextends⟩ := h.atPut_of_none hlive hg hput hallowed
      exact ⟨_, h', hextends⟩
  | addIfNotExistent hvar hadd => exact h.addIfNotExistent hvar hadd (Allowed w)
  | elsewhere hframe => exact ⟨g, h.elsewhere hframe, Extends.of_frame h hframe (Allowed w)⟩

/-- **A run** keeps the bindings. -/
theorem run (h : GlobalsRunValid L w g) {Allowed : World → ℕ → Prop}
    (hrun : ReflTransGen (GlobalsStep Allowed) w w') :
    ∃ g', GlobalsRunValid L w' g' ∧ ∀ k e, g k = some e →
      g' k = some e ∧ (w'.memory.header e).classIndex = (w.memory.header e).classIndex := by
  induction hrun with
  | refl => exact ⟨g, h, fun k e hk => ⟨hk, rfl⟩⟩
  | tail _ hstep ih =>
    obtain ⟨g₁, h₁, hkeep₁⟩ := ih
    obtain ⟨g₂, h₂, hextends⟩ := h₁.step hstep
    refine ⟨g₂, h₂, fun k e hk => ?_⟩
    obtain ⟨hk₁, hclass₁⟩ := hkeep₁ k e hk
    obtain ⟨hk₂, hclass₂⟩ := hextends.keep k e hk₁
    exact ⟨hk₂, hclass₂.trans hclass₁⟩

/-- A run in which bound names only are put keeps all associations global variables. -/
theorem run_allGlobalVariables (h : GlobalsRunValid L w g) (hall : w.AllGlobalVariables)
    (hrun : ReflTransGen (GlobalsStep GlobalsBinds) w w') : w'.AllGlobalVariables := by
  suffices hsuffices : ∃ g', GlobalsRunValid L w' g' ∧ ∀ k e, g' k = some e →
      (w'.memory.header e).classIndex = KernelClass.GlobalVariable.index by
    obtain ⟨g', h', hclass⟩ := hsuffices
    intro e he
    obtain ⟨k, hk⟩ := h'.stored_iff.mp he
    exact hclass k e hk
  induction hrun with
  | refl => exact ⟨g, h, fun k e hk => hall e (h.stored_iff.mpr ⟨k, hk⟩)⟩
  | tail _ hstep ih =>
    obtain ⟨g₁, h₁, hclass₁⟩ := ih
    obtain ⟨g₂, h₂, hextends⟩ := h₁.step hstep
    refine ⟨g₂, h₂, fun k e hk => ?_⟩
    rcases hextends.new k e hk with hk₁ | hclass | ⟨hbinds, hnone⟩
    · rw [(hextends.keep k e hk₁).2]
      exact hclass₁ k e hk₁
    · exact hclass
    · -- a name that is bound is not new
      obtain ⟨e', he'⟩ := h₁.binds_iff.mp hbinds
      rw [hnone] at he'
      cases he'

end GlobalsRunValid

/-- Putting a name always succeeds. -/
theorem GlobalsRunValid.exists_atPut {L : ℕ} {w : World} {g : ℕ → Option ℕ}
    (h : GlobalsRunValid L w g) {symbol : ℕ} (hlive : w.memory.Live symbol) (value : ℕ) :
    ∃ w', w.globalsAtPut symbol value = some w' := by
  obtain ⟨n, c, hd, hroom⟩ := h.dictionary
  cases hg : g symbol with
  | some e =>
    obtain ⟨hput, -⟩ := hd.atPut_of_some hg value (kernelClass .GlobalVariable)
    exact ⟨_, congrArg (Option.map w.withMemory) hput⟩
  | none =>
    obtain ⟨e, m, -, -, hput, -⟩ := hd.atPut_of_none hroom h.grown.intact h.kernelClass_notMem
      hlive hg value (kernelClass .GlobalVariable)
    exact ⟨_, congrArg (Option.map w.withMemory) hput⟩

/-- The dictionary that was just made binds nothing. -/
theorem GlobalsStart.valid {w : World} (h : w.GlobalsStart) :
    ∃ L, GlobalsRunValid L w fun _ => none := by
  obtain ⟨m, hk, hnew⟩ := h
  obtain ⟨d, m', hnew', hd⟩ :=
    @dictionaryNewWithCapacity_spec _ m hk .SystemDictionary (by decide) 5
  have heq : m.systemDictionaryNew = some (d, m') := hnew'
  rw [hnew] at heq
  obtain ⟨rfl, rfl⟩ := Prod.mk.inj (Option.some.inj heq)
  have hvalid : DictionaryValid identityScheme w.memory {p | m.limit ≤ p} w.globals 5 0
      fun _ => none := hd.valid hk (by decide)
  have hlt := hd.limit_lt
  have hlt' := hd.lt_array
  refine ⟨m.limit, ⟨⟨hlt.le, hlt'.trans hd.array_lt, (hlt.trans hlt').le, hlt'.ne'⟩,
    hk.frame hd.frame hk.lt_limit (by simp), hk.lt_limit, hd.array_lt, hd.arrayClass⟩,
    hd.classIndex, 5, 0,
    { hvalid with shape := { hvalid.shape with mem := Or.inl rfl, array_mem := Or.inr rfl } },
    by decide⟩

omit [KernelImage] in
/-- The globals just made, next to the symbol `Foo` and a global variable of that name. -/
theorem exists_globalsStart :
    letI := sequentialImage
    ∃ w var, GlobalsStart w ∧ w.IsGlobalVariable var := by
  let := sequentialImage
  have hk : KernelIntact sequential.spurInitialize.memory := sequential_intact
  obtain ⟨symbol, m, -, halloc, -, -⟩ :=
    @KernelIntact.newBytes_spec _ _ hk .ByteSymbol rfl rfl (cStringBytes [70, 111, 111])
  have hk' : KernelIntact m := hk.frame halloc.frame hk.lt_limit (by simp)
  obtain ⟨var, m', -, halloc', -⟩ :=
    @KernelIntact.kernelNew_pointers _ _ hk' .GlobalVariable (by decide) 0
  have hk'' : KernelIntact (m'.setSlot var Field.key symbol) :=
    (hk'.frame halloc'.frame hk'.lt_limit (by simp)).setSlot (by decide)
  obtain ⟨d, m'', hnew, hd⟩ :=
    @dictionaryNewWithCapacity_spec _ _ hk'' .SystemDictionary (by decide) 5
  have hvar : var < (m'.setSlot var Field.key symbol).limit := halloc'.lt_limit
  have hsymbol : symbol < (m'.setSlot var Field.key symbol).limit :=
    halloc.lt_limit.trans_le halloc'.frame.limit_le
  have hkey : m''.slot var Field.key = symbol := by
    rw [hd.frame.slot var hvar _ (by simp), setSlot_slot_self]
  refine ⟨{ sequential with memory := m'', globals := d }, var, ⟨_, hk'', hnew⟩,
    hvar.trans_le hd.frame.limit_le, ?_, ?_⟩
  · show (m''.header var).classIndex = _
    rw [hd.frame.header var hvar]
    exact halloc'.classIndex
  · show m''.Live (m''.slot var Field.key)
    rw [hkey]
    exact Or.inr (hsymbol.trans_le hd.frame.limit_le)

/-- **The globals are global variables as long as C code puts bound names only.** In a run in which
every name that C code puts is bound already, all associations in the dictionary are instances of
`GlobalVariable`, however it grows; after a name that is not bound was put they never are again. -/
theorem globalVariables_of_run {w : World} (h : w.GlobalsStart) :
    (∀ w', ReflTransGen (GlobalsStep GlobalsBinds) w w' → w'.AllGlobalVariables) ∧
    ∀ w₁ w₂ w₃ symbol value, ReflTransGen (GlobalsStep fun _ _ => True) w w₁ →
      w₁.memory.Live symbol → ¬ w₁.GlobalsBinds symbol → w₁.globalsAtPut symbol value = some w₂ →
      ReflTransGen (GlobalsStep fun _ _ => True) w₂ w₃ → ¬ w₃.AllGlobalVariables := by
  obtain ⟨L, hvalid⟩ := h.valid
  refine ⟨fun w' hrun => hvalid.run_allGlobalVariables ?_ hrun, ?_⟩
  · intro e he
    obtain ⟨k, hk⟩ := hvalid.stored_iff.mp he
    cases hk
  · intro w₁ w₂ w₃ symbol value hrun hlive hbinds hput hrun' hall
    obtain ⟨g₁, h₁, -⟩ := hvalid.run hrun
    have hnone : g₁ symbol = none :=
      Option.eq_none_iff_forall_ne_some.mpr fun e he => hbinds (h₁.binds_iff.mpr ⟨e, he⟩)
    obtain ⟨e, hclass, h₂, -⟩ :=
      @GlobalsRunValid.atPut_of_none _ _ _ _ _ h₁ _ _ hlive hnone hput (fun _ => True) trivial
    obtain ⟨g₃, h₃, hkeep⟩ := h₂.run hrun'
    obtain ⟨hk, hclass₃⟩ := hkeep symbol e (Function.update_self ..)
    have hglobal := hall e (h₃.stored_iff.mpr ⟨symbol, hk⟩)
    exact absurd (hclass.symm.trans (hclass₃.symm.trans hglobal)) (by decide)

omit [KernelImage] in
/-- A name that a global variable of a static heap has bound is put, and the same name is put before
it is bound. -/
theorem globalVariables_of_run_addIfNotExistent :
    letI := sequentialImage
    ∃ w w' w₁ : World, ∃ symbol, w.GlobalsStart ∧
      ReflTransGen (GlobalsStep GlobalsBinds) w w' ∧ w'.GlobalsBinds symbol ∧
      w'.AllGlobalVariables ∧ w.globalsAtPut symbol nilOop = some w₁ ∧ ¬ w₁.AllGlobalVariables := by
  let := sequentialImage
  obtain ⟨w, var, hstart, hvar⟩ := exists_globalsStart
  obtain ⟨L, hvalid⟩ := hstart.valid
  -- the global variable is added, and its name is put
  obtain ⟨w₀, hadd, hvalid₀, -⟩ := hvalid.addIfNotExistent_of_none hvar rfl
  have hbound₀ := Function.update_self (w.memory.slot var Field.key) (some var) fun _ => none
  have hlive₀ : w₀.memory.Live (w.memory.slot var Field.key) := by
    obtain ⟨n, c, hd, -⟩ := hvalid₀.dictionary
    exact (hd.of_some hbound₀).2.2 ▸ (hd.of_some hbound₀).1.live
  obtain ⟨w', hput⟩ := hvalid₀.exists_atPut hlive₀ nilOop
  obtain ⟨hvalid', -⟩ := hvalid₀.atPut_of_some hbound₀ hput fun _ => True
  have hrun : ReflTransGen (GlobalsStep GlobalsBinds) w w' :=
    (ReflTransGen.single (GlobalsStep.addIfNotExistent hvar hadd)).tail
      (GlobalsStep.atPut (hvalid₀.binds_iff.mpr ⟨var, hbound₀⟩) hlive₀ hput)
  -- the name is put at once
  obtain ⟨w₁, hput₁⟩ := hvalid.exists_atPut hvar.live nilOop
  have hunbound : ¬ w.GlobalsBinds (w.memory.slot var Field.key) := by
    rw [hvalid.binds_iff]
    simp
  obtain ⟨hall, hnever⟩ := globalVariables_of_run hstart
  exact ⟨w, w', w₁, _, hstart, hrun, hvalid'.binds_iff.mpr ⟨var, hbound₀⟩, hall w' hrun, hput₁,
    hnever w w₁ w₁ _ nilOop ReflTransGen.refl hvar.live hunbound hput₁ ReflTransGen.refl⟩

omit [KernelImage] in
/-- The first global that C code binds is no `GlobalVariable`. -/
theorem globalVariables_of_run_counterexample :
    letI := sequentialImage
    ¬ ∀ w w' : World, w.GlobalsStart → ReflTransGen (GlobalsStep fun _ _ => True) w w' →
      w'.AllGlobalVariables := by
  let := sequentialImage
  intro hall
  obtain ⟨w, var, hstart, hvar⟩ := exists_globalsStart
  obtain ⟨L, hvalid⟩ := hstart.valid
  obtain ⟨w', hput⟩ := hvalid.exists_atPut hvar.live nilOop
  obtain ⟨e, hclass, h', -⟩ :=
    @GlobalsRunValid.atPut_of_none _ _ _ _ _ hvalid _ _ hvar.live rfl hput (fun _ => True) trivial
  have hglobal := hall w w' hstart
    (ReflTransGen.single (GlobalsStep.atPut trivial hvar.live hput)) e
    (h'.stored_iff.mpr ⟨_, Function.update_self ..⟩)
  exact absurd (hclass.symm.trans hglobal) (by decide)

end World

end SlvmNative
