import SlvmNative.FixedHeaps

/-!
# Class variables

`slvm_internal_fixStaticHeapPass2` replaces every reference to a class variable of a heap by one to
the association that the pool of its class has for its key. The value of the class variable is the
global variable of its class, or rather what the first pass has made of it: the association the
globals hold for the name of the class. `slvm_globals_fixClassVariable` asks whether that is a
`GlobalVariable`, and gives up if it is not. It is one if a static heap bound the name first; an
association made by C code is an `Association`, as `slvm_Association_makeWithClass` does not use its
class.

## Main definitions

* `World.AwaitsPass2` — a heap of small objects between the two passes
* `World.PoolsHoldObjects` — what is in the pools are objects
* `World.ClassVariableBound` — a class variable with the association of its key
* `World.ForwardedTo` — what became of the references to an object
* `World.RegistrationStep` — what happens between the two passes

## Main results

* `World.AwaitsPass2.exists_fixStaticHeapPass2` — the second pass returns
* `World.AwaitsPass2.forwardedTo_iff` — what it makes of the references to a class variable
* `World.GlobalsBound.run` — a registration keeps the bindings there are
* `World.classVariables_of_run` — both passes, with a registration in between
-/

namespace SlvmNative

open ObjectMemory Relation

namespace World

variable [KernelImage]

/-- What is found for the class variables of a heap are objects. -/
def PoolsHoldObjects (w : World) (objects : List HeapObject) : Prop :=
  ∀ o ∈ objects, w.HasClass o .ClassVariable → ∀ target,
    w.globalsFixClassVariable o.header = some target → oopIsPointers target ∧ target ≠ 0

section Pass

variable {heap : HeapInformation} {objects : List HeapObject} {w w' : World}

/-- What the class variable walk keeps. -/
def ClassVariablesKept (w : World) (_ : Unit) (w' : World) : Prop :=
  StaticKept w.memory w'.memory ∧
    ∀ var, w'.globalsFixClassVariable var = w.globalsFixClassVariable var

/-- The target of a class variable. -/
def ClassVariableTarget (w : World) (_ : Unit) (o : HeapObject) (target : ℕ) : Prop :=
  w.globalsFixClassVariable o.header = some target ∧ target ≠ 0

theorem ClassVariablesKept.refl : ClassVariablesKept w () w := ⟨StaticKept.refl _, fun _ => rfl⟩

theorem ClassVariablesKept.setForwardingWord {c : Unit} (h : ClassVariablesKept w c w') (a v : ℕ) :
    ClassVariablesKept w c (w'.setForwardingWord a v) :=
  ⟨h.1.trans (StaticKept.setForwardingWord _ a v), h.2⟩

/-- Marking a class variable. -/
theorem ClassVariablesKept.marksObject {c : Unit} (h : ClassVariablesKept w c w')
    (hpools : w.PoolsHoldObjects objects) {o : HeapObject} (ho : o ∈ objects)
    (hclass : w.HasClass o .ClassVariable) {target : ℕ}
    (hfix : w'.globalsFixClassVariable o.header = some target) :
    MarksObject (ClassVariablesKept w) (ClassVariableTarget w) objects o c w' target c w' := by
  rw [h.2] at hfix
  obtain ⟨hpointers, hne⟩ := hpools o ho hclass target hfix
  exact ⟨h, ⟨hfix, hne⟩, hpointers, fun _ _ => rfl, fun _ _ ht => ht⟩

/-- **The class variable walk** marks every class variable with what is found for it, and changes
nothing else. -/
theorem iterate_classVariables (himage : SmallImage w heap objects)
    (hbelow : heap.finish ≤ w.memory.heapStart)
    (hzero : ∀ o ∈ objects, w.HasClass o .ClassVariable →
      w.memory.forwardingWord o.forwardingPointer = 0)
    (hpools : w.PoolsHoldObjects objects)
    (hwalk : w.iterate heap fixStaticHeapClassVariables = some w') :
    StaticKept w.memory w'.memory ∧ SmallImage w' heap objects ∧
      ∀ o ∈ objects, w.HasClass o .ClassVariable → ∃ target,
        w.globalsFixClassVariable o.header = some target ∧ target ≠ 0 ∧
          w'.memory.forwardingWord o.forwardingPointer = forwardingMark o.header target := by
  have hmark : ∀ o ∈ objects, (w.memory.header o.header).classIndex =
      KernelClass.ClassVariable.index → ∀ c w' target w'', ClassVariablesKept w c w' →
      (w'.globalsFixClassVariable o.header).map (·, w') = some (target, w'') →
      ∃ c', MarksObject (ClassVariablesKept w) (ClassVariableTarget w) objects o c w' target c'
        w'' := by
    intro o ho hclass c w' target w'' hkept hfix
    obtain ⟨t, ht, heq⟩ := Option.map_eq_some_iff.mp hfix
    obtain ⟨rfl, rfl⟩ := Prod.mk.inj heq
    exact ⟨c, hkept.marksObject hpools ho hclass ht⟩
  obtain ⟨_, ⟨⟨hkept, _⟩, hmarked, _⟩, himage'⟩ :=
    iterate_marking_of_some himage hbelow hzero (fun _ _ hkept => hkept.1)
      (fun _ w' a v hkept => hkept.setForwardingWord a v) hmark ClassVariablesKept.refl hwalk
  refine ⟨hkept, himage', fun o ho hclass => ?_⟩
  obtain ⟨target, ⟨htarget, hne⟩, -, hword⟩ := hmarked o ho hclass
  exact ⟨target, htarget, hne, hword⟩

/-- **The second pass** replaces every reference to a class variable by one to what is found for
it. -/
theorem fixStaticHeapPass2_slot (himage : SmallImage w heap objects)
    (hbelow : heap.finish ≤ w.memory.heapStart)
    (hzero : ∀ o ∈ objects, w.HasClass o .ClassVariable →
      w.memory.forwardingWord o.forwardingPointer = 0)
    (hpools : w.PoolsHoldObjects objects) (hpass : w.fixStaticHeapPass2 heap = some w')
    {o : HeapObject} (ho : o ∈ objects) (hclass : w.HasClass o .ClassVariable) :
    ∃ target, w.globalsFixClassVariable o.header = some target ∧ ∀ x i,
      w.IsOopSlot objects x i → w.memory.slot x i = o.header → w'.memory.slot x i = target := by
  rw [fixStaticHeapPass2, Option.bind_eq_bind, Option.bind_eq_some_iff] at hpass
  obtain ⟨w₁, hwalk, hwalk'⟩ := hpass
  obtain ⟨hkept, himage₁, hmarked⟩ := iterate_classVariables himage hbelow hzero hpools hwalk
  rw [iterate_applyNotNullForwarding himage₁.toStaticImage] at hwalk'
  have hforwarded := Forwarded.of_walks himage hbelow hkept himage₁
  rw [Option.some.inj hwalk'] at hforwarded
  obtain ⟨target, htarget, hne, hword⟩ := hmarked o ho hclass
  refine ⟨target, htarget, fun x i hslot hheader => ?_⟩
  have hword' : w'.memory.forwardingWord o.forwardingPointer = forwardingMark o.header target := by
    rw [← Option.some.inj hwalk']
    exact hword
  rw [hforwarded.oop x i hslot, hheader]
  exact hforwarded.image.forwardOop_mark ho hne hword'

/-- A heap of small objects between the two passes. -/
structure AwaitsPass2 (heap : HeapInformation) (objects : List HeapObject) (w : World) : Prop
    extends SmallImage w heap objects where
  kernel : KernelIntact w.memory
  below : heap.finish ≤ w.memory.heapStart
  zero : ∀ o ∈ objects, w.HasClass o .ClassVariable →
    w.memory.forwardingWord o.forwardingPointer = 0
  pools : w.PoolsHoldObjects objects

/-- The pool of the class that is the value of `e` has the association `a` for the key of the class
variable `v`. -/
structure ClassVariableBound (w : World) (v : HeapObject) (e a : ℕ) : Prop where
  classIndex : w.HasClass v .ClassVariable
  clazz : w.memory.slot e Field.value ≠ nilOop
  association : w.memory.dictionaryAssociationAt
    (w.memory.slot (w.memory.slot e Field.value) Field.classPool)
    (w.memory.slot v.header Field.key) stringHash stringEquals = some a
  ne_nilOop : a ≠ nilOop

omit [KernelImage] in
/-- Every pointer slot of the heap that referred to the object at `header` refers to `a`. -/
def ForwardedTo (objects : List HeapObject) (w w' : World) (header a : ℕ) : Prop :=
  ∀ x i, w.IsOopSlot objects x i → w.memory.slot x i = header → w'.memory.slot x i = a

/-- What `slvm_globals_fixClassVariable` returns depends on the class of the value. -/
theorem ClassVariableBound.fix {v : HeapObject} {e a : ℕ} (h : w.ClassVariableBound v e a)
    (hvalue : w.memory.slot v.header Field.value = e) :
    w.globalsFixClassVariable v.header =
      some (if w.memory.getClassIndexFromOop e = KernelClass.GlobalVariable.index then a
        else v.header) := by
  rw [globalsFixClassVariable, hvalue]
  by_cases hclass : w.memory.getClassIndexFromOop e = KernelClass.GlobalVariable.index
  · simp only [hclass, if_true, h.clazz, if_false, h.association]
  · simp only [hclass, if_false]

/-- No class variable is nil. -/
theorem HasClass.header_ne_nilOop {v : HeapObject} (hk : KernelIntact w.memory)
    (h : w.HasClass v .ClassVariable) : v.header ≠ nilOop := by
  intro heq
  rw [HasClass, heq, nilOop, hk.header] at h
  exact absurd h (by decide)

/-- **The second pass returns** if something is found for every class variable. -/
theorem AwaitsPass2.exists_fixStaticHeapPass2 (h : AwaitsPass2 heap objects w)
    (hfound : ∀ o ∈ objects, w.HasClass o .ClassVariable →
      (w.globalsFixClassVariable o.header).isSome) :
    ∃ w', w.fixStaticHeapPass2 heap = some w' := by
  have hmark : ∀ o ∈ objects, (w.memory.header o.header).classIndex =
      KernelClass.ClassVariable.index → ∀ c w', ClassVariablesKept w c w' → ∃ target c' w'',
      (w'.globalsFixClassVariable o.header).map (·, w') = some (target, w'') ∧
        MarksObject (ClassVariablesKept w) (ClassVariableTarget w) objects o c w' target c'
          w'' := by
    intro o ho hclass c w' hkept
    obtain ⟨target, htarget⟩ := Option.isSome_iff_exists.mp (hfound o ho hclass)
    rw [← hkept.2] at htarget
    exact ⟨target, c, w', by rw [htarget]; rfl, hkept.marksObject h.pools ho hclass htarget⟩
  obtain ⟨_, w₁, hwalk, _, himage₁⟩ :=
    @iterate_marking heap objects w _ (· = KernelClass.ClassVariable.index)
      (fun w var => (w.globalsFixClassVariable var).map (·, w)) _ _ _ h.toSmallImage h.below h.zero
      (fun _ _ hkept => hkept.1) (fun _ w' a v hkept => hkept.setForwardingWord a v) hmark ()
      ClassVariablesKept.refl
  have hwalk' : w.iterate heap fixStaticHeapClassVariables = some w₁ := hwalk
  rw [fixStaticHeapPass2, hwalk', Option.bind_eq_bind, Option.bind_some,
    iterate_applyNotNullForwarding himage₁.toStaticImage]
  exact ⟨_, rfl⟩

/-- **The second pass** over a heap of small objects forwards the references to a class variable to
the association of its key just in case its value is a `GlobalVariable`, if there is anything to
forward; it forwards none of them to nil. -/
theorem AwaitsPass2.forwardedTo_iff (h : AwaitsPass2 heap objects w)
    (hpass : w.fixStaticHeapPass2 heap = some w') {v : HeapObject} (hv : v ∈ objects) {e a : ℕ}
    (hvalue : w.memory.slot v.header Field.value = e) (hbound : w.ClassVariableBound v e a) :
    (ForwardedTo objects w w' v.header a ↔
      w.memory.getClassIndexFromOop e = KernelClass.GlobalVariable.index ∨ a = v.header ∨
        ∀ x i, w.IsOopSlot objects x i → w.memory.slot x i ≠ v.header) ∧
    ∀ x i, w.IsOopSlot objects x i → w.memory.slot x i = v.header →
      w'.memory.slot x i ≠ nilOop := by
  obtain ⟨target, htarget, hslots⟩ := fixStaticHeapPass2_slot h.toSmallImage h.below h.zero h.pools
    hpass hv hbound.classIndex
  rw [hbound.fix hvalue, Option.some.injEq] at htarget
  by_cases hclass : w.memory.getClassIndexFromOop e = KernelClass.GlobalVariable.index
  · rw [if_pos hclass] at htarget
    subst htarget
    refine ⟨iff_of_true hslots (Or.inl hclass), fun x i hslot hheader => ?_⟩
    rw [hslots x i hslot hheader]
    exact hbound.ne_nilOop
  · rw [if_neg hclass] at htarget
    subst htarget
    constructor
    · constructor
      · intro hforwarded
        by_cases heq : a = v.header
        · exact Or.inr (Or.inl heq)
        · refine Or.inr (Or.inr fun x i hslot hheader => heq ?_)
          rw [← hforwarded x i hslot hheader, hslots x i hslot hheader]
      · rintro (hcontra | rfl | hnone)
        · exact absurd hcontra hclass
        · exact hslots
        · exact fun x i hslot hheader => absurd hheader (hnone x i hslot)
    · intro x i hslot hheader
      rw [hslots x i hslot hheader]
      exact hbound.classIndex.header_ne_nilOop h.kernel

end Pass

/-! ### Between the passes -/

/-- One step of a package registration: C code binds a name, another heap is fixed, or the rest of
the program stores anywhere but into the dictionary of the globals, the names in it and what the
kernel relies on. -/
inductive RegistrationStep (objects : List HeapObject) (w : World) : World → Prop
  | atPut {symbol value : ℕ} {w' : World} (hlive : w.memory.Live symbol)
      (hput : w.globalsAtPut symbol value = some w') : RegistrationStep objects w w'
  | addIfNotExistent {var result : ℕ} {w' : World} (hvar : w.IsStaticVariable var)
      (hlive : w.memory.Live (w.memory.slot var Field.key))
      (hadd : w.globalsAddIfNotExistent var = some (result, w')) : RegistrationStep objects w w'
  | forwardingWord {a v : ℕ} (hne : ∀ o ∈ objects, a ≠ o.forwardingPointer) :
      RegistrationStep objects w (w.setForwardingWord a v)
  | elsewhere {m : ObjectMemory}
      (hframe : Frame w.memory.limit w.globalsElsewhere w.memory m) :
      RegistrationStep objects w (w.withMemory m)

/-- The globals bind the associations `g`. The dictionary is in the compacting heap. -/
structure GlobalsBound (w : World) (g : ℕ → Option ℕ) : Prop where
  kernel : KernelIntact w.memory
  dictionary : ∃ R n c, DictionaryValid identityScheme w.memory R w.globals n c g ∧ c < n ∧
    (∀ k, kernelClass k ∉ R) ∧ ∀ o ∈ R, w.memory.heapStart ≤ o

/-- What a registration keeps: the bindings there were, and the objects of a static heap but for
their slots. -/
structure Registered (objects : List HeapObject) (w w' : World) (g g' : ℕ → Option ℕ) : Prop where
  binding : ∀ k e, g k = some e → g' k = some e
  heapStart : w'.memory.heapStart = w.memory.heapStart
  header : ∀ x < w.memory.heapStart, w'.memory.header x = w.memory.header x
  word : ∀ o ∈ objects, o.forwardingPointer < w.memory.heapStart →
    w'.memory.forwardingWord o.forwardingPointer = w.memory.forwardingWord o.forwardingPointer

section Registration

variable {objects : List HeapObject} {w w' w'' : World} {g g' g'' : ℕ → Option ℕ}

omit [KernelImage] in
theorem Registered.refl : Registered objects w w g g :=
  ⟨fun _ _ h => h, rfl, fun _ _ => rfl, fun _ _ _ => rfl⟩

omit [KernelImage] in
theorem Registered.trans (h : Registered objects w w' g g')
    (h' : Registered objects w' w'' g' g'') :
    Registered objects w w'' g g'' where
  binding k e hk := h'.binding k e (h.binding k e hk)
  heapStart := h'.heapStart.trans h.heapStart
  header x hx := (h'.header x (h.heapStart ▸ hx)).trans (h.header x hx)
  word o ho hlt := (h'.word o ho (h.heapStart ▸ hlt)).trans (h.word o ho hlt)

omit [KernelImage] in
/-- A step that is framed. -/
theorem Registered.of_frame {m : ObjectMemory} {F : Set (ℕ × ℕ)}
    (hf : Frame w.memory.limit F w.memory m) (hg : ∀ k e, g k = some e → g' k = some e) :
    Registered objects w (w.withMemory m) g g' where
  binding := hg
  heapStart := hf.heapStart
  header x hx := hf.header x (hx.trans_le w.memory.heapStart_le_limit)
  word _ _ hlt := hf.forwardingWord _ (hlt.trans_le w.memory.heapStart_le_limit)

omit [KernelImage] in
/-- A new binding keeps the others. -/
theorem Registered.of_new {m : ObjectMemory} {F : Set (ℕ × ℕ)}
    (hf : Frame w.memory.limit F w.memory m) {key : ℕ} (hkey : g key = none) (e : ℕ) :
    Registered objects w (w.withMemory m) g (Function.update g key (some e)) := by
  refine Registered.of_frame hf fun k a hk => ?_
  rw [Function.update_of_ne, hk]
  rintro rfl
  rw [hkey] at hk
  cases hk

namespace GlobalsBound

/-- What is in the array is bound. -/
theorem stored_iff (h : GlobalsBound w g) {e : ℕ} : w.GlobalsStored e ↔ ∃ k, g k = some e := by
  obtain ⟨R, n, c, hd, -⟩ := h.dictionary
  exact hd.holds_iff

/-- The kernel survives a step on the dictionary. -/
theorem of_dictionary (h : GlobalsBound w g) {m : ObjectMemory} {R : Set ℕ} {n c : ℕ}
    {d : ℕ} (hf : Frame w.memory.limit {p | p.1 = w.globals ∨ p.1 = d} w.memory m)
    (hR : ∀ k, kernelClass k ∉ R) (hstart : ∀ o ∈ R, w.memory.heapStart ≤ o)
    (hglobals : w.globals ∈ R) (hd : d ∈ R)
    (hvalid : DictionaryValid identityScheme m (R ∪ {p | w.memory.limit ≤ p}) w.globals n c g')
    (hroom : c < n) : GlobalsBound (w.withMemory m) g' where
  kernel := by
    refine h.kernel.frame hf h.kernel.lt_limit fun k hcell => ?_
    rcases hcell with hcell | hcell
    · exact hR k ((show kernelClass k = w.globals from hcell) ▸ hglobals)
    · exact hR k ((show kernelClass k = d from hcell) ▸ hd)
  dictionary := by
    refine ⟨_, n, c, hvalid, hroom, fun k hk => ?_, fun o ho => ?_⟩
    · rcases hk with hk | hk
      · exact hR k hk
      · exact absurd (h.kernel.lt_limit (.kernelClass k)) (Nat.not_lt.mpr hk)
    · refine hf.heapStart.trans_le ?_
      rcases ho with ho | ho
      · exact hstart o ho
      · exact w.memory.heapStart_le_limit.trans ho

/-- **`slvm_globals_atPut`** keeps the bindings there are. -/
theorem atPut (h : GlobalsBound w g) {symbol value : ℕ} (hlive : w.memory.Live symbol)
    (hput : w.globalsAtPut symbol value = some w') :
    ∃ g', GlobalsBound w' g' ∧ Registered objects w w' g g' := by
  obtain ⟨R, n, c, hd, hroom, hR, hstart⟩ := h.dictionary
  rw [globalsAtPut, systemDictionaryAtPut] at hput
  cases hg : g symbol with
  | some e =>
    obtain ⟨hput', hd'⟩ := hd.atPut_of_some hg value (kernelClass .GlobalVariable)
    rw [hput'] at hput
    obtain rfl := Option.some.inj hput
    have hframe := Frame.setSlot_cell w.memory.limit w.memory e Field.value value
    exact ⟨g, ⟨h.kernel.setSlot (by decide), R, n, c, hd', hroom, hR, hstart⟩,
      Registered.of_frame hframe fun _ _ hk => hk⟩
  | none =>
    obtain ⟨e, m, n', c', hput', hframe, hd', hroom', -⟩ :=
      hd.atPut_of_none hroom h.kernel hR hlive hg value (kernelClass .GlobalVariable)
    rw [hput'] at hput
    obtain rfl := Option.some.inj hput
    exact ⟨_, h.of_dictionary hframe hR hstart hd.shape.mem hd.shape.array_mem hd' hroom',
      Registered.of_new hframe hg _⟩

/-- **`slvm_globals_addIfNotExistent`** of a global variable of a static heap keeps the bindings
there are. -/
theorem addIfNotExistent (h : GlobalsBound w g) {var result : ℕ} (hvar : w.IsStaticVariable var)
    (hlive : w.memory.Live (w.memory.slot var Field.key))
    (hadd : w.globalsAddIfNotExistent var = some (result, w')) :
    ∃ g', GlobalsBound w' g' ∧ Registered objects w w' g g' := by
  obtain ⟨R, n, c, hd, hroom, hR, hstart⟩ := h.dictionary
  have hnotMem : var ∉ R := fun hmem => absurd hvar.static (Nat.not_lt.mpr (hstart var hmem))
  have hne : var ≠ nilOop := by
    rintro rfl
    have hobject := hvar.object
    rw [nilOop, objectAt_address] at hobject
    cases hobject
  rw [globalsAddIfNotExistent] at hadd
  cases hg : g (w.memory.slot var Field.key) with
  | some e =>
    rw [hd.addAssociationIfNotExistent_of_some hne hg] at hadd
    obtain ⟨-, rfl⟩ := Prod.mk.inj (Option.some.inj hadd)
    exact ⟨g, h, Registered.refl⟩
  | none =>
    have hentry : DictionaryEntry identityScheme w.memory w.globals var :=
      ⟨trivial, hlive, hvar.static.trans_le w.memory.heapStart_le_limit,
        fun heq => hnotMem (heq ▸ hd.shape.mem), fun heq => hnotMem (heq ▸ hd.shape.array_mem)⟩
    obtain ⟨m, n', c', hadd', hframe, hd', hroom'⟩ :=
      hd.addAssociationIfNotExistent_of_none hroom h.kernel.formats hR hentry hne hg
    rw [hadd'] at hadd
    obtain ⟨-, rfl⟩ := Prod.mk.inj (Option.some.inj hadd)
    exact ⟨_, h.of_dictionary hframe hR hstart hd.shape.mem hd.shape.array_mem hd' hroom',
      Registered.of_new hframe hg _⟩

/-- **One step of a registration** keeps the bindings there are. -/
theorem step (h : GlobalsBound w g) (hstep : RegistrationStep objects w w') :
    ∃ g', GlobalsBound w' g' ∧ Registered objects w w' g g' := by
  cases hstep with
  | atPut hlive hput => exact h.atPut hlive hput
  | addIfNotExistent hvar hlive hadd => exact h.addIfNotExistent hvar hlive hadd
  | @forwardingWord a v hne =>
    refine ⟨g, ⟨⟨h.kernel.header, h.kernel.format, h.kernel.lt_limit⟩, ?_⟩, fun _ _ hk => hk, rfl,
      fun _ _ => rfl, fun o ho _ => setForwardingWord_word_of_ne w (hne o ho).symm v⟩
    obtain ⟨R, n, c, hd, hrest⟩ := h.dictionary
    exact ⟨R, n, c, hd.setForwardingWord a v, hrest⟩
  | elsewhere hframe =>
    obtain ⟨R, n, c, hd, hroom, hR, hstart⟩ := h.dictionary
    refine ⟨g, ⟨h.kernel.frame hframe h.kernel.lt_limit fun c hmem => hmem.2.2.2 c rfl,
      R, n, c, ?_, hroom, hR, fun o ho => hframe.heapStart.trans_le (hstart o ho)⟩,
      Registered.of_frame hframe fun _ _ hk => hk⟩
    refine hd.frame hframe (fun p hp => ⟨hp.1, hp.2.1⟩) (fun k e hk hmem => ?_) fun o ho _ => ho
    exact hmem.2.2.1 e (h.stored_iff.mpr ⟨k, hk⟩) rfl

/-- **A registration** keeps the bindings there are. -/
theorem run (h : GlobalsBound w g) (hrun : ReflTransGen (RegistrationStep objects) w w') :
    ∃ g', GlobalsBound w' g' ∧ Registered objects w w' g g' := by
  induction hrun with
  | refl => exact ⟨g, h, Registered.refl⟩
  | tail _ hstep ih =>
    obtain ⟨g₁, h₁, hkept₁⟩ := ih
    obtain ⟨g₂, h₂, hkept₂⟩ := h₁.step hstep
    exact ⟨g₂, h₂, hkept₁.trans hkept₂⟩

end GlobalsBound

end Registration

/-! ### Both passes -/

section Runs

variable {heap : HeapInformation} {objects : List HeapObject} {w w₁ w₂ : World}
  {owner : ℕ → Region} {f : List UInt8 → Option ℕ} {g : ℕ → Option ℕ}

/-- The globals of valid names. -/
theorem NamesValid.globalsBound (h : NamesValid heap objects w owner f g) : GlobalsBound w g where
  kernel := h.globals.symbols.kernel
  dictionary := by
    obtain ⟨n, c, hd, hroom⟩ := h.globals.globals
    exact ⟨_, n, c, hd, hroom, h.globals.kernelClass_not_mem (by simp),
      fun o ho => h.heapStart_le (by simp) (by simp) ho⟩

/-- The second pass may begin after a registration that left the pools in order. -/
theorem HeapFixed.awaitsPass2 (h : HeapFixed heap objects w₁ owner f g)
    (hzero : ∀ o ∈ objects, w₁.HasClass o .ClassVariable →
      w₁.memory.forwardingWord o.forwardingPointer = 0) {g' : ℕ → Option ℕ}
    (hkept : Registered objects w₁ w₂ g g') (hk : KernelIntact w₂.memory)
    (hpools : w₂.PoolsHoldObjects objects) : AwaitsPass2 heap objects w₂ := by
  have hbelow := h.names.below
  have hword : ∀ o ∈ objects, w₂.memory.forwardingWord o.forwardingPointer =
      w₁.memory.forwardingWord o.forwardingPointer := fun o ho =>
    hkept.word o ho (h.image.lt_heapStart hbelow ho).2.1
  refine ⟨h.image.congr hbelow hkept.header fun o ho => ?_, hk,
    hbelow.trans_eq hkept.heapStart.symm,
    fun o ho hclass => ?_, hpools⟩
  · rw [hword o ho]
    exact h.image.clear o ho
  · rw [hword o ho]
    refine hzero o ho ?_
    rw [HasClass, ← hkept.header _ (h.image.lt_heapStart hbelow ho).1]
    exact hclass

/-- The association the globals hold for a name. -/
theorem GlobalsBound.associationAt (h : GlobalsBound w g) {k e : ℕ} (hg : g k = some e) :
    w.memory.identityDictionaryAssociationAt w.globals k = some e := by
  obtain ⟨R, n, c, hd, hroom, -⟩ := h.dictionary
  have hat : w.memory.identityDictionaryAssociationAt w.globals k = some ((g k).getD nilOop) :=
    hd.associationAt trivial hroom
  rw [hat, hg, Option.getD_some]

/-- The first pass, and any registration after it. -/
theorem NamesValid.fixAndRegister (h : NamesValid heap objects w owner f g)
    (himage : SmallImage w heap objects)
    (hzero : ∀ o ∈ objects, w.memory.forwardingWord o.forwardingPointer = 0)
    (hnamed : NamedImage w heap objects) :
    ∃ w₁ owner₁ f₁ g₁, w.fixStaticHeap heap = some w₁ ∧ HeapFixed heap objects w₁ owner₁ f₁ g₁ ∧
      SlotsFixed objects w w₁ f₁ g₁ ∧ NamesKept objects w w₁ f f₁ g g₁ ∧
      ∀ w₂, ReflTransGen (RegistrationStep objects) w₁ w₂ →
        ∃ g₂, GlobalsBound w₂ g₂ ∧ Registered objects w₁ w₂ g₁ g₂ ∧
          (w₂.PoolsHoldObjects objects → AwaitsPass2 heap objects w₂) := by
  obtain ⟨w₁, owner₁, f₁, g₁, hfix, hfixed, hslots, hnames⟩ := h.fixStaticHeap himage hzero hnamed
  refine ⟨w₁, owner₁, f₁, g₁, hfix, hfixed, hslots, hnames, fun w₂ hregistration => ?_⟩
  obtain ⟨g₂, hglobals₂, hkept⟩ := hfixed.names.globalsBound.run hregistration
  refine ⟨g₂, hglobals₂, hkept, hfixed.awaitsPass2 (fun o ho hclass => ?_) hkept hglobals₂.kernel⟩
  rw [HasClass, hslots.header _ (himage.lt_heapStart h.below ho).1] at hclass
  exact hnames.zero o ho (fun hc => absurd (hclass.symm.trans hc) (by decide))
    fun hc => absurd (hclass.symm.trans hc) (by decide)

/-- **Class variables are fixed if static heaps bound the names of their classes.** In every heap of
small objects that the second pass begins with, the references to a class variable whose value is
`e` become references to the association its class has for its key just in case `e` is a
`GlobalVariable`, if there is anything to do. After the first pass and any registration, `e` is the
association the globals hold for the name of the class. -/
theorem classVariables_of_run :
    (∀ w w', AwaitsPass2 heap objects w → w.fixStaticHeapPass2 heap = some w' →
      ∀ v ∈ objects, ∀ e a, w.memory.slot v.header Field.value = e → w.ClassVariableBound v e a →
      (ForwardedTo objects w w' v.header a ↔
        w.memory.getClassIndexFromOop e = KernelClass.GlobalVariable.index ∨ a = v.header ∨
          ∀ x i, w.IsOopSlot objects x i → w.memory.slot x i ≠ v.header) ∧
      ∀ x i, w.IsOopSlot objects x i → w.memory.slot x i = v.header →
        w'.memory.slot x i ≠ nilOop) ∧
    ∀ w, NameReachable heap objects w → StaticImage w heap objects →
      (∀ o ∈ objects, w.memory.forwardingWord o.forwardingPointer = 0) →
      NamedImage w heap objects →
      ∃ w₁, w.fixStaticHeap heap = some w₁ ∧
        ∀ w₂ w₃, ReflTransGen (RegistrationStep objects) w₁ w₂ → w₂.PoolsHoldObjects objects →
        w₂.fixStaticHeapPass2 heap = some w₃ →
        ∀ v ∈ objects, ∀ p ∈ objects, w.HasClass p .GlobalVariable →
        w.IsOopSlot objects v.header Field.value → w.memory.slot v.header Field.value = p.header →
        w₂.memory.slot v.header Field.value = w₁.memory.slot v.header Field.value →
        ∀ e a, w₂.memory.identityDictionaryAssociationAt w₂.globals
          (w₁.memory.slot p.header Field.key) = some e → w₂.ClassVariableBound v e a →
        (ForwardedTo objects w₂ w₃ v.header a ↔
          w₂.memory.getClassIndexFromOop e = KernelClass.GlobalVariable.index ∨ a = v.header ∨
            ∀ x i, w₂.IsOopSlot objects x i → w₂.memory.slot x i ≠ v.header) ∧
        ∀ x i, w₂.IsOopSlot objects x i → w₂.memory.slot x i = v.header →
          w₃.memory.slot x i ≠ nilOop := by
  refine ⟨fun w w' hw hpass v hv e a hvalue hbound => hw.forwardedTo_iff hpass hv hvalue hbound, ?_⟩
  intro w hrun himage hzero hnamed
  obtain ⟨owner, f, g, hvalid⟩ := hrun.valid
  have hsmall : SmallImage w heap objects := ⟨himage, fun o ho => by rw [hzero o ho]; rfl⟩
  obtain ⟨w₁, -, f₁, g₁, hfix, -, hslots, -, hregister⟩ :=
    hvalid.fixAndRegister hsmall hzero hnamed
  refine ⟨w₁, hfix, ?_⟩
  intro w₂ w₃ hregistration hpools hpass v hv p hp hclass hslot hvalue hkeeps e a hat hbound
  obtain ⟨g₂, hglobals₂, hkept, hawaits⟩ := hregister w₂ hregistration
  -- the value is what the globals held for the name, and still hold
  have hbinding := hkept.binding _ _ (hslots.globalVariable _ _ hslot p hp hvalue hclass)
  have hsame := Option.some.inj ((hglobals₂.associationAt hbinding).symm.trans hat)
  exact (hawaits hpools).forwardedTo_iff hpass hv (hkeeps.trans hsame) hbound

end Runs

omit [KernelImage]

/-! ### A class variable of `Object` -/

/-- The pool binds `Bar`. -/
theorem objectHeap_association : letI := sequentialImage
    ∀ m : ObjectMemory, m.header 60712 = objectHeapHeader 60712 →
      m.header 60776 = objectHeapHeader 60776 → m.slot 60680 Field.array = 60712 →
      m.slot 60712 0 = 60744 → m.slot 60744 Field.key = 60776 →
      m.dictionaryAssociationAt 60680 60776 stringHash stringEquals = some 60744 := by
  let := sequentialImage
  intro m harray hsymbol hslot helement hkey
  have hsize : m.basicSize 60712 = 1 := by
    rw [basicSize, harray]
    rfl
  have hstring : m.IsByteString 60776 := ⟨by decide, by rw [hsymbol]; exact Or.inr rfl⟩
  have hstop : (m.slot 60712 0 == nilOop ||
      m.stringEquals (m.slot (m.slot 60712 0) Field.key) 60776) = true := by
    rw [helement, hkey, stringEquals, if_pos rfl, Bool.or_true]
  have hprobe := @LinearProbing.probe_of_start 1 0 (fun index => m.slot 60712 index == nilOop ||
      m.stringEquals (m.slot (m.slot 60712 index) Field.key) 60776) Nat.one_pos hstop
  rw [dictionaryAssociationAt, if_neg (by decide), dictionaryScanFor]
  simp only [hslot, hsize, stringHash_eq hstring, Nat.mod_one, Option.bind_eq_bind,
    Option.bind_some,
    Option.pure_def, hprobe, helement, if_neg Nat.one_ne_zero]

/-- The heap after the first pass. The value of the class variable is what the globals bind to the
symbol `Object`. -/
structure ObjectHeapFixed (w : World) (f : List UInt8 → Option ℕ) (g : ℕ → Option ℕ) (e : ℕ) :
    Prop where
  header : ∀ a < 65536, a % 128 ≠ 0 → w.memory.header a = objectHeapHeader a
  elsewhere : ∀ a < 65536, a % 128 ≠ 0 → (∀ o ∈ objectHeapObjects, o.header ≠ a) →
    w.memory.slot a = objectHeapSlot a
  key : w.memory.slot 61512 Field.key = 60776
  value : w.memory.slot 61512 Field.value = e
  reference : w.memory.slot 61544 0 = 61512
  name : f [79, 98, 106, 101, 99, 116] = some (w.memory.slot 61480 Field.key)
  binding : g (w.memory.slot 61480 Field.key) = some e

theorem NextToObjectHeap.fixed {w w₁ : World} (h : NextToObjectHeap w) {f : List UInt8 → Option ℕ}
    {g : ℕ → Option ℕ} (hslots : SlotsFixed objectHeapObjects w w₁ f g) :
    ObjectHeapFixed w₁ f g (w₁.memory.slot 61512 Field.value) := by
  have hstart : w.memory.heapStart = 65536 := h.kept.heapStart
  have hvariable : w.HasClass ⟨61472, 61480, 2, 2⟩ .GlobalVariable :=
    (h.hasClass_iff _ _ (by decide)).mpr rfl
  -- an oop to neither a symbol nor a global variable
  have hother : ∀ a i, w.IsOopSlot objectHeapObjects a i → (∀ o ∈ objectHeapObjects,
      objectHeapSlot a i = o.header → (objectHeapHeader o.header).classIndex ≠
        KernelClass.ByteSymbol.index ∧ (objectHeapHeader o.header).classIndex ≠
        KernelClass.GlobalVariable.index) → a < 65536 → a % 128 ≠ 0 →
      w₁.memory.slot a i = objectHeapSlot a i := by
    intro a i hslot hclass ha hmod
    have hsame := h.slot ha hmod
    rw [hslots.other a i hslot, hsame]
    intro o ho hheader
    rw [hsame] at hheader
    rw [h.hasClass_iff _ o ho, h.hasClass_iff _ o ho]
    exact hclass o ho hheader
  refine ⟨fun a ha hmod => (hslots.header a (hstart ▸ ha)).trans (h.header ha hmod),
    fun a ha hmod hnot => ?_, ?_, rfl, ?_, ?_, ?_⟩
  · funext i
    rw [hslots.elsewhere a (hstart ▸ ha) i fun ⟨o, ho, hheader, _⟩ => hnot o ho hheader,
      h.slot ha hmod]
  · exact hother 61512 Field.key (h.isOopSlot (by decide) (by decide) (by decide) (by decide)
      Nat.zero_lt_two) (by decide) (by decide) (by decide)
  · exact hother 61544 0 (h.isOopSlot (by decide) (by decide) (by decide) (by decide)
      Nat.one_pos) (by decide) (by decide) (by decide)
  · have hname := hslots.name ⟨61472, 61480, 2, 2⟩ (by decide) hvariable
    rwa [h.name] at hname
  · exact hslots.globalVariable 61512 Field.value (h.isOopSlot (by decide) (by decide) (by decide)
      (by decide) Nat.one_lt_two) ⟨61472, 61480, 2, 2⟩ (by decide) h.value hvariable

/-- The heap before the second pass. A registration has made the kernel class `Object` the value of
its name and has given it the pool. -/
structure ObjectHeapRegistered [KernelImage] (w₁ w₂ : World) (e : ℕ) : Prop where
  registration : ReflTransGen (RegistrationStep objectHeapObjects) w₁ w₂
  header : w₂.memory.header = w₁.memory.header
  clazz : w₂.memory.slot e Field.value = kernelClass .Object
  pool : w₂.memory.slot (kernelClass .Object) Field.classPool = 60680
  slot : ∀ a < 61568, a % 128 ≠ 0 →
    (objectHeapHeader a).classIndex ≠ KernelClass.GlobalVariable.index →
    w₂.memory.slot a = w₁.memory.slot a

theorem ObjectHeapFixed.registered : letI := sequentialImage
    ∀ {w₁ : World} {owner f g e}, HeapFixed objectHeap objectHeapObjects w₁ owner f g →
      ObjectHeapFixed w₁ f g e → ∃ w₂, ObjectHeapRegistered w₁ w₂ e := by
  let := sequentialImage
  intro w₁ owner f g e hfixed h
  obtain ⟨hput, hvalid⟩ := hfixed.names.globals.atPut_of_some h.binding (kernelClass .Object)
  have hput' : RegistrationStep objectHeapObjects w₁
      (w₁.withMemory (w₁.memory.setSlot e Field.value (kernelClass .Object))) :=
    RegistrationStep.atPut (hfixed.names.globals.entry h.binding).2.2.2 hput
  obtain ⟨w, hw⟩ : ∃ w, w = w₁.withMemory
    (w₁.memory.setSlot e Field.value (kernelClass .Object)) := ⟨_, rfl⟩
  rw [← hw] at hput' hvalid
  have hpool : (kernelClass .Object, Field.classPool) ∈ w.globalsElsewhere := by
    obtain ⟨n, c, hd, -⟩ := hvalid.globals
    have hnotMem := hvalid.kernelClass_not_mem (r := .globals) (by simp) .Object
    refine ⟨fun heq => hnotMem ?_, fun heq => hnotMem ?_, fun a _ heq => ?_, fun c heq => ?_⟩
    · exact (show kernelClass .Object = w.globals from heq) ▸ hd.shape.mem
    · exact (show kernelClass .Object = w.memory.slot w.globals Field.array from heq) ▸
        hd.shape.array_mem
    · exact absurd (Prod.mk.inj heq).2 (by decide)
    · exact absurd (Prod.mk.inj heq).2 (by decide)
  refine ⟨w.withMemory (w.memory.setSlot (kernelClass .Object) Field.classPool 60680),
    (ReflTransGen.single hput').tail
      (RegistrationStep.elsewhere (Frame.setSlot _ _ (Or.inl hpool) _)), ?_, ?_, ?_, ?_⟩
  · rw [hw]
    rfl
  · rw [hw]
    refine (setSlot_slot_of_ne_cell _ _ _ _ fun heq => ?_).trans (setSlot_slot_self _ _ _ _)
    exact absurd (Prod.mk.inj heq).2 (by decide)
  · exact setSlot_slot_self _ _ _ _
  · intro a ha hmod hclass
    funext i
    rw [hw]
    refine (setSlot_slot_of_ne_cell _ _ _ _ fun heq => hmod ?_).trans
      (setSlot_slot_of_ne_cell _ _ _ _ fun heq => hclass ?_)
    · exact (Prod.mk.inj heq).1 ▸ Nat.mul_mod_right 128 _
    · have hae : a = e := (Prod.mk.inj heq).1
      rw [← h.header a (by omega) hmod, hae]
      exact (hfixed.names.association _ _ h.binding).2.2
        (hae ▸ Nat.lt_of_lt_of_le ha hfixed.names.below)

/-- The class variable is bound. -/
theorem ObjectHeapRegistered.bound : letI := sequentialImage
    ∀ {w₁ w₂ : World} {f g e}, ObjectHeapFixed w₁ f g e → ObjectHeapRegistered w₁ w₂ e →
      w₂.ClassVariableBound ⟨61504, 61512, 2, 2⟩ e 60744 := by
  let := sequentialImage
  intro w₁ w₂ f g e h h₂
  refine ⟨?_, ?_, ?_, by decide⟩
  · rw [HasClass, h₂.header, h.header _ (by decide) (by decide)]
    rfl
  · rw [h₂.clazz]
    decide
  · rw [h₂.clazz, h₂.pool, h₂.slot 61512 (by decide) (by decide) (by decide), h.key]
    refine objectHeap_association w₂.memory ?_ ?_ ?_ ?_ ?_
    · rw [h₂.header, h.header _ (by decide) (by decide)]
    · rw [h₂.header, h.header _ (by decide) (by decide)]
    all_goals
      rw [h₂.slot _ (by decide) (by decide) (by decide),
        h.elsewhere _ (by decide) (by decide) (forall_objectHeapObjects (by decide) (by decide)
          (by decide) (by decide))]
      rfl

/-- It is the only one. -/
theorem ObjectHeapRegistered.hasClass [KernelImage] {w₁ w₂ : World} {f : List UInt8 → Option ℕ}
    {g : ℕ → Option ℕ} {e : ℕ} (h : ObjectHeapFixed w₁ f g e) (h₂ : ObjectHeapRegistered w₁ w₂ e) :
    ∀ o ∈ objectHeapObjects, w₂.HasClass o .ClassVariable → o = ⟨61504, 61512, 2, 2⟩ := by
  intro o ho hclass
  rw [HasClass, h₂.header] at hclass
  revert o
  refine forall_objectHeapObjects (fun hclass => ?_) (fun hclass => ?_) (fun _ => rfl)
    fun hclass => ?_ <;>
    rw [h.header _ (by decide) (by decide)] at hclass <;>
    exact absurd hclass (by decide)

/-- The array refers to it. -/
theorem ObjectHeapRegistered.reference [KernelImage] {w₁ w₂ : World} {f : List UInt8 → Option ℕ}
    {g : ℕ → Option ℕ} {e : ℕ} (h : ObjectHeapFixed w₁ f g e) (h₂ : ObjectHeapRegistered w₁ w₂ e) :
    w₂.IsOopSlot objectHeapObjects 61544 0 ∧ w₂.memory.slot 61544 0 = 61512 := by
  refine ⟨⟨⟨61536, 61544, 1, 1⟩, by decide, rfl, ?_, Nat.one_pos⟩, ?_⟩
  · rw [HoldsPointers, h₂.header, h.header _ (by decide) (by decide)]
    decide
  · rw [h₂.slot _ (by decide) (by decide) (by decide), h.reference]

/-- Both passes over the heap, with that registration in between. -/
theorem NextToObjectHeap.run : letI := sequentialImage
    ∀ {w : World} {owner f g}, NamesValid objectHeap objectHeapObjects w owner f g →
      NextToObjectHeap w → ∃ w₁ w₂ w₃ f₁ g₁ e, w.fixStaticHeap objectHeap = some w₁ ∧
        NamesKept objectHeapObjects w w₁ f f₁ g g₁ ∧ ObjectHeapFixed w₁ f₁ g₁ e ∧
        ObjectHeapRegistered w₁ w₂ e ∧ AwaitsPass2 objectHeap objectHeapObjects w₂ ∧
        w₂.memory.identityDictionaryAssociationAt w₂.globals (w₁.memory.slot 61480 Field.key) =
          some e ∧ w₂.fixStaticHeapPass2 objectHeap = some w₃ := by
  let := sequentialImage
  intro w owner f g hvalid hnext
  obtain ⟨w₁, owner₁, f₁, g₁, hfix, hfixed, hslots, hnames, hregister⟩ :=
    hvalid.fixAndRegister hnext.small hnext.zero hnext.named
  obtain ⟨e, he⟩ : ∃ e, e = w₁.memory.slot 61512 Field.value := ⟨_, rfl⟩
  have h : ObjectHeapFixed w₁ f₁ g₁ e := he ▸ hnext.fixed hslots
  obtain ⟨w₂, h₂⟩ := h.registered hfixed
  obtain ⟨g₂, hglobals₂, hkept, hawaits⟩ := hregister w₂ h₂.registration
  have hvalue : w₂.memory.slot 61512 Field.value = e := by
    rw [h₂.slot 61512 (by decide) (by decide) (by decide), h.value]
  have hfix₂ := (h₂.bound h).fix hvalue
  have hpools : w₂.PoolsHoldObjects objectHeapObjects := by
    intro o ho hclass target htarget
    obtain rfl := h₂.hasClass h o ho hclass
    rw [hfix₂, Option.some.injEq] at htarget
    subst htarget
    split
    · decide
    · decide
  obtain ⟨w₃, hpass⟩ := (hawaits hpools).exists_fixStaticHeapPass2 fun o ho hclass => by
    obtain rfl := h₂.hasClass h o ho hclass
    rw [hfix₂]
    rfl
  exact ⟨w₁, w₂, w₃, f₁, g₁, e, hfix, hnames, h, h₂, hawaits hpools,
    hglobals₂.associationAt (hkept.binding _ _ h.binding), hpass⟩

/-- The array refers to the association of the pool: the heap itself names `Object`. -/
theorem classVariables_of_run_objectHeap : letI := sequentialImage
    ∃ w w₁ w₂ w₃ : World, NameReachable objectHeap objectHeapObjects w ∧
      w.fixStaticHeap objectHeap = some w₁ ∧
      ReflTransGen (RegistrationStep objectHeapObjects) w₁ w₂ ∧
      w₂.fixStaticHeapPass2 objectHeap = some w₃ ∧ w₂.memory.slot 61544 0 = 61512 ∧
      w₃.memory.slot 61544 0 = 60744 := by
  let := sequentialImage
  obtain ⟨w, hstart, hbelow, hnext⟩ := exists_nextToObjectHeap
  obtain ⟨owner, hvalid⟩ := @NamesValid.of_start _ objectHeap objectHeapObjects _ hstart hbelow
  obtain ⟨w₁, w₂, w₃, f₁, g₁, e, hfix, hnames, h, h₂, hawaits, hat, hpass⟩ := hnext.run hvalid
  have hrun : NameReachable objectHeap objectHeapObjects w := ⟨w, hstart, hbelow, ReflTransGen.refl⟩
  have hvariable : w.HasClass ⟨61472, 61480, 2, 2⟩ .GlobalVariable :=
    (hnext.hasClass_iff _ _ (by decide)).mpr rfl
  obtain ⟨w₁', hfix', hpass2⟩ :=
    classVariables_of_run.2 w hrun hnext.image hnext.zero hnext.named
  obtain rfl := Option.some.inj (hfix'.symm.trans hfix)
  have hslots := (hpass2 w₂ w₃ h₂.registration hawaits.pools hpass ⟨61504, 61512, 2, 2⟩ (by decide)
    ⟨61472, 61480, 2, 2⟩ (by decide) hvariable (hnext.isOopSlot (by decide) (by decide) (by decide)
      (by decide) Nat.one_lt_two) hnext.value
    (congrFun (h₂.slot 61512 (by decide) (by decide) (by decide)) _) e 60744 hat (h₂.bound h)).1
  have hclass : w₂.memory.getClassIndexFromOop e = KernelClass.GlobalVariable.index := by
    rcases hnames.binding.new _ _ h.binding with hold | ⟨o, ho, hclass, rfl⟩
    · cases hold
    · rw [getClassIndexFromOop, if_pos (hnext.small.bounds ho).2.2, h₂.header,
        hnames.headers.header _
          ((hnext.small.lt_heapStart hbelow ho).1.trans_le w.memory.heapStart_le_limit)]
      exact hclass
  obtain ⟨hslot, hreference⟩ := h₂.reference h
  exact ⟨w, _, w₂, w₃, hrun, hfix, h₂.registration, hpass, hreference,
    hslots.mpr (Or.inl hclass) 61544 0 hslot hreference⟩

/-- It still refers to the class variable: C code bound the name to an `Association`. -/
theorem objectHeap_classVariable_of_globalsAtPut : letI := sequentialImage
    ¬ ∀ (heap : HeapInformation) (objects : List HeapObject) (w w₁ w₂ w₃ : World),
      NameReachable heap objects w → StaticImage w heap objects →
      (∀ o ∈ objects, w.memory.forwardingWord o.forwardingPointer = 0) →
      NamedImage w heap objects → w.fixStaticHeap heap = some w₁ →
      ReflTransGen (RegistrationStep objects) w₁ w₂ → w₂.PoolsHoldObjects objects →
      w₂.fixStaticHeapPass2 heap = some w₃ →
      ∀ v ∈ objects, ∀ p ∈ objects, w.HasClass p .GlobalVariable →
      w.IsOopSlot objects v.header Field.value → w.memory.slot v.header Field.value = p.header →
      w₂.memory.slot v.header Field.value = w₁.memory.slot v.header Field.value →
      ∀ e c a, w₂.memory.identityDictionaryAssociationAt w₂.globals
        (w₁.memory.slot p.header Field.key) = some e →
      w₂.memory.slot e Field.value = kernelClass c → w₂.ClassVariableBound v e a →
      ForwardedTo objects w₂ w₃ v.header a := by
  let := sequentialImage
  intro hall
  obtain ⟨w₀, hstart, hbelow, hnext₀⟩ := exists_nextToObjectHeap
  obtain ⟨owner₀, hvalid₀⟩ := @NamesValid.of_start _ objectHeap objectHeapObjects _ hstart hbelow
  obtain ⟨symbol, m, hintern, hframe, hvalid₁⟩ :=
    hvalid₀.internCString [79, 98, 106, 101, 99, 116]
  have hnext₁ := hnext₀.frame hframe (hvalid₀.staticKept hframe (by simp) (by simp))
  have hsymbol := Function.update_self (cStringBytes [79, 98, 106, 101, 99, 116]) (some symbol)
    fun _ => none
  have hname : (w₀.withMemory m).IsName objectHeap symbol :=
    ⟨(hvalid₁.globals.symbols.of_some hsymbol).2.1,
      fun _ _ => hvalid₁.globals.symbols.isInterned_iff.mpr ⟨_, hsymbol⟩⟩
  obtain ⟨e₀, m', hput, hframe', hnew, hvalid⟩ := hvalid₁.atPut_of_none hname rfl 0
  have hnext := hnext₁.frame hframe' (hvalid₁.staticKept hframe' (by simp) (by simp))
  have hrun : NameReachable objectHeap objectHeapObjects (w₀.withMemory m') :=
    ⟨w₀, hstart, hbelow, (ReflTransGen.single (NameStep.internCString _ hintern)).tail
      (NameStep.atPut hname hput)⟩
  obtain ⟨w₁, w₂, w₃, f₁, g₁, e, hfix, hnames, h, h₂, hawaits, hat, hpass⟩ := hnext.run hvalid
  -- the name is still bound to that association
  have hsame : symbol = w₁.memory.slot 61480 Field.key :=
    Option.some.inj ((hnames.symbol _ _ hsymbol).symm.trans h.name)
  have hbinding := hnames.binding.kept symbol e₀ (Function.update_self ..)
  rw [hsame, h.binding, Option.some.injEq] at hbinding
  have hclass : w₂.memory.getClassIndexFromOop e = KernelClass.Association.index := by
    rw [hbinding, getClassIndexFromOop, if_pos hnew.pointers, h₂.header,
      hnames.headers.header _ hnew.lt_limit]
    exact hnew.classIndex
  have hforwarded := hall objectHeap objectHeapObjects _ w₁ w₂ w₃ hrun hnext.image hnext.zero
    hnext.named hfix h₂.registration hawaits.pools hpass ⟨61504, 61512, 2, 2⟩ (by decide)
    ⟨61472, 61480, 2, 2⟩ (by decide) ((hnext.hasClass_iff _ _ (by decide)).mpr rfl)
    (hnext.isOopSlot (by decide) (by decide) (by decide) (by decide) Nat.one_lt_two) hnext.value
    (congrFun (h₂.slot 61512 (by decide) (by decide) (by decide)) _) e .Object 60744 hat h₂.clazz
    (h₂.bound h)
  have hkept : w₂.memory.slot 61512 Field.value = e := by
    rw [h₂.slot 61512 (by decide) (by decide) (by decide), h.value]
  obtain ⟨hslot, hreference⟩ := h₂.reference h
  rcases (hawaits.forwardedTo_iff hpass (by decide) hkept (h₂.bound h)).1.mp hforwarded with
    hvariable | hself | hnone
  · exact absurd (hclass.symm.trans hvariable) (by decide)
  · exact absurd hself (by decide)
  · exact hnone 61544 0 hslot hreference

end World

end SlvmNative
