import SlvmNative.Behaviors

/-!
# Registration of classes and methods

What packages call to define their classes and methods. A class is created together with its
metaclass: both are registered in the class table, linked to the class and metaclass of the
superclass, and given method dictionaries; then the name of the class is bound in the globals.

## Main definitions

* `World.subclassWithSomeNames`, `World.registerMethodWithNames`, `World.classSetMetadata`
* `World.KernelValid` — the runtime stands for a hierarchy of named classes

## Main results

* `World.KernelValid.subclassWithSomeNames` — what the creation of a class does
* `World.KernelValid.registerMethodWithNames` — what the registration of a method does
-/

namespace SlvmNative

open ObjectMemory Inheritance

/-- The arguments of `slvm_dynrun_subclassWithSomeNames`. -/
structure ClassDefinition where
  superClassName : ℕ
  name : ℕ
  instanceVariableNames : ℕ
  format : ℕ
  metaInstanceVariableNames : ℕ
  metaFormat : ℕ
  classVariableAssociations : ℕ
  poolDictionaries : ℕ
  categoryName : ℕ

namespace World

variable [KernelImage]

/-! ### The operations -/

/-- A store into a slot. -/
def setSlot (w : World) (o i v : ℕ) : World := w.withMemory (w.memory.setSlot o i v)

/-- One round of the loop in `slvm_dynrun_classSetMetadata`. -/
def addClassVariable (classOop classVariables : ℕ) (m : ObjectMemory) (i : ℕ) :
    Option ObjectMemory :=
  let classVariable := m.slot classVariables i
  let m := m.setSlot classVariable Field.value nilOop
  m.dictionaryAddAssociation (m.slot classOop Field.classPool) classVariable stringHash stringEquals

/-- `slvm_dynrun_classSetMetadata` -/
def classSetMetadata (m : ObjectMemory) (classOop : ℕ) (d : ClassDefinition) :
    Option ObjectMemory := do
  let m := m.setSlot classOop Field.instanceVariables d.instanceVariableNames
  let m := m.setSlot classOop Field.category d.categoryName
  let (classPool, m) ← m.dictionaryNew (kernelClass .Dictionary)
  let m := m.setSlot classOop Field.classPool classPool
  let m := m.setSlot classOop Field.sharedPools d.poolDictionaries
  if d.classVariableAssociations = nilOop then return m
  else
    (List.range (m.basicSize d.classVariableAssociations)).foldlM
      (addClassVariable classOop d.classVariableAssociations) m

/-- What `slvm_dynrun_subclassWithSomeNames` does to both new behaviors: registering one, and its
superclass, format and method dictionary. -/
def initializeBehavior (w : World) (behavior superclass format : ℕ) : Option World := do
  let w ← w.registerBehavior behavior
  let w := w.setSlot behavior Field.superclass superclass
  let w := w.setSlot behavior Field.format format
  let (methodDict, m) ← w.memory.methodDictionaryNew
  return w.withMemory (m.setSlot behavior Field.methodDict methodDict)

/-- The part of `slvm_dynrun_subclassWithSomeNames` that creates the metaclass. -/
def createMetaclass (w : World) (superMetaclass : ℕ) (d : ClassDefinition) :
    Option (ℕ × World) := do
  let (metaClass, m) ← w.memory.kernelNew .Metaclass 0
  let w ← (w.withMemory m).initializeBehavior metaClass superMetaclass d.metaFormat
  return (metaClass, w.setSlot metaClass Field.instanceVariables d.metaInstanceVariableNames)

/-- The part of `slvm_dynrun_subclassWithSomeNames` that creates the class and binds its name. It
fails where the assertion does. -/
def createClass (w : World) (metaClass superClass : ℕ) (d : ClassDefinition) :
    Option (ℕ × World) := do
  let (clazz, m) ← w.memory.basicNew metaClass 0
  let w := w.withMemory m
  if w.getClassFromOop clazz ≠ some metaClass then none
  else
    let w ← w.initializeBehavior clazz superClass d.format
    -- link the metaclass with its class
    let w := w.setSlot clazz Field.name d.name
    let w := w.setSlot metaClass Field.thisClass clazz
    -- register the class in the system dictionary
    let w ← w.globalsAtPut (w.memory.slot clazz Field.name) clazz
    return (clazz, w)

/-- `slvm_dynrun_subclassWithSomeNames`. It fails where the source aborts. -/
def subclassWithSomeNames (w : World) (d : ClassDefinition) : Option (ℕ × World) := do
  -- try to find an existing version
  let existing ← w.globalsAtOrNil d.name
  if existing ≠ nilOop then return (existing, w)
  let superClass ← w.globalsAtOrNil d.superClassName
  if superClass = nilOop ∨ oopIsImmediate superClass then none
  else
    let superMetaclass ← w.getClassFromOop superClass
    let (metaClass, w) ← w.createMetaclass superMetaclass d
    let (clazz, w) ← w.createClass metaClass superClass d
    let m ← classSetMetadata w.memory clazz d
    return (clazz, w.withMemory m)

/-- `slvm_dynrun_registerMethodWithNames`. It fails where an assertion does. -/
def registerMethodWithNames (w : World) (method selector className classSide : ℕ) :
    Option (ℕ × World) := do
  let classOop ← w.globalsAtOrNil className
  if classOop = nilOop then return (falseOop, w)
  let metaclass ← w.getClassFromOop classOop
  if (w.memory.header metaclass).classIndex ≠ KernelClass.Metaclass.index then none
  else
    let behavior := if classSide = trueOop then metaclass else classOop
    let m ← w.memory.methodDictionaryAtPut (w.memory.slot behavior Field.methodDict) selector method
    return (trueOop, w.withMemory m)

/-! ### The invariant -/

/-- The runtime stands for the hierarchy `h` and the symbols `f`; its globals bind the associations
`g`. The objects `O` are none of its own. -/
structure KernelValid (w : World) (owner : ℕ → Region) (f : List UInt8 → Option ℕ)
    (g : ℕ → Option ℕ) (h : Hierarchy) (O : Set ℕ) : Prop where
  globals : GlobalsValid w owner f g
  behaviors : BehaviorsValid w owner h
  /-- The globals bind the classes to their names, and some names to nil. -/
  named : ∀ k, ((g k).map fun e => w.memory.slot e Field.value).getD nilOop =
    (h.named k).getD nilOop
  isClass : ∀ k C, h.named k = some C → h.IsClass C
  objects : ∀ o ∈ O, owner o = .object ∧ o < w.memory.limit ∧ ∀ k, g k ≠ some o

namespace KernelValid

variable {w : World} {owner owner' : ℕ → Region} {f : List UInt8 → Option ℕ} {g : ℕ → Option ℕ}
  {h : Hierarchy} {O : Set ℕ} {F : Set (ℕ × ℕ)}

/-- What the globals have for a name. -/
theorem globalsAtOrNil (hv : KernelValid w owner f g h O) (k : ℕ) :
    w.globalsAtOrNil k = some ((h.named k).getD nilOop) := by
  rw [hv.globals.atOrNil, hv.named]

theorem globalsAtOrNil_of_some (hv : KernelValid w owner f g h O) {k C : ℕ}
    (hC : h.named k = some C) : w.globalsAtOrNil k = some C := by
  rw [hv.globalsAtOrNil, hC, Option.getD_some]

/-- A named class is not nil. -/
theorem ne_nilOop_of_named (hv : KernelValid w owner f g h O) {k C : ℕ} (hC : h.named k = some C) :
    h.IsBehavior C ∧ C ≠ nilOop ∧ oopIsPointers C := by
  have hb := hv.behaviors.isBehavior_of_isClass (hv.isClass k C hC)
  obtain ⟨-, -, hptr, hne⟩ := hv.behaviors.behavior C hb
  exact ⟨hb, hne, hptr⟩

/-- A name that the globals have nothing for is not the name of a class. -/
theorem named_eq_none (hv : KernelValid w owner f g h O) {k : ℕ}
    (hnil : w.globalsAtOrNil k = some nilOop) : h.named k = none := by
  cases hC : h.named k with
  | none => rfl
  | some C =>
    rw [hv.globalsAtOrNil_of_some hC] at hnil
    exact absurd (Option.some.inj hnil) (hv.ne_nilOop_of_named hC).2.1

/-- A name that the globals have something for is the name of a class. -/
theorem named_eq_some (hv : KernelValid w owner f g h O) {k C : ℕ}
    (hat : w.globalsAtOrNil k = some C) (hne : C ≠ nilOop) : h.named k = some C := by
  rw [hv.globalsAtOrNil] at hat
  cases hk : h.named k with
  | none =>
    rw [hk] at hat
    exact absurd (Option.some.inj hat).symm hne
  | some C' =>
    rw [hk] at hat
    exact congrArg some (Option.some.inj hat)

/-- No bound association is a behavior. -/
theorem ne_of_bound (hv : KernelValid w owner f g h O) {k e b : ℕ} (hg : g k = some e)
    (hb : h.IsBehavior b) : e ≠ b := by
  rintro rfl
  have howned := (hv.behaviors.behavior e hb).1
  rcases hv.globals.bound k e hg with he | he <;> exact absurd (he.symm.trans howned) (by simp)

/-- What a step has to establish to keep the runtime in order. -/
theorem step (hv : KernelValid w owner f g h O) {w' : World} {f' : List UInt8 → Option ℕ}
    {h' : Hierarchy} (hglobals : GlobalsValid w' owner' f' g)
    (hbehaviors : BehaviorsValid w' owner' h')
    (hvalue : ∀ k e, g k = some e → w'.memory.slot e Field.value = w.memory.slot e Field.value)
    (hnamed : h'.named = h.named) (hclass : ∀ C M, h.MetaclassOf C M → h'.MetaclassOf C M)
    (hlimit : w.memory.limit ≤ w'.memory.limit)
    (howner : ∀ o < w.memory.limit, owner' o = owner o) : KernelValid w' owner' f' g h' O where
  globals := hglobals
  behaviors := hbehaviors
  named k := by
    rw [hnamed, ← hv.named k]
    cases hg : g k with
    | none => rfl
    | some e => exact hvalue k e hg
  isClass k C hC := by
    obtain ⟨M, hCM⟩ := hv.isClass k C (hnamed ▸ hC)
    exact ⟨M, hclass C M hCM⟩
  objects o ho := by
    obtain ⟨hobject, hlt, hfree⟩ := hv.objects o ho
    exact ⟨(howner o hlt).trans hobject, hlt.trans_le hlimit, hfree⟩

/-- The cells that do not link the runtime's own data structures: those of the objects `O`, those
of the registered behaviors but for their superclass, method dictionary and class, and the names
and environments of the kernel classes. -/
def Loose (h : Hierarchy) (O : Set ℕ) (p : ℕ × ℕ) : Prop :=
  p.1 ∈ O ∨ (p.1 ∈ h.registered ∧ p.2 ≠ Field.superclass ∧ p.2 ≠ Field.methodDict ∧
    p.2 ≠ Field.thisClass) ∨
    (∃ c, p.1 = kernelClass c) ∧ (p.2 = Field.name ∨ p.2 = Field.environment)

theorem Loose.of_registered {b i : ℕ} (hb : b ∈ h.registered)
    (hi : i ≠ Field.superclass ∧ i ≠ Field.methodDict ∧ i ≠ Field.thisClass) : Loose h O (b, i) :=
  Or.inr (Or.inl ⟨hb, hi⟩)

/-- **The runtime survives a step** that stores into loose cells only. -/
theorem frame (hv : KernelValid w owner f g h O) {m : ObjectMemory}
    (hf : Frame w.memory.limit F w.memory m) (hF : ∀ p ∈ F, Loose h O p)
    (howner : ∀ o < w.memory.limit, owner' o = owner o) :
    KernelValid (w.withMemory m) owner' f g h O := by
  have hregion : ∀ p ∈ F, p.1 ∈ O ∧ owner p.1 = .object ∨ owner p.1 = .behavior := by
    intro p hp
    rcases hF p hp with hO | ⟨hr, -⟩ | ⟨⟨c, hc⟩, -⟩
    · exact Or.inl ⟨hO, (hv.objects _ hO).1⟩
    · exact Or.inr (hv.behaviors.behavior _ (Or.inr hr)).1
    · rw [hc]
      exact Or.inr (hv.behaviors.behavior _ (h.isBehavior_kernelClass c)).1
  have hbound : ∀ k e, g k = some e → ∀ i, (e, i) ∉ F := by
    intro k e hg i hmem
    rcases hregion _ hmem with ⟨hO, -⟩ | hb
    · exact (hv.objects _ hO).2.2 k hg
    · rcases hv.globals.bound k e hg with he | he
      · exact absurd (he.symm.trans hb) (by simp)
      · exact absurd (he.symm.trans hb) (by simp)
  -- a cell of a behavior that is in `F` is none of those that link it
  have hbehavior : ∀ b, h.IsBehavior b → ∀ i, (b, i) ∈ F →
      (i ≠ Field.superclass ∧ i ≠ Field.methodDict ∧ i ≠ Field.thisClass) ∧
        ∀ c, b = kernelClass c → i ≠ Field.format ∧ i ≠ Field.classPool := by
    intro b hb i hmem
    rcases hF _ hmem with hO | ⟨hr, hi⟩ | ⟨-, hi⟩
    · exact absurd ((hv.objects _ hO).1.symm.trans (hv.behaviors.behavior b hb).1) (by simp)
    · exact ⟨hi, fun c hc => absurd hc (hv.behaviors.ne_kernel b hr c).1⟩
    · have hi' : i = Field.name ∨ i = Field.environment := hi
      rcases hi' with rfl | rfl <;> exact ⟨by decide, fun _ _ => by decide⟩
  have hglobals := hv.globals.frame hf (fun p hp => by
    rcases hregion p hp with ⟨-, hr⟩ | hr <;> rw [hr] <;> simp) (fun k e hg => hbound k e hg _)
    (fun c hmem => ((hbehavior _ (h.isBehavior_kernelClass c) _ hmem).2 c rfl).1 rfl) howner
  have hbehaviors := hv.behaviors.frame hf (fun p hp b => by
    rcases hregion p hp with ⟨-, hr⟩ | hr <;> rw [hr] <;> simp)
    (fun b hb => ⟨fun hmem => (hbehavior b hb _ hmem).1.1 rfl,
      fun hmem => (hbehavior b hb _ hmem).1.2.1 rfl⟩)
    (fun C M hCM hmem => (hbehavior M (hv.behaviors.metaclass C M hCM).2.1 _ hmem).1.2.2 rfl)
    (fun c hmem => ((hbehavior _ (h.isBehavior_kernelClass c) _ hmem).2 c rfl).2 rfl) howner
  exact hv.step hglobals hbehaviors
    (fun k e hg => hf.slot e (hv.globals.entry hg).1 _ (hbound k e hg _)) rfl (fun _ _ h => h)
    hf.limit_le howner

/-- A step that changed nothing there was. -/
theorem frame_empty (hv : KernelValid w owner f g h O) {m : ObjectMemory}
    (hf : Frame w.memory.limit ∅ w.memory m) (howner : ∀ o < w.memory.limit, owner' o = owner o) :
    KernelValid (w.withMemory m) owner' f g h O :=
  hv.frame hf (by simp) howner

/-- A store into a loose cell. -/
theorem setSlot (hv : KernelValid w owner f g h O) {o i : ℕ} (hloose : Loose h O (o, i)) (v : ℕ) :
    KernelValid (w.setSlot o i v) owner f g h O := by
  refine hv.frame (Frame.setSlot_cell _ _ o i v) (fun p hp => ?_) fun _ _ => rfl
  exact (show p = (o, i) from hp) ▸ hloose

/-- New objects are the program's own. -/
theorem allocate (hv : KernelValid w owner f g h O) {m : ObjectMemory}
    (hf : Frame w.memory.limit ∅ w.memory m) :
    KernelValid (w.withMemory m) (claim owner w.memory.limit .object) f g h
      (O ∪ {o | w.memory.limit ≤ o ∧ o < m.limit}) := by
  have hv' := hv.frame_empty hf fun o ho => @claim_of_lt owner _ _ ho .object
  refine ⟨hv'.globals, hv'.behaviors, hv'.named, hv'.isClass, fun o ho => ?_⟩
  rcases ho with ho | ⟨hle, hlt⟩
  · exact hv'.objects o ho
  · refine ⟨claim_of_ge hle _, hlt, fun k hk => ?_⟩
    have := (hv.globals.entry hk).1
    omega

/-! ### Names -/

/-- The values of the globals after a name has been bound to `c`. -/
theorem named_bind (hv : KernelValid w owner f g h O) {m : ObjectMemory} {g' : ℕ → Option ℕ}
    {k e : ℕ} {c : Option ℕ} (hg' : g' = Function.update g k (some e))
    (he : m.slot e Field.value = c.getD nilOop)
    (hslot : ∀ k' e', k' ≠ k → g k' = some e' →
      m.slot e' Field.value = w.memory.slot e' Field.value) (k' : ℕ) :
    ((g' k').map fun e => m.slot e Field.value).getD nilOop =
      ((h.bind k c).named k').getD nilOop := by
  subst hg'
  by_cases hk : k' = k
  · subst hk
    simp only [Function.update_self, Option.map_some, Option.getD_some, he, Hierarchy.bind]
  · simp only [Function.update_of_ne hk, Hierarchy.bind, ← hv.named k']
    cases hg : g k' with
    | none => rfl
    | some e' => exact hslot k' e' hk hg

/-- Names are bound to classes. -/
theorem isClass_bind (hv : KernelValid w owner f g h O) {k : ℕ} {c : Option ℕ}
    (hc : ∀ C, c = some C → h.IsClass C) (k' C : ℕ) (hC : (h.bind k c).named k' = some C) :
    (h.bind k c).IsClass C := by
  change Function.update h.named k c k' = some C at hC
  by_cases hk : k' = k
  · rw [hk, Function.update_self] at hC
    exact hc C hC
  · rw [Function.update_of_ne hk] at hC
    exact hv.isClass k' C hC

/-- A name is bound to a class, or to nil. -/
theorem globalsAtPut (hv : KernelValid w owner f g h O) {k : ℕ} (hlive : w.memory.Live k)
    (c : Option ℕ) (hc : ∀ C, c = some C → h.IsClass C) :
    ∃ m owner' g', w.globalsAtPut k (c.getD nilOop) = some (w.withMemory m) ∧
      Frame w.memory.limit {p | owner p.1 ≠ .behavior ∧ p.1 ∉ O} w.memory m ∧
      KernelValid (w.withMemory m) owner' f g' (h.bind k c) O ∧
      ∀ o < w.memory.limit, owner' o = owner o := by
  cases hg : g k with
  | some e =>
    obtain ⟨hput, hglobals⟩ := hv.globals.atPut_of_some hg (c.getD nilOop)
    have hframe := Frame.setSlot_cell w.memory.limit w.memory e Field.value (c.getD nilOop)
    have hregion : owner e = .globals ∨ owner e = .object := hv.globals.bound k e hg
    have hcell : ∀ {b i}, h.IsBehavior b → (b, i) ∉ ({(e, Field.value)} : Set (ℕ × ℕ)) :=
      fun hb hmem => hv.ne_of_bound hg hb (Prod.mk.inj hmem).1.symm
    have hbehaviors := hv.behaviors.frame hframe (fun p hp b => by
      obtain rfl : p = (e, Field.value) := hp
      rcases hregion with hr | hr <;> rw [hr] <;> simp) (fun b hb => ⟨hcell hb, hcell hb⟩)
      (fun C M hCM => hcell (hv.behaviors.metaclass C M hCM).2.1)
      (fun c => hcell (h.isBehavior_kernelClass c)) fun _ _ => rfl
    refine ⟨_, owner, g, hput, ?_, ⟨hglobals, hbehaviors.bind k c, ?_,
      hv.isClass_bind hc, hv.objects⟩, fun _ _ => rfl⟩
    · refine hframe.mono (Nat.le_refl _) fun o _ i hmem => ?_
      obtain ⟨rfl, -⟩ := Prod.mk.inj (show (o, i) = (e, Field.value) from hmem)
      refine ⟨?_, fun ho => (hv.objects o ho).2.2 k hg⟩
      show owner o ≠ .behavior
      rcases hregion with hr | hr <;> rw [hr] <;> simp
    · refine hv.named_bind (Function.update_eq_self_iff.mpr hg.symm).symm
        (setSlot_slot_self _ _ _ _) fun k' e' hk hg' => ?_
      have hne : e' ≠ e := fun heq => hk (hv.globals.key_unique hg' (heq ▸ hg))
      exact congrFun (setSlot_slot_of_ne _ _ _ _ hne) _
  | none =>
    obtain ⟨e, m, hput, hframe, hglobals, hnew, hslot⟩ :=
      hv.globals.atPut_of_none hlive hg (c.getD nilOop)
    have howner : ∀ o < w.memory.limit, claim owner w.memory.limit .globals o = owner o :=
      fun o ho => claim_of_lt ho _
    have hbehaviors := hv.behaviors.frame_region hframe (by simp) (by simp) howner
    refine ⟨m, _, _, hput, ?_, ⟨hglobals, hbehaviors.bind k c, ?_,
      hv.isClass_bind hc, fun o ho => ?_⟩, howner⟩
    · refine hframe.mono (Nat.le_refl _) fun o _ i hmem => ?_
      have ho : owner o = .globals := hmem
      refine ⟨?_, fun hO => ?_⟩
      · show owner o ≠ .behavior
        rw [ho]
        simp
      · exact absurd ((hv.objects o hO).1.symm.trans ho) (by simp)
    · exact hv.named_bind rfl hnew.value fun k' e' _ hg' => congrFun (hslot k' e' hg') _
    · obtain ⟨hobject, hlt, hfree⟩ := hv.objects o ho
      refine ⟨(howner o hlt).trans hobject, hlt.trans_le hframe.limit_le, fun k' hk' => ?_⟩
      by_cases hk : k' = k
      · rw [hk, Function.update_self] at hk'
        have := hnew.limit_lt
        have := Option.some.inj hk'
        omega
      · rw [Function.update_of_ne hk] at hk'
        exact hfree k' hk'

/-- **`slvm_globals_addIfNotExistent`** of a global variable of the program: it becomes the binding
of its name, unless the name has one. -/
theorem globalsAddIfNotExistent (hv : KernelValid w owner f g h O) {var : ℕ} (hvar : var ∈ O)
    (hlive : w.memory.Live (w.memory.slot var Field.key)) {c : Option ℕ}
    (hvalue : w.memory.slot var Field.value = c.getD nilOop)
    (hc : ∀ C, c = some C → h.IsClass C) :
    (∃ result ≠ var, w.globalsAddIfNotExistent var = some (result, w)) ∨
      ∃ m owner' g', w.globalsAddIfNotExistent var = some (var, w.withMemory m) ∧
        Frame w.memory.limit {p | owner p.1 ≠ .behavior ∧ p.1 ∉ O} w.memory m ∧
        h.named (w.memory.slot var Field.key) = none ∧
        KernelValid (w.withMemory m) owner' f g' (h.bind (w.memory.slot var Field.key) c)
          (O \ {var}) := by
  obtain ⟨hobject, hlt, hfree⟩ := hv.objects var hvar
  have hne : var ≠ nilOop := by
    rintro rfl
    exact absurd (hobject.symm.trans (hv.globals.symbols.kernelOwner .nil)) (by simp)
  cases hg : g (w.memory.slot var Field.key) with
  | some e =>
    exact Or.inl ⟨e, fun heq => hfree _ (heq ▸ hg), hv.globals.addIfNotExistent_of_some hne hg⟩
  | none =>
    obtain ⟨m, hadd, hframe, hglobals, hslot⟩ :=
      hv.globals.addIfNotExistent_of_none hobject hlt hne hlive hg
    have howner : ∀ o < w.memory.limit, claim owner w.memory.limit .globals o = owner o :=
      fun o ho => claim_of_lt ho _
    have hbehaviors := hv.behaviors.frame_region hframe (by simp) (by simp) howner
    have hregion : ∀ o ∈ O, ∀ i, (o, i) ∉ {p : ℕ × ℕ | owner p.1 = .globals} := by
      intro o ho i hmem
      have ho' : owner o = .globals := hmem
      exact absurd ((hv.objects o ho).1.symm.trans ho') (by simp)
    have hnamed : h.named (w.memory.slot var Field.key) = none := by
      refine hv.named_eq_none ?_
      rw [hv.globals.atOrNil, hg]
      rfl
    refine Or.inr ⟨m, claim owner w.memory.limit .globals,
      Function.update g (w.memory.slot var Field.key) (some var), hadd,
      hframe.mono (Nat.le_refl _) fun o _ i hmem => ?_, hnamed, hglobals, hbehaviors.bind _ c,
      hv.named_bind rfl ?_ fun k' e' _ hg' => congrFun (hslot k' e' hg') _,
      hv.isClass_bind hc, fun o ho => ?_⟩
    · have ho : owner o = .globals := hmem
      refine ⟨?_, fun hO => hregion o hO i hmem⟩
      show owner o ≠ .behavior
      rw [ho]
      simp
    · exact (hframe.slot var hlt _ (hregion var hvar _)).trans hvalue
    · obtain ⟨hobject', hlt', hfree'⟩ := hv.objects o ho.1
      refine ⟨(howner o hlt').trans hobject', hlt'.trans_le hframe.limit_le, fun k hk => ?_⟩
      by_cases hkey : k = w.memory.slot var Field.key
      · rw [hkey, Function.update_self] at hk
        exact ho.2 (Option.some.inj hk).symm
      · rw [Function.update_of_ne hkey] at hk
        exact hfree' k hk

/-! ### New behaviors -/

/-- No new object is a behavior already. -/
theorem not_isBehavior (hv : KernelValid w owner f g h O) {b : ℕ} (hb : w.memory.limit < b) :
    ¬ h.IsBehavior b := fun hb' => by
  have := (hv.behaviors.behavior b hb').2.1
  omega

/-- Registering a new object as a behavior with a superclass. -/
theorem addBehavior (hv : KernelValid w owner f g h O) (hlength : h.registered.length < 512)
    {b p i size : ℕ} {m : ObjectMemory} (halloc : Allocated w.memory i size b m)
    (hnil : m.slot b Field.methodDict = nilOop) (hp : h.IsBehavior p) (format : ℕ) :
    ∃ w', (w.withMemory m).registerBehavior b = some w' ∧
      (∀ m', m' = (w'.memory.setSlot b Field.superclass p).setSlot b Field.format format →
        Frame w.memory.limit ∅ w.memory m' ∧
        KernelValid (w'.withMemory m') (claim owner w.memory.limit .behavior) f g
          (h.addBehavior b p) O ∧
        m'.header b = (m.header b).withIdentityHash (512 + h.registered.length) ∧
        m'.slot b = Function.update (Function.update (m.slot b) Field.superclass p)
          Field.format format) := by
  obtain ⟨w', hregister, htable, hmemory, hroots⟩ :=
    (hv.behaviors.table.withMemory m).registerBehavior hlength b
  have hlimit := halloc.limit_lt
  refine ⟨w', hregister, fun m' hm' => ?_⟩
  have hheader : m'.header b = (m.header b).withIdentityHash (512 + h.registered.length) := by
    rw [hm', setSlot_header, setSlot_header, hmemory, setHeader_header_self]
    rfl
  have hslot : m'.slot b =
      Function.update (Function.update (m.slot b) Field.superclass p) Field.format format := by
    rw [hm', setSlot_slot_same, setSlot_slot_same, hmemory]
    rfl
  have hframe : Frame w.memory.limit ∅ w.memory m' := by
    have hregistered : Frame w.memory.limit ∅ w.memory w'.memory := by
      rw [hmemory]
      exact halloc.frame.trans (Frame.setHeader w.memory.limit m hlimit.le _)
    rw [hm']
    exact (hregistered.trans (Frame.setSlot w.memory.limit _ (Or.inr hlimit.le) p)).trans
      (Frame.setSlot w.memory.limit _ (Or.inr hlimit.le) format)
  have hlt : b < m'.limit := by
    rw [hm', setSlot_limit, setSlot_limit, hmemory]
    exact halloc.lt_limit
  have howner : ∀ o < w.memory.limit, claim owner w.memory.limit .behavior o = owner o :=
    fun o ho => claim_of_lt ho _
  have hnotnil : b ≠ nilOop := by
    rintro rfl
    have := hv.globals.symbols.kernel.lt_limit .nil
    rw [nilOop] at hlimit
    omega
  have hash : (m'.header b).identityHash = 512 + h.registered.length := by
    rw [hheader, ObjectHeader.withIdentityHash_identityHash]
    exact Nat.mod_eq_of_lt (by omega)
  have hsuperclass : m'.slot b Field.superclass = p := by
    rw [hslot]
    rfl
  have hdict : m'.slot b Field.methodDict = nilOop := by
    rw [hslot]
    exact hnil
  have hbehaviors : BehaviorsValid (w'.withMemory m') (claim owner w.memory.limit .behavior)
      (h.addBehavior b p) :=
    hv.behaviors.addBehavior hframe (htable.withMemory _) hlength hlimit hlt halloc.pointers
      hnotnil hp hash hsuperclass hdict howner (claim_of_ge hlimit.le _)
  have hglobals : GlobalsValid (w'.withMemory m') (claim owner w.memory.limit .behavior) f g :=
    (hv.globals.frame_empty hframe howner).of_roots rfl (by rw [hroots]; rfl) (by rw [hroots]; rfl)
      (by rw [hroots]; rfl)
  exact ⟨hframe, hv.step hglobals hbehaviors
    (fun k e hg => hframe.slot e (hv.globals.entry hg).1 _ (by simp)) rfl (fun _ _ hCM => hCM)
    hframe.limit_le howner, hheader, hslot⟩

/-- Giving a behavior without methods its method dictionary. -/
theorem installMethodDict (hv : KernelValid w owner f g h O) {b : ℕ} (hb : h.IsBehavior b)
    (hnone : h.methods b = fun _ => none) :
    ∃ d m, w.memory.methodDictionaryNew = some (d, m) ∧
      Frame w.memory.limit {(b, Field.methodDict)} w.memory (m.setSlot b Field.methodDict d) ∧
      KernelValid (w.withMemory (m.setSlot b Field.methodDict d))
        (claim owner w.memory.limit (.methodDict b)) f g (h.install b) O := by
  obtain ⟨d, m, hnew, hf, -, hlt, hptr, hclass, hd⟩ :=
    methodDictionaryNew_spec hv.globals.symbols.kernel
  have hbehaviors := hv.behaviors.setMethodDict hb hnone hf hlt hptr hclass hd (by decide)
  have hframe : Frame w.memory.limit {(b, Field.methodDict)} w.memory
      (m.setSlot b Field.methodDict d) :=
    (hf.mono (Nat.le_refl _) (by simp)).trans (Frame.setSlot_cell _ m b _ d)
  have howner : ∀ o < w.memory.limit, claim owner w.memory.limit (.methodDict b) o = owner o :=
    fun o ho => claim_of_lt ho _
  have howned := (hv.behaviors.behavior b hb).1
  have hcell : ∀ {x i}, (x, i) ∈ ({(b, Field.methodDict)} : Set (ℕ × ℕ)) →
      x = b ∧ i = Field.methodDict := fun hmem => Prod.mk.inj hmem
  have hbound : ∀ k e, g k = some e → e ≠ b := fun k e hg => hv.ne_of_bound hg hb
  have hglobals := hv.globals.frame hframe (fun p hp => by
    obtain rfl : p = (b, Field.methodDict) := hp
    rw [howned]
    simp) (fun k e hg hmem => hbound k e hg (hcell hmem).1)
    (fun c hmem => absurd (hcell hmem).2 (by decide)) howner
  exact ⟨d, m, hnew, hframe, hv.step hglobals hbehaviors
    (fun k e hg => hframe.slot e (hv.globals.entry hg).1 _ fun hmem => hbound k e hg (hcell hmem).1)
    rfl (fun _ _ hCM => hCM) hframe.limit_le howner⟩

/-- **A new behavior** is registered, linked to its superclass and given a method dictionary. -/
theorem initializeBehavior (hv : KernelValid w owner f g h O) (hlength : h.registered.length < 512)
    {b p i size : ℕ} {m : ObjectMemory} (halloc : Allocated w.memory i size b m)
    (hnil : m.slot b Field.methodDict = nilOop) (hp : h.IsBehavior p) (format : ℕ) :
    ∃ w' owner', (w.withMemory m).initializeBehavior b p format = some w' ∧
      Frame w.memory.limit ∅ w.memory w'.memory ∧
      KernelValid w' owner' f g ((h.addBehavior b p).install b) O ∧
      (∀ o < w.memory.limit, owner' o = owner o) ∧
      w'.memory.header b = (m.header b).withIdentityHash (512 + h.registered.length) ∧
      w'.memory.slot b Field.format = format := by
  obtain ⟨w₁, hregister, hadd⟩ := hv.addBehavior hlength halloc hnil hp format
  obtain ⟨m₁, hm₁⟩ : ∃ m₁, m₁ = (w₁.memory.setSlot b Field.superclass p).setSlot b Field.format
    format := ⟨_, rfl⟩
  obtain ⟨hframe₁, hv₁, hheader₁, hslot₁⟩ := hadd m₁ hm₁
  have hb : (h.addBehavior b p).IsBehavior b := Hierarchy.isBehavior_addBehavior.mpr (Or.inr rfl)
  have hnone : (h.addBehavior b p).methods b = fun _ => none := by
    funext s
    cases hs : h.methods b s with
    | none => exact hs
    | some v => exact absurd (hv.behaviors.method b s v hs).1 (hv.not_isBehavior halloc.limit_lt)
  obtain ⟨d, m₂, hnew, hframe₂, hv₂⟩ := hv₁.installMethodDict hb hnone
  have hblt := (hv₁.behaviors.behavior b hb).2.1
  refine ⟨_, _, ?_, ?_, hv₂, fun o ho => ?_, ?_, ?_⟩
  · rw [World.initializeBehavior, hregister]
    simp only [Option.bind_eq_bind, Option.bind_some, World.setSlot, World.withMemory, ← hm₁]
      at hnew ⊢
    rw [hnew]
    rfl
  · refine hframe₁.trans (hframe₂.mono hframe₁.limit_le fun o ho j hmem => ?_)
    obtain rfl := (Prod.mk.inj (show (o, j) = (b, Field.methodDict) from hmem)).1
    exact absurd halloc.limit_lt (by omega)
  · exact (claim_of_lt (ho.trans_le hframe₁.limit_le) _).trans (claim_of_lt ho _)
  · exact (hframe₂.header b hblt).trans hheader₁
  · have hformat : m₁.slot b Field.format = format := by rw [hslot₁, Function.update_self]
    refine (hframe₂.slot b hblt Field.format fun hmem => ?_).trans hformat
    exact absurd (Prod.mk.inj hmem).2 (by decide)

/-- A class and its metaclass are linked. -/
theorem linkClass (hv : KernelValid w owner f g h O) {C M : ℕ} (hC : h.IsBehavior C)
    (hM : h.IsBehavior M) (hnew : ∀ C', ¬ h.MetaclassOf C' M)
    (hclass : (w.memory.header C).classIndex = (w.memory.header M).identityHash)
    (hmeta : (w.memory.header M).classIndex = KernelClass.Metaclass.index) :
    KernelValid (w.setSlot M Field.thisClass C) owner f g (h.addClass C M) O := by
  have hframe := Frame.setSlot_cell w.memory.limit w.memory M Field.thisClass C
  have howned := (hv.behaviors.behavior M hM).1
  have hcell : ∀ {x i}, (x, i) ∈ ({(M, Field.thisClass)} : Set (ℕ × ℕ)) →
      x = M ∧ i = Field.thisClass := fun hmem => Prod.mk.inj hmem
  have hbound : ∀ k e, g k = some e → e ≠ M := fun k e hg => hv.ne_of_bound hg hM
  have hglobals := hv.globals.frame hframe (fun p hp => by
    obtain rfl : p = (M, Field.thisClass) := hp
    rw [howned]
    simp) (fun k e hg hmem => hbound k e hg (hcell hmem).1)
    (fun c hmem => absurd (hcell hmem).2 (by decide)) fun _ _ => rfl
  have hbehaviors := (hv.behaviors.setSlot hM (by decide) (Or.inr hnew) (Or.inl (by decide))
    C).addClass hC hM hclass hmeta (setSlot_slot_self _ _ _ _)
  exact hv.step hglobals hbehaviors
    (fun k e hg => hframe.slot e (hv.globals.entry hg).1 _ fun hmem => hbound k e hg (hcell hmem).1)
    rfl (fun _ _ hCM => Hierarchy.metaclassOf_addClass.mpr (Or.inl hCM)) hframe.limit_le
    fun _ _ => rfl

/-- **The metaclass of a new class.** -/
theorem createMetaclass (hv : KernelValid w owner f g h O) (hlength : h.registered.length < 512)
    {S : ℕ} (hS : h.IsBehavior S) (d : ClassDefinition) :
    ∃ M w' owner', w.createMetaclass S d = some (M, w') ∧ w.memory.limit < M ∧
      Frame w.memory.limit ∅ w.memory w'.memory ∧
      KernelValid w' owner' f g ((h.addBehavior M S).install M) O ∧
      (∀ o < w.memory.limit, owner' o = owner o) ∧
      (w'.memory.header M).classIndex = KernelClass.Metaclass.index ∧
      w'.memory.slot M Field.format = d.metaFormat := by
  obtain ⟨M, m, hnew, halloc, -, hnil⟩ :=
    @KernelIntact.kernelNew_pointers _ _ hv.globals.symbols.kernel .Metaclass (by decide) 0
  obtain ⟨w₁, owner₁, hinit, hframe, hv₁, howner, hheader, hformat⟩ :=
    hv.initializeBehavior hlength halloc (hnil Field.methodDict (by decide)) hS d.metaFormat
  have hloose : Loose ((h.addBehavior M S).install M) O (M, Field.instanceVariables) :=
    Loose.of_registered (List.mem_append_right _ (List.mem_singleton_self M)) (by decide)
  refine ⟨M, _, owner₁, ?_, halloc.limit_lt, ?_, hv₁.setSlot hloose d.metaInstanceVariableNames,
    howner, ?_, ?_⟩
  · rw [World.createMetaclass, hnew]
    simp only [Option.bind_eq_bind, Option.bind_some, hinit]
    rfl
  · exact hframe.trans (Frame.setSlot w.memory.limit _ (Or.inr halloc.limit_lt.le) _)
  · show (w₁.memory.header M).classIndex = _
    rw [hheader, ObjectHeader.withIdentityHash_classIndex, halloc.classIndex]
  · show (w₁.memory.setSlot M Field.instanceVariables _).slot M Field.format = _
    rw [setSlot_slot_of_ne_index _ _ _ _ (by decide), hformat]

/-- **The class of a new metaclass**, and its name. -/
theorem createClass (hv : KernelValid w owner f g h O) (hlength : h.registered.length < 512)
    {M S : ℕ} (hM : M ∈ h.registered)
    (hmeta : (w.memory.header M).classIndex = KernelClass.Metaclass.index)
    (hnew : ∀ C, ¬ h.MetaclassOf C M) (hS : h.IsBehavior S) (d : ClassDefinition)
    (hformat : decodeFormat (w.memory.slot M Field.format) = ObjectFormat.fixedSize)
    (hsize : 14 ≤ decodeFixedSize (w.memory.slot M Field.format)) (hlive : w.memory.Live d.name) :
    ∃ C w' owner' g', w.createClass M S d = some (C, w') ∧ w.memory.limit < C ∧
      Frame w.memory.limit {p | p = (M, Field.thisClass) ∨ owner p.1 ≠ .behavior ∧ p.1 ∉ O}
        w.memory w'.memory ∧
      KernelValid w' owner' f g'
        ((((h.addBehavior C S).install C).addClass C M).bind d.name (some C)) O ∧
      (∀ o < w.memory.limit, owner' o = owner o) ∧ w'.memory.slot C Field.name = d.name := by
  have hMb : h.IsBehavior M := Or.inr hM
  obtain ⟨-, hMlt, -, hMne⟩ := hv.behaviors.behavior M hMb
  obtain ⟨C, m, hbasic, halloc, -, hnil⟩ := basicNew_pointers w.memory hMne
    (hformat.trans_lt (by decide)) 0
  obtain ⟨w₁, owner₁, hinit, hframe₁, hv₁, howner₁, hheader, -⟩ :=
    hv.initializeBehavior hlength halloc
      (hnil Field.methodDict (by simp only [Field.methodDict]; omega)) hS d.format
  have hCM : C ≠ M := by
    have := halloc.limit_lt
    omega
  -- the assertion
  have hindex := hv.behaviors.index M hMb
  have hassert : (w.withMemory m).getClassFromOop C = some M := by
    rw [World.getClassFromOop, ObjectMemory.getClassIndexFromOop, if_pos halloc.pointers]
    show w.classAt (m.header C).classIndex = some M
    rw [halloc.classIndex]
    exact hindex.2
  -- the name of the class
  have hCmem : C ∈ ((h.addBehavior C S).install C).registered :=
    List.mem_append_right _ (List.mem_singleton_self C)
  have hv₂ := hv₁.setSlot (Loose.of_registered hCmem (by decide) : Loose _ O (C, Field.name)) d.name
  have hname₂ : (w₁.setSlot C Field.name d.name).memory.slot C Field.name = d.name :=
    setSlot_slot_self _ _ _ _
  -- the class of the metaclass
  have hC : ((h.addBehavior C S).install C).IsBehavior C := Or.inr hCmem
  have hM₁ : ((h.addBehavior C S).install C).IsBehavior M := Or.inr (List.mem_append_left _ hM)
  have hheaderM : w₁.memory.header M = w.memory.header M := hframe₁.header M hMlt
  have hv₃ := hv₂.linkClass hC hM₁ hnew
    (by
      show (w₁.memory.header C).classIndex = (w₁.memory.header M).identityHash
      rw [hheader, ObjectHeader.withIdentityHash_classIndex, halloc.classIndex, hheaderM])
    (by
      show (w₁.memory.header M).classIndex = _
      rw [hheaderM, hmeta])
  have hname₃ : ((w₁.setSlot C Field.name d.name).setSlot M Field.thisClass C).memory.slot C
      Field.name = d.name := by
    refine Eq.trans ?_ hname₂
    exact congrFun (setSlot_slot_of_ne _ _ _ _ hCM) _
  -- the globals
  have hisClass : (((h.addBehavior C S).install C).addClass C M).IsClass C :=
    ⟨M, Hierarchy.metaclassOf_addClass.mpr (Or.inr ⟨rfl, rfl⟩)⟩
  obtain ⟨m₄, owner₄, g₄, hput, hframe₄, hv₄, howner₄⟩ :=
    hv₃.globalsAtPut (hframe₁.live hlive) (some C)
      fun C' hC' => Option.some.inj hC' ▸ hisClass
  obtain ⟨hCowned, hClt, -, -⟩ := hv₁.behaviors.behavior C hC
  refine ⟨C, _, owner₄, g₄, ?_, halloc.limit_lt, ?_, hv₄, fun o ho => ?_, ?_⟩
  · rw [World.createClass, hbasic]
    simp only [Option.bind_eq_bind, Option.bind_some, hassert, ne_eq, not_true_eq_false, if_false,
      hinit, hname₃]
    exact congrArg (Option.bind · _) hput
  · have hlinked : Frame w.memory.limit {p | p = (M, Field.thisClass) ∨
        owner p.1 ≠ .behavior ∧ p.1 ∉ O} w.memory
        ((w₁.setSlot C Field.name d.name).setSlot M Field.thisClass C).memory :=
      ((hframe₁.mono (Nat.le_refl _) (by simp)).trans
        (Frame.setSlot w.memory.limit _ (Or.inr halloc.limit_lt.le) _)).trans
        (Frame.setSlot w.memory.limit _ (Or.inl (Or.inl rfl)) _)
    refine hlinked.trans (hframe₄.mono hframe₁.limit_le fun o ho i hmem => Or.inr ?_)
    have hmem' : owner₁ o ≠ .behavior ∧ o ∉ O := hmem
    rwa [howner₁ o ho] at hmem'
  · exact (howner₄ o (ho.trans_le hframe₁.limit_le)).trans (howner₁ o ho)
  · refine (hframe₄.slot C hClt Field.name fun hmem => ?_).trans hname₃
    exact hmem.1 hCowned

/-! ### Metadata -/

/-- The cells of a new class that hold its metadata, and the values of its class variables. -/
def metadataCells (m : ObjectMemory) (O : Set ℕ) (C : ℕ) (d : ClassDefinition) : Set (ℕ × ℕ) :=
  {p | p.1 = C ∧ p.2 ≠ Field.superclass ∧ p.2 ≠ Field.methodDict ∧ p.2 ≠ Field.thisClass ∧
      p.2 ≠ Field.name ∨
    p.1 ∈ O ∧ ∃ i < m.basicSize d.classVariableAssociations,
      p = (m.slot d.classVariableAssociations i, Field.value)}

/-- The class variables a definition declares are objects of `O`. -/
def Declares (m : ObjectMemory) (O : Set ℕ) (d : ClassDefinition) : Prop :=
  d.classVariableAssociations ∈ O ∧ ∀ i < m.basicSize d.classVariableAssociations,
    m.slot d.classVariableAssociations i ∈ O ∧
      m.slot d.classVariableAssociations i ≠ d.classVariableAssociations

/-- **Setting the metadata of a class** stores into its metadata and the class variables only. -/
theorem classSetMetadata_frame (hv : KernelValid w owner f g h O) {C : ℕ} (hC : C ∈ h.registered)
    {d : ClassDefinition}
    (hd : d.classVariableAssociations = nilOop ∨ Declares w.memory O d)
    {m : ObjectMemory} (hset : classSetMetadata w.memory C d = some m) :
    Frame w.memory.limit (metadataCells w.memory O C d) w.memory m := by
  obtain ⟨hCowned, hClt, -, -⟩ := hv.behaviors.behavior C (Or.inr hC)
  have hOC : ∀ o ∈ O, o ≠ C := by
    rintro o ho rfl
    exact absurd ((hv.objects o ho).1.symm.trans hCowned) (by simp)
  have hcell : ∀ {i}, i ≠ Field.superclass ∧ i ≠ Field.methodDict ∧ i ≠ Field.thisClass ∧
      i ≠ Field.name → (C, i) ∈ metadataCells w.memory O C d := fun hi => Or.inl ⟨rfl, hi⟩
  generalize hF : metadataCells w.memory O C d = F at hcell ⊢
  obtain ⟨m₁, hm₁⟩ : ∃ m₁, m₁ = (w.memory.setSlot C Field.instanceVariables
    d.instanceVariableNames).setSlot C Field.category d.categoryName := ⟨_, rfl⟩
  have hframe₁ : Frame w.memory.limit F w.memory m₁ := by
    rw [hm₁]
    exact (Frame.setSlot _ _ (Or.inl (hcell (by decide))) _).trans
      (Frame.setSlot _ _ (Or.inl (hcell (by decide))) _)
  have hk₁ : KernelIntact m₁ := by
    rw [hm₁]
    exact (hv.globals.symbols.kernel.setSlot (by decide)).setSlot (by decide)
  have hlimit₁ : m₁.limit = w.memory.limit := by rw [hm₁, setSlot_limit, setSlot_limit]
  obtain ⟨pool, m₂, hnew, hpool⟩ :=
    @dictionaryNewWithCapacity_spec _ _ hk₁ .Dictionary (by decide) 5
  have hlimit := hpool.limit_lt
  have hlt_array := hpool.lt_array
  have harray_lt := hpool.array_lt
  obtain ⟨m₃, hm₃⟩ : ∃ m₃, m₃ = (m₂.setSlot C Field.classPool pool).setSlot C Field.sharedPools
    d.poolDictionaries := ⟨_, rfl⟩
  have hframe₃ : Frame w.memory.limit F w.memory m₃ := by
    rw [hm₃]
    exact ((hframe₁.trans (hpool.frame.mono hlimit₁.ge (by simp))).trans
      (Frame.setSlot _ _ (Or.inl (hcell (by decide))) _)).trans
      (Frame.setSlot _ _ (Or.inl (hcell (by decide))) _)
  rw [classSetMetadata] at hset
  simp only [Option.bind_eq_bind, ← hm₁, show m₁.dictionaryNew (kernelClass .Dictionary) =
    some (pool, m₂) from hnew, Option.bind_some, ← hm₃] at hset
  split_ifs at hset with hnil
  · exact Option.some.inj hset ▸ hframe₃
  obtain ⟨harrayO, helement⟩ := hd.resolve_left hnil
  have harray_lt' := (hv.objects _ harrayO).2.1
  -- neither the list of the class variables nor their number changes
  have hlist : ∀ i, (d.classVariableAssociations, i) ∉ F := by
    rw [← hF]
    rintro i (⟨heq, -⟩ | ⟨-, j, hj, heq⟩)
    · exact hOC _ harrayO heq
    · exact (helement j hj).2 (Prod.mk.inj heq).1.symm
  have hsize : m₃.basicSize d.classVariableAssociations =
      w.memory.basicSize d.classVariableAssociations := hframe₃.basicSize harray_lt'
  rw [hsize] at hset
  have hinv : ∀ i ∈ List.range (w.memory.basicSize d.classVariableAssociations), ∀ s s',
      Frame w.memory.limit F w.memory s ∧ MadeSince w.memory.limit s pool ∧
        s.slot C Field.classPool = pool →
      addClassVariable C d.classVariableAssociations s i = some s' →
      Frame w.memory.limit F w.memory s' ∧ MadeSince w.memory.limit s' pool ∧
        s'.slot C Field.classPool = pool := by
    rintro i hi s s' ⟨hf, hmade, hslot⟩ hstep
    have hvar : s.slot d.classVariableAssociations i =
        w.memory.slot d.classVariableAssociations i := hf.slot _ harray_lt' i (hlist i)
    have hvarO := (helement i (List.mem_range.mp hi)).1
    have hvarlt := (hv.objects _ hvarO).2.1
    rw [addClassVariable, hvar] at hstep
    generalize hvar' : w.memory.slot d.classVariableAssociations i = var at *
    have hstore : Frame w.memory.limit F s (s.setSlot var Field.value nilOop) := by
      refine Frame.setSlot _ _ (Or.inl ?_) _
      rw [← hF]
      exact Or.inr ⟨hvarO, i, List.mem_range.mp hi, by rw [hvar']⟩
    have hpoolne : pool ≠ var := by
      have := hmade.le
      omega
    have hmade₁ : MadeSince w.memory.limit (s.setSlot var Field.value nilOop) pool :=
      hmade.of_array hstore.limit_le (congrFun (setSlot_slot_of_ne _ _ _ _ hpoolne) _)
    have hslot₁ : (s.setSlot var Field.value nilOop).slot C Field.classPool = pool := by
      rw [setSlot_slot_of_ne _ _ _ _ (hOC var hvarO).symm, hslot]
    simp only [hslot₁] at hstep
    obtain ⟨hf₂, hmade₂⟩ := dictionaryAddAssociationLoop_madeSince 2 _ _ _ hmade₁ hstep
    refine ⟨(hf.trans hstore).trans (hf₂.mono (Nat.le_refl _) (by simp)), hmade₂, ?_⟩
    rw [hf₂.slot C hClt _ (by simp), hslot₁]
  refine (foldlM_invariant hinv ⟨hframe₃, ?_, ?_⟩ hset).1
  · have hpoolC : pool ≠ C := by omega
    have harrayslot : m₃.slot pool Field.array = m₂.slot pool Field.array := by
      rw [hm₃, setSlot_slot_of_ne _ _ _ _ hpoolC, setSlot_slot_of_ne _ _ _ _ hpoolC]
    have hlimit₃ : m₃.limit = m₂.limit := by rw [hm₃, setSlot_limit, setSlot_limit]
    refine ⟨by omega, by omega, ?_, ?_⟩
    · rw [harrayslot]
      omega
    · rw [harrayslot]
      omega
  · rw [hm₃, setSlot_slot_of_ne_index _ _ _ _ (by decide), setSlot_slot_self]

/-! ### Classes -/

/-- **`slvm_dynrun_subclassWithSomeNames` of a name that is bound** returns the class it is bound to
and changes nothing. -/
theorem subclassWithSomeNames_of_some (hv : KernelValid w owner f g h O) {d : ClassDefinition}
    {C : ℕ} (hC : h.named d.name = some C) : w.subclassWithSomeNames d = some (C, w) := by
  have hne := (hv.ne_nilOop_of_named hC).2.1
  rw [World.subclassWithSomeNames, hv.globalsAtOrNil_of_some hC]
  simp only [Option.bind_eq_bind, Option.bind_some, ne_eq, hne, not_false_eq_true, if_true]
  rfl

/-- What a definition must say about the new metaclass: its instances have room for a class. -/
def MetaFormat (d : ClassDefinition) : Prop :=
  decodeFormat d.metaFormat = ObjectFormat.fixedSize ∧ 14 ≤ decodeFixedSize d.metaFormat

/-- **`slvm_dynrun_subclassWithSomeNames` of a name that is not bound** creates the class and its
metaclass, and then sets the metadata of the class. -/
theorem subclassWithSomeNames_of_none (hv : KernelValid w owner f g h O)
    (hlength : h.registered.length + 2 ≤ 512) {d : ClassDefinition} (hlive : w.memory.Live d.name)
    (hname : h.named d.name = none) {S S' : ℕ} (hS : h.named d.superClassName = some S)
    (hS' : h.MetaclassOf S S') (hformat : MetaFormat d) :
    ∃ C M w' owner' g',
      w.subclassWithSomeNames d =
        (classSetMetadata w'.memory C d).map (fun m => (C, w'.withMemory m)) ∧
      w.memory.limit < M ∧ w.memory.limit < C ∧ C ≠ M ∧
      Frame w.memory.limit {p | owner p.1 ≠ .behavior ∧ p.1 ∉ O} w.memory w'.memory ∧
      KernelValid w' owner' f g' (h.subclass d.name S S' C M) O ∧
      (∀ o < w.memory.limit, owner' o = owner o) ∧ w'.memory.slot C Field.name = d.name := by
  obtain ⟨hSb, hSne, hSptr⟩ := hv.ne_nilOop_of_named hS
  have hgetClass := hv.behaviors.getClassFromOop hS'
  have hS'b := (hv.behaviors.metaclass S S' hS').2.1
  obtain ⟨M, w₁, owner₁, hcreateM, hMlimit, hframe₁, hv₁, howner₁, hmeta, hMformat⟩ :=
    hv.createMetaclass (by omega) hS'b d
  have hMmem : M ∈ ((h.addBehavior M S').install M).registered :=
    List.mem_append_right _ (List.mem_singleton_self M)
  have hMnew : ∀ C, ¬ ((h.addBehavior M S').install M).MetaclassOf C M := fun C hCM =>
    hv.not_isBehavior hMlimit (hv.behaviors.metaclass C M hCM).2.1
  have hlength₁ : ((h.addBehavior M S').install M).registered.length < 512 := by
    simp only [Hierarchy.install, Hierarchy.addBehavior, List.length_append, List.length_singleton]
    omega
  have hSb₁ : (h.addBehavior M S').IsBehavior S :=
    Hierarchy.isBehavior_addBehavior.mpr (Or.inl hSb)
  obtain ⟨C, w₂, owner₂, g₂, hcreateC, hClimit, hframe₂, hv₂, howner₂, hCname⟩ :=
    hv₁.createClass hlength₁ hMmem hmeta hMnew hSb₁ d (hMformat ▸ hformat.1) (hMformat ▸ hformat.2)
      (hframe₁.live hlive)
  have hMlt := (hv₁.behaviors.behavior M (Or.inr hMmem)).2.1
  refine ⟨C, M, w₂, owner₂, g₂, ?_, hMlimit, hframe₁.limit_le.trans_lt hClimit, by omega, ?_, hv₂,
    fun o ho => (howner₂ o (ho.trans_le hframe₁.limit_le)).trans (howner₁ o ho), hCname⟩
  · rw [World.subclassWithSomeNames, hv.globalsAtOrNil, hname, hv.globalsAtOrNil_of_some hS]
    simp only [Option.bind_eq_bind, Option.bind_some, Option.getD_none, ne_eq, not_true_eq_false,
      if_false, hSne, not_oopIsImmediate.mpr hSptr, or_self, hgetClass, hcreateM, hcreateC]
    cases classSetMetadata w₂.memory C d with
    | none => rfl
    | some m => rfl
  · refine (hframe₁.mono (Nat.le_refl _) (by simp)).trans (hframe₂.mono hframe₁.limit_le ?_)
    rintro o ho i (hcell | ⟨hbehavior, hO⟩)
    · have := (Prod.mk.inj hcell).1
      omega
    · exact ⟨howner₁ o ho ▸ hbehavior, hO⟩

/-- **A class that has been created** is in the hierarchy. -/
theorem subclassWithSomeNames (hv : KernelValid w owner f g h O)
    (hlength : h.registered.length + 2 ≤ 512) {d : ClassDefinition} (hlive : w.memory.Live d.name)
    (hname : h.named d.name = none) {S S' : ℕ} (hS : h.named d.superClassName = some S)
    (hS' : h.MetaclassOf S S') (hformat : MetaFormat d)
    (hd : d.classVariableAssociations = nilOop ∨ Declares w.memory O d) {C : ℕ} {w' : World}
    (hcreate : w.subclassWithSomeNames d = some (C, w')) :
    ∃ M owner' g', w.memory.limit < M ∧ w.memory.limit < C ∧ C ≠ M ∧
      Frame w.memory.limit
        {p | owner p.1 ≠ .behavior ∧ (p.1 ∈ O → p.2 = Field.value)} w.memory w'.memory ∧
      KernelValid w' owner' f g' (h.subclass d.name S S' C M) O ∧
      w'.memory.slot C Field.name = d.name := by
  obtain ⟨C', M, w₁, owner₁, g₁, heq, hMlimit, hClimit, hCM, hframe, hv₁, howner₁, hCname⟩ :=
    hv.subclassWithSomeNames_of_none hlength hlive hname hS hS' hformat
  rw [heq, Option.map_eq_some_iff] at hcreate
  obtain ⟨m, hset, hpair⟩ := hcreate
  obtain ⟨rfl, rfl⟩ := Prod.mk.inj hpair
  have hCmem : C' ∈ (h.subclass d.name S S' C' M).registered :=
    List.mem_append_right _ (List.mem_singleton_self C')
  -- the list of the class variables is what it was
  have hdeclares : d.classVariableAssociations = nilOop ∨ Declares w₁.memory O d := by
    refine hd.imp_right fun ⟨hO, helement⟩ => ⟨hO, fun i hi => ?_⟩
    have hlt := (hv.objects _ hO).2.1
    rw [hframe.basicSize hlt] at hi
    rw [hframe.slot _ hlt i fun hmem => hmem.2 hO]
    exact helement i hi
  have hmetadata := hv₁.classSetMetadata_frame hCmem hdeclares hset
  have hCowned := (hv₁.behaviors.behavior C' (Or.inr hCmem))
  refine ⟨M, owner₁, g₁, hMlimit, hClimit, hCM, ?_, hv₁.frame hmetadata (fun p hp => ?_)
    fun _ _ => rfl, ?_⟩
  · have hcreated : Frame w.memory.limit
        {p | owner p.1 ≠ .behavior ∧ (p.1 ∈ O → p.2 = Field.value)} w.memory w₁.memory :=
      hframe.mono (Nat.le_refl _) fun o _ i hmem => ⟨hmem.1, fun hO => absurd hO hmem.2⟩
    refine hcreated.trans (hmetadata.mono hframe.limit_le fun o ho i hmem => ?_)
    rcases hmem with ⟨hoC, -⟩ | ⟨hoO, j, -, hcell⟩
    · have : o = C' := hoC
      omega
    · refine ⟨?_, fun _ => (Prod.mk.inj hcell).2⟩
      show owner o ≠ .behavior
      rw [(hv.objects o hoO).1]
      simp
  · rcases hp with ⟨hC, h₁, h₂, h₃, -⟩ | ⟨hO, -⟩
    · exact Or.inr (Or.inl ⟨hC ▸ hCmem, h₁, h₂, h₃⟩)
    · exact Or.inl hO
  · refine (hmetadata.slot C' hCowned.2.1 _ fun hmem => ?_).trans hCname
    rcases hmem with ⟨-, -, -, -, hne⟩ | ⟨-, j, -, hcell⟩
    · exact hne rfl
    · exact absurd (Prod.mk.inj hcell).2 (by decide)

/-- Without class variables the creation always succeeds. -/
theorem exists_subclassWithSomeNames (hv : KernelValid w owner f g h O)
    (hlength : h.registered.length + 2 ≤ 512) {d : ClassDefinition} (hlive : w.memory.Live d.name)
    (hname : h.named d.name = none) {S S' : ℕ} (hS : h.named d.superClassName = some S)
    (hS' : h.MetaclassOf S S') (hformat : MetaFormat d)
    (hd : d.classVariableAssociations = nilOop) :
    ∃ C w', w.subclassWithSomeNames d = some (C, w') := by
  obtain ⟨C, M, w₁, owner₁, g₁, heq, -, -, -, -, hv₁, -, -⟩ :=
    hv.subclassWithSomeNames_of_none hlength hlive hname hS hS' hformat
  have hk : KernelIntact ((w₁.memory.setSlot C Field.instanceVariables
      d.instanceVariableNames).setSlot C Field.category d.categoryName) :=
    (hv₁.globals.symbols.kernel.setSlot (by decide)).setSlot (by decide)
  obtain ⟨pool, m, hnew, -⟩ := @dictionaryNewWithCapacity_spec _ _ hk .Dictionary (by decide) 5
  refine ⟨C, w₁.withMemory ((m.setSlot C Field.classPool pool).setSlot C Field.sharedPools
    d.poolDictionaries), ?_⟩
  rw [heq, classSetMetadata]
  simp only [Option.bind_eq_bind, dictionaryNew, hnew, Option.bind_some, hd, if_true]
  rfl

/-! ### Methods -/

/-- The behavior a method of a class is registered in. -/
def MethodTarget (h : Hierarchy) (C classSide b : ℕ) : Prop :=
  if classSide = trueOop then h.MetaclassOf C b else b = C ∧ h.IsClass C

theorem isBehavior_of_methodTarget (hv : KernelValid w owner f g h O) {C classSide b : ℕ}
    (hb : MethodTarget h C classSide b) : h.IsBehavior b := by
  rw [MethodTarget] at hb
  split_ifs at hb
  · exact (hv.behaviors.metaclass C b hb).2.1
  · exact hb.1 ▸ hv.behaviors.isBehavior_of_isClass hb.2

/-- Registering a method under a name that is bound. -/
theorem registerMethodWithNames_eq (hv : KernelValid w owner f g h O) {className C classSide b : ℕ}
    (hC : h.named className = some C) (hb : MethodTarget h C classSide b) (method selector : ℕ) :
    w.registerMethodWithNames method selector className classSide =
      (w.memory.methodDictionaryAtPut (w.memory.slot b Field.methodDict) selector method).map
        fun m => (trueOop, w.withMemory m) := by
  obtain ⟨M, hCM⟩ := hv.isClass className C hC
  have hne := (hv.ne_nilOop_of_named hC).2.1
  have hgetClass := hv.behaviors.getClassFromOop hCM
  have hmeta := (hv.behaviors.metaclass C M hCM).2.2.2
  have hbehavior : (if classSide = trueOop then M else C) = b := by
    rw [MethodTarget] at hb
    split_ifs at hb ⊢ with hside
    · have hgetClass' := hv.behaviors.getClassFromOop hb
      rw [hgetClass] at hgetClass'
      exact Option.some.inj hgetClass'
    · exact hb.1.symm
  rw [World.registerMethodWithNames, hv.globalsAtOrNil_of_some hC]
  simp only [Option.bind_eq_bind, Option.bind_some, hne, if_false, hgetClass, hmeta, ne_eq,
    not_true_eq_false, hbehavior]
  cases w.memory.methodDictionaryAtPut (w.memory.slot b Field.methodDict) selector method with
  | none => rfl
  | some m => rfl

/-- Nothing is registered under a name that is not bound. -/
theorem registerMethodWithNames_of_none (hv : KernelValid w owner f g h O) {className : ℕ}
    (hname : h.named className = none) (method selector classSide : ℕ) :
    w.registerMethodWithNames method selector className classSide = some (falseOop, w) := by
  rw [World.registerMethodWithNames, hv.globalsAtOrNil, hname]
  simp only [Option.bind_eq_bind, Option.bind_some, Option.getD_none, if_true]
  rfl

/-- **`slvm_dynrun_registerMethodWithNames`** for a behavior that can have methods. -/
theorem registerMethodWithNames (hv : KernelValid w owner f g h O) {className C classSide b : ℕ}
    (hC : h.named className = some C) (hb : MethodTarget h C classSide b)
    (hinstalled : b ∈ h.installed) {method selector : ℕ} (hselector : selector ≠ nilOop)
    (hlive : w.memory.Live selector) (hmethod : method ≠ nilOop) :
    ∃ m owner', w.registerMethodWithNames method selector className classSide =
        some (trueOop, w.withMemory m) ∧
      Frame w.memory.limit {p | owner p.1 = .methodDict b} w.memory m ∧
      KernelValid (w.withMemory m) owner' f g (h.register b selector method) O := by
  obtain ⟨m, hput, hframe, hbehaviors⟩ :=
    hv.behaviors.registerMethod hv.globals.symbols.kernel hinstalled hselector hlive hmethod
  have howner : ∀ o < w.memory.limit, claim owner w.memory.limit (.methodDict b) o = owner o :=
    fun o ho => claim_of_lt ho _
  have hglobals := hv.globals.frame_region hframe (by simp) (by simp) (by simp) (by simp) (by simp)
    howner
  refine ⟨m, _, ?_, hframe, hv.step hglobals hbehaviors (fun k e hg => ?_) rfl (fun _ _ h => h)
    hframe.limit_le howner⟩
  · rw [hv.registerMethodWithNames_eq hC hb, hput]
    rfl
  · refine hframe.slot e (hv.globals.entry hg).1 _ fun hmem => ?_
    have he : owner e = .methodDict b := hmem
    rcases hv.globals.bound k e hg with hr | hr <;> exact absurd (hr.symm.trans he) (by simp)

/-- **Registering a method fails** for a behavior that cannot have methods. -/
theorem registerMethodWithNames_of_not_installed (hv : KernelValid w owner f g h O)
    {className C classSide b : ℕ} (hC : h.named className = some C)
    (hb : MethodTarget h C classSide b) (hinstalled : b ∉ h.installed) (method selector : ℕ) :
    w.registerMethodWithNames method selector className classSide = none := by
  have hnil : w.memory.slot b Field.methodDict = nilOop := by
    by_contra hne
    exact hinstalled ((hv.behaviors.installed b (hv.isBehavior_of_methodTarget hb)).mp hne)
  rw [hv.registerMethodWithNames_eq hC hb, hnil, methodDictionaryAtPut, methodDictionaryAtPutLoop,
    if_pos rfl]
  rfl

end KernelValid

end World

end SlvmNative
