import SlvmNative.KernelInitialization

/-!
# Runs of the kernel

What the calls of packages do to a running kernel, in any order: names are interned, objects
created, classes and methods registered, globals bound. The state of a run records, beside the
memory, the hierarchy that the calls so far have asked for.

## Main definitions

* `KernelRun.Step` — one call
* `KernelRun.Reachable` — a state of a run that begins when the kernel classes have their names
* `KernelRun.Valid` — the invariant

## Main results

* `KernelRun.valid_of_run` — the runtime stands for the hierarchy asked for
* `KernelRun.dynrunInitialize_reachable` — `slvm_dynrun_initialize` is such a run
* `KernelRun.lookup_of_run`, `registerMethod_of_run_iff`, `created_of_run`
-/

namespace SlvmNative

open ObjectMemory Inheritance Relation

variable [KernelImage]

/-- The hierarchy when the kernel classes have got their names, pools and method dictionaries. -/
def World.initialHierarchy (w : World) : Hierarchy :=
  { Hierarchy.kernel with
    named := fun name =>
      if w.globalsAtOrNil name = some nilOop then none else w.globalsAtOrNil name
    installed := Set.range kernelClass
    pooled := Set.univ }

/-- The initialized kernel classes stand for the initial hierarchy. -/
theorem World.KernelValid.eq_initialHierarchy {w : World} {owner : ℕ → Region}
    {f : List UInt8 → Option ℕ} {g : ℕ → Option ℕ} {h : Hierarchy} {O : Set ℕ}
    (hv : w.KernelValid owner f g h O) (hdone : Initialized f h KernelClass.all) :
    h = w.initialHierarchy := by
  obtain ⟨hinstalled, hpooled, -, -, hmethods, hsuperclass, hregistered, hclasses⟩ := hdone
  have hnamed : h.named = w.initialHierarchy.named := by
    funext name
    change _ = if w.globalsAtOrNil name = some nilOop then none else w.globalsAtOrNil name
    cases hC : h.named name with
    | none =>
      rw [hv.globalsAtOrNil, hC]
      exact (if_pos rfl).symm
    | some C =>
      have hne : some C ≠ some nilOop := fun heq =>
        (hv.ne_nilOop_of_named hC).2.1 (Option.some.inj heq)
      rw [hv.globalsAtOrNil_of_some hC]
      exact (if_neg hne).symm
  have hrange : h.installed = Set.range kernelClass := by
    ext b
    rw [hinstalled]
    constructor
    · rintro ⟨c, -, rfl⟩
      exact ⟨c, rfl⟩
    · rintro ⟨c, rfl⟩
      exact ⟨c, c.mem_all, rfl⟩
  have hall : h.pooled = Set.univ := Set.eq_univ_of_forall fun c => hpooled c c.mem_all
  obtain ⟨registered, classes, named, superclass, installed, pooled, methods⟩ := h
  simp only at hmethods hsuperclass hregistered hclasses hnamed hrange hall
  rw [hmethods, hsuperclass, hregistered, hclasses, hnamed, hrange, hall]
  rfl

/-- A class that `slvm_dynrun_subclassWithSomeNames` has created. -/
structure CreatedClass where
  definition : ClassDefinition
  /-- What the name of the superclass was bound to. -/
  superClass : ℕ
  clazz : ℕ

/-- The state of a run: the runtime, the hierarchy the calls so far have asked for, and the objects
that are none of the runtime's own. -/
structure KernelRun where
  world : World
  hierarchy : Hierarchy
  objects : Set ℕ
  /-- The classes created so far that are still bound to their names. -/
  created : List CreatedClass

namespace KernelRun

/-- A name has been bound to a class, or to nil. -/
def bindName (s : KernelRun) (name : ℕ) (clazz : Option ℕ) (w : World) : KernelRun where
  world := w
  hierarchy := s.hierarchy.bind name clazz
  objects := s.objects
  created := s.created.filter fun x => x.definition.name ≠ name

/-- One step of a run. -/
inductive Step : KernelRun → KernelRun → Prop
  | internCString {s : KernelRun} {symbol : ℕ} {w : World} (cstring : List UInt8)
      (h : s.world.symbolInternCString cstring = some (symbol, w)) : Step s { s with world := w }
  | internString {s : KernelRun} {string symbol : ℕ} {w : World}
      (hstring : s.world.memory.IsByteString string) (hlive : s.world.memory.Live string)
      (h : s.world.symbolInternString string = some (symbol, w)) : Step s { s with world := w }
  /-- The creation of objects: nothing there was changes. -/
  | allocate {s : KernelRun} {m : ObjectMemory}
      (h : Frame s.world.memory.limit ∅ s.world.memory m) :
      Step s { s with
        world := s.world.withMemory m
        objects := s.objects ∪ {o | s.world.memory.limit ≤ o ∧ o < m.limit} }
  | store {s : KernelRun} {o : ℕ} (ho : o ∈ s.objects) (i v : ℕ) :
      Step s { s with world := s.world.setSlot o i v }
  | addPrimitive {s : KernelRun} {selector : String} {function symbol method : ℕ} {w₁ w : World}
      {m₂ : ObjectMemory} (c : KernelClass)
      (hsymbol : s.world.symbolInternCString (asciiBytes selector) = some (symbol, w₁))
      (hmethod : World.primitiveMethodMake w₁.memory function = some (method, m₂))
      (h : s.world.kclassAddPrimitive c selector function = some w) :
      Step s { s with
        world := w
        hierarchy := s.hierarchy.register (kernelClass c) symbol method }
  | setClassVariable {s : KernelRun} {w : World} (c : KernelClass) (name : String) (value : ℕ)
      (h : s.world.kclassVariableSet c name value = some w) : Step s { s with world := w }
  | globalsAtPut {s : KernelRun} {name : ℕ} {w : World} (hlive : s.world.memory.Live name)
      (clazz : Option ℕ) (hclass : ∀ C, clazz = some C → s.hierarchy.IsClass C)
      (h : s.world.globalsAtPut name (clazz.getD nilOop) = some w) :
      Step s (s.bindName name clazz w)
  | addGlobal {s : KernelRun} {var : ℕ} {w : World} (hvar : var ∈ s.objects)
      (hlive : s.world.memory.Live (s.world.memory.slot var Field.key)) (clazz : Option ℕ)
      (hvalue : s.world.memory.slot var Field.value = clazz.getD nilOop)
      (hclass : ∀ C, clazz = some C → s.hierarchy.IsClass C)
      (h : s.world.globalsAddIfNotExistent var = some (var, w)) :
      Step s { s.bindName (s.world.memory.slot var Field.key) clazz w with
        objects := s.objects \ {var} }
  /-- A global variable whose name has a binding already. -/
  | addBoundGlobal {s : KernelRun} {var result : ℕ} {w : World} (hvar : var ∈ s.objects)
      (hlive : s.world.memory.Live (s.world.memory.slot var Field.key)) (hne : result ≠ var)
      (h : s.world.globalsAddIfNotExistent var = some (result, w)) : Step s { s with world := w }
  | subclassBound {s : KernelRun} {d : ClassDefinition} {C C' : ℕ} {w : World}
      (hname : s.world.globalsAtOrNil d.name = some C) (hne : C ≠ nilOop)
      (h : s.world.subclassWithSomeNames d = some (C', w)) : Step s { s with world := w }
  | subclass {s : KernelRun} {d : ClassDefinition} {S S' C M : ℕ} {w : World}
      (hlength : s.hierarchy.registered.length + 2 ≤ 512) (hlive : s.world.memory.Live d.name)
      (hname : s.world.globalsAtOrNil d.name = some nilOop)
      (hS : s.world.globalsAtOrNil d.superClassName = some S) (hne : S ≠ nilOop)
      (hS' : s.world.getClassFromOop S = some S') (hformat : World.KernelValid.MetaFormat d)
      (hvariables : d.classVariableAssociations = nilOop ∨
        World.KernelValid.Declares s.world.memory s.objects d)
      (h : s.world.subclassWithSomeNames d = some (C, w)) (hM : w.getClassFromOop C = some M) :
      Step s { s with
        world := w
        hierarchy := s.hierarchy.subclass d.name S S' C M
        created := s.created ++ [⟨d, S, C⟩] }
  | registerMethodUnbound {s : KernelRun} {className : ℕ} {result : ℕ} {w : World}
      (method selector classSide : ℕ) (hname : s.world.globalsAtOrNil className = some nilOop)
      (h : s.world.registerMethodWithNames method selector className classSide = some (result, w)) :
      Step s { s with world := w }
  | registerMethod {s : KernelRun} {method selector className classSide C M result : ℕ} {w : World}
      (hC : s.world.globalsAtOrNil className = some C) (hne : C ≠ nilOop)
      (hM : s.world.getClassFromOop C = some M) (hselector : selector ≠ nilOop)
      (hlive : s.world.memory.Live selector) (hmethod : method ≠ nilOop)
      (h : s.world.registerMethodWithNames method selector className classSide = some (result, w)) :
      Step s { s with
        world := w
        hierarchy := s.hierarchy.register (if classSide = trueOop then M else C) selector method }

/-- A run begins when `slvm_internal_init_classes` has returned. -/
def Start (s : KernelRun) : Prop :=
  ∃ w w₀ w' : World, KernelLoaded w.memory ∧ w.spurInitialize.initCollectionsKernel = some w₀ ∧
    w₀.initClasses = some w' ∧ s = ⟨w', w'.initialHierarchy, World.loadedObjects w.memory, []⟩

/-- A state of a run. -/
def Reachable (s : KernelRun) : Prop := ∃ s₀, Start s₀ ∧ ReflTransGen Step s₀ s

/-! ### The invariant -/

/-- A created class, its metaclass and its name. -/
structure CreatedValid (s : KernelRun) (x : CreatedClass) : Prop where
  superclass : s.hierarchy.superclass x.clazz = some x.superClass
  metaclass : ∃ M S', s.hierarchy.MetaclassOf x.clazz M ∧ s.hierarchy.MetaclassOf x.superClass S' ∧
    s.hierarchy.superclass M = some S'
  named : s.hierarchy.named x.definition.name = some x.clazz
  name : s.world.memory.slot x.clazz Field.name = x.definition.name

/-- The invariant of a run. -/
structure Valid (s : KernelRun) : Prop where
  kernel : ∃ owner f g, s.world.KernelValid owner f g s.hierarchy s.objects
  /-- All behaviors but the kernel metaclasses can have methods. -/
  installed : ∀ b, s.hierarchy.IsBehavior b →
    (b ∈ s.hierarchy.installed ↔ ∀ c, b ≠ kernelMetaclass c)
  pooled : ∀ c, c ∈ s.hierarchy.pooled
  created : ∀ x ∈ s.created, s.CreatedValid x

/-- A step that creates no class and rebinds no name of a created class. -/
theorem Valid.of_step {s s' : KernelRun} (h : s.Valid) {owner owner' : ℕ → Region}
    {f f' : List UInt8 → Option ℕ} {g g' : ℕ → Option ℕ}
    (hv : s.world.KernelValid owner f g s.hierarchy s.objects)
    (hv' : s'.world.KernelValid owner' f' g' s'.hierarchy s'.objects)
    (hframe : Frame s.world.memory.limit {p | owner p.1 ≠ .behavior} s.world.memory s'.world.memory)
    (hsame : s'.hierarchy.registered = s.hierarchy.registered ∧
      s'.hierarchy.classes = s.hierarchy.classes ∧
      s'.hierarchy.superclass = s.hierarchy.superclass ∧
      s'.hierarchy.installed = s.hierarchy.installed ∧ s'.hierarchy.pooled = s.hierarchy.pooled)
    (hcreated : ∀ x ∈ s'.created, x ∈ s.created ∧
      s'.hierarchy.named x.definition.name = s.hierarchy.named x.definition.name) : s'.Valid := by
  obtain ⟨hregistered, hclasses, hsuperclass, hinstalled, hpooled⟩ := hsame
  refine ⟨⟨owner', f', g', hv'⟩, fun b hb => ?_, fun c => ?_, fun x hx => ?_⟩
  · rw [hinstalled]
    refine h.installed b ?_
    rwa [Hierarchy.IsBehavior, hregistered] at hb
  · rw [hpooled]
    exact h.pooled c
  · obtain ⟨hmem, hname⟩ := hcreated x hx
    obtain ⟨hsuper, ⟨M, S', hM, hS', hMS'⟩, hnamed, hslot⟩ := h.created x hmem
    have hclassesOf : ∀ C N, s.hierarchy.MetaclassOf C N → s'.hierarchy.MetaclassOf C N := by
      intro C N hCN
      rwa [Hierarchy.MetaclassOf, hclasses]
    refine ⟨hsuperclass ▸ hsuper,
      ⟨M, S', hclassesOf _ _ hM, hclassesOf _ _ hS', hsuperclass ▸ hMS'⟩,
      hname.trans hnamed, ?_⟩
    obtain ⟨hbehavior, hlt, -, -⟩ := hv.behaviors.behavior _ (hv.behaviors.metaclass _ _ hM).1
    rw [hframe.slot _ hlt _ fun hmem => hmem hbehavior, hslot]

theorem Valid.of_same {s : KernelRun} (h : s.Valid) {w : World} {O : Set ℕ}
    {owner owner' : ℕ → Region} {f f' : List UInt8 → Option ℕ} {g g' : ℕ → Option ℕ}
    (hv : s.world.KernelValid owner f g s.hierarchy s.objects)
    (hv' : w.KernelValid owner' f' g' s.hierarchy O)
    (hframe : Frame s.world.memory.limit {p | owner p.1 ≠ .behavior} s.world.memory w.memory) :
    Valid { s with world := w, objects := O } :=
  h.of_step hv hv' hframe ⟨rfl, rfl, rfl, rfl, rfl⟩ fun _ hx => ⟨hx, rfl⟩

/-- A step that stores into the objects of one region. -/
theorem Valid.of_region {s : KernelRun} (h : s.Valid) {w : World} {r : Region} (hr : r ≠ .behavior)
    {owner owner' : ℕ → Region} {f f' : List UInt8 → Option ℕ} {g g' : ℕ → Option ℕ}
    (hv : s.world.KernelValid owner f g s.hierarchy s.objects)
    (hv' : w.KernelValid owner' f' g' s.hierarchy s.objects)
    (hframe : Frame s.world.memory.limit {p | owner p.1 = r} s.world.memory w.memory) :
    Valid { s with world := w } := by
  refine h.of_same hv hv' (hframe.mono (Nat.le_refl _) fun o _ i hmem hbehavior => ?_)
  exact hr ((show owner o = r from hmem).symm.trans hbehavior)

/-- Every kernel class has had its methods installed. -/
theorem Valid.kernelClass_installed {s : KernelRun} (h : s.Valid) (c : KernelClass) :
    kernelClass c ∈ s.hierarchy.installed :=
  (h.installed _ (s.hierarchy.isBehavior_kernelClass c)).mpr fun c' =>
    kernelClass_ne_kernelMetaclass c c'

/-- A name is bound. -/
theorem Valid.of_bind {s : KernelRun} (h : s.Valid) {w : World} {O : Set ℕ}
    {owner owner' : ℕ → Region} {f f' : List UInt8 → Option ℕ} {g g' : ℕ → Option ℕ}
    (hv : s.world.KernelValid owner f g s.hierarchy s.objects) {name : ℕ} {clazz : Option ℕ}
    (hv' : w.KernelValid owner' f' g' (s.hierarchy.bind name clazz) O)
    (hframe : Frame s.world.memory.limit {p | owner p.1 ≠ .behavior ∧ p.1 ∉ s.objects}
      s.world.memory w.memory) :
    Valid { s.bindName name clazz w with objects := O } := by
  refine h.of_step hv hv' (hframe.mono (Nat.le_refl _) fun _ _ _ hmem => hmem.1)
    ⟨rfl, rfl, rfl, rfl, rfl⟩ fun x hx => ?_
  obtain ⟨hmem, hne⟩ := List.mem_filter.mp hx
  exact ⟨hmem, Function.update_of_ne (of_decide_eq_true hne) _ _⟩

/-- What the metaclass of a named class is. -/
theorem metaclassOf_of_named {s : KernelRun} {owner : ℕ → Region} {f : List UInt8 → Option ℕ}
    {g : ℕ → Option ℕ} (hv : s.world.KernelValid owner f g s.hierarchy s.objects) {name C M : ℕ}
    (hC : s.hierarchy.named name = some C) (hM : s.world.getClassFromOop C = some M) :
    s.hierarchy.MetaclassOf C M := by
  obtain ⟨M', hCM⟩ := hv.isClass name C hC
  have hM' := hv.behaviors.getClassFromOop hCM
  rw [hM] at hM'
  exact Option.some.inj hM' ▸ hCM

/-- **The creation of a class** keeps the invariant. -/
theorem Valid.subclass {s : KernelRun} (h : s.Valid) {d : ClassDefinition} {S S' C M : ℕ}
    {w : World} (hlength : s.hierarchy.registered.length + 2 ≤ 512)
    (hlive : s.world.memory.Live d.name) (hname : s.world.globalsAtOrNil d.name = some nilOop)
    (hS : s.world.globalsAtOrNil d.superClassName = some S) (hne : S ≠ nilOop)
    (hS' : s.world.getClassFromOop S = some S') (hformat : World.KernelValid.MetaFormat d)
    (hvariables : d.classVariableAssociations = nilOop ∨
      World.KernelValid.Declares s.world.memory s.objects d)
    (hs : s.world.subclassWithSomeNames d = some (C, w)) (hM : w.getClassFromOop C = some M) :
    Valid ⟨w, s.hierarchy.subclass d.name S S' C M, s.objects, s.created ++ [⟨d, S, C⟩]⟩ := by
  obtain ⟨owner, f, g, hv⟩ := h.kernel
  have hnamed := hv.named_eq_none hname
  have hSnamed := hv.named_eq_some hS hne
  have hSS' := metaclassOf_of_named hv hSnamed hS'
  obtain ⟨M', owner', g', hMlimit, hClimit, hCM, hframe, hv', hslot⟩ :=
    hv.subclassWithSomeNames hlength hlive hnamed hSnamed hSS' hformat hvariables hs
  have hCM' : (s.hierarchy.subclass d.name S S' C M').MetaclassOf C M' :=
    Or.inr (List.mem_append_right _ (List.mem_singleton_self _))
  -- the class of the new class is its metaclass
  obtain rfl : M' = M := by
    have hM' := hv'.behaviors.getClassFromOop hCM'
    rw [hM] at hM'
    exact (Option.some.inj hM').symm
  have hCnew := hv.not_isBehavior hClimit
  have hMnew := hv.not_isBehavior hMlimit
  have hne_new : ∀ {b}, s.hierarchy.IsBehavior b → b ≠ C ∧ b ≠ M' := fun hb =>
    ⟨fun heq => hCnew (heq ▸ hb), fun heq => hMnew (heq ▸ hb)⟩
  refine ⟨⟨owner', f, g', hv'⟩, fun b hb => ?_, h.pooled, fun x hx => ?_⟩
  · show b = C ∨ b = M' ∨ b ∈ s.hierarchy.installed ↔ _
    rcases Hierarchy.isBehavior_subclass.mp hb with hb | rfl | rfl
    · obtain ⟨hbC, hbM⟩ := hne_new hb
      rw [or_iff_right hbC, or_iff_right hbM]
      exact h.installed b hb
    · refine iff_of_true (Or.inr (Or.inl rfl)) fun c heq => hMnew ?_
      exact heq ▸ s.hierarchy.isBehavior_kernelMetaclass c
    · refine iff_of_true (Or.inl rfl) fun c heq => hCnew ?_
      exact heq ▸ s.hierarchy.isBehavior_kernelMetaclass c
  · rcases List.mem_append.mp hx with hx | hx
    · -- an older class
      obtain ⟨hsuper, ⟨N, T', hN, hT', hNT'⟩, hxnamed, hxname⟩ := h.created x hx
      have hxb := (hv.behaviors.metaclass _ _ hN).1
      obtain ⟨hbehavior, hlt, -, -⟩ := hv.behaviors.behavior _ hxb
      obtain ⟨hxC, hxM⟩ := hne_new hxb
      obtain ⟨hNC, hNM⟩ := hne_new (hv.behaviors.metaclass _ _ hN).2.1
      refine ⟨?_, ⟨N, T', Hierarchy.metaclassOf_subclass.mpr (Or.inl hN),
        Hierarchy.metaclassOf_subclass.mpr (Or.inl hT'), ?_⟩, ?_, ?_⟩
      · rw [Hierarchy.subclass_superclass, Function.update_of_ne hxC, Function.update_of_ne hxM,
          hsuper]
      · rw [Hierarchy.subclass_superclass, Function.update_of_ne hNC, Function.update_of_ne hNM,
          hNT']
      · have hdname : x.definition.name ≠ d.name := by
          intro heq
          rw [heq, hnamed] at hxnamed
          cases hxnamed
        rw [Hierarchy.subclass_named, Function.update_of_ne hdname, hxnamed]
      · exact (hframe.slot _ hlt _ fun hmem => hmem.1 hbehavior).trans hxname
    · -- the new one
      obtain rfl := List.mem_singleton.mp hx
      refine ⟨?_, ⟨M', S', hCM', Hierarchy.metaclassOf_subclass.mpr (Or.inl hSS'), ?_⟩, ?_, hslot⟩
      · rw [Hierarchy.subclass_superclass, Function.update_self]
      · rw [Hierarchy.subclass_superclass, Function.update_of_ne hCM.symm, Function.update_self]
      · rw [Hierarchy.subclass_named, Function.update_self]

/-- **The registration of a method** keeps the invariant. -/
theorem Valid.registerMethod {s : KernelRun} (h : s.Valid)
    {method selector className classSide C M result : ℕ} {w : World}
    (hC : s.world.globalsAtOrNil className = some C) (hne : C ≠ nilOop)
    (hM : s.world.getClassFromOop C = some M) (hselector : selector ≠ nilOop)
    (hlive : s.world.memory.Live selector) (hmethod : method ≠ nilOop)
    (hs : s.world.registerMethodWithNames method selector className classSide =
      some (result, w)) :
    Valid { s with
      world := w
      hierarchy :=
        s.hierarchy.register (if classSide = trueOop then M else C) selector method } := by
  obtain ⟨owner, f, g, hv⟩ := h.kernel
  have hnamed := hv.named_eq_some hC hne
  have hCM := metaclassOf_of_named hv hnamed hM
  have htarget : World.KernelValid.MethodTarget s.hierarchy C classSide
      (if classSide = trueOop then M else C) := by
    rw [World.KernelValid.MethodTarget]
    split_ifs
    · exact hCM
    · exact ⟨rfl, M, hCM⟩
  by_cases hinstalled : (if classSide = trueOop then M else C) ∈ s.hierarchy.installed
  · obtain ⟨m, owner', hregister, hframe, hv'⟩ :=
      hv.registerMethodWithNames hnamed htarget hinstalled hselector hlive hmethod
    rw [hs] at hregister
    obtain ⟨-, rfl⟩ := Prod.mk.inj (Option.some.inj hregister)
    refine h.of_step hv hv' (hframe.mono (Nat.le_refl _) fun o _ i hmem hbehavior => ?_)
      ⟨rfl, rfl, rfl, rfl, rfl⟩ fun _ hx => ⟨hx, rfl⟩
    exact absurd ((show owner o = .methodDict _ from hmem).symm.trans hbehavior) (by simp)
  · -- otherwise the call does not return
    rw [hv.registerMethodWithNames_of_not_installed hnamed htarget hinstalled] at hs
    cases hs

/-- **One step** keeps the invariant. -/
theorem Valid.step {s s' : KernelRun} (h : s.Valid) (hstep : Step s s') : s'.Valid := by
  obtain ⟨owner, f, g, hv⟩ := h.kernel
  cases hstep with
  | internCString cstring hs =>
    obtain ⟨symbol, m, hintern, hframe, hv', -⟩ := hv.internCString cstring
    rw [hintern] at hs
    obtain ⟨-, rfl⟩ := Prod.mk.inj (Option.some.inj hs)
    exact h.of_region (by simp) hv hv' hframe
  | internString hstring hlive hs =>
    obtain ⟨symbol, m, f', hintern, hframe, hv'⟩ := hv.internString hstring hlive
    rw [hintern] at hs
    obtain ⟨-, rfl⟩ := Prod.mk.inj (Option.some.inj hs)
    exact h.of_region (by simp) hv hv' hframe
  | allocate hframe =>
    exact h.of_same hv (hv.allocate hframe) (hframe.mono (Nat.le_refl _) (by simp))
  | @store o ho i v =>
    have hobject := (hv.objects o ho).1
    refine h.of_same hv (hv.setSlot (Or.inl ho) v) ?_
    refine (Frame.setSlot_object s.world.memory.limit s.world.memory o i v).mono (Nat.le_refl _)
      fun x _ j hmem hbehavior => ?_
    obtain rfl : x = o := hmem
    exact absurd (hobject.symm.trans hbehavior) (by simp)
  | @addPrimitive selector function symbol method w₁ w m₂ c hsymbol hmethod hs =>
    obtain ⟨w₁', m₂', m, owner', f', symbol', method', hsymbol', hmethod', hadd, hframe, hv'⟩ :=
      hv.kclassAddPrimitive (h.kernelClass_installed c) selector function
    rw [hsymbol] at hsymbol'
    obtain ⟨rfl, rfl⟩ := Prod.mk.inj (Option.some.inj hsymbol')
    rw [hmethod] at hmethod'
    obtain ⟨rfl, rfl⟩ := Prod.mk.inj (Option.some.inj hmethod')
    rw [hs] at hadd
    obtain rfl := Option.some.inj hadd
    exact h.of_step hv hv' hframe ⟨rfl, rfl, rfl, rfl, rfl⟩ fun _ hx => ⟨hx, rfl⟩
  | setClassVariable c name value hs =>
    obtain ⟨m, owner', f', hset, hframe, hv'⟩ := hv.kclassVariableSet (h.pooled c) name value
    rw [hs] at hset
    obtain rfl := Option.some.inj hset
    exact h.of_same hv hv' hframe
  | globalsAtPut hlive clazz hclass hs =>
    obtain ⟨m, owner', g', hput, hframe, hv', -⟩ := hv.globalsAtPut hlive clazz hclass
    rw [hs] at hput
    obtain rfl := Option.some.inj hput
    exact h.of_bind hv hv' hframe
  | addGlobal hvar hlive clazz hvalue hclass hs =>
    obtain ⟨result, hne, hadd⟩ | ⟨m, owner', g', hadd, hframe, -, hv'⟩ :=
      hv.globalsAddIfNotExistent hvar hlive hvalue hclass
    · rw [hs] at hadd
      exact absurd (Prod.mk.inj (Option.some.inj hadd)).1.symm hne
    · rw [hs] at hadd
      obtain ⟨-, rfl⟩ := Prod.mk.inj (Option.some.inj hadd)
      exact h.of_bind hv hv' hframe
  | @addBoundGlobal var result w hvar hlive hne hs =>
    obtain ⟨hobject, hlt, -⟩ := hv.objects var hvar
    have hvarne : var ≠ nilOop := by
      rintro rfl
      exact absurd (hobject.symm.trans (hv.globals.symbols.kernelOwner .nil)) (by simp)
    cases hg : g (s.world.memory.slot var Field.key) with
    | none =>
      obtain ⟨m, hadd, -⟩ := hv.globals.addIfNotExistent_of_none hobject hlt hvarne hlive hg
      rw [hs] at hadd
      exact absurd (Prod.mk.inj (Option.some.inj hadd)).1 hne
    | some e =>
      rw [hv.globals.addIfNotExistent_of_some hvarne hg] at hs
      obtain ⟨-, rfl⟩ := Prod.mk.inj (Option.some.inj hs)
      exact h
  | subclassBound hname hne hs =>
    rw [hv.subclassWithSomeNames_of_some (hv.named_eq_some hname hne)] at hs
    obtain ⟨-, rfl⟩ := Prod.mk.inj (Option.some.inj hs)
    exact h
  | subclass hlength hlive hname hS hne hS' hformat hvariables hs hM =>
    exact h.subclass hlength hlive hname hS hne hS' hformat hvariables hs hM
  | registerMethodUnbound method selector classSide hname hs =>
    rw [hv.registerMethodWithNames_of_none (hv.named_eq_none hname)] at hs
    obtain ⟨-, rfl⟩ := Prod.mk.inj (Option.some.inj hs)
    exact h
  | @registerMethod method selector className classSide C M result w hC hne hM hselector hlive
      hmethod hs =>
    exact h.registerMethod hC hne hM hselector hlive hmethod hs

/-- **A run begins in a valid state**, for every placement of the static objects. -/
theorem Start.valid {s : KernelRun} (h : Start s) : s.Valid := by
  obtain ⟨w, w₀, w', hloaded, hinit, hclasses, rfl⟩ := h
  obtain ⟨w₀', w'', hinit', hclasses', owner, f, g, hierarchy, hv, hdone⟩ :=
    World.initClasses_spec hloaded
  rw [hinit] at hinit'
  obtain rfl := Option.some.inj hinit'
  rw [hclasses] at hclasses'
  obtain rfl := Option.some.inj hclasses'
  obtain rfl := hv.eq_initialHierarchy hdone
  refine ⟨⟨owner, f, g, hv⟩, fun b hb => ?_, fun c => Set.mem_univ c,
    fun x hx => absurd hx List.not_mem_nil⟩
  constructor
  · rintro ⟨c, rfl⟩ c'
    exact kernelClass_ne_kernelMetaclass c c'
  · intro hne
    rcases hb with ⟨c, rfl | rfl⟩ | hb
    · exact ⟨c, rfl⟩
    · exact absurd rfl (hne c)
    · exact absurd hb List.not_mem_nil

/-- **Every state of a run is valid.** -/
theorem valid_of_run {s : KernelRun} (h : Reachable s) : s.Valid := by
  obtain ⟨s₀, hstart, hrun⟩ := h
  induction hrun with
  | refl => exact hstart.valid
  | tail _ hstep ih => exact ih.step hstep

/-! ### The initialization of the kernel -/

/-- Adding primitives is a run. -/
theorem addPrimitives_run (address : KernelClass → String → ℕ) (primitives : World.Primitives)
    {s : KernelRun} (h : Reachable s) :
    ∃ s', Reachable s' ∧ World.addPrimitives address s.world primitives = some s'.world := by
  induction primitives generalizing s with
  | nil => exact ⟨s, h, rfl⟩
  | cons primitive primitives ih =>
    obtain ⟨c, selector, name⟩ := primitive
    have hvalid := valid_of_run h
    obtain ⟨owner, f, g, hv⟩ := hvalid.kernel
    obtain ⟨w₁, m₂, m, -, -, symbol, method, hsymbol, hmethod, hadd, -⟩ :=
      hv.kclassAddPrimitive (hvalid.kernelClass_installed c) selector (address c name)
    obtain ⟨s₀, hstart, hrun⟩ := h
    have hstep := Step.addPrimitive c hsymbol hmethod hadd
    obtain ⟨s', hs', hrest⟩ := ih ⟨s₀, hstart, hrun.tail hstep⟩
    refine ⟨s', hs', ?_⟩
    rw [World.addPrimitives, List.foldlM_cons]
    exact (congrArg (Option.bind · _) hadd).trans hrest

/-- Setting a class variable of a kernel class is a step. -/
theorem kclassVariableSet_run {s : KernelRun} (h : Reachable s) (c : KernelClass) (name : String)
    (value : ℕ) :
    ∃ s', Reachable s' ∧ s.world.kclassVariableSet c name value = some s'.world := by
  have hvalid := valid_of_run h
  obtain ⟨owner, f, g, hv⟩ := hvalid.kernel
  obtain ⟨m, -, -, hset, -⟩ := hv.kclassVariableSet (hvalid.pooled c) name value
  obtain ⟨s₀, hstart, hrun⟩ := h
  exact ⟨_, ⟨s₀, hstart, hrun.tail (Step.setClassVariable c name value hset)⟩, hset⟩

/-- **`slvm_dynrun_initialize` is a run**, and succeeds. -/
theorem dynrunInitialize_reachable {w : World} (h : KernelLoaded w.memory)
    (address : KernelClass → String → ℕ) :
    ∃ s, Reachable s ∧ w.dynrunInitialize address = some s.world := by
  obtain ⟨w₀, w₁, hinit, hclasses, -⟩ := World.initClasses_spec h
  have hstart : Reachable ⟨w₁, w₁.initialHierarchy, World.loadedObjects w.memory, []⟩ :=
    ⟨_, ⟨w, w₀, w₁, h, hinit, hclasses, rfl⟩, ReflTransGen.refl⟩
  obtain ⟨s₂, hs₂, hkernel⟩ := addPrimitives_run address World.kernelPrimitives hstart
  obtain ⟨s₃, hs₃, hcontext⟩ := addPrimitives_run address World.contextPrimitives hs₂
  obtain ⟨s₄, hs₄, hnewSymbols⟩ :=
    kclassVariableSet_run hs₃ .Symbol "NewSymbols" s₃.world.newSymbols
  obtain ⟨s₅, hs₅, htable⟩ :=
    kclassVariableSet_run hs₄ .Symbol "SymbolTable" s₄.world.symbolTable
  obtain ⟨s₆, hs₆, hcollections⟩ := addPrimitives_run address World.collectionsPrimitives hs₅
  obtain ⟨s₇, hs₇, hmagnitude⟩ := addPrimitives_run address World.magnitudePrimitives hs₆
  refine ⟨s₇, hs₇, ?_⟩
  simp only [World.dynrunInitialize, World.initCollections, hinit, hclasses, hkernel, hcontext,
    hnewSymbols, htable, hcollections, hmagnitude, Option.bind_eq_bind, Option.bind_some]

/-! ### A run that creates a class -/

/-- **A package can create a class** below `Object`, wherever the static objects are. -/
theorem exists_subclass_run {w : World} (h : KernelLoaded w.memory) :
    ∃ s object x, Reachable s ∧ s.created = [x] ∧ x.superClass = kernelClass .Object ∧
      s.world.globalsAtOrNil object = some (kernelClass .Object) ∧ object ≠ nilOop ∧
      s.world.memory.Live object := by
  obtain ⟨w₀, w₁, hinit, hclasses, owner, f, g, hierarchy, hv, hdone⟩ := World.initClasses_spec h
  have hhierarchy := hv.eq_initialHierarchy hdone
  have hstart : Start ⟨w₁, hierarchy, World.loadedObjects w.memory, []⟩ :=
    ⟨w, w₀, w₁, h, hinit, hclasses, hhierarchy ▸ rfl⟩
  obtain ⟨object, hobject, hObject⟩ := hdone.named .Object (KernelClass.mem_all _)
  -- a name that no kernel class has
  obtain ⟨foo, m, hintern, hframe, hv₁, -, hlive, -⟩ := hv.internCString (asciiBytes "Foo")
  have hfoo : hierarchy.named foo = none := by
    cases hC : hierarchy.named foo with
    | none => rfl
    | some C =>
      obtain ⟨c, -, hc⟩ := hdone.of_named foo C hC
      have hne : World.KernelValid.kernelClassName c ≠ cStringBytes (asciiBytes "Foo") := by
        cases c <;> decide +kernel
      have hbytes := (hv₁.globals.symbols.of_some (Function.update_self ..)).2.2
      have hc' : Function.update f (cStringBytes (asciiBytes "Foo")) (some foo)
          (World.KernelValid.kernelClassName c) = some foo := by rw [Function.update_of_ne hne, hc]
      exact absurd ((hv₁.globals.symbols.of_some hc').2.2.symm.trans hbytes) hne
  have hinterned : Reachable ⟨w₁.withMemory m, hierarchy, World.loadedObjects w.memory, []⟩ :=
    ⟨_, hstart, ReflTransGen.single (Step.internCString (asciiBytes "Foo") hintern)⟩
  obtain ⟨hsymbol, hobjectLive, -⟩ := hv.globals.symbols.of_some hobject
  have hobjectne := World.ne_nilOop_of_isByteSymbol hv.globals.symbols.kernel hsymbol
  obtain ⟨d, hd⟩ : ∃ d : ClassDefinition, d = ⟨object, foo, nilOop, encodeFormatAndFixedSize 1 0,
      nilOop, encodeFormatAndFixedSize 1 14, nilOop, nilOop, nilOop⟩ := ⟨_, rfl⟩
  have hformat : World.KernelValid.MetaFormat d := by
    have hencoded : decodeFormat (encodeFormatAndFixedSize 1 14) = ObjectFormat.fixedSize ∧
        14 ≤ decodeFixedSize (encodeFormatAndFixedSize 1 14) := by decide +kernel
    rw [hd]
    exact hencoded
  have hlength : hierarchy.registered.length + 2 ≤ 512 := by
    rw [hdone.registered]
    decide
  have hdname : hierarchy.named d.name = none := by rw [hd]; exact hfoo
  have hdlive : (w₁.withMemory m).memory.Live d.name := by rw [hd]; exact hlive
  have hdsuper : hierarchy.named d.superClassName = some (kernelClass .Object) := by
    rw [hd]
    exact hObject
  have hdvariables : d.classVariableAssociations = nilOop := by rw [hd]
  have hmeta : hierarchy.MetaclassOf (kernelClass .Object) (kernelMetaclass .Object) :=
    Or.inl ⟨_, rfl, rfl⟩
  obtain ⟨C, w₂, hcreate⟩ := hv₁.exists_subclassWithSomeNames hlength hdlive hdname hdsuper hmeta
    hformat hdvariables
  obtain ⟨M, owner₂, g₂, -, -, -, hframe₂, hv₂, -⟩ := hv₁.subclassWithSomeNames hlength hdlive
    hdname hdsuper hmeta hformat (Or.inl hdvariables) hcreate
  have hstep : Step ⟨w₁.withMemory m, hierarchy, World.loadedObjects w.memory, []⟩ _ :=
    Step.subclass hlength hdlive (by rw [hv₁.globalsAtOrNil, hdname]; rfl)
      (hv₁.globalsAtOrNil_of_some hdsuper) (kernelClass_ne_nilOop _)
      (hv₁.behaviors.getClassFromOop hmeta) hformat (Or.inl hdvariables) hcreate
      (hv₂.behaviors.getClassFromOop (Hierarchy.metaclassOf_subclass.mpr (Or.inr ⟨rfl, rfl⟩)))
  obtain ⟨s₀, hs₀, hrun⟩ := hinterned
  refine ⟨_, object, _, ⟨s₀, hs₀, hrun.tail hstep⟩, rfl, rfl, ?_, hobjectne,
    hframe₂.live (hframe.live hobjectLive)⟩
  refine hv₂.globalsAtOrNil_of_some ?_
  have hne : object ≠ d.name := by
    intro heq
    rw [← heq, hObject] at hdname
    cases hdname
  rw [Hierarchy.subclass_named, Function.update_of_ne hne, hObject]

/-! ### Registration of one method -/

/-- The method of a behavior that was registered last is the one that lookup finds. -/
theorem Valid.lookup_registered {s : KernelRun} (h : s.Valid) {b selector method : ℕ}
    (hmethod : s.hierarchy.methods b selector = some method) :
    s.world.memory.LookupReturns b selector method := by
  obtain ⟨owner, f, g, hv⟩ := h.kernel
  exact hv.behaviors.lookup (hv.behaviors.method b selector method hmethod).1
    (Resolves.here hmethod)

/-- **The class side of a kernel class** takes no methods: the assertion on its method dictionary
fails. -/
theorem Valid.registerMethodWithNames_eq_none {s : KernelRun} (h : s.Valid) {className selector : ℕ}
    {c : KernelClass} (hC : s.world.globalsAtOrNil className = some (kernelClass c)) (method : ℕ) :
    s.world.registerMethodWithNames method selector className trueOop = none := by
  obtain ⟨owner, f, g, hv⟩ := h.kernel
  have htarget : World.KernelValid.MethodTarget s.hierarchy (kernelClass c) trueOop
      (kernelMetaclass c) := by
    rw [World.KernelValid.MethodTarget, if_pos rfl]
    exact Or.inl ⟨c, rfl, rfl⟩
  refine hv.registerMethodWithNames_of_not_installed
    (hv.named_eq_some hC (kernelClass_ne_nilOop c)) htarget (fun hmem => ?_) method selector
  exact (h.installed _ (s.hierarchy.isBehavior_kernelMetaclass c)).mp hmem c rfl

/-- Any other method can be registered. -/
theorem Valid.exists_registerMethod {s : KernelRun} (h : s.Valid)
    {method selector className classSide C : ℕ} (hC : s.world.globalsAtOrNil className = some C)
    (hne : C ≠ nilOop) (hselector : selector ≠ nilOop) (hlive : s.world.memory.Live selector)
    (hmethod : method ≠ nilOop) (hside : ¬ (classSide = trueOop ∧ ∃ c, C = kernelClass c)) :
    ∃ w' M, s.world.registerMethodWithNames method selector className classSide =
        some (trueOop, w') ∧ s.world.getClassFromOop C = some M ∧
      Step s { s with
        world := w'
        hierarchy :=
          s.hierarchy.register (if classSide = trueOop then M else C) selector method } := by
  obtain ⟨owner, f, g, hv⟩ := h.kernel
  have hnamed := hv.named_eq_some hC hne
  obtain ⟨M, hCM⟩ := hv.isClass className C hnamed
  have hM := hv.behaviors.getClassFromOop hCM
  obtain ⟨b, hb⟩ : ∃ b, b = if classSide = trueOop then M else C := ⟨_, rfl⟩
  have htarget : World.KernelValid.MethodTarget s.hierarchy C classSide b := by
    rw [World.KernelValid.MethodTarget, hb]
    split_ifs
    · exact hCM
    · exact ⟨rfl, M, hCM⟩
  -- only the kernel metaclasses have no method dictionary
  have hinstalled : b ∈ s.hierarchy.installed := by
    refine (h.installed b (hv.isBehavior_of_methodTarget htarget)).mpr fun c hc => ?_
    by_cases hclass : classSide = trueOop
    · rw [hb, if_pos hclass] at hc
      exact hside ⟨hclass, (hv.behaviors.kernelMetaclass_iff hCM).mp ⟨c, hc⟩⟩
    · rw [hb, if_neg hclass] at hc
      exact hv.behaviors.ne_kernelMetaclass_of_isClass hv.globals.symbols.kernel ⟨M, hCM⟩ c hc
  obtain ⟨m, owner', hregister, -⟩ :=
    hv.registerMethodWithNames hnamed htarget hinstalled hselector hlive hmethod
  exact ⟨_, M, hregister, hM, Step.registerMethod hC hne hM hselector hlive hmethod hregister⟩

/-! ### Lookup -/

/-- Every lookup terminates, and returns the method that was registered last in the nearest behavior
on the way up that has one, and nil just in case there is none. -/
def LookupResolves (s : KernelRun) : Prop :=
  ∀ b, s.hierarchy.IsBehavior b →
    s.world.memory.slot b Field.superclass = (s.hierarchy.superclass b).getD nilOop ∧
    ∀ selector, ∃ r, Resolves s.hierarchy.superclass s.hierarchy.methods selector b r ∧
      s.world.memory.LookupReturns b selector (r.getD nilOop) ∧
      (r.getD nilOop = nilOop ↔
        ∀ a, IsAncestor s.hierarchy.superclass a b → s.hierarchy.methods a selector = none)

/-- Registering a method for a selector changes no lookup of other selectors, and none that begins
outside the behavior and its descendants. -/
def RegistrationLocal (s : KernelRun) : Prop :=
  ∀ method selector className classSide C M result w',
    s.world.globalsAtOrNil className = some C → C ≠ nilOop → s.world.getClassFromOop C = some M →
    selector ≠ nilOop → s.world.memory.Live selector → method ≠ nilOop →
    s.world.registerMethodWithNames method selector className classSide = some (result, w') →
    ∀ b, s.hierarchy.IsBehavior b → ∀ other,
      other ≠ selector ∨
        ¬ IsAncestor s.hierarchy.superclass (if classSide = trueOop then M else C) b →
      ∀ value, s.world.memory.LookupReturns b other value → w'.memory.LookupReturns b other value

theorem Valid.lookupResolves {s : KernelRun} (h : s.Valid) : s.LookupResolves := by
  obtain ⟨owner, f, g, hv⟩ := h.kernel
  intro b hb
  refine ⟨hv.behaviors.superclass b hb, fun selector => ?_⟩
  obtain ⟨r, hr⟩ := hv.behaviors.exists_resolves selector b
  refine ⟨r, hr, hv.behaviors.lookup hb hr, ?_⟩
  rw [← hr.eq_none_iff]
  cases r with
  | none => exact iff_of_true rfl rfl
  | some v =>
    obtain ⟨a, -, hv'⟩ := hr.exists_entry
    exact iff_of_false (hv.behaviors.method a selector v hv').2 (by simp)

/-- **Lookup returns what was registered**, in every state of a run, and registering a method
concerns its selector below its behavior only. -/
theorem lookup_of_run (s : KernelRun) (h : Reachable s) :
    s.LookupResolves ∧ s.RegistrationLocal := by
  have hvalid := valid_of_run h
  refine ⟨hvalid.lookupResolves, ?_⟩
  intro method selector className classSide C M result w' hC hne hM hselector hlive hmethod
    hregister b hb other hother value hlookup
  have hvalid' :=
    hvalid.step (Step.registerMethod hC hne hM hselector hlive hmethod hregister)
  obtain ⟨owner, f, g, hv⟩ := hvalid.kernel
  obtain ⟨owner', f', g', hv'⟩ := hvalid'.kernel
  obtain ⟨r, hr⟩ := hv.behaviors.exists_resolves other b
  obtain rfl := hlookup.functional (hv.behaviors.lookup hb hr)
  exact hv'.behaviors.lookup hb (hr.update method hother)

omit [KernelImage] in
/-- After a subclass was created and a method was registered in `Object`. -/
theorem lookup_of_run_sequential :
    letI := sequentialImage
    ∃ (s : KernelRun) (object : ℕ), Reachable s ∧ s.created.length = 1 ∧
      s.hierarchy.methods (kernelClass .Object) object = some object ∧ s.LookupResolves ∧
      s.RegistrationLocal := by
  let := sequentialImage
  obtain ⟨s, object, x, hs, hcreated, -, hat, hne, hlive⟩ :=
    exists_subclass_run World.sequential_loaded
  obtain ⟨w', M, -, -, hstep⟩ :=
    (valid_of_run hs).exists_registerMethod hat (kernelClass_ne_nilOop _)
    hne hlive hne (fun hside => absurd hside.1 (by decide : falseOop ≠ trueOop))
  obtain ⟨s₀, hstart, hrun⟩ := hs
  have hs' : Reachable _ := ⟨s₀, hstart, hrun.tail hstep⟩
  exact ⟨_, object, hs', by rw [hcreated]; rfl, s.hierarchy.register_methods_self _ _ _,
    lookup_of_run _ hs'⟩

/-! ### Registration of methods -/

/-- **Registering a method** under the name of a class returns true, and lookup finds the method
afterwards, unless the method is for the class side of a kernel class. -/
theorem registerMethod_of_run_iff (s : KernelRun) (h : Reachable s)
    (method selector className classSide C : ℕ) (hC : s.world.globalsAtOrNil className = some C)
    (hne : C ≠ nilOop) (hselector : selector ≠ nilOop) (hlive : s.world.memory.Live selector)
    (hmethod : method ≠ nilOop) :
    (∃ w' M, s.world.registerMethodWithNames method selector className classSide =
        some (trueOop, w') ∧
      s.world.getClassFromOop C = some M ∧
      w'.memory.LookupReturns (if classSide = trueOop then M else C) selector method) ↔
      ¬ (classSide = trueOop ∧ ∃ c, C = kernelClass c) := by
  have hvalid := valid_of_run h
  constructor
  · rintro ⟨w', M, hregister, -⟩ ⟨rfl, c, rfl⟩
    rw [hvalid.registerMethodWithNames_eq_none hC method] at hregister
    cases hregister
  · intro hside
    obtain ⟨w', M, hregister, hM, hstep⟩ :=
      hvalid.exists_registerMethod hC hne hselector hlive hmethod hside
    exact ⟨w', M, hregister, hM,
      (hvalid.step hstep).lookup_registered (s.hierarchy.register_methods_self _ _ _)⟩

omit [KernelImage] in
/-- The symbol `Object` is registered as a method of itself, on the instance side of `Object`. -/
theorem registerMethod_of_run_iff_object :
    letI := sequentialImage
    ∃ (s : KernelRun) (object : ℕ), s.world.globalsAtOrNil object = some (kernelClass .Object) ∧
      ((∃ w' M, s.world.registerMethodWithNames object object object falseOop =
          some (trueOop, w') ∧
        s.world.getClassFromOop (kernelClass .Object) = some M ∧
        w'.memory.LookupReturns (if falseOop = trueOop then M else kernelClass .Object) object
          object) ↔
        ¬ (falseOop = trueOop ∧ ∃ c, kernelClass .Object = kernelClass c)) := by
  let := sequentialImage
  obtain ⟨s, object, x, hs, -, -, hat, hne, hlive⟩ := exists_subclass_run World.sequential_loaded
  exact ⟨s, object, hat, registerMethod_of_run_iff s hs object object object falseOop _ hat
    (kernelClass_ne_nilOop _) hne hlive hne⟩

omit [KernelImage] in
/-- **No method can be registered** on the class side of `Object`. -/
theorem not_registerMethod_object :
    letI := sequentialImage
    ∃ (s : KernelRun) (object : ℕ), Reachable s ∧
      s.world.globalsAtOrNil object = some (kernelClass .Object) ∧ object ≠ nilOop ∧
      s.world.memory.Live object ∧
      ∀ method, s.world.registerMethodWithNames method object object trueOop = none := by
  let := sequentialImage
  obtain ⟨s, object, x, hs, -, -, hat, hne, hlive⟩ := exists_subclass_run World.sequential_loaded
  exact ⟨s, object, hs, hat, hne, hlive, (valid_of_run hs).registerMethodWithNames_eq_none hat⟩

/-! ### Created classes -/

/-- A created class and its metaclass, linked to each other and to those of the superclass. -/
structure Linked (s : KernelRun) (x : CreatedClass) (M : ℕ) : Prop where
  metaclass : s.world.getClassFromOop x.clazz = some M
  class_metaclass : s.world.getClassFromOop M = some (kernelClass .Metaclass)
  thisClass : s.world.memory.slot M Field.thisClass = x.clazz
  superclass : s.world.memory.slot x.clazz Field.superclass = x.superClass
  superMetaclass :
    s.world.getClassFromOop x.superClass = some (s.world.memory.slot M Field.superclass)
  bound : s.world.globalsAtOrNil x.definition.name = some x.clazz
  name : s.world.memory.slot x.clazz Field.name = x.definition.name
  chain : ∃ l, s.world.memory.SuperclassChain x.clazz l ∧ l.Nodup
  metaChain : ∃ l, s.world.memory.SuperclassChain M l ∧ l.Nodup

theorem Valid.linked {s : KernelRun} (h : s.Valid) {x : CreatedClass} (hx : x ∈ s.created) :
    ∃ M, s.Linked x M := by
  obtain ⟨owner, f, g, hv⟩ := h.kernel
  obtain ⟨hsuper, ⟨M, S', hM, hS', hMS'⟩, hnamed, hname⟩ := h.created x hx
  obtain ⟨hC, hMb, -, hmeta⟩ := hv.behaviors.metaclass _ _ hM
  refine ⟨M, hv.behaviors.getClassFromOop hM, ?_, hv.behaviors.thisClass _ _ hM, ?_, ?_,
    hv.globalsAtOrNil_of_some hnamed, hname, hv.behaviors.exists_superclassChain hC,
    hv.behaviors.exists_superclassChain hMb⟩
  · rw [World.getClassFromOop, ObjectMemory.getClassIndexFromOop,
      if_pos (hv.behaviors.behavior M hMb).2.2.1, hmeta]
    exact hv.behaviors.table.classAt_index .Metaclass
  · rw [hv.behaviors.superclass _ hC, hsuper, Option.getD_some]
  · rw [hv.behaviors.superclass _ hMb, hMS', Option.getD_some]
    exact hv.behaviors.getClassFromOop hS'

/-- **Created classes stay linked**, in every state of a run, and creating a class under a name that
is bound changes nothing. -/
theorem created_of_run (s : KernelRun) (h : Reachable s) :
    (∀ x ∈ s.created, ∃ M, s.Linked x M) ∧
      ∀ d C, s.world.globalsAtOrNil d.name = some C → C ≠ nilOop →
        s.world.subclassWithSomeNames d = some (C, s.world) := by
  have hvalid := valid_of_run h
  refine ⟨fun x hx => hvalid.linked hx, fun d C hC hne => ?_⟩
  obtain ⟨owner, f, g, hv⟩ := hvalid.kernel
  exact hv.subclassWithSomeNames_of_some (hv.named_eq_some hC hne)

omit [KernelImage] in
theorem created_of_run_sequential :
    letI := sequentialImage
    ∃ (s : KernelRun) (x : CreatedClass), s.created = [x] ∧
      (∀ x ∈ s.created, ∃ M, s.Linked x M) ∧
      ∀ d C, s.world.globalsAtOrNil d.name = some C → C ≠ nilOop →
        s.world.subclassWithSomeNames d = some (C, s.world) := by
  let := sequentialImage
  obtain ⟨s, object, x, hs, hcreated, -⟩ := exists_subclass_run World.sequential_loaded
  exact ⟨s, x, hcreated, created_of_run s hs⟩

end KernelRun

end SlvmNative
