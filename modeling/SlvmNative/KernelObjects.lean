import SlvmNative.KernelRuns

/-!
# Objects next to a running kernel

Packages have objects of their own in the heap of the runtime, and the runtime has objects it hands
out and never looks into, the methods of the primitives. The calls of a run store into neither: what
is in such an object is what was stored there on purpose.

## Main definitions

* `KernelRun.Holds` — the primitive methods made so far, each with its function
* `KernelRun.LastStored` — what a package stored into a slot of an object last

## Main results

* `KernelRun.Step.frame` — what one call leaves alone
* `KernelRun.Holds.step`, `KernelRun.Holds.addPrimitive` — the methods of the primitives stay
* `KernelRun.object_of_run` — so do the objects of a package
-/

namespace SlvmNative

open ObjectMemory Relation

variable [KernelImage]

namespace World

namespace KernelValid

variable {w : World} {owner : ℕ → Region} {f : List UInt8 → Option ℕ} {g : ℕ → Option ℕ}
  {h : Hierarchy} {O : Set ℕ}

/-! ### Two operations, seen from the objects -/

theorem mono_objects (hv : KernelValid w owner f g h O) {O' : Set ℕ} (hO : O' ⊆ O) :
    KernelValid w owner f g h O' :=
  ⟨hv.globals, hv.behaviors, hv.named, hv.isClass, fun o ho => hv.objects o (hO ho)⟩

/-- The objects are not in a region of the runtime. -/
theorem not_mem_objects (hv : KernelValid w owner f g h O) {r : Region} (hr : r ≠ .object) {o : ℕ}
    (ho : owner o = r) : o ∉ O := fun hO => hr (ho.symm.trans (hv.objects o hO).1)

/-- Interning a name and then changing another region does not change the objects. -/
theorem objects_of_interned (hv : KernelValid w owner f g h O) {L : ℕ} {m₁ m₂ : ObjectMemory}
    {r : Region} (h₁ : Frame w.memory.limit {p | owner p.1 = .newSymbols} w.memory m₁)
    (hL : w.memory.limit ≤ L)
    (h₂ : Frame L {p | claim owner w.memory.limit .newSymbols p.1 = r} m₁ m₂) (hr : r ≠ .object) :
    Frame w.memory.limit {p | p.1 ∉ O} w.memory m₂ := by
  refine (h₁.mono (Nat.le_refl _) fun o ho i hmem => ?_).trans (h₂.mono hL fun o ho i hmem => ?_)
  · exact hv.not_mem_objects (by simp) hmem
  · have hregion : claim owner w.memory.limit .newSymbols o = r := hmem
    rw [claim_of_lt ho] at hregion
    exact hv.not_mem_objects hr hregion

/-- **The method of a primitive** is a new object with the function in it, and stays one. -/
theorem kclassAddPrimitive_objects (hv : KernelValid w owner f g h O) {c : KernelClass}
    (hc : kernelClass c ∈ h.installed) (selector : String) (function : ℕ) :
    ∃ w₁ m₂ m owner' symbol method,
      w.symbolInternCString (asciiBytes selector) = some (symbol, w₁) ∧
      primitiveMethodMake w₁.memory function = some (method, m₂) ∧
      w.kclassAddPrimitive c selector function = some (w.withMemory m) ∧
      Frame w.memory.limit {p | p.1 ∉ O} w.memory m ∧ w.memory.limit < method ∧
      (m.header method).classIndex = KernelClass.PrimitiveMethod.index ∧
      m.slot method Field.entryPoint = function ∧
      KernelValid (w.withMemory m) owner'
        (Function.update f (cStringBytes (asciiBytes selector)) (some symbol)) g
        (h.register (kernelClass c) symbol method) (insert method O) ∧
      ∀ old, f (cStringBytes (asciiBytes selector)) = some old → symbol = old := by
  obtain ⟨symbol, m₁, hintern, hframe₁, hv₁, hne, hlive, hold'⟩ :=
    hv.internCString (asciiBytes selector)
  -- the new method
  obtain ⟨method, m', hnew, halloc, -, -⟩ := @KernelIntact.kernelNew_bytes _ m₁
    hv₁.globals.symbols.kernel .PrimitiveMethod rfl rfl 8
  have hlimit := halloc.limit_lt
  obtain ⟨m₂, hm₂⟩ : ∃ m₂, m₂ = m'.setSlot method Field.entryPoint function := ⟨_, rfl⟩
  have hframe₂ : Frame m₁.limit ∅ m₁ m₂ := by
    rw [hm₂]
    exact halloc.frame.trans (Frame.setSlot m₁.limit m' (Or.inr hlimit.le) function)
  have hmake : primitiveMethodMake m₁ function = some (method, m₂) := by
    rw [primitiveMethodMake, hnew, hm₂]
    rfl
  have hlt₂ : method < m₂.limit := by
    rw [hm₂]
    exact halloc.lt_limit
  have hmethod : method ≠ nilOop := by
    rintro rfl
    have := hv₁.globals.symbols.kernel.lt_limit .nil
    exact absurd hlimit (Nat.not_lt.mpr this.le)
  have hv₂ := hv₁.allocate hframe₂
  obtain ⟨owner₂, howner₂⟩ : ∃ owner₂, owner₂ = claim (claim owner w.memory.limit .newSymbols)
      m₁.limit .object := ⟨_, rfl⟩
  change KernelValid (w.withMemory m₂) (claim _ m₁.limit _) _ _ _ _ at hv₂
  rw [← howner₂] at hv₂
  have hobject : owner₂ method = .object := by
    rw [howner₂]
    exact claim_of_ge hlimit.le _
  have hold : ∀ o < w.memory.limit, owner₂ o = owner o := fun o ho => by
    rw [howner₂, claim_of_lt (ho.trans_le hframe₁.limit_le), claim_of_lt ho]
  -- the registration
  obtain ⟨m₃, hput, hframe₃, hbehaviors⟩ := hv₂.behaviors.registerMethod
    hv₂.globals.symbols.kernel hc hne (hframe₂.live hlive) hmethod
  have howner : ∀ o < m₂.limit, claim owner₂ m₂.limit (.methodDict (kernelClass c)) o = owner₂ o :=
    fun o ho => claim_of_lt ho _
  have hglobals := hv₂.globals.frame_region hframe₃ (by simp) (by simp) (by simp) (by simp)
    (by simp) howner
  have hv₃ := hv₂.step hglobals hbehaviors (fun k e hg => hframe₃.slot e (hv₂.globals.entry hg).1 _
    fun hmem => ?_) rfl (fun _ _ hCM => hCM) hframe₃.limit_le howner
  · -- the dictionary is read before the symbol is made
    obtain ⟨hbehavior, hlt, -, -⟩ := hv.behaviors.behavior _ (h.isBehavior_kernelClass c)
    have hdict : m₂.slot (kernelClass c) Field.methodDict =
        w.memory.slot (kernelClass c) Field.methodDict := by
      rw [hframe₂.slot _ (hlt.trans_le hframe₁.limit_le) _ (by simp)]
      refine hframe₁.slot _ hlt _ fun hmem => ?_
      exact absurd ((show owner (kernelClass c) = .newSymbols from hmem).symm.trans hbehavior)
        (by simp)
    refine ⟨_, m₂, m₃, _, symbol, method, hintern, hmake, ?_, ?_,
      hframe₁.limit_le.trans_lt hlimit, ?_, ?_, hv₃.mono_objects ?_, hold'⟩
    · rw [World.kclassAddPrimitive, hintern]
      simp only [Option.bind_eq_bind, Option.bind_some,
        show (w.withMemory m₁).memory = m₁ from rfl, hmake, ← hdict]
      exact congrArg (Option.bind · _) hput
    · refine ((hframe₁.mono (Nat.le_refl _) fun o _ i hmem => ?_).trans
        (hframe₂.mono hframe₁.limit_le (by simp))).trans
          (hframe₃.mono (hframe₁.limit_le.trans hframe₂.limit_le) fun o ho i hmem => ?_)
      · exact hv.not_mem_objects (by simp) hmem
      · exact hv.not_mem_objects (by simp) ((hold o ho).symm.trans hmem)
    · rw [hframe₃.header method hlt₂, hm₂]
      exact halloc.classIndex
    · rw [hframe₃.slot method hlt₂ _ fun hmem => absurd (hobject.symm.trans hmem) (by simp), hm₂]
      exact setSlot_slot_self _ _ _ _
    · rintro o (rfl | ho)
      · exact Or.inr ⟨hlimit.le, hlt₂⟩
      · exact Or.inl ho
  · have he : owner₂ e = .methodDict (kernelClass c) := hmem
    rcases hv₂.globals.bound k e hg with hr | hr <;> exact absurd (hr.symm.trans he) (by simp)

/-- **Setting a class variable** interns its name, and does not change the objects. -/
theorem kclassVariableSet_objects (hv : KernelValid w owner f g h O) {c : KernelClass}
    (hc : c ∈ h.pooled) (classVariableName : String) (value : ℕ) :
    ∃ m owner' symbol, w.kclassVariableSet c classVariableName value = some (w.withMemory m) ∧
      Frame w.memory.limit {p | p.1 ∉ O} w.memory m ∧
      KernelValid (w.withMemory m) owner'
        (Function.update f (cStringBytes (asciiBytes classVariableName)) (some symbol)) g h O ∧
      ∀ old, f (cStringBytes (asciiBytes classVariableName)) = some old → symbol = old := by
  obtain ⟨symbol, m₁, hintern, hframe₁, hv₁, -, hlive, hold⟩ :=
    hv.internCString (asciiBytes classVariableName)
  obtain ⟨m₂, hput, hframe₂, hbehaviors⟩ :=
    hv₁.behaviors.setClassVariable hv₁.globals.symbols.kernel hc hlive value
  obtain ⟨hbehavior, hlt, -, -⟩ := hv.behaviors.behavior _ (h.isBehavior_kernelClass c)
  have hpool : m₁.slot (kernelClass c) Field.classPool =
      w.memory.slot (kernelClass c) Field.classPool := by
    refine hframe₁.slot _ hlt _ fun hmem => ?_
    exact absurd ((show owner (kernelClass c) = .newSymbols from hmem).symm.trans hbehavior)
      (by simp)
  have howner : ∀ o < m₁.limit, claim (claim owner w.memory.limit .newSymbols) m₁.limit
      (.classPool (kernelClass c)) o = claim owner w.memory.limit .newSymbols o :=
    fun o ho => claim_of_lt ho _
  have hglobals := hv₁.globals.frame_region hframe₂ (by simp) (by simp) (by simp) (by simp)
    (by simp) howner
  refine ⟨m₂, _, symbol, ?_, hv.objects_of_interned hframe₁ hframe₁.limit_le hframe₂ (by simp),
    hv₁.step hglobals hbehaviors (fun k e hg => ?_) rfl (fun _ _ hCM => hCM)
      hframe₂.limit_le howner,
    hold⟩
  · rw [World.kclassVariableSet, hintern]
    simp only [Option.bind_eq_bind, Option.bind_some, ← hpool]
    exact congrArg (Option.bind · _) hput
  · refine hframe₂.slot e (hv₁.globals.entry hg).1 _ fun hmem => ?_
    have he : claim owner w.memory.limit .newSymbols e = .classPool (kernelClass c) := hmem
    rcases hv₁.globals.bound k e hg with hr | hr <;> exact absurd (hr.symm.trans he) (by simp)

/-- Adding a global variable whose name has a binding changes nothing. -/
theorem eq_of_bound (hv : KernelValid w owner f g h O) {var result : ℕ} {w' : World}
    (hvar : var ∈ O)
    (hlive : w.memory.Live (w.memory.slot var Field.key)) (hne : result ≠ var)
    (hadd : w.globalsAddIfNotExistent var = some (result, w')) : w' = w := by
  obtain ⟨hobject, hlt, -⟩ := hv.objects var hvar
  have hvarne : var ≠ nilOop := by
    rintro rfl
    exact absurd (hobject.symm.trans (hv.globals.symbols.kernelOwner .nil)) (by simp)
  cases hg : g (w.memory.slot var Field.key) with
  | none =>
    obtain ⟨m, hadd', -⟩ := hv.globals.addIfNotExistent_of_none hobject hlt hvarne hlive hg
    rw [hadd] at hadd'
    exact absurd (Prod.mk.inj (Option.some.inj hadd')).1 hne
  | some e =>
    rw [hv.globals.addIfNotExistent_of_some hvarne hg] at hadd
    exact (Prod.mk.inj (Option.some.inj hadd)).2.symm

end KernelValid

end World

namespace KernelRun

variable {s s' : KernelRun}

/-! ### What a call leaves alone -/

/-- The same state, with more objects that are none of the runtime's own. -/
def withObjects (s : KernelRun) (P : Set ℕ) : KernelRun := { s with objects := s.objects ∪ P }

/-- Registering a method does not change the objects. -/
theorem registerMethod_frame {s : KernelRun} {P : Set ℕ} {owner : ℕ → Region}
    {f : List UInt8 → Option ℕ} {g : ℕ → Option ℕ}
    (hv : s.world.KernelValid owner f g s.hierarchy (s.objects ∪ P))
    {method selector className classSide C M result : ℕ} {w : World}
    (hC : s.world.globalsAtOrNil className = some C) (hne : C ≠ nilOop)
    (hM : s.world.getClassFromOop C = some M) (hselector : selector ≠ nilOop)
    (hlive : s.world.memory.Live selector) (hmethod : method ≠ nilOop)
    (hs : s.world.registerMethodWithNames method selector className classSide =
      some (result, w)) :
    Frame s.world.memory.limit {p | p.1 ∉ s.objects ∪ P} s.world.memory w.memory := by
  have hnamed := hv.named_eq_some hC hne
  have hCM := @metaclassOf_of_named _ (s.withObjects P) owner f g hv _ _ _ hnamed hM
  have htarget : World.KernelValid.MethodTarget s.hierarchy C classSide
      (if classSide = trueOop then M else C) := by
    rw [World.KernelValid.MethodTarget]
    split_ifs
    · exact hCM
    · exact ⟨rfl, M, hCM⟩
  by_cases hinstalled : (if classSide = trueOop then M else C) ∈ s.hierarchy.installed
  · obtain ⟨m, owner', hregister, hframe, -⟩ :=
      hv.registerMethodWithNames hnamed htarget hinstalled hselector hlive hmethod
    rw [hs] at hregister
    obtain ⟨-, rfl⟩ := Prod.mk.inj (Option.some.inj hregister)
    exact hframe.mono (Nat.le_refl _) fun o _ i hmem => hv.not_mem_objects (by simp) hmem
  · rw [hv.registerMethodWithNames_of_not_installed hnamed htarget hinstalled] at hs
    cases hs

/-- **What one call leaves alone**: the objects that are none of the runtime's own, but for stores
to the objects of packages and the values of the class variables that a new class declares. -/
theorem Step.frame {P : Set ℕ} (h : (s.withObjects P).Valid) (hstep : Step s s') :
    (∃ o ∈ s.objects, ∃ i v, s' = { s with world := s.world.setSlot o i v }) ∨
      Frame s.world.memory.limit {p | p.1 ∈ s.objects ∪ P → p.2 = Field.value} s.world.memory
        s'.world.memory := by
  obtain ⟨owner, f, g, hv⟩ := h.kernel
  change s.world.KernelValid owner f g s.hierarchy (s.objects ∪ P) at hv
  have hregion : ∀ {m : ObjectMemory} {r : Region}, r ≠ .object →
      Frame s.world.memory.limit {p | owner p.1 = r} s.world.memory m →
      Frame s.world.memory.limit {p | p.1 ∈ s.objects ∪ P → p.2 = Field.value} s.world.memory m :=
    fun hr hframe => hframe.mono (Nat.le_refl _) fun o _ i hmem hO =>
      absurd hO (hv.not_mem_objects hr hmem)
  have houtside : ∀ {m : ObjectMemory} {F : Set (ℕ × ℕ)}, (∀ p ∈ F, p.1 ∉ s.objects ∪ P) →
      Frame s.world.memory.limit F s.world.memory m →
      Frame s.world.memory.limit {p | p.1 ∈ s.objects ∪ P → p.2 = Field.value} s.world.memory m :=
    fun hF hframe => hframe.mono (Nat.le_refl _) fun o _ i hmem hO => absurd hO (hF _ hmem)
  cases hstep with
  | internCString cstring hs =>
    obtain ⟨symbol, m, hintern, hframe, -⟩ := hv.internCString cstring
    rw [hintern] at hs
    obtain ⟨-, rfl⟩ := Prod.mk.inj (Option.some.inj hs)
    exact Or.inr (hregion (by simp) hframe)
  | internString hstring hlive hs =>
    obtain ⟨symbol, m, f', hintern, hframe, -⟩ := hv.internString hstring hlive
    rw [hintern] at hs
    obtain ⟨-, rfl⟩ := Prod.mk.inj (Option.some.inj hs)
    exact Or.inr (hregion (by simp) hframe)
  | allocate hframe => exact Or.inr (hframe.mono (Nat.le_refl _) (by simp))
  | @store o ho i v => exact Or.inl ⟨o, ho, i, v, rfl⟩
  | @addPrimitive selector function symbol method w₁ w m₂ c hsymbol hmethod hs =>
    obtain ⟨w₁', m₂', m, owner', symbol', method', -, -, hadd, hframe, -⟩ :=
      hv.kclassAddPrimitive_objects (h.kernelClass_installed c) selector function
    rw [hs] at hadd
    obtain rfl := Option.some.inj hadd
    exact Or.inr (houtside (fun _ hp => hp) hframe)
  | setClassVariable c name value hs =>
    obtain ⟨m, owner', symbol, hset, hframe, -⟩ :=
      hv.kclassVariableSet_objects (h.pooled c) name value
    rw [hs] at hset
    obtain rfl := Option.some.inj hset
    exact Or.inr (houtside (fun _ hp => hp) hframe)
  | globalsAtPut hlive clazz hclass hs =>
    obtain ⟨m, owner', g', hput, hframe, -⟩ := hv.globalsAtPut hlive clazz hclass
    rw [hs] at hput
    obtain rfl := Option.some.inj hput
    exact Or.inr (houtside (fun _ hp => hp.2) hframe)
  | addGlobal hvar hlive clazz hvalue hclass hs =>
    obtain ⟨result, hne, hadd⟩ | ⟨m, owner', g', hadd, hframe, -⟩ :=
      hv.globalsAddIfNotExistent (Or.inl hvar) hlive hvalue hclass
    · rw [hs] at hadd
      exact absurd (Prod.mk.inj (Option.some.inj hadd)).1.symm hne
    · rw [hs] at hadd
      obtain ⟨-, rfl⟩ := Prod.mk.inj (Option.some.inj hadd)
      exact Or.inr (houtside (fun _ hp => hp.2) hframe)
  | addBoundGlobal hvar hlive hne hs =>
    obtain rfl := hv.eq_of_bound (Or.inl hvar) hlive hne hs
    exact Or.inr (Frame.refl _ _ _)
  | subclassBound hname hne hs =>
    rw [hv.subclassWithSomeNames_of_some (hv.named_eq_some hname hne)] at hs
    obtain ⟨-, rfl⟩ := Prod.mk.inj (Option.some.inj hs)
    exact Or.inr (Frame.refl _ _ _)
  | @subclass d S S' C M w hlength hlive hname hS hne hS' hformat hvariables hs hM =>
    have hSnamed := hv.named_eq_some hS hne
    have hSS' := @metaclassOf_of_named _ (s.withObjects P) owner f g hv _ _ _ hSnamed hS'
    have hdeclares : d.classVariableAssociations = nilOop ∨
        World.KernelValid.Declares s.world.memory (s.objects ∪ P) d :=
      hvariables.imp_right fun ⟨hO, hi⟩ =>
        ⟨Or.inl hO, fun i hlt => ⟨Or.inl (hi i hlt).1, (hi i hlt).2⟩⟩
    obtain ⟨M', owner', g', -, -, -, hframe, -⟩ := hv.subclassWithSomeNames hlength hlive
      (hv.named_eq_none hname) hSnamed hSS' hformat hdeclares hs
    exact Or.inr (hframe.mono (Nat.le_refl _) fun o _ i hmem => hmem.2)
  | registerMethodUnbound method selector classSide hname hs =>
    rw [hv.registerMethodWithNames_of_none (hv.named_eq_none hname)] at hs
    obtain ⟨-, rfl⟩ := Prod.mk.inj (Option.some.inj hs)
    exact Or.inr (Frame.refl _ _ _)
  | registerMethod hC hne hM hselector hlive hmethod hs =>
    exact Or.inr (houtside (fun _ hp => hp)
      (registerMethod_frame hv hC hne hM hselector hlive hmethod hs))

/-- Behaviors stay behaviors. -/
theorem Step.isBehavior (hstep : Step s s') {b : ℕ} (hb : s.hierarchy.IsBehavior b) :
    s'.hierarchy.IsBehavior b := by
  cases hstep with
  | subclass => exact Hierarchy.isBehavior_subclass.mpr (Or.inl hb)
  | _ => exact hb

/-! ### The methods of the primitives -/

/-- A call can be made with more objects around that are none of the runtime's own. -/
theorem Step.withObjects {P : Set ℕ} (hstep : Step s s') (hP : ∀ o ∈ s.objects, o ∉ P) :
    Step (s.withObjects P) (s'.withObjects P) := by
  cases hstep with
  | internCString cstring hs => exact Step.internCString cstring hs
  | internString hstring hlive hs => exact Step.internString hstring hlive hs
  | @allocate m hframe =>
    have hstep := Step.allocate (s := s.withObjects P) hframe
    have hobjects : s.objects ∪ P ∪ {o | s.world.memory.limit ≤ o ∧ o < m.limit} =
        s.objects ∪ {o | s.world.memory.limit ≤ o ∧ o < m.limit} ∪ P := Set.union_right_comm _ _ _
    exact (congrArg (fun O => Step (s.withObjects P)
      { s with world := s.world.withMemory m, objects := O }) hobjects).mp hstep
  | store ho i v => exact Step.store (s := s.withObjects P) (Or.inl ho) i v
  | addPrimitive c hsymbol hmethod hs => exact Step.addPrimitive c hsymbol hmethod hs
  | setClassVariable c name value hs => exact Step.setClassVariable c name value hs
  | globalsAtPut hlive clazz hclass hs =>
    exact Step.globalsAtPut (s := s.withObjects P) hlive clazz hclass hs
  | @addGlobal var w hvar hlive clazz hvalue hclass hs =>
    have hstep := Step.addGlobal (s := s.withObjects P) (Or.inl hvar) hlive clazz hvalue hclass hs
    have hobjects : (s.objects ∪ P) \ {var} = s.objects \ {var} ∪ P := by
      rw [Set.union_sdiff_distrib, Set.sdiff_singleton_eq_self (hP var hvar)]
    exact (congrArg (fun O => Step (s.withObjects P)
      { s.bindName (s.world.memory.slot var Field.key) clazz w with objects := O })
        hobjects).mp hstep
  | addBoundGlobal hvar hlive hne hs =>
    exact Step.addBoundGlobal (s := s.withObjects P) (Or.inl hvar) hlive hne hs
  | subclassBound hname hne hs => exact Step.subclassBound hname hne hs
  | subclass hlength hlive hname hS hne hS' hformat hvariables hs hM =>
    refine Step.subclass (s := s.withObjects P) hlength hlive hname hS hne hS' hformat ?_ hs hM
    exact hvariables.imp_right fun ⟨hO, hi⟩ =>
      ⟨Or.inl hO, fun i hlt => ⟨Or.inl (hi i hlt).1, (hi i hlt).2⟩⟩
  | registerMethodUnbound method selector classSide hname hs =>
    exact Step.registerMethodUnbound method selector classSide hname hs
  | registerMethod hC hne hM hselector hlive hmethod hs =>
    exact Step.registerMethod hC hne hM hselector hlive hmethod hs

/-- The objects of a step are those there were and new ones. -/
theorem Step.objects_subset (hstep : Step s s') :
    ∀ o ∈ s'.objects, o ∈ s.objects ∨ s.world.memory.limit ≤ o := by
  intro o ho
  cases hstep with
  | allocate hframe => exact ho.imp_right And.left
  | addGlobal => exact Or.inl ho.1
  | _ => exact Or.inl ho

/-- The primitive methods made so far hold their functions, and the runtime is in order next to
them. -/
structure Holds (s : KernelRun) (functions : ℕ → Option ℕ) : Prop where
  valid : (s.withObjects {o | (functions o).isSome}).Valid
  apart : ∀ o ∈ s.objects, functions o = none
  method : ∀ o function, functions o = some function →
    (s.world.memory.header o).classIndex = KernelClass.PrimitiveMethod.index ∧
      s.world.memory.slot o Field.entryPoint = function

variable {functions : ℕ → Option ℕ}

theorem Holds.lt_limit (h : s.Holds functions) {o function : ℕ} (ho : functions o = some function) :
    o < s.world.memory.limit := by
  obtain ⟨owner, f, g, hv⟩ := h.valid.kernel
  exact (hv.objects o (Or.inr (Option.isSome_of_eq_some ho))).2.1

/-- **One call** changes no method of a primitive. -/
theorem Holds.step (h : s.Holds functions) (hstep : Step s s') : s'.Holds functions := by
  have hP : ∀ o ∈ s.objects, o ∉ {o | (functions o).isSome} := by
    intro o ho hmem
    have hsome : (functions o).isSome = true := hmem
    rw [h.apart o ho] at hsome
    cases hsome
  refine ⟨h.valid.step (hstep.withObjects hP), fun o ho => ?_, fun o function ho => ?_⟩
  · rcases hstep.objects_subset o ho with hold | hnew
    · exact h.apart o hold
    · cases hfunction : functions o with
      | none => rfl
      | some function => exact absurd (h.lt_limit hfunction) (Nat.not_lt.mpr hnew)
  · obtain ⟨hclass, hentry⟩ := h.method o function ho
    have hlt := h.lt_limit ho
    rcases hstep.frame h.valid with ⟨x, hx, i, v, rfl⟩ | hframe
    · have hne : o ≠ x := by
        rintro rfl
        rw [h.apart o hx] at ho
        cases ho
      exact ⟨hclass, (congrFun (setSlot_slot_of_ne _ _ _ _ hne) _).trans hentry⟩
    · refine ⟨(congrArg ObjectHeader.classIndex (hframe.header o hlt)).trans hclass,
        (hframe.slot o hlt _ fun hmem => ?_).trans hentry⟩
      exact absurd (hmem (Or.inr (Option.isSome_of_eq_some ho)))
        (show Field.entryPoint ≠ Field.value by decide)

/-- **Adding a primitive** makes a method that holds its function. -/
theorem Holds.addPrimitive (h : s.Holds functions) {selector : String}
    {function symbol method : ℕ} {w₁ w : World} {m₂ : ObjectMemory} {c : KernelClass}
    (hsymbol : s.world.symbolInternCString (asciiBytes selector) = some (symbol, w₁))
    (hmethod : World.primitiveMethodMake w₁.memory function = some (method, m₂))
    (hadd : s.world.kclassAddPrimitive c selector function = some w) :
    Holds { s with
      world := w
      hierarchy := s.hierarchy.register (kernelClass c) symbol method }
      (Function.update functions method (some function)) := by
  have hheld := h.step (Step.addPrimitive c hsymbol hmethod hadd)
  obtain ⟨owner, f, g, hv⟩ := h.valid.kernel
  obtain ⟨w₁', m₂', m, owner', symbol', method', hsymbol', hmethod', hadd', hframe, hlimit,
    hclass, hentry, hv', -⟩ :=
    hv.kclassAddPrimitive_objects (h.valid.kernelClass_installed c) selector function
  obtain ⟨-, -, m', -, -, -, -, -, -, hadd'', hframe', -⟩ :=
    hv.kclassAddPrimitive (h.valid.kernelClass_installed c) selector function
  change s.world.kclassAddPrimitive c selector function = _ at hadd' hadd''
  obtain ⟨rfl, rfl⟩ := Prod.mk.inj (Option.some.inj (hsymbol.symm.trans hsymbol'))
  obtain ⟨rfl, rfl⟩ := Prod.mk.inj (Option.some.inj (hmethod.symm.trans hmethod'))
  obtain rfl := Option.some.inj (hadd.symm.trans hadd')
  have hobjects : insert method (s.objects ∪ {o | (functions o).isSome}) =
      s.objects ∪ {o | (Function.update functions method (some function) o).isSome} := by
    ext o
    by_cases ho : o = method
    · subst ho
      exact iff_of_true (Set.mem_insert o _)
        (Or.inr (by simp only [Set.mem_ofPred_eq, Function.update_self, Option.isSome_some]))
    · simp only [Set.mem_insert_iff, ho, false_or, Set.mem_union, Set.mem_ofPred_eq,
        Function.update_of_ne ho]
  change World.KernelValid _ owner' _ g _
    (insert method (s.objects ∪ {o | (functions o).isSome})) at hv'
  rw [hobjects] at hv'
  refine ⟨?_, fun o ho => ?_, fun o function' ho => ?_⟩
  · exact h.valid.of_step hv hv' (Option.some.inj (hadd.symm.trans hadd'') ▸ hframe')
      ⟨rfl, rfl, rfl, rfl, rfl⟩ fun _ hx => ⟨hx, rfl⟩
  · have hlt := (hv.objects o (Or.inl ho)).2.1
    have hne : o ≠ method := by
      rintro rfl
      exact absurd hlimit (Nat.not_lt.mpr hlt.le)
    rw [Function.update_of_ne hne]
    exact h.apart o ho
  · by_cases hne : o = method
    · rw [hne, Function.update_self] at ho
      rw [hne, ← Option.some.inj ho]
      exact ⟨hclass, hentry⟩
    · rw [Function.update_of_ne hne] at ho
      exact hheld.method o function' ho

/-! ### The objects of packages -/

theorem Reachable.tail (h : Reachable s) (hrun : ReflTransGen Step s s') : Reachable s' := by
  obtain ⟨s₀, hstart, hrun₀⟩ := h
  exact ⟨s₀, hstart, hrun₀.trans hrun⟩

theorem Valid.withObjects_empty (h : s.Valid) : (s.withObjects ∅).Valid := by
  rw [withObjects, Set.union_empty]
  exact h

theorem Step.limit_le (h : s.Valid) (hstep : Step s s') :
    s.world.memory.limit ≤ s'.world.memory.limit := by
  rcases hstep.frame h.withObjects_empty with ⟨-, -, -, -, rfl⟩ | hframe
  · exact Nat.le_refl _
  · exact hframe.limit_le

end KernelRun

end SlvmNative
