import SlvmNative.ClassTable
import SlvmNative.Globals
import SlvmNative.Library.Inheritance
import SlvmNative.MethodDictionaries

/-!
# Behaviors

Method lookup, and what the classes and metaclasses of the runtime stand for: a hierarchy in which
every behavior has at most one superclass and a finite map from selectors to methods. A behavior
without a method dictionary, as the kernel metaclasses are compiled, has no methods.

## Main definitions

* `ObjectMemory.behaviorLookup` — method lookup
* `Hierarchy` — the abstract hierarchy
* `World.BehaviorsValid` — the behaviors in memory stand for a hierarchy

## Main results

* `World.BehaviorsValid.lookup` — lookup resolves a selector in the hierarchy
* `World.BehaviorsValid.exists_superclassChain` — the chains of superclasses end
* `World.BehaviorsValid.registerMethod` — storing into a method dictionary
* `World.BehaviorsValid.addBehavior` — a new behavior with a superclass
-/

namespace SlvmNative

open ObjectMemory Inheritance

variable [KernelImage]

/-! ### Lookup -/

/-- `slvm_Behavior_lookup`, with a bound on the number of behaviors visited. It fails when the bound
is reached, and where the source aborts. -/
def ObjectMemory.behaviorLookup (m : ObjectMemory) (selector : ℕ) : ℕ → ℕ → Option ℕ
  | 0, _ => none
  | fuel + 1, current =>
    if current = nilOop then some nilOop
    else
      let methodDictionary := m.slot current Field.methodDict
      let superclass := m.slot current Field.superclass
      -- ignore nil method dictionaries
      if methodDictionary = nilOop then m.behaviorLookup selector fuel superclass
      else if oopIsPointers methodDictionary ∧
          m.getClassIndexFromOop methodDictionary = KernelClass.MethodDictionary.index then do
        let value ← m.methodDictionaryAtOrNil methodDictionary selector
        if value ≠ nilOop then return value
        else m.behaviorLookup selector fuel superclass
      else none

/-- The lookup terminates, and returns a value. -/
def ObjectMemory.LookupReturns (m : ObjectMemory) (behavior selector value : ℕ) : Prop :=
  ∃ n, ∀ fuel ≥ n, m.behaviorLookup selector fuel behavior = some value

theorem ObjectMemory.LookupReturns.functional {m : ObjectMemory} {b s v v' : ℕ}
    (h : m.LookupReturns b s v) (h' : m.LookupReturns b s v') : v = v' := by
  obtain ⟨n, hn⟩ := h
  obtain ⟨n', hn'⟩ := h'
  have hv := hn (max n n') (Nat.le_max_left n n')
  rw [hn' (max n n') (Nat.le_max_right n n')] at hv
  exact (Option.some.inj hv).symm

/-- Following the superclasses from `behavior` passes through the behaviors of the list, and then
comes to nil. -/
inductive ObjectMemory.SuperclassChain (m : ObjectMemory) : ℕ → List ℕ → Prop
  | nil : SuperclassChain m nilOop []
  | cons {behavior : ℕ} {l : List ℕ} (hne : behavior ≠ nilOop)
      (hl : SuperclassChain m (m.slot behavior Field.superclass) l) :
      SuperclassChain m behavior (behavior :: l)

/-! ### The hierarchy -/

/-- The class hierarchy, and what has been registered so far. Oops name the behaviors, the
selectors and the methods. -/
structure Hierarchy where
  /-- The behaviors registered in the class table, in order. -/
  registered : List ℕ
  /-- The classes created, each with its metaclass. -/
  classes : List (ℕ × ℕ)
  /-- The classes by their names. -/
  named : ℕ → Option ℕ
  superclass : ℕ → Option ℕ
  /-- The behaviors that can have methods. -/
  installed : Set ℕ
  /-- The kernel classes that can have class variables. -/
  pooled : Set KernelClass
  /-- The method of a selector in a behavior, the one registered last. -/
  methods : ℕ → ℕ → Option ℕ

namespace Hierarchy

/-- The superclass a static object is compiled with. -/
def staticSuperclass : StaticObject → Option ℕ
  | .kernelClass c => c.info.superclass.map kernelClass
  | .kernelMetaclass c => some ((c.info.superclass.map kernelMetaclass).getD (kernelClass .Class))
  | _ => none

/-- The hierarchy of the kernel classes, without any methods. -/
def kernel : Hierarchy where
  registered := []
  classes := []
  named _ := none
  superclass b := (KernelImage.objectAt b).bind staticSuperclass
  installed := ∅
  pooled := ∅
  methods _ _ := none

/-- The behaviors: the kernel classes and their metaclasses, and what was registered since. -/
def IsBehavior (h : Hierarchy) (b : ℕ) : Prop :=
  (∃ c, b = kernelClass c ∨ b = kernelMetaclass c) ∨ b ∈ h.registered

/-- A class and its metaclass. -/
def MetaclassOf (h : Hierarchy) (clazz metaclass : ℕ) : Prop :=
  (∃ c, clazz = kernelClass c ∧ metaclass = kernelMetaclass c) ∨ (clazz, metaclass) ∈ h.classes

/-- A class of the hierarchy. -/
def IsClass (h : Hierarchy) (clazz : ℕ) : Prop := ∃ metaclass, h.MetaclassOf clazz metaclass

/-- A behavior can have methods from now on. -/
def install (h : Hierarchy) (b : ℕ) : Hierarchy := { h with installed := insert b h.installed }

/-- A kernel class can have class variables from now on. -/
def addPool (h : Hierarchy) (c : KernelClass) : Hierarchy := { h with pooled := insert c h.pooled }

/-- A name has been bound to a class, or to nothing. -/
def bind (h : Hierarchy) (name : ℕ) (clazz : Option ℕ) : Hierarchy :=
  { h with named := Function.update h.named name clazz }

/-- A method has been registered. -/
def register (h : Hierarchy) (b selector method : ℕ) : Hierarchy :=
  { h with
    methods := Function.update h.methods b
      (Function.update (h.methods b) selector (some method)) }

omit [KernelImage] in
@[simp] theorem register_methods_self (h : Hierarchy) (b selector method : ℕ) :
    (h.register b selector method).methods b selector = some method := by
  simp only [register, Function.update_self]

/-- A behavior has been registered. -/
def addBehavior (h : Hierarchy) (b superclass : ℕ) : Hierarchy :=
  { h with
    registered := h.registered ++ [b]
    superclass := Function.update h.superclass b (some superclass) }

/-- A class and its metaclass, registered before, have been linked. -/
def addClass (h : Hierarchy) (clazz metaclass : ℕ) : Hierarchy :=
  { h with classes := h.classes ++ [(clazz, metaclass)] }

/-- A class `C` below `S` has been created, with a metaclass `M` below `S'`, and named. -/
def subclass (h : Hierarchy) (name S S' C M : ℕ) : Hierarchy :=
  (((((h.addBehavior M S').install M).addBehavior C S).install C).addClass C M).bind name (some C)

theorem isBehavior_kernelClass (h : Hierarchy) (c : KernelClass) : h.IsBehavior (kernelClass c) :=
  Or.inl ⟨c, Or.inl rfl⟩

theorem isBehavior_kernelMetaclass (h : Hierarchy) (c : KernelClass) :
    h.IsBehavior (kernelMetaclass c) :=
  Or.inl ⟨c, Or.inr rfl⟩

theorem isBehavior_addBehavior {h : Hierarchy} {b p x : ℕ} :
    (h.addBehavior b p).IsBehavior x ↔ h.IsBehavior x ∨ x = b := by
  simp only [IsBehavior, addBehavior, List.mem_append, List.mem_singleton, or_assoc]

theorem metaclassOf_addClass {h : Hierarchy} {clazz metaclass C M : ℕ} :
    (h.addClass clazz metaclass).MetaclassOf C M ↔
      h.MetaclassOf C M ∨ C = clazz ∧ M = metaclass := by
  simp only [MetaclassOf, addClass, List.mem_append, List.mem_singleton, Prod.mk.injEq, or_assoc]

theorem isBehavior_subclass {h : Hierarchy} {name S S' C M b : ℕ} :
    (h.subclass name S S' C M).IsBehavior b ↔ h.IsBehavior b ∨ b = M ∨ b = C := by
  simp only [IsBehavior, subclass, bind, addClass, install, addBehavior, List.mem_append,
    List.mem_singleton, or_assoc]

theorem metaclassOf_subclass {h : Hierarchy} {name S S' C M clazz metaclass : ℕ} :
    (h.subclass name S S' C M).MetaclassOf clazz metaclass ↔
      h.MetaclassOf clazz metaclass ∨ clazz = C ∧ metaclass = M := by
  simp only [MetaclassOf, subclass, bind, addClass, install, addBehavior, List.mem_append,
    List.mem_singleton, Prod.mk.injEq, or_assoc]

omit [KernelImage] in
theorem subclass_superclass (h : Hierarchy) (name S S' C M : ℕ) :
    (h.subclass name S S' C M).superclass =
      Function.update (Function.update h.superclass M (some S')) C (some S) := rfl

omit [KernelImage] in
theorem subclass_named (h : Hierarchy) (name S S' C M : ℕ) :
    (h.subclass name S S' C M).named = Function.update h.named name (some C) := rfl

/-- The depth of a kernel class below `ProtoObject`. -/
def kernelDepth : ℕ → KernelClass → ℕ
  | 0, _ => 0
  | fuel + 1, c => match c.info.superclass with
    | none => 0
    | some p => kernelDepth fuel p + 1

omit [KernelImage] in
theorem kernelDepth_superclass {c p : KernelClass} (h : c.info.superclass = some p) :
    kernelDepth 16 p < kernelDepth 16 c ∧ kernelDepth 16 c < 16 := by
  revert h
  revert p
  cases c <;> decide +kernel

/-- A measure of the kernel hierarchy: the metaclasses are below the classes. -/
def kernelRank (b : ℕ) : ℕ :=
  match KernelImage.objectAt b with
  | some (.kernelClass c) => kernelDepth 16 c
  | some (.kernelMetaclass c) => 16 + kernelDepth 16 c
  | _ => 0

theorem kernel_superclass_kernelClass (c : KernelClass) :
    kernel.superclass (kernelClass c) = c.info.superclass.map kernelClass := by
  simp [kernel, kernelClass, staticSuperclass]

theorem kernel_superclass_kernelMetaclass (c : KernelClass) :
    kernel.superclass (kernelMetaclass c) =
      some ((c.info.superclass.map kernelMetaclass).getD (kernelClass .Class)) := by
  simp [kernel, kernelMetaclass, staticSuperclass]

/-- Everything with a superclass in the kernel is a kernel class or metaclass. -/
theorem kernel_superclass_cases {b p : ℕ} (h : kernel.superclass b = some p) :
    (∃ c d, b = kernelClass c ∧ c.info.superclass = some d ∧ p = kernelClass d) ∨
      ∃ c, b = kernelMetaclass c ∧
        p = (c.info.superclass.map kernelMetaclass).getD (kernelClass .Class) := by
  cases hb : KernelImage.objectAt b with
  | none => simp [kernel, hb] at h
  | some o =>
    obtain rfl := (KernelImage.objectAt_eq_some b o).mp hb
    cases o with
    | kernelClass c =>
      have hc := kernel_superclass_kernelClass c
      rw [kernelClass, h] at hc
      cases hs : c.info.superclass with
      | none => rw [hs] at hc; cases hc
      | some d =>
        rw [hs] at hc
        exact Or.inl ⟨c, d, rfl, hs, Option.some.inj hc⟩
    | kernelMetaclass c =>
      have hc := kernel_superclass_kernelMetaclass c
      rw [kernelMetaclass, h] at hc
      exact Or.inr ⟨c, rfl, Option.some.inj hc⟩
    | _ => simp [kernel, staticSuperclass] at h

theorem kernel_wellFounded : WellFounded kernel.superclass := by
  refine ⟨kernelRank, fun b p h => ?_⟩
  have hclass : ∀ c, kernelRank (kernelClass c) = kernelDepth 16 c := fun c => by
    simp [kernelRank, kernelClass]
  have hmeta : ∀ c, kernelRank (kernelMetaclass c) = 16 + kernelDepth 16 c := fun c => by
    simp [kernelRank, kernelMetaclass]
  rcases kernel_superclass_cases h with ⟨c, d, rfl, hs, rfl⟩ | ⟨c, rfl, rfl⟩
  · rw [hclass, hclass]
    exact (kernelDepth_superclass hs).1
  · rw [hmeta]
    cases hs : c.info.superclass with
    | none =>
      rw [Option.map_none, Option.getD_none, hclass]
      have : kernelDepth 16 .Class < 16 := by decide +kernel
      omega
    | some d =>
      rw [Option.map_some, Option.getD_some, hmeta]
      have := (kernelDepth_superclass hs).1
      omega

end Hierarchy

/-! ### The invariant -/

namespace World

/-- The methods of a behavior: none without a method dictionary, and those of its dictionary
otherwise. -/
def HoldsMethods (m : ObjectMemory) (owner : ℕ → Region) (b : ℕ) (f : ℕ → Option ℕ) : Prop :=
  (m.slot b Field.methodDict = nilOop ∧ f = fun _ => none) ∨
    (m.slot b Field.methodDict < m.limit ∧ oopIsPointers (m.slot b Field.methodDict) ∧
      (m.header (m.slot b Field.methodDict)).classIndex = KernelClass.MethodDictionary.index ∧
      ∃ n c, MethodDictionaryValid m {o | owner o = .methodDict b}
        (m.slot b Field.methodDict) n c f ∧
        c < n)

/-- The class pool of a class is an identity dictionary of its own. -/
def HoldsPool (m : ObjectMemory) (owner : ℕ → Region) (b : ℕ) : Prop :=
  ∃ n c g,
    DictionaryValid identityScheme m {o | owner o = .classPool b} (m.slot b Field.classPool) n c g ∧
      c < n ∧ ∀ k e, g k = some e → owner e = .classPool b

/-- The behaviors in memory stand for the hierarchy `h`. -/
structure BehaviorsValid (w : World) (owner : ℕ → Region) (h : Hierarchy) : Prop where
  table : w.ClassTableValid h.registered
  length_le : h.registered.length ≤ 512
  ne_kernel : ∀ b ∈ h.registered, ∀ c, b ≠ kernelClass c ∧ b ≠ kernelMetaclass c
  behavior : ∀ b, h.IsBehavior b →
    owner b = .behavior ∧ b < w.memory.limit ∧ oopIsPointers b ∧ b ≠ nilOop
  /-- Every behavior is in the class table under its identity hash. -/
  index : ∀ b, h.IsBehavior b →
    (w.memory.header b).identityHash < 512 + h.registered.length ∧
      w.classAt (w.memory.header b).identityHash = some b
  superclass : ∀ b, h.IsBehavior b →
    w.memory.slot b Field.superclass = (h.superclass b).getD nilOop
  /-- The behaviors that can have methods are those with a method dictionary. -/
  installed : ∀ b, h.IsBehavior b →
    (w.memory.slot b Field.methodDict ≠ nilOop ↔ b ∈ h.installed)
  isBehavior_of_installed : ∀ b ∈ h.installed, h.IsBehavior b
  isBehavior_of_superclass : ∀ b p, h.superclass b = some p → h.IsBehavior b ∧ h.IsBehavior p
  wellFounded : WellFounded h.superclass
  methods : ∀ b, h.IsBehavior b → HoldsMethods w.memory owner b (h.methods b)
  method : ∀ b s v, h.methods b s = some v → h.IsBehavior b ∧ v ≠ nilOop
  metaclass : ∀ C M, h.MetaclassOf C M → h.IsBehavior C ∧ h.IsBehavior M ∧
    (w.memory.header C).classIndex = (w.memory.header M).identityHash ∧
    (w.memory.header M).classIndex = KernelClass.Metaclass.index
  thisClass : ∀ C M, h.MetaclassOf C M → w.memory.slot M Field.thisClass = C
  pool : ∀ c ∈ h.pooled, HoldsPool w.memory owner (kernelClass c)

/-- **The kernel as it is compiled** stands for the kernel hierarchy. -/
theorem BehaviorsValid.start {w : World} {owner : ℕ → Region} (htable : w.ClassTableValid [])
    (hk : KernelIntact w.memory) (hslot : ∀ o, w.memory.slot (KernelImage.address o) = staticSlot o)
    (howner : ∀ o, owner (KernelImage.address o) = .behavior) :
    BehaviorsValid w owner Hierarchy.kernel := by
  have hbehavior : ∀ {P : ℕ → Prop}, (∀ c, P (kernelClass c)) → (∀ c, P (kernelMetaclass c)) →
      ∀ b, Hierarchy.kernel.IsBehavior b → P b := by
    rintro P hclass hmeta b (⟨c, rfl | rfl⟩ | hb)
    · exact hclass c
    · exact hmeta c
    · exact absurd hb List.not_mem_nil
  have hmetaclassOf : ∀ C M, Hierarchy.kernel.MetaclassOf C M →
      ∃ c, C = kernelClass c ∧ M = kernelMetaclass c := by
    rintro C M (hCM | hCM)
    · exact hCM
    · exact absurd hCM List.not_mem_nil
  have hdict : ∀ b, Hierarchy.kernel.IsBehavior b → w.memory.slot b Field.methodDict = nilOop :=
    hbehavior (fun c => by rw [kernelClass, hslot]; rfl)
      fun c => by rw [kernelMetaclass, hslot]; rfl
  refine ⟨htable, Nat.zero_le _, fun b hb => absurd hb List.not_mem_nil, ?_, ?_, ?_,
    fun b hb => iff_of_false (fun hne => hne (hdict b hb)) (Set.notMem_empty b),
    fun b hb => absurd hb (Set.notMem_empty b), fun b p hbp => ?_, Hierarchy.kernel_wellFounded,
    fun b hb => Or.inl ⟨hdict b hb, rfl⟩, fun b s v hmethod => (by cases hmethod),
    fun C M hCM => ?_,
    fun C M hCM => ?_, fun c hc => absurd hc (Set.notMem_empty c)⟩
  · exact hbehavior
      (fun c => ⟨howner _, hk.lt_limit _, oopIsPointers_address _, kernelClass_ne_nilOop c⟩)
      fun c => ⟨howner _, hk.lt_limit _, oopIsPointers_address _, kernelMetaclass_ne_nilOop c⟩
  · refine hbehavior (fun c => ?_) fun c => ?_
    · rw [hk.identityHash_kernelClass]
      exact ⟨c.index_lt.trans (by simp [Hierarchy.kernel]), htable.classAt_index c⟩
    · rw [hk.identityHash_kernelMetaclass]
      exact ⟨c.metaIndex_lt.trans_le (Nat.le_add_right _ _), htable.classAt_metaIndex c⟩
  · refine hbehavior (fun c => ?_) fun c => ?_
    · rw [Hierarchy.kernel_superclass_kernelClass, kernelClass, hslot]
      rfl
    · rw [Hierarchy.kernel_superclass_kernelMetaclass, kernelMetaclass, hslot]
      rfl
  · rcases Hierarchy.kernel_superclass_cases hbp with ⟨c, d, rfl, -, rfl⟩ | ⟨c, rfl, rfl⟩
    · exact ⟨Hierarchy.isBehavior_kernelClass _ c, Hierarchy.isBehavior_kernelClass _ d⟩
    · refine ⟨Hierarchy.isBehavior_kernelMetaclass _ c, ?_⟩
      cases c.info.superclass with
      | none => exact Hierarchy.isBehavior_kernelClass _ _
      | some d => exact Hierarchy.isBehavior_kernelMetaclass _ d
  · obtain ⟨c, rfl, rfl⟩ := hmetaclassOf C M hCM
    refine ⟨Hierarchy.isBehavior_kernelClass _ c, Hierarchy.isBehavior_kernelMetaclass _ c, ?_,
      hk.classIndex_kernelMetaclass c⟩
    rw [hk.classIndex_kernelClass, hk.identityHash_kernelMetaclass]
  · obtain ⟨c, rfl, rfl⟩ := hmetaclassOf C M hCM
    rw [kernelMetaclass, hslot]
    rfl

section Frames

variable {m m' : ObjectMemory} {owner owner' : ℕ → Region} {b : ℕ} {f : ℕ → Option ℕ}
  {F : Set (ℕ × ℕ)}

/-- The methods of a behavior survive a step that stores neither into its dictionary nor into its
reference to it. -/
theorem HoldsMethods.frame (h : HoldsMethods m owner b f) (hb : b < m.limit)
    (hf : Frame m.limit F m m') (hF : ∀ p ∈ F, owner p.1 ≠ .methodDict b)
    (hcell : (b, Field.methodDict) ∉ F) (howner : ∀ o < m.limit, owner' o = owner o) :
    HoldsMethods m' owner' b f := by
  have hslot : m'.slot b Field.methodDict = m.slot b Field.methodDict := hf.slot b hb _ hcell
  rcases h with ⟨hnil, hnone⟩ | ⟨hlt, hptr, hclass, n, c, hd, hroom⟩
  · exact Or.inl ⟨hslot.trans hnil, hnone⟩
  · refine Or.inr ⟨?_, ?_, ?_, n, c, ?_, hroom⟩
    · rw [hslot]
      exact hlt.trans_le hf.limit_le
    · rw [hslot]
      exact hptr
    · rw [hslot, hf.header _ hlt]
      exact hclass
    · rw [hslot]
      exact hd.frame hf hF fun o ho holt => (howner o holt).trans ho

/-- The class pool survives a step that stores neither into it nor into the reference to it. -/
theorem HoldsPool.frame (h : HoldsPool m owner b) (hb : b < m.limit)
    (hf : Frame m.limit F m m') (hF : ∀ p ∈ F, owner p.1 ≠ .classPool b)
    (hcell : (b, Field.classPool) ∉ F) (howner : ∀ o < m.limit, owner' o = owner o) :
    HoldsPool m' owner' b := by
  have hslot : m'.slot b Field.classPool = m.slot b Field.classPool := hf.slot b hb _ hcell
  obtain ⟨n, c, g, hd, hroom, hg⟩ := h
  refine ⟨n, c, g, ?_, hroom, fun k e he => ?_⟩
  · rw [hslot]
    refine hd.frame hf (hd.shape.not_mem_cells hF) (fun k e he hmem => ?_)
      fun o ho holt => (howner o holt).trans ho
    exact hF _ hmem (hg k e he)
  · rw [howner e (hd.of_some he).1.lt_limit]
    exact hg k e he

end Frames

namespace BehaviorsValid

variable {w : World} {owner owner' : ℕ → Region} {h : Hierarchy} {F : Set (ℕ × ℕ)}

/-- The class pools survive a step that stores neither into them nor into the references to them. -/
theorem pools_frame (hv : BehaviorsValid w owner h) {m : ObjectMemory}
    (hf : Frame w.memory.limit F w.memory m) (hF : ∀ p ∈ F, ∀ b, owner p.1 ≠ .classPool b)
    (hpool : ∀ c, (kernelClass c, Field.classPool) ∉ F)
    (howner : ∀ o < w.memory.limit, owner' o = owner o) (c : KernelClass) (hc : c ∈ h.pooled) :
    HoldsPool m owner' (kernelClass c) :=
  (hv.pool c hc).frame (hv.behavior _ (h.isBehavior_kernelClass c)).2.1 hf (fun p hp => hF p hp _)
    (hpool c) howner

/-- **What a step keeps of the behaviors** when it stores into none of the references from a
behavior to its superclass and of the methods only into those of `b`, which then are `g`. -/
theorem frame_methods (hv : BehaviorsValid w owner h) {m : ObjectMemory} {b : ℕ}
    {g : ℕ → Option ℕ} {installed : Set ℕ} {pooled : Set KernelClass}
    (hf : Frame w.memory.limit F w.memory m)
    (hF : ∀ p ∈ F, ∀ x, x ≠ b → owner p.1 ≠ .methodDict x)
    (hcell : ∀ x, h.IsBehavior x →
      (x, Field.superclass) ∉ F ∧ (x ≠ b → (x, Field.methodDict) ∉ F))
    (hthis : ∀ C M, h.MetaclassOf C M → (M, Field.thisClass) ∉ F)
    (hpool : ∀ c ∈ pooled, HoldsPool m owner' (kernelClass c))
    (howner : ∀ o < w.memory.limit, owner' o = owner o) (hb : h.IsBehavior b)
    (hg : HoldsMethods m owner' b g) (hg' : ∀ s v, g s = some v → v ≠ nilOop)
    (hinstalled : ∀ x ≠ b, x ∈ installed ↔ x ∈ h.installed)
    (hinstalledb : m.slot b Field.methodDict ≠ nilOop ↔ b ∈ installed) :
    BehaviorsValid (w.withMemory m) owner'
      { h with
        methods := Function.update h.methods b g, installed := installed, pooled := pooled } where
  table := hv.table.withMemory m
  length_le := hv.length_le
  ne_kernel := hv.ne_kernel
  behavior x hx := by
    obtain ⟨hbehavior, hlt, hptr, hne⟩ := hv.behavior x hx
    exact ⟨(howner x hlt).trans hbehavior, hlt.trans_le hf.limit_le, hptr, hne⟩
  index x hx := by
    have hheader : m.header x = w.memory.header x := hf.header x (hv.behavior x hx).2.1
    show (m.header x).identityHash < _ ∧ w.classAt (m.header x).identityHash = some x
    rw [hheader]
    exact hv.index x hx
  superclass x hx := by
    have hslot : m.slot x Field.superclass = w.memory.slot x Field.superclass :=
      hf.slot x (hv.behavior x hx).2.1 _ (hcell x hx).1
    exact hslot.trans (hv.superclass x hx)
  installed x hx := by
    by_cases hxb : x = b
    · exact hxb ▸ hinstalledb
    · have hslot : m.slot x Field.methodDict = w.memory.slot x Field.methodDict :=
        hf.slot x (hv.behavior x hx).2.1 _ ((hcell x hx).2 hxb)
      show m.slot x Field.methodDict ≠ nilOop ↔ _
      rw [hslot, hv.installed x hx]
      exact (hinstalled x hxb).symm
  isBehavior_of_installed x hx := by
    by_cases hxb : x = b
    · exact hxb ▸ hb
    · exact hv.isBehavior_of_installed x ((hinstalled x hxb).mp hx)
  isBehavior_of_superclass := hv.isBehavior_of_superclass
  wellFounded := hv.wellFounded
  methods x hx := by
    by_cases hxb : x = b
    · subst hxb
      show HoldsMethods m owner' x (Function.update h.methods x g x)
      rw [Function.update_self]
      exact hg
    · show HoldsMethods m owner' x (Function.update h.methods b g x)
      rw [Function.update_of_ne hxb]
      exact (hv.methods x hx).frame (hv.behavior x hx).2.1 hf (fun p hp => hF p hp x hxb)
        ((hcell x hx).2 hxb) howner
  method x s v hmethods := by
    change Function.update h.methods b g x s = some v at hmethods
    by_cases hxb : x = b
    · subst hxb
      rw [Function.update_self] at hmethods
      exact ⟨hb, hg' s v hmethods⟩
    · rw [Function.update_of_ne hxb] at hmethods
      exact hv.method x s v hmethods
  metaclass C M hCM := by
    obtain ⟨hC, hM, hclass, hmeta⟩ := hv.metaclass C M hCM
    have hheaderC : m.header C = w.memory.header C := hf.header C (hv.behavior C hC).2.1
    have hheaderM : m.header M = w.memory.header M := hf.header M (hv.behavior M hM).2.1
    refine ⟨hC, hM, ?_, ?_⟩
    · show (m.header C).classIndex = (m.header M).identityHash
      rw [hheaderC, hheaderM, hclass]
    · show (m.header M).classIndex = _
      rw [hheaderM, hmeta]
  thisClass C M hCM := by
    have hslot : m.slot M Field.thisClass = w.memory.slot M Field.thisClass :=
      hf.slot M (hv.behavior M (hv.metaclass C M hCM).2.1).2.1 _ (hthis C M hCM)
    exact hslot.trans (hv.thisClass C M hCM)
  pool := hpool

/-- **The behaviors survive a step** that stores into no method dictionary, no class pool and none
of the slots that link a behavior to others. -/
theorem frame (hv : BehaviorsValid w owner h) {m : ObjectMemory}
    (hf : Frame w.memory.limit F w.memory m)
    (hF : ∀ p ∈ F, ∀ b, owner p.1 ≠ .methodDict b ∧ owner p.1 ≠ .classPool b)
    (hcell : ∀ b, h.IsBehavior b → (b, Field.superclass) ∉ F ∧ (b, Field.methodDict) ∉ F)
    (hthis : ∀ C M, h.MetaclassOf C M → (M, Field.thisClass) ∉ F)
    (hpool : ∀ c, (kernelClass c, Field.classPool) ∉ F)
    (howner : ∀ o < w.memory.limit, owner' o = owner o) :
    BehaviorsValid (w.withMemory m) owner' h := by
  have hb := h.isBehavior_kernelClass .Object
  have hmethods := (hv.methods _ hb).frame (hv.behavior _ hb).2.1 hf (fun p hp => (hF p hp _).1)
    (hcell _ hb).2 howner
  have hslot : m.slot (kernelClass .Object) Field.methodDict =
      w.memory.slot (kernelClass .Object) Field.methodDict :=
    hf.slot _ (hv.behavior _ hb).2.1 _ (hcell _ hb).2
  have hvalid := hv.frame_methods hf (fun p hp x _ => (hF p hp x).1)
    (fun x hx => ⟨(hcell x hx).1, fun _ => (hcell x hx).2⟩) hthis
    (hv.pools_frame hf (fun p hp x => (hF p hp x).2) hpool howner) howner hb hmethods
    (fun s v hs => (hv.method _ s v hs).2) (fun _ _ => Iff.rfl) (hslot ▸ hv.installed _ hb)
  rwa [Function.update_eq_self] at hvalid

/-- A step that stores into one region only, which is none of the behaviors'. -/
theorem frame_region (hv : BehaviorsValid w owner h) {m : ObjectMemory} {r : Region}
    (hf : Frame w.memory.limit {p | owner p.1 = r} w.memory m)
    (hr : ∀ b, r ≠ .methodDict b ∧ r ≠ .classPool b) (hbehavior : r ≠ .behavior)
    (howner : ∀ o < w.memory.limit, owner' o = owner o) :
    BehaviorsValid (w.withMemory m) owner' h := by
  have hnot : ∀ b, h.IsBehavior b → ∀ i, (b, i) ∉ {p : ℕ × ℕ | owner p.1 = r} := by
    intro b hb i hmem
    exact hbehavior ((show owner b = r from hmem).symm.trans (hv.behavior b hb).1)
  refine hv.frame hf (fun p hp b => ?_) (fun b hb => ⟨hnot b hb _, hnot b hb _⟩)
    (fun C M hCM => hnot M (hv.metaclass C M hCM).2.1 _)
    (fun c => hnot _ (h.isBehavior_kernelClass c) _) howner
  have hp' : owner p.1 = r := hp
  rw [hp']
  exact hr b

/-- A step that changed nothing there was. -/
theorem frame_empty (hv : BehaviorsValid w owner h) {m : ObjectMemory}
    (hf : Frame w.memory.limit ∅ w.memory m)
    (howner : ∀ o < w.memory.limit, owner' o = owner o) :
    BehaviorsValid (w.withMemory m) owner' h :=
  hv.frame hf (by simp) (by simp) (by simp) (by simp) howner

/-! ### Classes -/

theorem isBehavior_of_isClass (hv : BehaviorsValid w owner h) {C : ℕ} (hC : h.IsClass C) :
    h.IsBehavior C := by
  obtain ⟨M, hCM⟩ := hC
  exact (hv.metaclass C M hCM).1

/-- The class of a class is its metaclass. -/
theorem getClassFromOop (hv : BehaviorsValid w owner h) {C M : ℕ} (hCM : h.MetaclassOf C M) :
    w.getClassFromOop C = some M := by
  obtain ⟨hC, hM, hclass, -⟩ := hv.metaclass C M hCM
  rw [World.getClassFromOop, ObjectMemory.getClassIndexFromOop, if_pos (hv.behavior C hC).2.2.1,
    hclass]
  exact (hv.index M hM).2

/-- A behavior is the metaclass of one class only. -/
theorem eq_of_metaclassOf (hv : BehaviorsValid w owner h) {C C' M : ℕ} (hCM : h.MetaclassOf C M)
    (hCM' : h.MetaclassOf C' M) : C = C' :=
  (hv.thisClass C M hCM).symm.trans (hv.thisClass C' M hCM')

/-- The class of a kernel metaclass is a kernel class, and the other way round. -/
theorem kernelMetaclass_iff (hv : BehaviorsValid w owner h) {C M : ℕ} (hCM : h.MetaclassOf C M) :
    (∃ c, M = kernelMetaclass c) ↔ ∃ c, C = kernelClass c := by
  constructor
  · rintro ⟨c, rfl⟩
    exact ⟨c, hv.eq_of_metaclassOf hCM (Or.inl ⟨c, rfl, rfl⟩)⟩
  · rintro ⟨c, rfl⟩
    have hM := hv.getClassFromOop hCM
    rw [hv.getClassFromOop (Or.inl ⟨c, rfl, rfl⟩)] at hM
    exact ⟨c, (Option.some.inj hM).symm⟩

/-- No class is a kernel metaclass. -/
theorem ne_kernelMetaclass_of_isClass (hv : BehaviorsValid w owner h) (hk : KernelIntact w.memory)
    {C : ℕ} (hC : h.IsClass C) (c : KernelClass) : C ≠ kernelMetaclass c := by
  rintro rfl
  obtain ⟨M, hCM⟩ := hC
  obtain ⟨-, hM, hclass, hmeta⟩ := hv.metaclass _ M hCM
  -- its class would be `Metaclass`, which is not a metaclass
  have hat := (hv.index M hM).2
  rw [← hclass, hk.classIndex_kernelMetaclass, hv.table.classAt_index] at hat
  rw [← Option.some.inj hat, hk.classIndex_kernelClass] at hmeta
  exact absurd hmeta (by decide)

/-! ### Lookup -/

/-- **`slvm_Behavior_lookup`** terminates, and returns what the selector resolves to. -/
theorem lookup (hv : BehaviorsValid w owner h) {b selector : ℕ} {r : Option ℕ}
    (hb : h.IsBehavior b) (hr : Resolves h.superclass h.methods selector b r) :
    w.memory.LookupReturns b selector (r.getD nilOop) := by
  -- a behavior without the selector passes it on to its superclass
  have hinherited : ∀ {a : ℕ}, h.IsBehavior a → h.methods a selector = none →
      ∀ fuel, w.memory.behaviorLookup selector (fuel + 1) a =
        w.memory.behaviorLookup selector fuel ((h.superclass a).getD nilOop) := by
    intro a ha hnone fuel
    rw [behaviorLookup, if_neg (hv.behavior a ha).2.2.2, hv.superclass a ha]
    rcases hv.methods a ha with ⟨hnil, -⟩ | ⟨-, hptr, hclass, n, c, hd, hroom⟩
    · simp only [hnil, if_true]
    · have hindex : w.memory.getClassIndexFromOop (w.memory.slot a Field.methodDict) =
          KernelClass.MethodDictionary.index := by
        rw [ObjectMemory.getClassIndexFromOop, if_pos hptr, hclass]
      simp only [hd.ne_nilOop, if_false, hptr, hindex, and_self, if_true, hd.atOrNil hroom, hnone,
        Option.getD_none, Option.bind_eq_bind, Option.bind_some, ne_eq, not_true_eq_false]
  induction hr with
  | @here a v hsome =>
    refine ⟨1, fun fuel hfuel => ?_⟩
    obtain ⟨fuel, rfl⟩ := Nat.exists_eq_succ_of_ne_zero (by omega : fuel ≠ 0)
    rw [behaviorLookup, if_neg (hv.behavior a hb).2.2.2]
    rcases hv.methods a hb with ⟨-, hnone⟩ | ⟨-, hptr, hclass, n, c, hd, hroom⟩
    · rw [hnone] at hsome
      cases hsome
    · have hindex : w.memory.getClassIndexFromOop (w.memory.slot a Field.methodDict) =
          KernelClass.MethodDictionary.index := by
        rw [ObjectMemory.getClassIndexFromOop, if_pos hptr, hclass]
      simp only [hd.ne_nilOop, if_false, hptr, hindex, and_self, if_true, hd.atOrNil hroom, hsome,
        Option.getD_some, Option.bind_eq_bind, Option.bind_some, ne_eq,
        (hv.method a selector v hsome).2, not_false_eq_true]
      rfl
  | @inherited a p r hnone hp _ ih =>
    obtain ⟨n, hn⟩ := ih (hv.isBehavior_of_superclass a p hp).2
    refine ⟨n + 1, fun fuel hfuel => ?_⟩
    obtain ⟨fuel, rfl⟩ := Nat.exists_eq_succ_of_ne_zero (by omega : fuel ≠ 0)
    rw [hinherited hb hnone, hp]
    exact hn fuel (by omega)
  | @undefined a hnone hp =>
    refine ⟨2, fun fuel hfuel => ?_⟩
    obtain ⟨fuel, rfl⟩ := Nat.exists_eq_succ_of_ne_zero (by omega : fuel ≠ 0)
    obtain ⟨fuel, rfl⟩ := Nat.exists_eq_succ_of_ne_zero (by omega : fuel ≠ 0)
    rw [hinherited hb hnone, hp, behaviorLookup]
    exact if_pos rfl

/-- Every selector resolves to something. -/
theorem exists_resolves (hv : BehaviorsValid w owner h) (selector b : ℕ) :
    ∃ r, Resolves h.superclass h.methods selector b r :=
  Inheritance.exists_resolves hv.wellFounded h.methods selector b

/-- **Every chain of superclasses is finite**, passes through no behavior twice and ends in nil. -/
theorem exists_superclassChain (hv : BehaviorsValid w owner h) {b : ℕ} (hb : h.IsBehavior b) :
    ∃ l, w.memory.SuperclassChain b l ∧ l.Nodup := by
  obtain ⟨l, hl, hnodup⟩ := hv.wellFounded.exists_pathToRoot b
  refine ⟨l, ?_, hnodup⟩
  clear hnodup
  induction hl with
  | @root a hp =>
    refine ObjectMemory.SuperclassChain.cons (hv.behavior a hb).2.2.2 ?_
    rw [hv.superclass a hb, hp]
    exact ObjectMemory.SuperclassChain.nil
  | @step a p l hp _ ih =>
    refine ObjectMemory.SuperclassChain.cons (hv.behavior a hb).2.2.2 ?_
    rw [hv.superclass a hb, hp]
    exact ih (hv.isBehavior_of_superclass a p hp).2

/-! ### Registering a method -/

/-- Storing a method into the dictionary of a behavior. -/
theorem registerMethod (hv : BehaviorsValid w owner h) (hk : KernelIntact w.memory)
    {b selector method : ℕ} (hinstalled : b ∈ h.installed) (hselector : selector ≠ nilOop)
    (hlive : w.memory.Live selector) (hmethod : method ≠ nilOop) :
    ∃ m, w.memory.methodDictionaryAtPut (w.memory.slot b Field.methodDict) selector method =
        some m ∧
      Frame w.memory.limit {p | owner p.1 = .methodDict b} w.memory m ∧
      BehaviorsValid (w.withMemory m) (claim owner w.memory.limit (.methodDict b))
        (h.register b selector method) := by
  have hb := hv.isBehavior_of_installed b hinstalled
  have hdict := (hv.installed b hb).mpr hinstalled
  obtain ⟨hnil, -⟩ | ⟨hlt, hptr, hclass, n, c, hd, hroom⟩ := hv.methods b hb
  · exact absurd hnil hdict
  have hbehavior : ∀ x, h.IsBehavior x → x ∉ {o | owner o = .methodDict b} := by
    intro x hx hmem
    exact absurd ((hv.behavior x hx).1.symm.trans hmem) (by simp)
  obtain ⟨m, n', c', hput, hframe, hd', hroom'⟩ := hd.atPut hroom hk.formats
    (fun k => hbehavior _ (h.isBehavior_kernelClass k)) hselector hlive method
  have hf : Frame w.memory.limit {p | owner p.1 = .methodDict b} w.memory m := by
    refine hframe.mono (Nat.le_refl _) fun p _ _ hcell => ?_
    rcases hcell with hcell | hcell | hcell
    · exact (show p = _ from hcell) ▸ hd.shape.mem
    · exact (show p = _ from hcell) ▸ hd.shape.array_mem
    · exact (show p = _ from hcell) ▸ hd.keys_mem
  have hslot : m.slot b Field.methodDict = w.memory.slot b Field.methodDict :=
    hf.slot b (hv.behavior b hb).2.1 _ (hbehavior b hb)
  have howner : ∀ o < w.memory.limit, claim owner w.memory.limit (.methodDict b) o = owner o :=
    fun o ho => claim_of_lt ho _
  have hkernel : ∀ k, kernelClass k ∉ {o | owner o = .methodDict b} := fun k =>
    hbehavior _ (h.isBehavior_kernelClass k)
  have hpools := hv.pools_frame hf (fun p hp x => by
    have hp' : owner p.1 = .methodDict b := hp
    rw [hp']
    simp) (fun k => hkernel k) howner
  refine ⟨m, hput, hf, hv.frame_methods hf (fun p hp x hxb heq => ?_)
    (fun x hx => ⟨hbehavior x hx, fun _ => hbehavior x hx⟩)
    (fun C M hCM => hbehavior M (hv.metaclass C M hCM).2.1) hpools howner hb ?_ (fun s v hs => ?_)
    (fun _ _ => Iff.rfl) (hslot ▸ hv.installed b hb)⟩
  · have hp' : owner p.1 = .methodDict b := hp
    exact hxb (Region.methodDict.inj (heq.symm.trans hp'))
  · rw [HoldsMethods, hslot, hf.header _ hlt]
    exact Or.inr ⟨hlt.trans_le hf.limit_le, hptr, hclass, n', c', hd'.mono (subset_claim _ _ _),
      hroom'⟩
  · by_cases hsel : s = selector
    · rw [hsel, Function.update_self] at hs
      exact Option.some.inj hs ▸ hmethod
    · rw [Function.update_of_ne hsel] at hs
      exact (hv.method b s v hs).2

/-! ### New behaviors -/

/-- **A new behavior** with a superclass and no method dictionary, registered in the class table. -/
theorem addBehavior (hv : BehaviorsValid w owner h) {w' : World} {b p : ℕ}
    (hf : Frame w.memory.limit ∅ w.memory w'.memory)
    (htable : w'.ClassTableValid (h.registered ++ [b])) (hlength : h.registered.length < 512)
    (hlt : w.memory.limit < b) (hlt' : b < w'.memory.limit) (hptr : oopIsPointers b)
    (hne : b ≠ nilOop) (hp : h.IsBehavior p)
    (hash : (w'.memory.header b).identityHash = 512 + h.registered.length)
    (hsuperclass : w'.memory.slot b Field.superclass = p)
    (hdict : w'.memory.slot b Field.methodDict = nilOop)
    (howner : ∀ o < w.memory.limit, owner' o = owner o) (hb : owner' b = .behavior) :
    BehaviorsValid w' owner' (h.addBehavior b p) := by
  have hfresh : ¬ h.IsBehavior b := fun hb' => by
    have := (hv.behavior b hb').2.1
    omega
  have hold : ∀ {x}, h.IsBehavior x → x ≠ b := by
    rintro x hx rfl
    exact hfresh hx
  have hsuper : ∀ {x}, x ≠ b → (h.addBehavior b p).superclass x = h.superclass x :=
    fun hx => Function.update_of_ne hx _ _
  have hsuperb : (h.addBehavior b p).superclass b = some p := Function.update_self ..
  have hheader : ∀ {x}, h.IsBehavior x → w'.memory.header x = w.memory.header x := fun hx =>
    hf.header _ (hv.behavior _ hx).2.1
  have hslot : ∀ {x}, h.IsBehavior x → ∀ i, w'.memory.slot x i = w.memory.slot x i := fun hx i =>
    hf.slot _ (hv.behavior _ hx).2.1 i (by simp)
  -- the class table below the new index is what it was
  have hclassAt : ∀ i < 512 + h.registered.length, w'.classAt i = w.classAt i := by
    intro i hi
    rw [htable.classAt (by omega), hv.table.classAt (by omega), classTablePage_append,
      Function.update_of_ne (by omega)]
  have hmeta : ∀ C M, (h.addBehavior b p).MetaclassOf C M ↔ h.MetaclassOf C M := fun _ _ => Iff.rfl
  have hnotinstalled : b ∉ h.installed := fun hmem => hfresh (hv.isBehavior_of_installed b hmem)
  refine ⟨htable, ?_, fun x hx c => ?_, fun x hx => ?_, fun x hx => ?_, fun x hx => ?_,
    fun x hx => ?_,
    fun x hx => Hierarchy.isBehavior_addBehavior.mpr (Or.inl (hv.isBehavior_of_installed x hx)),
    fun x q hq => ?_, ?_, fun x hx => ?_, fun x s v hmethods => ?_, fun C M hCM => ?_,
    fun C M hCM => ?_, fun c hc => ?_⟩
  · simp only [Hierarchy.addBehavior, List.length_append, List.length_singleton]
    omega
  · rcases List.mem_append.mp hx with hx | hx
    · exact hv.ne_kernel x hx c
    · obtain rfl := List.mem_singleton.mp hx
      exact ⟨fun heq => hfresh (heq ▸ h.isBehavior_kernelClass c),
        fun heq => hfresh (heq ▸ h.isBehavior_kernelMetaclass c)⟩
  · rcases Hierarchy.isBehavior_addBehavior.mp hx with hx | rfl
    · obtain ⟨hx', hxlt, hxptr, hxne⟩ := hv.behavior x hx
      exact ⟨(howner x hxlt).trans hx', hxlt.trans_le hf.limit_le, hxptr, hxne⟩
    · exact ⟨hb, hlt', hptr, hne⟩
  · simp only [Hierarchy.addBehavior, List.length_append, List.length_singleton]
    rcases Hierarchy.isBehavior_addBehavior.mp hx with hx | rfl
    · obtain ⟨hxlt, hxat⟩ := hv.index x hx
      rw [hheader hx]
      exact ⟨by omega, (hclassAt _ hxlt).trans hxat⟩
    · rw [hash]
      refine ⟨by omega, ?_⟩
      rw [htable.classAt (by omega), classTablePage_append, Function.update_self]
  · rcases Hierarchy.isBehavior_addBehavior.mp hx with hx | rfl
    · rw [hslot hx, hsuper (hold hx)]
      exact hv.superclass x hx
    · rw [hsuperclass, hsuperb]
      rfl
  · rcases Hierarchy.isBehavior_addBehavior.mp hx with hx | rfl
    · rw [hslot hx]
      exact hv.installed x hx
    · exact iff_of_false (fun hne' => hne' hdict) hnotinstalled
  · by_cases hxb : x = b
    · subst hxb
      rw [hsuperb] at hq
      obtain rfl := Option.some.inj hq
      exact ⟨Hierarchy.isBehavior_addBehavior.mpr (Or.inr rfl),
        Hierarchy.isBehavior_addBehavior.mpr (Or.inl hp)⟩
    · rw [hsuper hxb] at hq
      obtain ⟨hx, hq'⟩ := hv.isBehavior_of_superclass x q hq
      exact ⟨Hierarchy.isBehavior_addBehavior.mpr (Or.inl hx),
        Hierarchy.isBehavior_addBehavior.mpr (Or.inl hq')⟩
  · refine hv.wellFounded.update (hold hp) fun x hx => ?_
    exact hfresh (hv.isBehavior_of_superclass x b hx).2
  · rcases Hierarchy.isBehavior_addBehavior.mp hx with hx | rfl
    · exact (hv.methods x hx).frame (hv.behavior x hx).2.1 hf (by simp) (by simp) howner
    · refine Or.inl ⟨hdict, ?_⟩
      funext s
      cases hs : h.methods x s with
      | none => exact hs
      | some v => exact absurd (hv.method x s v hs).1 hfresh
  · obtain ⟨hx, hne'⟩ := hv.method x s v hmethods
    exact ⟨Hierarchy.isBehavior_addBehavior.mpr (Or.inl hx), hne'⟩
  · obtain ⟨hC, hM, hclass, hmeta'⟩ := hv.metaclass C M ((hmeta C M).mp hCM)
    refine ⟨Hierarchy.isBehavior_addBehavior.mpr (Or.inl hC),
      Hierarchy.isBehavior_addBehavior.mpr (Or.inl hM), ?_, ?_⟩
    · rw [hheader hC, hheader hM, hclass]
    · rw [hheader hM, hmeta']
  · rw [hslot (hv.metaclass C M ((hmeta C M).mp hCM)).2.1]
    exact hv.thisClass C M ((hmeta C M).mp hCM)
  · exact (hv.pool c hc).frame (hv.behavior _ (h.isBehavior_kernelClass c)).2.1 hf (by simp)
      (by simp) howner

/-- Storing into a slot of a behavior that links it to nothing. -/
theorem setSlot (hv : BehaviorsValid w owner h) {b i : ℕ} (hb : h.IsBehavior b)
    (hi : i ≠ Field.superclass ∧ i ≠ Field.methodDict)
    (hthis : i ≠ Field.thisClass ∨ ∀ C, ¬ h.MetaclassOf C b)
    (hpool : i ≠ Field.classPool ∨ ∀ c, kernelClass c ≠ b) (v : ℕ) :
    BehaviorsValid (w.withMemory (w.memory.setSlot b i v)) owner h := by
  refine hv.frame (Frame.setSlot_cell _ _ b i v) (fun p hp x => ?_) (fun x _ => ?_)
    (fun C M hCM hc => ?_) (fun c hc => ?_) fun _ _ => rfl
  · obtain rfl : p = (b, i) := hp
    rw [(hv.behavior b hb).1]
    simp
  · exact ⟨fun hc => hi.1 (Prod.mk.inj hc).2.symm, fun hc => hi.2 (Prod.mk.inj hc).2.symm⟩
  · obtain ⟨hMb, hi'⟩ := Prod.mk.inj hc
    rcases hthis with hthis | hthis
    · exact hthis hi'.symm
    · exact hthis C (hMb ▸ hCM)
  · obtain ⟨hcb, hci⟩ := Prod.mk.inj hc
    rcases hpool with hpool | hpool
    · exact hpool hci.symm
    · exact hpool c hcb

/-- Giving a behavior without methods a new method dictionary. -/
theorem setMethodDict (hv : BehaviorsValid w owner h) {b d n c : ℕ} {m : ObjectMemory}
    (hb : h.IsBehavior b) (hnone : h.methods b = fun _ => none)
    (hf : Frame w.memory.limit ∅ w.memory m) (hlt : d < m.limit) (hptr : oopIsPointers d)
    (hclass : (m.header d).classIndex = KernelClass.MethodDictionary.index)
    (hd : MethodDictionaryValid m {p | w.memory.limit ≤ p} d n c fun _ => none) (hroom : c < n) :
    BehaviorsValid (w.withMemory (m.setSlot b Field.methodDict d))
      (claim owner w.memory.limit (.methodDict b)) (h.install b) := by
  have hblt := (hv.behavior b hb).2.1
  have hframe : Frame w.memory.limit {(b, Field.methodDict)} w.memory
      (m.setSlot b Field.methodDict d) :=
    (hf.mono (Nat.le_refl _) (by simp)).trans (Frame.setSlot_cell _ m b _ d)
  have hcell : ∀ {i x}, (x, i) ∈ ({(b, Field.methodDict)} : Set (ℕ × ℕ)) →
      x = b ∧ i = Field.methodDict := fun hmem => Prod.mk.inj hmem
  have hslot : (m.setSlot b Field.methodDict d).slot b Field.methodDict = d :=
    setSlot_slot_self _ _ _ _
  have howner : ∀ o < w.memory.limit, claim owner w.memory.limit (.methodDict b) o = owner o :=
    fun o ho => claim_of_lt ho _
  have hregion : ∀ p ∈ ({(b, Field.methodDict)} : Set (ℕ × ℕ)), owner p.1 = .behavior := by
    rintro p rfl
    exact (hv.behavior b hb).1
  have hpools := hv.pools_frame hframe (fun p hp x => by
    rw [hregion p hp]
    simp) (fun k hmem => absurd (hcell hmem).2 (by decide)) howner
  have hholds : HoldsMethods (m.setSlot b Field.methodDict d)
      (claim owner w.memory.limit (.methodDict b)) b fun _ => none := by
    rw [HoldsMethods, hslot]
    refine Or.inr ⟨hlt, hptr, hclass, n, c, ?_, hroom⟩
    refine hd.frame (Frame.setSlot_cell m.limit m b _ d) ?_ fun o ho _ => claim_of_ge ho _
    rintro p rfl hmem
    exact absurd hblt (Nat.not_lt.mpr hmem)
  have hinstalled : (m.setSlot b Field.methodDict d).slot b Field.methodDict ≠ nilOop ↔
      b ∈ insert b h.installed := by
    rw [hslot]
    exact iff_of_true hd.ne_nilOop (Set.mem_insert b _)
  have hvalid := hv.frame_methods hframe (fun p hp x _ => by
    rw [hregion p hp]
    simp)
    (fun x _ => ⟨fun hmem => absurd (hcell hmem).2 (by decide), fun hx hmem => hx (hcell hmem).1⟩)
    (fun C M _ hmem => absurd (hcell hmem).2 (by decide)) hpools howner hb hholds
    (by simp) (fun x hx => Set.mem_insert_iff.trans (or_iff_right hx))
    hinstalled
  rwa [← hnone, Function.update_eq_self] at hvalid

/-- Giving a kernel class its class pool. -/
theorem setClassPool (hv : BehaviorsValid w owner h) {c : KernelClass} {d n k : ℕ}
    {m : ObjectMemory} (hf : Frame w.memory.limit ∅ w.memory m)
    (hd : DictionaryValid identityScheme m {p | w.memory.limit ≤ p} d n k fun _ => none)
    (hroom : k < n) :
    BehaviorsValid (w.withMemory (m.setSlot (kernelClass c) Field.classPool d))
      (claim owner w.memory.limit (.classPool (kernelClass c))) (h.addPool c) := by
  have hc := h.isBehavior_kernelClass c
  have hclt := (hv.behavior _ hc).2.1
  have hframe : Frame w.memory.limit {(kernelClass c, Field.classPool)} w.memory
      (m.setSlot (kernelClass c) Field.classPool d) :=
    (hf.mono (Nat.le_refl _) (by simp)).trans (Frame.setSlot_cell _ m _ _ d)
  have hcell : ∀ {i x}, (x, i) ∈ ({(kernelClass c, Field.classPool)} : Set (ℕ × ℕ)) →
      x = kernelClass c ∧ i = Field.classPool := fun hmem => Prod.mk.inj hmem
  have howner : ∀ o < w.memory.limit,
      claim owner w.memory.limit (.classPool (kernelClass c)) o = owner o :=
    fun o ho => claim_of_lt ho _
  have hregion : ∀ p ∈ ({(kernelClass c, Field.classPool)} : Set (ℕ × ℕ)),
      owner p.1 = .behavior := by
    rintro p rfl
    exact (hv.behavior _ hc).1
  have hpools : ∀ c' ∈ insert c h.pooled, HoldsPool (m.setSlot (kernelClass c) Field.classPool d)
      (claim owner w.memory.limit (.classPool (kernelClass c))) (kernelClass c') := by
    intro c' hc'
    by_cases hcc : c' = c
    · subst hcc
      refine ⟨n, k, fun _ => none, ?_, hroom, by simp⟩
      rw [setSlot_slot_self]
      refine hd.frame (Frame.setSlot_cell m.limit m _ _ d) (hd.shape.not_mem_cells ?_) (by simp)
        fun o ho _ => claim_of_ge ho _
      rintro p rfl hmem
      exact absurd hclt (Nat.not_lt.mpr hmem)
    · refine (hv.pool c' (hc'.resolve_left hcc)).frame
        (hv.behavior _ (h.isBehavior_kernelClass c')).2.1 hframe
        (fun p hp => ?_) (fun hmem => hcc (kernelClass_injective (hcell hmem).1)) howner
      rw [hregion p hp]
      simp
  have hb := h.isBehavior_kernelClass .Object
  have hmethods := (hv.methods _ hb).frame (hv.behavior _ hb).2.1 hframe (fun p hp => by
    rw [hregion p hp]
    simp) (fun hmem => absurd (hcell hmem).2 (by decide)) howner
  have hslot : (m.setSlot (kernelClass c) Field.classPool d).slot (kernelClass .Object)
      Field.methodDict = w.memory.slot (kernelClass .Object) Field.methodDict :=
    hframe.slot _ (hv.behavior _ hb).2.1 _ fun hmem => absurd (hcell hmem).2 (by decide)
  have hvalid := hv.frame_methods hframe (fun p hp x _ => by
    rw [hregion p hp]
    simp)
    (fun x _ => ⟨fun hmem => absurd (hcell hmem).2 (by decide),
      fun _ hmem => absurd (hcell hmem).2 (by decide)⟩)
    (fun C M _ hmem => absurd (hcell hmem).2 (by decide)) hpools howner hb hmethods
    (fun s v hs => (hv.method _ s v hs).2) (fun _ _ => Iff.rfl)
    (hslot ▸ hv.installed _ hb)
  rwa [Function.update_eq_self] at hvalid

/-- Storing a class variable into the pool of a kernel class. -/
theorem setClassVariable (hv : BehaviorsValid w owner h) (hk : KernelIntact w.memory)
    {c : KernelClass} (hc : c ∈ h.pooled) {key : ℕ} (hlive : w.memory.Live key) (value : ℕ) :
    ∃ m, w.memory.identityDictionaryAtPut
      (w.memory.slot (kernelClass c) Field.classPool) key value =
        some m ∧
      Frame w.memory.limit {p | owner p.1 = .classPool (kernelClass c)} w.memory m ∧
      BehaviorsValid (w.withMemory m)
        (claim owner w.memory.limit (.classPool (kernelClass c))) h := by
  obtain ⟨n, k, g, hd, hroom, hg⟩ := hv.pool c hc
  have hbehavior : ∀ x, h.IsBehavior x → x ∉ {o | owner o = .classPool (kernelClass c)} := by
    intro x hx hmem
    exact absurd ((hv.behavior x hx).1.symm.trans hmem) (by simp)
  have howner : ∀ o < w.memory.limit,
      claim owner w.memory.limit (.classPool (kernelClass c)) o = owner o :=
    fun o ho => claim_of_lt ho _
  -- whether or not the variable is new, only the region of the pool changes
  have hput : ∃ m n' k' g',
      w.memory.identityDictionaryAtPut (w.memory.slot (kernelClass c) Field.classPool) key value =
        some m ∧
      Frame w.memory.limit {p | owner p.1 = .classPool (kernelClass c)} w.memory m ∧
      DictionaryValid identityScheme m
        ({o | owner o = .classPool (kernelClass c)} ∪ {p | w.memory.limit ≤ p})
        (w.memory.slot (kernelClass c) Field.classPool) n' k' g' ∧ k' < n' ∧
      ∀ x e, g' x = some e → owner e = .classPool (kernelClass c) ∨ w.memory.limit ≤ e := by
    cases hkey : g key with
    | some e =>
      obtain ⟨hput, hd'⟩ := hd.atPut_of_some hkey value (kernelClass .Association)
      refine ⟨_, n, k, g, hput, (Frame.setSlot_cell _ _ e _ value).mono (Nat.le_refl _) ?_,
        hd'.mono Set.subset_union_left, hroom, fun x e' hx => Or.inl (hg x e' hx)⟩
      intro o _ i hmem
      obtain ⟨rfl, -⟩ := Prod.mk.inj (show (o, i) = (e, Field.value) from hmem)
      exact hg key o hkey
    | none =>
      obtain ⟨e, m, n', k', hput, hframe, hd', hroom', hnew⟩ := hd.atPut_of_none hroom hk
        (fun c' => hbehavior _ (h.isBehavior_kernelClass c')) hlive hkey value
        (kernelClass .Association)
      refine ⟨m, n', k', _, hput, hframe.mono (Nat.le_refl _) fun o _ i hmem => ?_, hd', hroom',
        fun x e' hx => ?_⟩
      · rcases hmem with hmem | hmem
        · exact (show o = _ from hmem) ▸ hd.shape.mem
        · exact (show o = _ from hmem) ▸ hd.shape.array_mem
      · by_cases hxk : x = key
        · rw [hxk, Function.update_self] at hx
          exact Or.inr (Option.some.inj hx ▸ hnew.limit_lt.le)
        · rw [Function.update_of_ne hxk] at hx
          exact Or.inl (hg x e' hx)
  obtain ⟨m, n', k', g', hput, hf, hd', hroom', hg'⟩ := hput
  have hslot : ∀ x, h.IsBehavior x → ∀ i, m.slot x i = w.memory.slot x i := fun x hx i =>
    hf.slot x (hv.behavior x hx).2.1 i (hbehavior x hx)
  have hregion : ∀ p ∈ {p : ℕ × ℕ | owner p.1 = .classPool (kernelClass c)},
      owner p.1 = .classPool (kernelClass c) := fun _ hp => hp
  have hpools : ∀ c' ∈ h.pooled, HoldsPool m
      (claim owner w.memory.limit (.classPool (kernelClass c))) (kernelClass c') := by
    intro c' hc'
    have hc'b := h.isBehavior_kernelClass c'
    by_cases hcc : c' = c
    · subst hcc
      refine ⟨n', k', g', ?_, hroom', fun x e hx => ?_⟩
      · rw [hslot _ hc'b]
        exact hd'.mono (subset_claim _ _ _)
      · exact subset_claim _ _ _ (hg' x e hx)
    · refine (hv.pool c' hc').frame (hv.behavior _ hc'b).2.1 hf (fun p hp => ?_)
        (hbehavior _ hc'b) howner
      rw [hregion p hp]
      exact fun heq => hcc (kernelClass_injective (Region.classPool.inj heq)).symm
  have hb := h.isBehavior_kernelClass .Object
  have hmethods := (hv.methods _ hb).frame (hv.behavior _ hb).2.1 hf (fun p hp => by
    rw [hregion p hp]
    simp) (hbehavior _ hb) howner
  have hvalid := hv.frame_methods hf (fun p hp x _ => by
    rw [hregion p hp]
    simp) (fun x hx => ⟨hbehavior x hx, fun _ => hbehavior x hx⟩)
    (fun C M hCM => hbehavior M (hv.metaclass C M hCM).2.1) hpools howner hb hmethods
    (fun s v hs => (hv.method _ s v hs).2) (fun _ _ => Iff.rfl)
    (hslot _ hb _ ▸ hv.installed _ hb)
  rw [Function.update_eq_self] at hvalid
  exact ⟨m, hput, hf, hvalid⟩

/-- Binding a name does not concern the behaviors. -/
theorem bind (hv : BehaviorsValid w owner h) (name : ℕ) (clazz : Option ℕ) :
    BehaviorsValid w owner (h.bind name clazz) :=
  { hv with }

/-- Linking a class with its metaclass. -/
theorem addClass (hv : BehaviorsValid w owner h) {C M : ℕ} (hC : h.IsBehavior C)
    (hM : h.IsBehavior M)
    (hclass : (w.memory.header C).classIndex = (w.memory.header M).identityHash)
    (hmeta : (w.memory.header M).classIndex = KernelClass.Metaclass.index)
    (hthis : w.memory.slot M Field.thisClass = C) :
    BehaviorsValid w owner (h.addClass C M) :=
  { hv with
    metaclass := fun C' M' hCM => by
      rcases Hierarchy.metaclassOf_addClass.mp hCM with hCM | ⟨rfl, rfl⟩
      · exact hv.metaclass C' M' hCM
      · exact ⟨hC, hM, hclass, hmeta⟩
    thisClass := fun C' M' hCM => by
      rcases Hierarchy.metaclassOf_addClass.mp hCM with hCM | ⟨rfl, rfl⟩
      · exact hv.thisClass C' M' hCM
      · exact hthis }

end BehaviorsValid

end World

end SlvmNative
