import SlvmNative.KernelSymbols
import SlvmNative.MessageDispatch

/-!
# Messages to a running kernel

Packages call the runtime and send messages, in any order. A message to a primitive can create
objects; nothing else in the heap changes by it. So the classes and methods that a message finds are
those the calls so far have asked for, and a method that was made for a primitive calls its function
however long ago it was made.

Primitives that register behaviors are left out here: `registerAsBehavior` takes any object, and one
that is registered twice gets a second index.

## Main definitions

* `System` — a kernel, a thread with its stack, and what was created so far
* `System.Step` — calls, messages and code, in any order
* `System.ClassOf` — objects whose class is known

## Main results

* `Runtime.Dispatched.creates` — a message creates objects at most
* `System.valid_of_run` — the invariant
* `System.dispatch_of_run` — a message is dispatched as the calls so far ask for
* `System.primitives_of_run` — the primitives of the kernel stay what they are
* `System.arithmetic_of_run` — operators of small integers are answered by the primitives
* `System.asString_of_run` — the string of a small integer is its numeral
-/

namespace SlvmNative

open ObjectMemory Inheritance Relation

variable [KernelImage]

/-! ### What a primitive does to the heap -/

/-- New objects, and nothing there was changes. -/
def World.Creates (w w' : World) : Prop :=
  ∃ m, w' = w.withMemory m ∧ Frame w.memory.limit ∅ w.memory m

omit [KernelImage] in
theorem World.Creates.refl (w : World) : w.Creates w := ⟨w.memory, rfl, Frame.refl _ _ _⟩

/-- Registering a behavior makes the class table larger. -/
theorem World.registerBehavior_size {w w' : World} {b : ℕ} (h : w.registerBehavior b = some w') :
    w'.classTableSize = w.classTableSize + 1 := by
  simp only [World.registerBehavior] at h
  split_ifs at h with hpage hcount
  all_goals
    split at h
    · cases h
    · obtain rfl := Option.some.inj h
      rfl

/-- **A primitive** that does not register a behavior creates objects at most. -/
theorem PrimitiveFunction.creates {p : PrimitiveFunction} {call : PrimitiveCall} {w w' : World}
    {result errorCode : ℕ} {printed : List UInt8}
    (h : p.call call w = some (.returns result errorCode w' printed))
    (hsize : w'.classTableSize = w.classTableSize) : w.Creates w' := by
  have hvalue : ∀ {v : ℕ}, some (PrimitiveOutcome.value call w v) =
      some (.returns result errorCode w' printed) → w.Creates w' := by
    intro v heq
    obtain ⟨-, -, rfl, -⟩ := PrimitiveOutcome.returns.inj (Option.some.inj heq)
    exact World.Creates.refl w
  have hnew : ∀ {b v : ℕ} {created : ℕ × ObjectMemory},
      w.memory.basicNew b v = some created →
      some (PrimitiveOutcome.value call (w.withMemory created.2) created.1) =
        some (.returns result errorCode w' printed) → w.Creates w' := by
    intro b v created hcreated heq
    obtain ⟨-, -, rfl, -⟩ := PrimitiveOutcome.returns.inj (Option.some.inj heq)
    exact ⟨created.2, rfl, (basicNew_allocated hcreated).frame⟩
  cases p with
  | ProtoObject_asString =>
    obtain ⟨behavior, -, h⟩ := Option.bind_eq_some_iff.mp h
    dsimp only at h
    split_ifs at h
    · exact hvalue h
    · exact hvalue h
  | ProtoObject_class =>
    obtain ⟨behavior, -, h⟩ := Option.bind_eq_some_iff.mp h
    exact hvalue h
  | ProtoObject_basicSize => exact hvalue h
  | Object_value => exact hvalue h
  | Behavior_basicNew =>
    obtain ⟨created, hcreated, h⟩ := Option.bind_eq_some_iff.mp h
    exact hnew hcreated h
  | Behavior_basicNewWithSize =>
    simp only [PrimitiveFunction.call, behaviorBasicNewWithSize] at h
    split at h
    · split_ifs at h with hargument hsmall
      · obtain ⟨created, hcreated, h⟩ := Option.bind_eq_some_iff.mp h
        exact hnew hcreated h
      · obtain ⟨-, -, rfl, -⟩ := PrimitiveOutcome.returns.inj (Option.some.inj h)
        exact World.Creates.refl w
    · cases h
  | Behavior_registerAsBehavior =>
    -- the class table is larger afterwards
    obtain ⟨⟨registered, w₁⟩, hregister, h⟩ := Option.bind_eq_some_iff.mp h
    obtain ⟨-, -, rfl, -⟩ := PrimitiveOutcome.returns.inj (Option.some.inj h)
    rw [World.behaviorPrimitiveRegisterAsBehavior] at hregister
    obtain ⟨w₂, hw₂, heq⟩ := Option.bind_eq_some_iff.mp hregister
    obtain ⟨-, rfl⟩ := Prod.mk.inj (Option.some.inj heq)
    rw [World.registerBehavior_size hw₂] at hsize
    omega
  | BlockClosure_activateClosure =>
    simp only [PrimitiveFunction.call, activateClosure] at h
    split_ifs at h
    · obtain ⟨-, -, rfl, -⟩ := PrimitiveOutcome.returns.inj (Option.some.inj h)
      exact World.Creates.refl w
    · obtain ⟨-, -, rfl, -⟩ := PrimitiveOutcome.returns.inj (Option.some.inj h)
      exact World.Creates.refl w
    · cases h
  | String_printToStdout =>
    obtain ⟨written, -, h⟩ := Option.bind_eq_some_iff.mp h
    obtain ⟨-, -, rfl, -⟩ := PrimitiveOutcome.returns.inj (Option.some.inj h)
    exact World.Creates.refl w
  | SmallInteger_asString =>
    obtain ⟨created, hcreated, h⟩ := Option.bind_eq_some_iff.mp h
    obtain ⟨-, -, rfl, -⟩ := PrimitiveOutcome.returns.inj (Option.some.inj h)
    exact ⟨created.2, rfl, newBytes_frame hcreated⟩
  | _ =>
    obtain ⟨value, -, heq⟩ := Option.map_eq_some_iff.mp h
    obtain ⟨-, -, rfl, -⟩ := PrimitiveOutcome.returns.inj heq
    exact World.Creates.refl w

/-! ### What a message does to the heap -/

section Sends

variable {τ : Type} [DecidableEq τ]

/-- The state a dispatch leaves. -/
def Completion.runtime : Completion τ → Runtime τ
  | .jumped s => s
  | .returned _ s => s
  | .switched _ _ s => s

namespace Runtime

variable [SendImage]

omit [KernelImage] in
theorem switchToMethod_world {s : Runtime τ} {t : τ} {stackPointer method : ℕ}
    {smalltalk : MessageSmalltalkMetadata} {completion : Completion τ}
    (h : s.switchToMethod t stackPointer smalltalk method = some completion) :
    completion.runtime.world = s.world := by
  rw [switchToMethod] at h
  obtain ⟨⟨stackSegment, execution⟩, -, h⟩ := Option.bind_eq_some_iff.mp h
  obtain ⟨execution', -, h⟩ := Option.bind_eq_some_iff.mp h
  obtain rfl := Option.some.inj h
  rfl

omit [KernelImage] in
theorem activateCompiledMethod_world {s : Runtime τ} {t : τ} {sender : CallingConvention}
    {stackPointer method : ℕ} {completion : Completion τ}
    (h : s.activateCompiledMethod t sender stackPointer method = .ok completion) :
    completion.runtime.world = s.world := by
  simp only [activateCompiledMethod] at h
  cases sender with
  | smalltalk =>
    dsimp only at h
    split_ifs at h
    obtain rfl := Except.ok.inj h
    rfl
  | cDecl =>
    dsimp only at h
    split_ifs at h
    · obtain rfl := Except.ok.inj h
      rfl
    · split at h
      · obtain rfl := Except.ok.inj h
        exact switchToMethod_world ‹_›
      · cases h
  | stdCall => cases h

omit [KernelImage] [DecidableEq τ] [SendImage] in
theorem returnFromPrimitive_world {s : Runtime τ} {sender : CallingConvention}
    {stackPointer result : ℕ} {completion : Completion τ}
    (h : s.returnFromPrimitive sender stackPointer result = .ok completion) :
    completion.runtime.world = s.world := by
  cases sender with
  | smalltalk =>
    obtain rfl := Except.ok.inj h
    rfl
  | cDecl =>
    obtain rfl := Except.ok.inj h
    rfl
  | stdCall => cases h

variable [PrimitiveImage]

/-- **Activating a method** creates objects at most, unless it registers a behavior. -/
theorem activateMethod_creates {s : Runtime τ} {t : τ} {sender : CallingConvention} {fuel : ℕ}
    {stackPointer method : ℕ} {completion : Completion τ}
    (h : s.activateMethod fuel t sender stackPointer method = .ok completion)
    (hsize : completion.runtime.world.classTableSize = s.world.classTableSize) :
    s.world.Creates completion.runtime.world := by
  induction fuel generalizing method with
  | zero => cases h
  | succ fuel ih =>
    rw [activateMethod] at h
    dsimp only at h
    split_ifs at h with hnil hcompiled hprimitive
    · rw [activateCompiledMethod_world h]
      exact World.Creates.refl _
    · split at h
      · cases h
      · exact ih h
      · rename_i houtcome
        split_ifs at h
        obtain ⟨p, -, hcall⟩ := Option.bind_eq_some_iff.mp houtcome
        rw [returnFromPrimitive_world h] at hsize ⊢
        exact PrimitiveFunction.creates hcall hsize

/-- A message, to the class of the receiver or to a superclass, is dispatched. -/
def Dispatched (s : Runtime τ) (completion : Completion τ) : Prop :=
  ∃ fuel t sender stackPointer, s.sendDispatch fuel t sender stackPointer = .ok completion ∨
    ∃ behavior, s.supersendDispatch fuel t sender stackPointer behavior = .ok completion

/-- **A message** creates objects at most, unless it registers a behavior. -/
theorem Dispatched.creates {s : Runtime τ} {completion : Completion τ}
    (h : s.Dispatched completion)
    (hsize : completion.runtime.world.classTableSize = s.world.classTableSize) :
    s.world.Creates completion.runtime.world := by
  have hactivated : ∀ {fuel t sender stackPointer behavior},
      s.lookupAndActivate fuel t sender stackPointer behavior = .ok completion →
      s.world.Creates completion.runtime.world := by
    intro fuel t sender stackPointer behavior hlookup
    rw [lookupAndActivate] at hlookup
    split at hlookup
    · cases hlookup
    · exact activateMethod_creates hlookup hsize
  obtain ⟨fuel, t, sender, stackPointer, hsend | ⟨behavior, hsend⟩⟩ := h
  · rw [sendDispatch] at hsend
    split at hsend
    · cases hsend
    · split_ifs at hsend
      exact hactivated hsend
  · rw [supersendDispatch] at hsend
    split_ifs at hsend
    exact hactivated hsend

/-- What a message comes to when its method is that of a primitive. -/
def primitiveOutcome (s : Runtime τ) (t : τ) (sender : CallingConvention) (stackPointer : ℕ)
    (p : PrimitiveFunction) : Except SendFailure (Completion τ) :=
  let message := Message.load sender s.stack stackPointer
  match p.call (message.primitiveCall sender stackPointer) s.world with
  | none => .error .fault
  | some (.replacesContext method) => s.activateMethod 1 t sender stackPointer method
  | some (.returns result errorCode w printed) =>
    if errorCode ≠ primitiveErrorSuccess then .error (.primitiveFailed message.selector)
    else { s with world := w, stdout := s.stdout ++ printed }.returnFromPrimitive sender
      stackPointer
      result

/-- What a primitive without an error comes to. -/
theorem primitiveOutcome_returns {s : Runtime τ} {t : τ}
    {sender : CallingConvention} {stackPointer result : ℕ} {p : PrimitiveFunction} {w : World}
    {printed : List UInt8}
    (h : p.call ((Message.load sender s.stack stackPointer).primitiveCall sender stackPointer)
      s.world = some (.returns result primitiveErrorSuccess w printed)) :
    s.primitiveOutcome t sender stackPointer p =
      { s with world := w, stdout := s.stdout ++ printed }.returnFromPrimitive sender stackPointer
        result := by
  rw [primitiveOutcome]
  simp only [h]
  rfl

/-- **The method of a primitive** calls its function. -/
theorem activation_of_primitive {s : Runtime τ} {t : τ} {sender : CallingConvention}
    {stackPointer method : ℕ} {p : PrimitiveFunction} (hne : method ≠ nilOop)
    (hclass : (s.world.memory.header method).classIndex = KernelClass.PrimitiveMethod.index)
    (hentry : s.world.memory.slot method Field.entryPoint = PrimitiveImage.address p) :
    s.activation t sender stackPointer (some method) =
      s.primitiveOutcome t sender stackPointer p := by
  have hcompiled : KernelClass.PrimitiveMethod.index ≠ KernelClass.CompiledMethod.index := by decide
  rw [activation, Option.getD_some, activateMethod]
  simp only [hne, hclass, hcompiled, hentry, PrimitiveImage.functionAt_address, if_false, if_true,
    Option.bind_some]
  rfl

end Runtime

/-! ### Calls, messages and code -/

/-- A kernel in a run, a thread with its stack on the same heap, the functions of the primitive
methods made so far, and the objects created for a class. -/
structure System (τ : Type) where
  kernel : KernelRun
  runtime : Runtime τ
  functions : ℕ → Option ℕ
  instances : ℕ → Option ℕ

/-- The run of the kernel goes on with new objects. -/
def KernelRun.grown (s : KernelRun) (w : World) : KernelRun :=
  { s with
    world := w
    objects := s.objects ∪ {o | s.world.memory.limit ≤ o ∧ o < w.memory.limit} }

namespace System

variable [SendImage] [PrimitiveImage]

/-- The same code, over the heap of another state of the kernel. -/
def withKernel (s : System τ) (k : KernelRun) : System τ :=
  { s with kernel := k, runtime := { s.runtime with world := k.world } }

/-- One step: a call of the kernel, which can make the method of a primitive or create an object for
a class, a message, or a step of the code in between. -/
inductive Step : System τ → System τ → Prop
  | kernel {s : System τ} {k : KernelRun} (h : KernelRun.Step s.kernel k) : Step s (s.withKernel k)
  | addPrimitive {s : System τ} {selector : String} {function symbol method : ℕ} {w₁ w : World}
      {m₂ : ObjectMemory} (c : KernelClass)
      (hsymbol : s.kernel.world.symbolInternCString (asciiBytes selector) = some (symbol, w₁))
      (hmethod : World.primitiveMethodMake w₁.memory function = some (method, m₂))
      (h : s.kernel.world.kclassAddPrimitive c selector function = some w) :
      Step s { s.withKernel { s.kernel with
          world := w
          hierarchy := s.kernel.hierarchy.register (kernelClass c) symbol method } with
        functions := Function.update s.functions method (some function) }
  | basicNew {s : System τ} {b variableSize o : ℕ} {m : ObjectMemory}
      (hb : s.kernel.hierarchy.IsBehavior b)
      (h : s.kernel.world.memory.basicNew b variableSize = some (o, m)) :
      Step s { s.withKernel (s.kernel.grown (s.kernel.world.withMemory m)) with
        instances := Function.update s.instances o (some b) }
  | message {s : System τ} {completion : Completion τ} (h : s.runtime.Dispatched completion)
      (hsize : completion.runtime.world.classTableSize = s.runtime.world.classTableSize) :
      Step s { s with
        kernel := s.kernel.grown completion.runtime.world
        runtime := completion.runtime }
  | code {s : System τ} (execution : Execution τ) :
      Step s { s with runtime := { s.runtime with execution := execution } }

/-- A system begins with the kernel classes, before any primitive. -/
def Start (s : System τ) : Prop :=
  KernelRun.Start s.kernel ∧ s.runtime.world = s.kernel.world ∧ s.functions = (fun _ => none) ∧
    s.instances = fun _ => none

/-- A state of a run. -/
def Reachable (s : System τ) : Prop := ∃ s₀, Start s₀ ∧ ReflTransGen Step s₀ s

omit [DecidableEq τ] [SendImage] [PrimitiveImage] in
/-- A system can begin with any code. -/
theorem exists_start {w : World} (h : KernelLoaded w.memory) (execution : Execution τ) :
    ∃ s : System τ, Start s ∧ s.runtime.execution = execution := by
  obtain ⟨w₀, w₁, hinit, hclasses, -⟩ := World.initClasses_spec h
  exact ⟨⟨⟨w₁, w₁.initialHierarchy, World.loadedObjects w.memory, []⟩, ⟨w₁, [], execution⟩,
    fun _ => none, fun _ => none⟩, ⟨⟨w, w₀, w₁, h, hinit, hclasses, rfl⟩, rfl, rfl, rfl⟩, rfl⟩

/-! ### The invariant -/

/-- An object that was created for a class. -/
structure InstanceValid (k : KernelRun) (o b : ℕ) : Prop where
  isBehavior : k.hierarchy.IsBehavior b
  lt_limit : o < k.world.memory.limit
  pointers : oopIsPointers o
  classIndex : (k.world.memory.header o).classIndex = (k.world.memory.header b).identityHash

/-- The invariant of a run. -/
structure Valid (s : System τ) : Prop where
  reachable : KernelRun.Reachable s.kernel
  holds : s.kernel.Holds s.functions
  world : s.runtime.world = s.kernel.world
  instances : ∀ o b, s.instances o = some b → InstanceValid s.kernel o b

omit [DecidableEq τ] [SendImage] [PrimitiveImage] in
/-- New objects are a step of the kernel. -/
theorem step_grown {k : KernelRun} {w : World} (h : k.world.Creates w) :
    KernelRun.Step k (k.grown w) := by
  obtain ⟨m, rfl, hframe⟩ := h
  exact KernelRun.Step.allocate hframe

omit [SendImage] [PrimitiveImage] in
/-- What the kernel does keeps the instances. -/
theorem InstanceValid.step {k k' : KernelRun} {o b : ℕ} (h : InstanceValid k o b) (hv : k.Valid)
    (hstep : KernelRun.Step k k') : InstanceValid k' o b := by
  obtain ⟨hb, hlt, hptr, hclass⟩ := h
  obtain ⟨owner, f, g, hkernel⟩ := hv.kernel
  have hblt := (hkernel.behaviors.behavior b hb).2.1
  have hheader : ∀ x < k.world.memory.limit,
      k'.world.memory.header x = k.world.memory.header x := by
    intro x hx
    rcases hstep.frame hv.withObjects_empty with ⟨-, -, -, -, rfl⟩ | hframe
    · rfl
    · exact hframe.header x hx
  refine ⟨hstep.isBehavior hb, hlt.trans_le (hstep.limit_le hv), hptr, ?_⟩
  rw [hheader o hlt, hheader b hblt]
  exact hclass

omit [DecidableEq τ] [SendImage] [PrimitiveImage] in
/-- What the kernel does keeps the invariant. -/
theorem Valid.withKernel {s : System τ} (h : s.Valid) {k : KernelRun}
    (hstep : KernelRun.Step s.kernel k) : (s.withKernel k).Valid where
  reachable := h.reachable.tail (ReflTransGen.single hstep)
  holds := h.holds.step hstep
  world := rfl
  instances o b hob := (h.instances o b hob).step (KernelRun.valid_of_run h.reachable) hstep

/-- **One step** keeps the invariant. -/
theorem Valid.step {s s' : System τ} (h : s.Valid) (hstep : Step s s') : s'.Valid := by
  cases hstep with
  | kernel hkernel => exact h.withKernel hkernel
  | @addPrimitive selector function symbol method w₁ w m₂ c hsymbol hmethod hadd =>
    have hvalid := h.withKernel (KernelRun.Step.addPrimitive c hsymbol hmethod hadd)
    exact ⟨hvalid.reachable, h.holds.addPrimitive hsymbol hmethod hadd, rfl, hvalid.instances⟩
  | @basicNew b variableSize o m hb hnew =>
    have halloc := basicNew_allocated hnew
    have hvalid := h.withKernel (step_grown ⟨m, rfl, halloc.frame⟩)
    obtain ⟨owner, f, g, hv⟩ := (KernelRun.valid_of_run h.reachable).kernel
    refine ⟨hvalid.reachable, hvalid.holds, rfl, fun x c hx => ?_⟩
    by_cases hxo : x = o
    · subst hxo
      change Function.update s.instances x (some b) x = some c at hx
      rw [Function.update_self] at hx
      obtain rfl := Option.some.inj hx
      refine ⟨hb, halloc.lt_limit, halloc.pointers, ?_⟩
      have hblt := (hv.behaviors.behavior b hb).2.1
      exact halloc.classIndex.trans
        (congrArg ObjectHeader.identityHash (halloc.frame.header b hblt)).symm
    · change Function.update s.instances o (some b) x = some c at hx
      rw [Function.update_of_ne hxo] at hx
      exact hvalid.instances x c hx
  | @message completion hdispatched hsize =>
    have hcreates := hdispatched.creates hsize
    rw [h.world] at hcreates
    have hvalid := h.withKernel (step_grown hcreates)
    exact ⟨hvalid.reachable, hvalid.holds, rfl, hvalid.instances⟩
  | code execution => exact ⟨h.reachable, h.holds, h.world, h.instances⟩

omit [DecidableEq τ] [SendImage] [PrimitiveImage] in
theorem Start.valid {s : System τ} (h : Start s) : s.Valid := by
  obtain ⟨hkernel, hworld, hfunctions, hinstances⟩ := h
  have hreachable : KernelRun.Reachable s.kernel := ⟨_, hkernel, ReflTransGen.refl⟩
  refine ⟨hreachable, ⟨?_, fun o _ => congrFun hfunctions o, fun o function ho => ?_⟩, hworld,
    fun o b ho => ?_⟩
  · have hempty : {o | (s.functions o).isSome} = (∅ : Set ℕ) := by
      rw [hfunctions]
      exact Set.eq_empty_of_forall_notMem fun o ho => Bool.noConfusion ho
    rw [hempty]
    exact (KernelRun.valid_of_run hreachable).withObjects_empty
  · rw [hfunctions] at ho
    cases ho
  · rw [hinstances] at ho
    cases ho

/-- **Every state of a run is valid.** -/
theorem valid_of_run {s : System τ} (h : Reachable s) : s.Valid := by
  obtain ⟨s₀, hstart, hrun⟩ := h
  induction hrun with
  | refl => exact hstart.valid
  | tail _ hstep ih => exact ih.step hstep

theorem Reachable.tail {s s' : System τ} (h : Reachable s) (hrun : ReflTransGen Step s s') :
    Reachable s' := by
  obtain ⟨s₀, hstart, hrun₀⟩ := h
  exact ⟨s₀, hstart, hrun₀.trans hrun⟩

/-! ### Dispatch -/

/-- Objects whose class is known: small integers, classes, and what was created for a class. -/
def ClassOf (s : System τ) (oop b : ℕ) : Prop :=
  oopIsSmallInteger oop ∧ b = kernelClass .SmallInteger ∨ s.kernel.hierarchy.MetaclassOf oop b ∨
    s.instances oop = some b

omit [DecidableEq τ] [SendImage] [PrimitiveImage] in
/-- The class of an object is in the class table, in every state of a run. -/
theorem Valid.getClassFromOop {s : System τ} (h : s.Valid) {oop b : ℕ} (hclass : s.ClassOf oop b) :
    s.kernel.hierarchy.IsBehavior b ∧ s.runtime.world.getClassFromOop oop = some b := by
  obtain ⟨owner, f, g, hv⟩ := (KernelRun.valid_of_run h.reachable).kernel
  rw [h.world]
  rcases hclass with ⟨hsmall, rfl⟩ | hmetaclass | hinstance
  · refine ⟨s.kernel.hierarchy.isBehavior_kernelClass _, ?_⟩
    have hpointers : ¬ oopIsPointers oop := fun hpointers =>
      absurd (hsmall.symm.trans hpointers) (by decide)
    rw [World.getClassFromOop, getClassIndexFromOop, if_neg hpointers, hsmall]
    exact hv.behaviors.table.classAt_index .SmallInteger
  · exact ⟨(hv.behaviors.metaclass _ _ hmetaclass).2.1, hv.behaviors.getClassFromOop hmetaclass⟩
  · obtain ⟨hb, -, hpointers, hindex⟩ := h.instances _ _ hinstance
    refine ⟨hb, ?_⟩
    rw [World.getClassFromOop, getClassIndexFromOop, if_pos hpointers, hindex]
    exact (hv.behaviors.index b hb).2

/-- What a message comes to whose lookup begins at a behavior, when `Comes` says what it comes to:
the activation of what the selector resolves to in the hierarchy. -/
structure Understood (s : System τ) (t : τ) (sender : CallingConvention) (stackPointer b : ℕ)
    (Comes : Except SendFailure (Completion τ) → Prop) (resolved : Option ℕ) : Prop where
  resolves : Resolves s.kernel.hierarchy.superclass s.kernel.hierarchy.methods
    (Message.load sender s.runtime.stack stackPointer).selector b resolved
  comes : Comes (s.runtime.activation t sender stackPointer resolved)
  /-- Nothing was asked for, so it is not understood. -/
  undefined : resolved = none →
    Comes (.error (.doesNotUnderstand (Message.load sender s.runtime.stack stackPointer).receiver
      (s.runtime.world.memory.getClassIndexFromOop
        (Message.load sender s.runtime.stack stackPointer).receiver)
      (Message.load sender s.runtime.stack stackPointer).selector))
  /-- The method of a primitive calls the function it was made for. -/
  primitive : ∀ method p, resolved = some method →
    s.functions method = some (PrimitiveImage.address p) →
      Comes (s.runtime.primitiveOutcome t sender stackPointer p)

/-- What a lookup returns is activated. -/
theorem Valid.understood {s : System τ} (h : s.Valid) {b : ℕ}
    (hb : s.kernel.hierarchy.IsBehavior b) (t : τ) (sender : CallingConvention) (stackPointer : ℕ)
    {Comes : Except SendFailure (Completion τ) → Prop}
    (hcomes : ∀ resolved : Option ℕ, s.runtime.world.memory.LookupReturns b
      (Message.load sender s.runtime.stack stackPointer).selector (resolved.getD nilOop) →
        Comes (s.runtime.activation t sender stackPointer resolved)) :
    ∃ resolved, s.Understood t sender stackPointer b Comes resolved := by
  have hkernel := KernelRun.valid_of_run h.reachable
  obtain ⟨resolved, hresolves, hlookup, -⟩ := (hkernel.lookupResolves b hb).2
    (Message.load sender s.runtime.stack stackPointer).selector
  have hactivation := hcomes resolved (h.world ▸ hlookup)
  refine ⟨resolved, hresolves, hactivation, fun hnone => ?_, fun method p hsome hfunction => ?_⟩
  · rw [hnone, Runtime.activation_none] at hactivation
    exact hactivation
  · obtain ⟨owner, f, g, hv⟩ := hkernel.kernel
    obtain ⟨a, -, hmethod⟩ := Resolves.exists_entry (hsome ▸ hresolves)
    obtain ⟨hclass, hentry⟩ := h.holds.method method _ hfunction
    rw [← h.world] at hclass hentry
    rw [hsome, Runtime.activation_of_primitive (hv.behaviors.method a _ method hmethod).2 hclass
      hentry] at hactivation
    exact hactivation

/-- A message to an object whose class is known. -/
theorem Valid.dispatches {s : System τ} (h : s.Valid) (t : τ) {sender : CallingConvention}
    {stackPointer b : ℕ}
    (hclass : s.ClassOf (Message.load sender s.runtime.stack stackPointer).receiver b) :
    ∃ resolved, s.Understood t sender stackPointer b
      (s.runtime.Dispatches t sender stackPointer) resolved := by
  obtain ⟨owner, f, g, hv⟩ := (KernelRun.valid_of_run h.reachable).kernel
  obtain ⟨hb, hclassFromOop⟩ := h.getClassFromOop hclass
  exact h.understood hb t sender stackPointer fun resolved hlookup =>
    Runtime.dispatches_of_lookup hclassFromOop (hv.behaviors.behavior b hb).2.2.2 hlookup

/-- A message to a superclass. -/
theorem Valid.superDispatches {s : System τ} (h : s.Valid) (t : τ) (sender : CallingConvention)
    (stackPointer : ℕ) {b : ℕ} (hb : s.kernel.hierarchy.IsBehavior b) :
    ∃ resolved, s.Understood t sender stackPointer b
      (s.runtime.SuperDispatches t sender stackPointer b) resolved := by
  obtain ⟨owner, f, g, hv⟩ := (KernelRun.valid_of_run h.reachable).kernel
  exact h.understood hb t sender stackPointer fun resolved hlookup =>
    Runtime.superDispatches_of_lookup (hv.behaviors.behavior b hb).2.2.2 hlookup

/-- A message with one argument: its descriptor and its selector at `d`, its receiver and the
argument at `r`. -/
def messageMemory (d r selector receiver argument : ℕ) : ByteMemory :=
  ((ByteMemory.store64 (ByteMemory.store64 (fun _ => 0) d 1) (d + 8)
    (UInt64.ofNat selector)).store64 r (UInt64.ofNat receiver)).store64 (r + 8)
      (UInt64.ofNat argument)

omit [KernelImage] [DecidableEq τ] [SendImage] [PrimitiveImage] in
theorem load64_messageMemory {d r selector receiver argument : ℕ} (hr : d + 16 ≤ r)
    (hselector : selector < 2 ^ 64) (hreceiver : receiver < 2 ^ 64)
    (hargument : argument < 2 ^ 64) :
    (messageMemory d r selector receiver argument).load64 d = 1 ∧
      ((messageMemory d r selector receiver argument).load64 (d + 8)).toNat = selector ∧
      ((messageMemory d r selector receiver argument).load64 r).toNat = receiver ∧
      ((messageMemory d r selector receiver argument).load64 (r + 8)).toNat = argument := by
  have hword : ∀ {v : ℕ}, v < 2 ^ 64 → (UInt64.ofNat v).toNat = v := fun hv => by
    rw [UInt64.toNat_ofNat', Nat.mod_eq_of_lt hv]
  refine ⟨?_, ?_, ?_, ?_⟩
  · rw [messageMemory, ByteMemory.load64_store64_of_disjoint _ _ (by omega),
      ByteMemory.load64_store64_of_disjoint _ _ (by omega),
      ByteMemory.load64_store64_of_disjoint _ _ (by omega), ByteMemory.load64_store64]
  · rw [messageMemory, ByteMemory.load64_store64_of_disjoint _ _ (by omega),
      ByteMemory.load64_store64_of_disjoint _ _ (by omega), ByteMemory.load64_store64,
      hword hselector]
  · rw [messageMemory, ByteMemory.load64_store64_of_disjoint _ _ (by omega),
      ByteMemory.load64_store64, hword hreceiver]
  · rw [messageMemory, ByteMemory.load64_store64, hword hargument]

/-- Smalltalk code that sends a message with one argument, its stack pointer at 8000. -/
def sendingCode (selector receiver argument : ℕ) : Execution Unit :=
  { Execution.firstAtLimit with
    machine := { Execution.firstAtLimit.machine with
      memory := messageMemory 8000 8032 selector receiver argument } }

omit [KernelImage] [DecidableEq τ] [SendImage] [PrimitiveImage] in
theorem load_sendingCode {selector receiver argument : ℕ} (hselector : selector < 2 ^ 64)
    (hreceiver : receiver < 2 ^ 64) (hargument : argument < 2 ^ 64) :
    Message.load .smalltalk (sendingCode selector receiver argument).machine.memory 8000 =
      ⟨selector, receiver, [argument], 0⟩ := by
  obtain ⟨m, hm⟩ : ∃ m, m = messageMemory 8000 8032 selector receiver argument := ⟨_, rfl⟩
  obtain ⟨h8000, h8008, h8032, h8040⟩ :=
    load64_messageMemory (d := 8000) (r := 8032) (by decide) hselector hreceiver hargument
  rw [← hm] at h8000 h8008 h8032 h8040
  have hcount : (m.load16 8000).toNat = 1 :=
    (m.load16_toNat 8000 (k := 0) (by decide)).trans (by rw [h8000]; decide)
  have hnative : (m.load16 8002).toNat = 0 :=
    (m.load16_toNat 8000 (k := 2) (by decide)).trans (by rw [h8000]; decide)
  have hmemory : (sendingCode selector receiver argument).machine.memory = m := hm.symm
  rw [hmemory]
  simp only [Message.load, smalltalkMetadata, MessageSmalltalkMetadata.load, hcount, hnative, h8008,
    h8032, reduceCtorEq, if_false]
  rw [show List.range 1 = [0] from rfl, List.map_singleton, h8040]

omit [DecidableEq τ] [SendImage] [PrimitiveImage] in
/-- A function that is recorded belongs to an object of the heap. -/
theorem Valid.lt_limit {s : System τ} (h : s.Valid) {method function : ℕ}
    (hfunction : s.functions method = some function) : method < s.kernel.world.memory.limit :=
  h.holds.lt_limit hfunction

/-- Every step is one of the kernel, or the kernel is at rest. -/
theorem Step.kernel_run {s s' : System τ} (h : s.Valid) (hstep : Step s s') :
    ReflTransGen KernelRun.Step s.kernel s'.kernel := by
  cases hstep with
  | kernel hkernel => exact ReflTransGen.single hkernel
  | addPrimitive c hsymbol hmethod hadd =>
    exact ReflTransGen.single (KernelRun.Step.addPrimitive c hsymbol hmethod hadd)
  | basicNew hb hnew =>
    exact ReflTransGen.single (step_grown ⟨_, rfl, (basicNew_allocated hnew).frame⟩)
  | message hdispatched hsize =>
    have hcreates := hdispatched.creates hsize
    rw [h.world] at hcreates
    exact ReflTransGen.single (step_grown hcreates)
  | code => exact ReflTransGen.refl

/-- The functions of the primitive methods are recorded for good. -/
theorem Step.functions {s s' : System τ} (h : s.Valid) (hstep : Step s s') {method function : ℕ}
    (hfunction : s.functions method = some function) : s'.functions method = some function := by
  cases hstep with
  | @addPrimitive selector new symbol newMethod w₁ w m₂ c hsymbol hmethod hadd =>
    -- the new method is past the end of the heap
    have hne : method ≠ newMethod := by
      rintro rfl
      obtain ⟨owner, f, g, hv⟩ := (KernelRun.valid_of_run h.reachable).kernel
      obtain ⟨w₁', m₂', m, owner', symbol', method', hsymbol', hmethod', -, -, hlimit, -⟩ :=
        hv.kclassAddPrimitive_objects
          ((KernelRun.valid_of_run h.reachable).kernelClass_installed c) selector new
      obtain ⟨-, rfl⟩ := Prod.mk.inj (Option.some.inj (hsymbol.symm.trans hsymbol'))
      obtain ⟨rfl, -⟩ := Prod.mk.inj (Option.some.inj (hmethod.symm.trans hmethod'))
      exact absurd (h.lt_limit hfunction) (Nat.not_lt.mpr hlimit.le)
    exact (Function.update_of_ne hne _ _).trans hfunction
  | _ => exact hfunction

/-- What a run does to the kernel and to the functions. -/
theorem run_kernel {s s' : System τ} (h : Reachable s) (hrun : ReflTransGen Step s s') :
    ReflTransGen KernelRun.Step s.kernel s'.kernel ∧
      ∀ method function, s.functions method = some function →
        s'.functions method = some function := by
  induction hrun with
  | refl => exact ⟨ReflTransGen.refl, fun _ _ hfunction => hfunction⟩
  | tail hrun hstep ih =>
    have hvalid := valid_of_run (h.tail hrun)
    exact ⟨ih.1.trans (hstep.kernel_run hvalid), fun method function hfunction =>
      hstep.functions hvalid (ih.2 method function hfunction)⟩

/-- The class and the bytes of the selector of a primitive. -/
def primitiveKey (entry : KernelClass × String × String) : KernelClass × List UInt8 :=
  (entry.1, cStringBytes (asciiBytes entry.2.1))

/-- A method has been made for a primitive, for its selector in its class. -/
def Made (s : System τ) (symbols : List UInt8 → Option ℕ)
    (entry : KernelClass × String × String) : Prop :=
  ∃ symbol method, symbols (primitiveKey entry).2 = some symbol ∧
    s.kernel.hierarchy.methods (kernelClass entry.1) symbol = some method ∧
    s.functions method = some (PrimitiveImage.addressOf entry.1 entry.2.2)

/-- **Adding one primitive** to those made so far. -/
theorem exists_made {s : System τ} (h : Reachable s) {symbols : List UInt8 → Option ℕ}
    (hsymbols : s.kernel.HasSymbols symbols) {done : World.Primitives}
    (hdone : ∀ entry ∈ done, s.Made symbols entry) (entry : KernelClass × String × String)
    (hkey : primitiveKey entry ∉ done.map primitiveKey) :
    ∃ s' symbols', Step s s' ∧ s'.kernel.HasSymbols symbols' ∧
      (∀ entry' ∈ done ++ [entry], s'.Made symbols' entry') ∧
      s'.runtime.execution = s.runtime.execution ∧
      s.kernel.world.kclassAddPrimitive entry.1 entry.2.1
        (PrimitiveImage.addressOf entry.1 entry.2.2) = some s'.kernel.world := by
  have hvalid := valid_of_run h
  have hkernel := KernelRun.valid_of_run hvalid.reachable
  obtain ⟨c, selector, name⟩ := entry
  obtain ⟨owner, f, g, hv⟩ := hkernel.kernel
  obtain ⟨w₁, m₂, m, owner', symbol, method, hintern, hmake, hadd, -, hlimit, -⟩ :=
    hv.kclassAddPrimitive_objects (hkernel.kernelClass_installed c) selector
      (PrimitiveImage.addressOf c name)
  have hinterns := World.Interns.cstring hintern
  have hstep := Step.addPrimitive (s := s) c hintern hmake hadd
  refine ⟨_, Function.update symbols (cStringBytes (asciiBytes selector)) (some symbol), hstep, ?_,
    fun entry' hentry' => ?_, rfl, hadd⟩
  · exact hsymbols.addPrimitive hkernel hintern hmake hadd
  · rcases List.mem_append.mp hentry' with hold | hnew
    · -- a method made before: it has another symbol or another class
      obtain ⟨symbol', method', hsymbol', hmethod', hfunction'⟩ := hdone entry' hold
      have hinterned : Function.update symbols (cStringBytes (asciiBytes selector)) (some symbol)
          (primitiveKey entry').2 = some symbol' :=
        KernelRun.extends_update (fun _ _ hdata => hdata)
          (fun old hold => hsymbols.eq_of_interns hinterns hold) _ _ hsymbol'
      refine ⟨symbol', method', hinterned, ?_, hstep.functions hvalid hfunction'⟩
      show Function.update s.kernel.hierarchy.methods (kernelClass c)
        (Function.update (s.kernel.hierarchy.methods (kernelClass c)) symbol (some method))
          (kernelClass entry'.1) symbol' = some method'
      by_cases hclass : entry'.1 = c
      · have hne : symbol' ≠ symbol := by
          rintro rfl
          have hbytes := (hsymbols.interns hinterns).injective hinterned (Function.update_self ..)
          exact hkey (List.mem_map.mpr ⟨entry', hold, Prod.ext hclass hbytes⟩)
        rw [hclass, Function.update_self, Function.update_of_ne hne, ← hclass]
        exact hmethod'
      · have hne : kernelClass entry'.1 ≠ kernelClass c :=
          fun heq => hclass (kernelClass_injective heq)
        rw [Function.update_of_ne hne]
        exact hmethod'
    · -- the new one
      obtain rfl := List.mem_singleton.mp hnew
      refine ⟨symbol, method, Function.update_self .., ?_, Function.update_self ..⟩
      show Function.update s.kernel.hierarchy.methods (kernelClass c)
        (Function.update (s.kernel.hierarchy.methods (kernelClass c)) symbol (some method))
          (kernelClass c) symbol = some method
      rw [Function.update_self, Function.update_self]

/-- **The loop over primitives** with different selectors. -/
theorem exists_addPrimitives (primitives : World.Primitives) {s : System τ} (h : Reachable s)
    {symbols : List UInt8 → Option ℕ} (hsymbols : s.kernel.HasSymbols symbols)
    (done : World.Primitives) (hdone : ∀ entry ∈ done, s.Made symbols entry)
    (hnodup : ((done ++ primitives).map primitiveKey).Nodup) :
    ∃ (s' : System τ) (symbols' : List UInt8 → Option ℕ), Reachable s' ∧
      s'.kernel.HasSymbols symbols' ∧
      (∀ entry ∈ done ++ primitives, s'.Made symbols' entry) ∧
      s'.runtime.execution = s.runtime.execution ∧
      World.addPrimitives PrimitiveImage.addressOf s.kernel.world primitives =
        some s'.kernel.world := by
  induction primitives generalizing s symbols done with
  | nil =>
    rw [List.append_nil]
    exact ⟨s, symbols, h, hsymbols, hdone, rfl, rfl⟩
  | cons entry primitives ih =>
    rw [List.append_cons] at hnodup ⊢
    have hkey : primitiveKey entry ∉ done.map primitiveKey := by
      rw [List.map_append, List.map_append] at hnodup
      intro hmem
      exact (List.disjoint_of_nodup_append hnodup.of_append_left) hmem (List.mem_singleton.mpr rfl)
    obtain ⟨s₁, symbols₁, hstep, hsymbols₁, hdone₁, hexecution₁, hadd⟩ :=
      exists_made h hsymbols hdone entry hkey
    obtain ⟨s', symbols', hs', hsymbols', hdone', hexecution', hrest⟩ :=
      ih (h.tail (ReflTransGen.single hstep)) hsymbols₁ _ hdone₁ hnodup
    refine ⟨s', symbols', hs', hsymbols', hdone', hexecution'.trans hexecution₁, ?_⟩
    rw [World.addPrimitives, List.foldlM_cons]
    exact (congrArg (Option.bind · _) hadd).trans hrest

/-- Setting a class variable leaves the methods alone. -/
theorem exists_setClassVariable {s : System τ} (h : Reachable s)
    {symbols : List UInt8 → Option ℕ} (hsymbols : s.kernel.HasSymbols symbols)
    {done : World.Primitives} (hdone : ∀ entry ∈ done, s.Made symbols entry) (c : KernelClass)
    (name : String) (value : ℕ) :
    ∃ s' : System τ, Reachable s' ∧ s'.kernel.HasSymbols symbols ∧
      (∀ entry ∈ done, s'.Made symbols entry) ∧ s'.runtime.execution = s.runtime.execution ∧
      s.kernel.world.kclassVariableSet c name value = some s'.kernel.world := by
  have hvalid := KernelRun.valid_of_run (valid_of_run h).reachable
  obtain ⟨owner, f, g, hv⟩ := hvalid.kernel
  obtain ⟨m, -, -, hset, -⟩ := hv.kclassVariableSet (hvalid.pooled c) name value
  have hstep := KernelRun.Step.setClassVariable (s := s.kernel) c name value hset
  exact ⟨_, h.tail (ReflTransGen.single (Step.kernel hstep)), hsymbols.step hvalid hstep, hdone,
    rfl, hset⟩

/-- The primitives of the kernel, in the order they are added. -/
def kernelTable : World.Primitives :=
  World.kernelPrimitives ++ World.contextPrimitives ++ World.collectionsPrimitives ++
    World.magnitudePrimitives

omit [KernelImage] [SendImage] [PrimitiveImage] in
theorem nodup_kernelTable : (kernelTable.map primitiveKey).Nodup := by decide +kernel

omit [KernelImage] [SendImage] [PrimitiveImage] in
/-- The primitives added so far have different selectors too. -/
theorem nodup_of_append {primitives rest : World.Primitives}
    (h : ((primitives ++ rest).map primitiveKey).Nodup) : (primitives.map primitiveKey).Nodup :=
  h.sublist ((List.sublist_append_left _ _).map _)

/-- **`slvm_dynrun_initialize`** is a run of a system, and makes every primitive. -/
theorem exists_initialized {w : World} (h : KernelLoaded w.memory) (execution : Execution τ) :
    ∃ (s : System τ) (symbols : List UInt8 → Option ℕ), Reachable s ∧
      s.kernel.HasSymbols symbols ∧ (∀ entry ∈ kernelTable, s.Made symbols entry) ∧
      s.runtime.execution = execution ∧
      w.dynrunInitialize PrimitiveImage.addressOf = some s.kernel.world := by
  obtain ⟨w₀, w₁, hinit, hclasses, -⟩ := World.initClasses_spec h
  have hstart : Start (⟨⟨w₁, w₁.initialHierarchy, World.loadedObjects w.memory, []⟩,
      ⟨w₁, [], execution⟩, fun _ => none, fun _ => none⟩ : System τ) :=
    ⟨⟨w, w₀, w₁, h, hinit, hclasses, rfl⟩, rfl, rfl, rfl⟩
  have hs₁ : Reachable _ := ⟨_, hstart, ReflTransGen.refl⟩
  have hnodup := nodup_kernelTable
  rw [kernelTable] at hnodup ⊢
  have hnodup₃ := nodup_of_append hnodup
  have hnodup₂ := nodup_of_append hnodup₃
  obtain ⟨s₂, symbols₂, hs₂, hsymbols₂, hdone₂, hexecution₂, hkernel⟩ := exists_addPrimitives
    World.kernelPrimitives hs₁ (KernelRun.valid_of_run (valid_of_run hs₁).reachable).hasSymbols
    [] (fun _ hentry => nomatch hentry) (nodup_of_append hnodup₂)
  obtain ⟨s₃, symbols₃, hs₃, hsymbols₃, hdone₃, hexecution₃, hcontext⟩ :=
    exists_addPrimitives World.contextPrimitives hs₂ hsymbols₂ _ hdone₂ hnodup₂
  obtain ⟨s₄, hs₄, hsymbols₄, hdone₄, hexecution₄, hnewSymbols⟩ :=
    exists_setClassVariable hs₃ hsymbols₃ hdone₃
    .Symbol "NewSymbols" s₃.kernel.world.newSymbols
  obtain ⟨s₅, hs₅, hsymbols₅, hdone₅, hexecution₅, htable⟩ :=
    exists_setClassVariable hs₄ hsymbols₄ hdone₄
    .Symbol "SymbolTable" s₄.kernel.world.symbolTable
  obtain ⟨s₆, symbols₆, hs₆, hsymbols₆, hdone₆, hexecution₆, hcollections⟩ :=
    exists_addPrimitives World.collectionsPrimitives hs₅ hsymbols₅ _ hdone₅ hnodup₃
  obtain ⟨s₇, symbols₇, hs₇, hsymbols₇, hdone₇, hexecution₇, hmagnitude⟩ :=
    exists_addPrimitives World.magnitudePrimitives hs₆ hsymbols₆ _ hdone₆ hnodup
  refine ⟨s₇, symbols₇, hs₇, hsymbols₇, hdone₇, ?_, ?_⟩
  · rw [hexecution₇, hexecution₆, hexecution₅, hexecution₄, hexecution₃, hexecution₂]
  · simp only [World.dynrunInitialize, World.initCollections, hinit, hclasses, hkernel, hcontext,
      hnewSymbols, htable, hcollections, hmagnitude, Option.bind_eq_bind, Option.bind_some]

/-- What becomes of the method of a primitive in a run: its selector keeps its symbol, and messages
that resolve to it call its function. -/
structure Stays (s₀ : System τ) (entry : KernelClass × String × String) (p : PrimitiveFunction)
    (symbol method : ℕ) : Prop where
  added : s₀.kernel.hierarchy.methods (kernelClass entry.1) symbol = some method
  interned : ∀ s, ReflTransGen Step s₀ s → ∀ symbol' w',
    s.kernel.world.Interns (primitiveKey entry).2 symbol' w' → symbol' = symbol
  dispatched : ∀ s, ReflTransGen Step s₀ s → ∀ t sender stackPointer b,
    (Message.load sender s.runtime.stack stackPointer).selector = symbol →
    Resolves s.kernel.hierarchy.superclass s.kernel.hierarchy.methods symbol b (some method) →
    (s.ClassOf (Message.load sender s.runtime.stack stackPointer).receiver b →
      s.runtime.Dispatches t sender stackPointer
        (s.runtime.primitiveOutcome t sender stackPointer p)) ∧
    (s.kernel.hierarchy.IsBehavior b →
      s.runtime.SuperDispatches t sender stackPointer b
        (s.runtime.primitiveOutcome t sender stackPointer p))

theorem Made.stays {s₀ : System τ} (h : Reachable s₀) {symbols : List UInt8 → Option ℕ}
    (hsymbols : s₀.kernel.HasSymbols symbols) {entry : KernelClass × String × String}
    (hmade : s₀.Made symbols entry) {p : PrimitiveFunction}
    (hp : PrimitiveImage.addressOf entry.1 entry.2.2 = PrimitiveImage.address p) :
    ∃ symbol method, s₀.Stays entry p symbol method := by
  obtain ⟨symbol, method, hsymbol, hmethod, hfunction⟩ := hmade
  refine ⟨symbol, method, hmethod, fun s hrun symbol' w' hinterns => ?_,
    fun s hrun t sender stackPointer b hselector hresolves => ?_⟩
  · have hkept := hsymbols.run (valid_of_run h).reachable (run_kernel h hrun).1
    exact hkept.eq_of_interns hinterns hsymbol
  · have hvalid := valid_of_run (h.tail hrun)
    have hfunction' := hp ▸ (run_kernel h hrun).2 method _ hfunction
    constructor
    · intro hclass
      obtain ⟨resolved, hunderstood⟩ := hvalid.dispatches t hclass
      have hresolved := hunderstood.resolves.functional (hselector.symm ▸ hresolves)
      exact hunderstood.primitive method p hresolved hfunction'
    · intro hb
      obtain ⟨resolved, hunderstood⟩ := hvalid.superDispatches t sender stackPointer hb
      have hresolved := hunderstood.resolves.functional (hselector.symm ▸ hresolves)
      exact hunderstood.primitive method p hresolved hfunction'

/-- The operations of small integers with an argument: the selector, the function and what it
computes. -/
def arithmetic : List (String × PrimitiveFunction × (PrimitiveContext → Option ℕ)) :=
  [("+", .SmallInteger_plus, SmallInteger.plus), ("-", .SmallInteger_minus, SmallInteger.minus),
   ("*", .SmallInteger_multiply, SmallInteger.multiply),
   (">", .SmallInteger_greaterThan, SmallInteger.greaterThan),
   ("<", .SmallInteger_lessThan, SmallInteger.lessThan)]

omit [SendImage] [PrimitiveImage] in
theorem mem_kernelTable_of_arithmetic {selector : String} {p : PrimitiveFunction}
    {primitive : PrimitiveContext → Option ℕ} (h : (selector, p, primitive) ∈ arithmetic) :
    (KernelClass.SmallInteger, selector, p.symbol.2) ∈ kernelTable ∧
      p.symbol.1 = .SmallInteger ∧ p.call = smallIntegerPrimitive primitive := by
  simp only [arithmetic, List.mem_cons, List.not_mem_nil, or_false, Prod.mk.injEq] at h
  rcases h with ⟨rfl, rfl, rfl⟩ | ⟨rfl, rfl, rfl⟩ | ⟨rfl, rfl, rfl⟩ | ⟨rfl, rfl, rfl⟩ |
    ⟨rfl, rfl, rfl⟩
  all_goals exact ⟨by decide +kernel, rfl, rfl⟩

omit [SendImage] [PrimitiveImage] in
/-- A primitive of small integers computes with two of them. -/
theorem exists_result_of_arithmetic {selector : String} {p : PrimitiveFunction}
    {primitive : PrimitiveContext → Option ℕ} (h : (selector, p, primitive) ∈ arithmetic)
    (errorCode : ℕ) (a b : SmallInteger) :
    ∃ result, primitive ⟨errorCode, a.oop, [b.oop]⟩ = some result := by
  simp only [arithmetic, List.mem_cons, List.not_mem_nil, or_false, Prod.mk.injEq] at h
  rcases h with ⟨-, -, rfl⟩ | ⟨-, -, rfl⟩ | ⟨-, -, rfl⟩ | ⟨-, -, rfl⟩ | ⟨-, -, rfl⟩
  all_goals exact ⟨_, SmallInteger.binaryPrimitive_eq _ errorCode a b⟩

/-- **Arithmetic.** After `slvm_dynrun_initialize`, in whatever state calls, messages and code lead
to, a message to a small integer with another one as its argument, for one of the operators, is
answered with what the primitive computes, as long as no other method has been registered for this
selector in `SmallInteger`. -/
theorem arithmetic_of_run (w : World) (h : KernelLoaded w.memory) (execution : Execution τ) :
    ∃ s₀ : System τ, Reachable s₀ ∧ s₀.runtime.execution = execution ∧
      w.dynrunInitialize PrimitiveImage.addressOf = some s₀.kernel.world ∧
      ∀ selector p primitive, (selector, p, primitive) ∈ arithmetic → ∃ symbol method,
        s₀.Stays (.SmallInteger, selector, p.symbol.2) p symbol method ∧
        ∀ s, ReflTransGen Step s₀ s →
          s.kernel.hierarchy.methods (kernelClass .SmallInteger) symbol = some method →
          ∀ t stackPointer (a b : SmallInteger) nativeArgumentSize,
            Message.load .smalltalk s.runtime.stack stackPointer =
              ⟨symbol, a.oop, [b.oop], nativeArgumentSize⟩ →
            ∃ result, primitive ⟨primitiveErrorSuccess, a.oop, [b.oop]⟩ = some result ∧
              s.runtime.Dispatches t .smalltalk stackPointer
                (.ok (.jumped (s.runtime.answered stackPointer result s.runtime.world []))) := by
  obtain ⟨s₀, symbols, hs₀, hsymbols, hmade, hexecution, hinit⟩ := exists_initialized h execution
  refine ⟨s₀, hs₀, hexecution, hinit, fun selector p primitive hmem => ?_⟩
  obtain ⟨hentry, hclass, hcall⟩ := mem_kernelTable_of_arithmetic hmem
  have haddress : PrimitiveImage.addressOf .SmallInteger p.symbol.2 = PrimitiveImage.address p := by
    rw [← hclass, PrimitiveImage.addressOf, p.ofSymbol_symbol]
    rfl
  obtain ⟨symbol, method, hstays⟩ := (hmade _ hentry).stays hs₀ hsymbols haddress
  refine ⟨symbol, method, hstays, fun s hrun hmethod t stackPointer a b size hload => ?_⟩
  obtain ⟨result, hresult⟩ := exists_result_of_arithmetic hmem primitiveErrorSuccess a b
  refine ⟨result, hresult, ?_⟩
  have hselector : (Message.load .smalltalk s.runtime.stack stackPointer).selector = symbol := by
    rw [hload]
  have hreceiver : s.ClassOf (Message.load .smalltalk s.runtime.stack stackPointer).receiver
      (kernelClass .SmallInteger) := by
    rw [hload]
    exact Or.inl ⟨a.oop_isSmallInteger, rfl⟩
  have houtcome : s.runtime.primitiveOutcome t .smalltalk stackPointer p =
      .ok (.jumped (s.runtime.answered stackPointer result s.runtime.world [])) := by
    have hprimitive : p.call ((Message.load .smalltalk s.runtime.stack stackPointer).primitiveCall
        .smalltalk stackPointer) s.runtime.world =
        some (.returns result primitiveErrorSuccess s.runtime.world []) := by
      rw [hcall, hload, smallIntegerPrimitive]
      exact Option.map_eq_some_iff.mpr ⟨result, hresult, rfl⟩
    exact Runtime.primitiveOutcome_returns hprimitive
  rw [← houtcome]
  exact (hstays.dispatched s hrun t .smalltalk stackPointer _ hselector
    (Resolves.here hmethod)).1 hreceiver

omit [KernelImage] [DecidableEq τ] [SendImage] [PrimitiveImage] in
/-- The sum of 3 and 4, whatever address below 2^64 the symbol of `+` has. -/
theorem arithmetic_of_run_sequential :
    letI := sequentialImage
    letI := numberedSendImage
    letI := numberedPrimitiveImage
    ∃ (s₀ : System Unit) (symbol method : ℕ), Reachable s₀ ∧
      s₀.kernel.hierarchy.methods (kernelClass .SmallInteger) symbol = some method ∧
      (symbol < 2 ^ 64 → ∃ s, ReflTransGen Step s₀ s ∧
        Message.load .smalltalk s.runtime.stack 8000 =
          ⟨symbol, SmallInteger.oop ⟨3, by decide⟩, [SmallInteger.oop ⟨4, by decide⟩], 0⟩ ∧
        s.runtime.Dispatches () .smalltalk 8000 (.ok (.jumped
          (s.runtime.answered 8000 (SmallInteger.oop ⟨7, by decide⟩) s.runtime.world [])))) := by
  let := sequentialImage
  let := numberedSendImage
  let := numberedPrimitiveImage
  obtain ⟨s₀, hs₀, -, -, hall⟩ :=
    arithmetic_of_run World.sequential World.sequential_loaded Execution.firstAtLimit
  obtain ⟨symbol, method, hstays, hanswers⟩ := hall "+" _ _ (List.mem_cons_self ..)
  refine ⟨s₀, symbol, method, hs₀, hstays.added, fun hsymbol => ?_⟩
  have hstep := Step.code (s := s₀) (sendingCode symbol (SmallInteger.oop ⟨3, by decide⟩)
    (SmallInteger.oop ⟨4, by decide⟩))
  have hthree : SmallInteger.oop ⟨3, by decide⟩ < 2 ^ 64 := by decide
  have hfour : SmallInteger.oop ⟨4, by decide⟩ < 2 ^ 64 := by decide
  have hload := load_sendingCode hsymbol hthree hfour
  obtain ⟨result, hresult, hdispatches⟩ := hanswers _ (ReflTransGen.single hstep) hstays.added ()
    8000 _ _ _ hload
  obtain rfl : SmallInteger.oop ⟨7, by decide⟩ = result :=
    Option.some.inj ((by decide : some _ = SmallInteger.plus _).trans hresult)
  exact ⟨_, ReflTransGen.single hstep, hload, hdispatches⟩

/-! ### Numerals -/

/-- **Numerals.** After `slvm_dynrun_initialize`, in whatever state calls, messages and code lead
to, `asString` to a small integer answers a new string, which is read back as that integer, as long
as no other method has been registered for this selector in `SmallInteger`. -/
theorem asString_of_run (w : World) (h : KernelLoaded w.memory) (execution : Execution τ) :
    ∃ s₀ : System τ, Reachable s₀ ∧ s₀.runtime.execution = execution ∧
      w.dynrunInitialize PrimitiveImage.addressOf = some s₀.kernel.world ∧ ∃ symbol method,
        s₀.Stays (.SmallInteger, "asString", "asString") .SmallInteger_asString symbol method ∧
        ∀ s, ReflTransGen Step s₀ s →
          s.kernel.hierarchy.methods (kernelClass .SmallInteger) symbol = some method →
          ∀ t stackPointer (a : SmallInteger) arguments nativeArgumentSize,
            Message.load .smalltalk s.runtime.stack stackPointer =
              ⟨symbol, a.oop, arguments, nativeArgumentSize⟩ →
            ∃ o m,
              s.runtime.Dispatches t .smalltalk stackPointer (.ok (.jumped
                (s.runtime.answered stackPointer o (s.runtime.world.withMemory m) []))) ∧
              Allocated s.runtime.world.memory KernelClass.ByteString.index (m.bytes o).length o m ∧
              Decimal.readInt (m.bytes o) = some a.val := by
  obtain ⟨s₀, symbols, hs₀, hsymbols, hmade, hexecution, hinit⟩ := exists_initialized h execution
  have hentry : (KernelClass.SmallInteger, "asString", "asString") ∈ kernelTable := by
    decide +kernel
  obtain ⟨symbol, method, hstays⟩ := (hmade _ hentry).stays (p := .SmallInteger_asString) hs₀
    hsymbols rfl
  refine ⟨s₀, hs₀, hexecution, hinit, symbol, method, hstays,
    fun s hrun hmethod t stackPointer a arguments size hload => ?_⟩
  have hvalid := valid_of_run (hs₀.tail hrun)
  obtain ⟨owner, f, g, hv⟩ := (KernelRun.valid_of_run hvalid.reachable).kernel
  obtain ⟨o, m, hcall, halloc, hbytes⟩ := smallIntegerAsString_spec
    (hvalid.world ▸ hv.globals.symbols.kernel)
    ((Message.load .smalltalk s.runtime.stack stackPointer).primitiveCall .smalltalk stackPointer)
  refine ⟨o, m, ?_, halloc, ?_⟩
  · have hselector : (Message.load .smalltalk s.runtime.stack stackPointer).selector = symbol := by
      rw [hload]
    have hreceiver : s.ClassOf (Message.load .smalltalk s.runtime.stack stackPointer).receiver
        (kernelClass .SmallInteger) := by
      rw [hload]
      exact Or.inl ⟨a.oop_isSmallInteger, rfl⟩
    have houtcome := Runtime.primitiveOutcome_returns (t := t) (p := .SmallInteger_asString) hcall
    have hdispatched := (hstays.dispatched s hrun t .smalltalk stackPointer _ hselector
      (Resolves.here hmethod)).1 hreceiver
    rwa [houtcome] at hdispatched
  · have hreceiver :
        ((Message.load .smalltalk s.runtime.stack stackPointer).primitiveCall .smalltalk
        stackPointer).receiver = a.oop := congrArg Message.receiver hload
    rw [hbytes, Decimal.readInt_printInt, hreceiver, SmallInteger.decode_oop]

omit [KernelImage] [DecidableEq τ] [SendImage] [PrimitiveImage] in
/-- The numeral of -12, whatever address below 2^64 the symbol of `asString` has. -/
theorem asString_of_run_sequential :
    letI := sequentialImage
    letI := numberedSendImage
    letI := numberedPrimitiveImage
    ∃ (s₀ : System Unit) (symbol method : ℕ), Reachable s₀ ∧
      s₀.kernel.hierarchy.methods (kernelClass .SmallInteger) symbol = some method ∧
      (symbol < 2 ^ 64 → ∃ s o m, ReflTransGen Step s₀ s ∧
        (Message.load .smalltalk s.runtime.stack 8000).receiver =
          SmallInteger.oop ⟨-12, by decide⟩ ∧
        s.runtime.Dispatches () .smalltalk 8000 (.ok (.jumped
          (s.runtime.answered 8000 o (s.runtime.world.withMemory m) []))) ∧
        Decimal.readInt (m.bytes o) = some (-12)) := by
  let := sequentialImage
  let := numberedSendImage
  let := numberedPrimitiveImage
  obtain ⟨s₀, hs₀, -, -, symbol, method, hstays, hanswers⟩ :=
    asString_of_run World.sequential World.sequential_loaded Execution.firstAtLimit
  refine ⟨s₀, symbol, method, hs₀, hstays.added, fun hsymbol => ?_⟩
  have hstep := Step.code (s := s₀) (sendingCode symbol (SmallInteger.oop ⟨-12, by decide⟩) 0)
  have hreceiver : SmallInteger.oop ⟨-12, by decide⟩ < 2 ^ 64 := by decide
  have hload := load_sendingCode hsymbol hreceiver (Nat.two_pow_pos 64)
  obtain ⟨o, m, hdispatches, -, hread⟩ := hanswers _ (ReflTransGen.single hstep) hstays.added ()
    8000 _ _ _ hload
  exact ⟨_, o, m, ReflTransGen.single hstep, congrArg Message.receiver hload, hdispatches, hread⟩

end System

end Sends

end SlvmNative
