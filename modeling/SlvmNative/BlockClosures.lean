import SlvmNative.KernelSends
import SlvmNative.MessageRuns

/-!
# Block closures

Smalltalk code calls the runtime to create a closure for a compiled method and the vectors that hold
shared variables. A closure is activated by one of sixteen messages, each of them a primitive that
compares what it is sent with what the method was compiled for.

## Main definitions

* `ObjectMemory.fullBlockClosureNew`, `Runtime.createFullBlockClosure`, `Runtime.tempVectorCreate`
* `ObjectMemory.IsClosure` — a closure for a number of arguments

## Main results

* `System.createFullBlockClosure_of_run`, `System.tempVectorCreate_of_run` — creating a closure or a
  vector returns to the caller with it, and is a run of the system
* `System.closures_of_run` — a closure is activated just in case it is sent as many arguments as its
  method was compiled for
-/

namespace SlvmNative

open ObjectMemory Execution Inheritance Relation

/-! ### Descriptors -/

variable [KernelImage]

namespace ObjectMemory

/-- What `slvm_dynrun_primitive_createFullBlockClosure` does with its arguments. -/
def fullBlockClosureNew (m : ObjectMemory) (outerContext receiver compiledMethod
    copiedParametersSize : ℕ) : Option (ℕ × ObjectMemory) := do
  let (closure, m) ← m.kernelNew .FullBlockClosure copiedParametersSize
  let m := m.setSlot closure Field.outerContext outerContext
  let m := m.setSlot closure Field.numArgs (m.slot compiledMethod Field.argumentDescriptor)
  let m := m.setSlot closure Field.startpc compiledMethod
  let m := m.setSlot closure Field.receiver receiver
  return (closure, m)

/-- A closure of a method that was compiled for `n` arguments and `k` bytes of native ones. -/
structure IsClosure (m : ObjectMemory) (closure compiledMethod n k : ℕ) : Prop where
  startpc : m.slot closure Field.startpc = compiledMethod
  compiled : m.getClassIndexFromOop compiledMethod = KernelClass.CompiledMethod.index
  numArgs : (decodeSignedSmallInteger (m.slot closure Field.numArgs)).toNat =
    argumentDescriptorMake n k
  n_lt : n < 2 ^ 16

/-- A new closure, with room for the values it captures. -/
structure NewClosure (m : ObjectMemory) (outerContext receiver compiledMethod size closure : ℕ)
    (m' : ObjectMemory) : Prop where
  allocated : Allocated m KernelClass.FullBlockClosure.index (4 + size) closure m'
  outerContext : m'.slot closure Field.outerContext = outerContext
  startpc : m'.slot closure Field.startpc = compiledMethod
  numArgs : m'.slot closure Field.numArgs = m.slot compiledMethod Field.argumentDescriptor
  receiver : m'.slot closure Field.receiver = receiver
  copied : ∀ i < size, m'.slot closure (4 + i) = nilOop

omit [KernelImage] in
theorem Allocated.setSlot {m m' : ObjectMemory} {classIndex size o : ℕ}
    (h : Allocated m classIndex size o m') (i v : ℕ) :
    Allocated m classIndex size o (m'.setSlot o i v) :=
  ⟨h.frame.trans (Frame.setSlot _ _ (Or.inr h.limit_lt.le) v), h.limit_lt, h.lt_limit, h.aligned,
    h.classIndex, h.identityHash, h.basicSize⟩

theorem KernelIntact.fullBlockClosureNew_spec {m : ObjectMemory} (h : KernelIntact m)
    (outerContext receiver : ℕ) {compiledMethod : ℕ} (size : ℕ)
    (hmethod : compiledMethod < m.limit) :
    ∃ closure m', m.fullBlockClosureNew outerContext receiver compiledMethod size =
      some (closure, m') ∧ NewClosure m outerContext receiver compiledMethod size closure m' := by
  obtain ⟨closure, m₁, hnew, halloc, -, hnil⟩ :=
    h.kernelNew_pointers (c := .FullBlockClosure) (by decide) size
  have hne : compiledMethod ≠ closure := (hmethod.trans halloc.limit_lt).ne
  have hdescriptor : (m₁.setSlot closure Field.outerContext outerContext).slot compiledMethod
      Field.argumentDescriptor = m.slot compiledMethod Field.argumentDescriptor := by
    rw [setSlot_slot_of_ne _ _ _ _ hne]
    exact halloc.frame.slot _ hmethod _ (Set.notMem_empty _)
  refine ⟨closure, (((m₁.setSlot closure Field.outerContext outerContext).setSlot closure
    Field.numArgs (m.slot compiledMethod Field.argumentDescriptor)).setSlot closure Field.startpc
      compiledMethod).setSlot closure Field.receiver receiver, ?_, ?_⟩
  · rw [fullBlockClosureNew, hnew]
    simp only [Option.bind_eq_bind, Option.bind_some, hdescriptor]
    rfl
  · refine ⟨(((halloc.setSlot _ _).setSlot _ _).setSlot _ _).setSlot _ _, ?_, ?_, ?_, ?_,
      fun i hi => ?_⟩
    all_goals simp only [setSlot_slot_same, Function.update_self]
    · rfl
    · rfl
    · rfl
    · have hcaptured : ∀ j < 4, 4 + i ≠ j := fun j hj => by omega
      rw [Function.update_of_ne (hcaptured 3 (by decide)),
        Function.update_of_ne (hcaptured 1 (by decide)),
        Function.update_of_ne (hcaptured 2 (by decide)),
        Function.update_of_ne (hcaptured 0 (by decide))]
      exact hnil _ (Nat.add_lt_add_left hi 4)

/-- A new closure of a method that was compiled for some arguments is a closure for them. -/
theorem NewClosure.isClosure {m m' : ObjectMemory} {outerContext receiver compiledMethod size
    closure n k : ℕ} (h : NewClosure m outerContext receiver compiledMethod size closure m')
    (hmethod : compiledMethod < m.limit)
    (hcompiled : m.getClassIndexFromOop compiledMethod = KernelClass.CompiledMethod.index)
    (hdescriptor : (decodeSignedSmallInteger
      (m.slot compiledMethod Field.argumentDescriptor)).toNat = argumentDescriptorMake n k)
    (hn : n < 2 ^ 16) : m'.IsClosure closure compiledMethod n k := by
  refine ⟨h.startpc, ?_, h.numArgs ▸ hdescriptor, hn⟩
  rw [← hcompiled, getClassIndexFromOop, getClassIndexFromOop, h.allocated.frame.header _ hmethod]

end ObjectMemory

section Calls

variable {τ : Type} [DecidableEq τ]

namespace Runtime

/-- `SLVM_RUNTIME_PRIMITIVE_ARG` of a pointer -/
def primitiveArgument (s : Runtime τ) (stackPointer index : ℕ) : ℕ :=
  (s.stack.load64 (stackPointer + 16 + index * 8)).toNat

/-- `SLVM_RUNTIME_PRIMITIVE_RETURN` of a new object, with the heap it is in. -/
def primitiveReturn (s : Runtime τ) (stackPointer popCount : ℕ) (created : ℕ × ObjectMemory) :
    Runtime τ :=
  { s with
    world := s.world.withMemory created.2
    execution := s.execution.primitiveReturn stackPointer popCount (UInt64.ofNat created.1) }

/-- `slvm_dynrun_primitive_createFullBlockClosure`; the number of copied parameters is
a `uint32_t`. -/
def createFullBlockClosure (s : Runtime τ) (stackPointer : ℕ) : Option (Runtime τ) := do
  let outerContext := s.primitiveArgument stackPointer 0
  let receiver := s.primitiveArgument stackPointer 1
  let compiledMethod := s.primitiveArgument stackPointer 2
  let copiedParametersSize := (s.stack.load32 (stackPointer + 40)).toNat
  let created ← s.world.memory.fullBlockClosureNew outerContext receiver compiledMethod
    copiedParametersSize
  return s.primitiveReturn stackPointer 4 created

/-- `slvm_dynrun_primitive_tempVectorCreate`. A size that wraps comes to a fault here, as it does in
`behaviorBasicNewWithSize`. -/
def tempVectorCreate (s : Runtime τ) (stackPointer : ℕ) : Option (Runtime τ) :=
  let size := s.primitiveArgument stackPointer 0
  if 2 ^ 60 ≤ size then none
  else do
    let created ← s.world.memory.kernelNew .Array size
    return s.primitiveReturn stackPointer 1 created

/-- `slvm_dynrun_primitive_dispatch_trampoline`, with the primitive that is in `rax`. -/
def primitiveDispatch (s : Runtime τ) (primitive : Runtime τ → ℕ → Option (Runtime τ)) :
    Option (Runtime τ) :=
  primitive { s with execution := s.execution.enterPrimitive } (s.execution.machine.rsp - 8)

/-- An argument of a call of the runtime, above the return address. -/
def calledArgument (s : Runtime τ) (index : ℕ) : UInt64 :=
  s.stack.load64 (s.execution.machine.rsp + 8 + index * 8)

omit [KernelImage] [DecidableEq τ] in
/-- The primitive gets the arguments of the call. -/
theorem load64_enterPrimitive (s : Runtime τ) (h : 8 ≤ s.execution.machine.rsp) (index : ℕ) :
    s.execution.enterPrimitive.machine.memory.load64
      (s.execution.machine.rsp - 8 + 16 + index * 8) = s.calledArgument index := by
  show (s.execution.machine.memory.store64 (s.execution.machine.rsp - 8)
    s.execution.machine.rbp).load64 _ = _
  rw [ByteMemory.load64_store64_of_disjoint _ _ (by omega), calledArgument,
    show s.execution.machine.rsp - 8 + 16 + index * 8 =
      s.execution.machine.rsp + 8 + index * 8 by omega]

end Runtime

variable {t : τ} {kept : Set ℕ} {l : List ℕ} {g ret base : ℕ} {s : Runtime τ}

omit [KernelImage] in
/-- There is room for what the trampoline pushes. -/
theorem Execution.OnSegment.eight_le_rsp {s : Execution τ} {size : ℕ}
    (h : OnSegment t kept l g ret base s) (hfits : Fits g ret 8 size s) : 8 ≤ s.machine.rsp := by
  have hroom := hfits.room
  have hsmall := h.segment_le
  omega

variable [SendImage] [PrimitiveImage]

/-- **A call of the runtime that only creates an object** returns to its caller with it. -/
theorem messageRun_primitiveReturn (popCount : ℕ)
    (hfits : Fits g ret 8 ((popCount * 8 + 15) / 16 * 16) s.execution)
    (created : ℕ × ObjectMemory) :
    MessageRun t kept (.call ((popCount * 8 + 15) / 16 * 16)) l g ret base s
      (({ s with execution := s.execution.enterPrimitive } : Runtime τ).primitiveReturn
        (s.execution.machine.rsp - 8) popCount created) :=
  @MessageRun.runtimePrimitive _ _ _ _ _ _ _ _ _ _ _ _
    { s with
      world := s.world.withMemory created.2
      execution := s.execution.enterPrimitive }
    _ _ hfits (Own.refl _) (ByteMemory.SameOn.refl _ _ _)

/-! ### Creating closures in a run -/

namespace System

/-- A system in which an object has been created for a class. -/
def created (s : System τ) (b o : ℕ) (m : ObjectMemory) : System τ where
  kernel := s.kernel.grown (s.kernel.world.withMemory m)
  runtime := { s.runtime with world := s.kernel.world.withMemory m }
  functions := s.functions
  instances := Function.update s.instances o (some b)

/-- A package stores into the object. -/
theorem created_setSlot {s : System τ} {b o : ℕ} (ho : s.kernel.world.memory.limit ≤ o)
    (m : ObjectMemory) (i v : ℕ) (hlt : o < m.limit) :
    Step (s.created b o m) (s.created b o (m.setSlot o i v)) :=
  Step.kernel (KernelRun.Step.store (Or.inr ⟨ho, hlt⟩) i v)

/-- **Creating a closure** is a run: an object is created and its slots are set. -/
theorem fullBlockClosureNew_run {s : System τ}
    {outerContext receiver compiledMethod size closure : ℕ}
    {m : ObjectMemory}
    (h : s.kernel.world.memory.fullBlockClosureNew outerContext receiver compiledMethod size =
      some (closure, m)) :
    ReflTransGen Step s (s.created (kernelClass .FullBlockClosure) closure m) := by
  obtain ⟨⟨closure, m₁⟩, hnew, heq⟩ := Option.bind_eq_some_iff.mp h
  obtain ⟨rfl, rfl⟩ := Prod.mk.inj (Option.some.inj heq)
  have halloc := basicNew_allocated hnew
  have hcreated : Step s (s.created (kernelClass .FullBlockClosure) closure m₁) :=
    Step.basicNew (Hierarchy.isBehavior_kernelClass _ _) hnew
  have hle := halloc.limit_lt.le
  have hlt := halloc.lt_limit
  exact ((((ReflTransGen.single hcreated).tail (created_setSlot hle _ _ _ hlt)).tail
    (created_setSlot hle _ _ _ hlt)).tail (created_setSlot hle _ _ _ hlt)).tail
      (created_setSlot hle _ _ _ hlt)

/-- A call of the runtime from Smalltalk code that creates an object. -/
structure ReturnsCreated (t : τ) (kept : Set ℕ) (l : List ℕ) (g ret base : ℕ) (s : System τ)
    (size b o : ℕ) (s' : System τ) : Prop where
  run : ReflTransGen Step s s'
  call : MessageRun t kept (.call size) l g ret base s.runtime s'.runtime
  returned : Returned s.runtime.execution s'.runtime.execution size (UInt64.ofNat o)
  keeps : Keeps t kept l g ret base s.runtime.execution s'.runtime.execution
  instances : s'.instances = Function.update s.instances o (some b)

theorem Valid.returnsCreated {s : System τ} (h : s.Valid) {t : τ} {kept : Set ℕ} {l : List ℕ}
    {g ret base : ℕ} (hseg : OnSegment t kept l g ret base s.runtime.execution) (popCount : ℕ)
    (hfits : Fits g ret 8 ((popCount * 8 + 15) / 16 * 16) s.runtime.execution) {b o : ℕ}
    {m : ObjectMemory} (hcreated : ReflTransGen Step s (s.created b o m)) :
    ∃ s' : System τ, s'.runtime = ({ s.runtime with
        execution := s.runtime.execution.enterPrimitive } : Runtime τ).primitiveReturn
          (s.runtime.execution.machine.rsp - 8) popCount (o, m) ∧
      s'.kernel.world.memory = m ∧
      ReturnsCreated t kept l g ret base s ((popCount * 8 + 15) / 16 * 16) b o s' := by
  have hcall : MessageRun t kept (.call ((popCount * 8 + 15) / 16 * 16)) l g ret base s.runtime _ :=
    messageRun_primitiveReturn popCount hfits (o, m)
  generalize hreturned : ({ s.runtime with
    execution := s.runtime.execution.enterPrimitive } : Runtime τ).primitiveReturn
      (s.runtime.execution.machine.rsp - 8) popCount (o, m) = returned at hcall ⊢
  have hruntime : { (s.created b o m).runtime with execution := returned.execution } =
      returned := by
    rw [← hreturned]
    exact congrArg (fun w => Runtime.mk (World.withMemory w m) _ _) h.world.symm
  have hrax : returned.execution.rax = UInt64.ofNat o := by
    rw [← hreturned]
    rfl
  have hspec := hcall.spec hseg
  exact ⟨_, hruntime, rfl, hcreated.tail (Step.code returned.execution), hruntime.symm ▸ hcall,
    hrax ▸ hspec.1, hspec.2, rfl⟩

/-- **Creating a closure**, from Smalltalk code on a segment. The call returns to its caller with a
new closure that holds what the caller passed and takes the arguments its method was compiled for,
the caller's stack and everything else in the heap are as they were, and for the system it is a
run. -/
theorem createFullBlockClosure_of_run (s : System τ) (h : Reachable s) (t : τ) (kept : Set ℕ)
    (l : List ℕ) (g ret base : ℕ) (hseg : OnSegment t kept l g ret base s.runtime.execution)
    (hfits : Fits g ret 8 32 s.runtime.execution)
    (hmethod : (s.runtime.calledArgument 2).toNat < s.kernel.world.memory.limit) :
    ∃ (closure : ℕ) (s' : System τ),
      s.runtime.primitiveDispatch Runtime.createFullBlockClosure = some s'.runtime ∧
      ReturnsCreated t kept l g ret base s 32 (kernelClass .FullBlockClosure) closure s' ∧
      NewClosure s.kernel.world.memory (s.runtime.calledArgument 0).toNat
        (s.runtime.calledArgument 1).toNat (s.runtime.calledArgument 2).toNat
        ((s.runtime.calledArgument 3).toNat % 2 ^ 32) closure s'.kernel.world.memory ∧
      ∀ n k, s.kernel.world.memory.getClassIndexFromOop (s.runtime.calledArgument 2).toNat =
          KernelClass.CompiledMethod.index →
        (decodeSignedSmallInteger (s.kernel.world.memory.slot (s.runtime.calledArgument 2).toNat
          Field.argumentDescriptor)).toNat = argumentDescriptorMake n k →
        n < 2 ^ 16 →
        s'.kernel.world.memory.IsClosure closure (s.runtime.calledArgument 2).toNat n k := by
  have hvalid := valid_of_run h
  obtain ⟨owner, f, g', hv⟩ := (KernelRun.valid_of_run hvalid.reachable).kernel
  obtain ⟨closure, m, hnew, hclosure⟩ := hv.globals.symbols.kernel.fullBlockClosureNew_spec
    (s.runtime.calledArgument 0).toNat (s.runtime.calledArgument 1).toNat
    ((s.runtime.calledArgument 3).toNat % 2 ^ 32) hmethod
  obtain ⟨s', hruntime, hmemory, hreturns⟩ :=
    hvalid.returnsCreated hseg 4 hfits (fullBlockClosureNew_run hnew)
  refine ⟨closure, s', ?_, hreturns, hmemory ▸ hclosure, fun n k hcompiled hdescriptor hn =>
    hmemory ▸ hclosure.isClosure hmethod hcompiled hdescriptor hn⟩
  -- the primitive gets the arguments of the call
  have hargument := s.runtime.load64_enterPrimitive (hseg.eight_le_rsp hfits)
  have hsize := ByteMemory.load32_toNat s.runtime.execution.enterPrimitive.machine.memory
    (s.runtime.execution.machine.rsp - 8 + 16 + 3 * 8) (k := 0) (by decide)
  rw [hargument, Nat.pow_zero, Nat.div_one] at hsize
  rw [← hvalid.world] at hnew
  rw [Runtime.primitiveDispatch, Runtime.createFullBlockClosure]
  simp only [Runtime.primitiveArgument, Runtime.stack, hargument]
  rw [show s.runtime.execution.machine.rsp - 8 + 40 =
    s.runtime.execution.machine.rsp - 8 + 16 + 3 * 8 + 0 by omega, hsize, hnew, hruntime]
  rfl

omit [KernelImage] [DecidableEq τ] [SendImage] [PrimitiveImage] in
/-- A closure without captured values, created on the first segment of a thread. -/
theorem createFullBlockClosure_of_run_sequential :
    letI := sequentialImage
    letI := numberedSendImage
    letI := numberedPrimitiveImage
    ∃ (s s' : System Unit) (closure : ℕ), Reachable s ∧
      s.runtime.primitiveDispatch Runtime.createFullBlockClosure = some s'.runtime ∧
      s'.instances closure = some (kernelClass .FullBlockClosure) ∧
      s'.runtime.execution.machine.rsp = 8040 := by
  let := sequentialImage
  let := numberedSendImage
  let := numberedPrimitiveImage
  obtain ⟨s, hstart, hexecution⟩ := exists_start World.sequential_loaded firstAtLimit
  have hreachable : Reachable s := ⟨s, hstart, ReflTransGen.refl⟩
  obtain ⟨owner, f, g, hv⟩ := (KernelRun.valid_of_run (valid_of_run hreachable).reachable).kernel
  have hseg : OnSegment () ∅ [] 8128 8112 8120 s.runtime.execution :=
    firstAtLimit_onSegment 8112 8120 (by decide) (by decide) (congrArg _ hexecution)
  have hfits : Fits 8128 8112 8 32 s.runtime.execution := by
    rw [hexecution]
    exact ⟨by decide, by decide⟩
  have hmethod : (s.runtime.calledArgument 2).toNat < s.kernel.world.memory.limit := by
    rw [Runtime.calledArgument, Runtime.stack, hexecution]
    have hzero : (firstAtLimit.machine.memory.load64
        (firstAtLimit.machine.rsp + 8 + 2 * 8)).toNat = 0 := by decide +kernel
    rw [hzero]
    exact Nat.zero_lt_of_lt (hv.globals.symbols.kernel.lt_limit .nil)
  obtain ⟨closure, s', hdispatch, hreturns, -⟩ :=
    createFullBlockClosure_of_run s hreachable () ∅ [] 8128 8112 8120 hseg hfits hmethod
  refine ⟨s, s', closure, hreachable, hdispatch, ?_, ?_⟩
  · rw [hreturns.instances, Function.update_self]
  · rw [hreturns.returned.rsp, hexecution]
    rfl

/-- **Creating a vector** for shared variables: as for a closure, with a new array of nils. -/
theorem tempVectorCreate_of_run (s : System τ) (h : Reachable s) (t : τ) (kept : Set ℕ)
    (l : List ℕ) (g ret base : ℕ) (hseg : OnSegment t kept l g ret base s.runtime.execution)
    (hfits : Fits g ret 8 16 s.runtime.execution)
    (hsize : (s.runtime.calledArgument 0).toNat < 2 ^ 60) :
    ∃ (vector : ℕ) (s' : System τ),
      s.runtime.primitiveDispatch Runtime.tempVectorCreate = some s'.runtime ∧
      ReturnsCreated t kept l g ret base s 16 (kernelClass .Array) vector s' ∧
      Allocated s.kernel.world.memory KernelClass.Array.index
        (s.runtime.calledArgument 0).toNat vector
        s'.kernel.world.memory ∧
      ∀ i < (s.runtime.calledArgument 0).toNat,
        s'.kernel.world.memory.slot vector i = nilOop := by
  have hvalid := valid_of_run h
  obtain ⟨owner, f, g', hv⟩ := (KernelRun.valid_of_run hvalid.reachable).kernel
  obtain ⟨vector, m, hnew, halloc, -, hnil⟩ := @KernelIntact.kernelNew_pointers _ _
    hv.globals.symbols.kernel .Array (by decide) (s.runtime.calledArgument 0).toNat
  rw [show KernelClass.Array.info.fixedSize + (s.runtime.calledArgument 0).toNat =
    (s.runtime.calledArgument 0).toNat from Nat.zero_add _] at halloc hnil
  obtain ⟨s', hruntime, rfl, hreturns⟩ := hvalid.returnsCreated hseg 1 hfits
    (ReflTransGen.single (Step.basicNew (Hierarchy.isBehavior_kernelClass _ _) hnew))
  refine ⟨vector, s', ?_, hreturns, halloc, hnil⟩
  have hargument := s.runtime.load64_enterPrimitive (hseg.eight_le_rsp hfits) 0
  rw [← hvalid.world] at hnew
  rw [Runtime.primitiveDispatch, Runtime.tempVectorCreate]
  simp only [Runtime.primitiveArgument, Runtime.stack, hargument, if_neg (Nat.not_le.mpr hsize)]
  rw [hnew, hruntime]
  rfl

omit [KernelImage] [DecidableEq τ] [SendImage] [PrimitiveImage] in
/-- A vector for two variables, created on the first segment of a thread. -/
theorem tempVectorCreate_of_run_sequential :
    letI := sequentialImage
    letI := numberedSendImage
    letI := numberedPrimitiveImage
    ∃ (s s' : System Unit) (vector : ℕ), Reachable s ∧
      s.runtime.primitiveDispatch Runtime.tempVectorCreate = some s'.runtime ∧
      s'.kernel.world.memory.basicSize vector = 2 ∧
      s'.kernel.world.memory.slot vector 1 = nilOop ∧
      s'.runtime.execution.machine.rsp = 8024 := by
  let := sequentialImage
  let := numberedSendImage
  let := numberedPrimitiveImage
  obtain ⟨s, hstart, hexecution⟩ := exists_start World.sequential_loaded (sendingCode 2 0 0)
  have hreachable : Reachable s := ⟨s, hstart, ReflTransGen.refl⟩
  have hseg : OnSegment () ∅ [] 8128 8112 8120 s.runtime.execution :=
    firstAtLimit_onSegment 8112 8120 (by decide) (by decide) (by rw [hexecution]; rfl)
  have hfits : Fits 8128 8112 8 16 s.runtime.execution := by
    rw [hexecution]
    exact ⟨by decide, by decide⟩
  have hargument : (s.runtime.calledArgument 0).toNat = 2 := by
    rw [Runtime.calledArgument, Runtime.stack, hexecution]
    exact (load64_messageMemory (d := 8000) (r := 8032) (by decide) (by decide) (by decide)
      (by decide)).2.1
  obtain ⟨vector, s', hdispatch, hreturns, hallocated, hnil⟩ :=
    tempVectorCreate_of_run s hreachable () ∅ [] 8128 8112 8120 hseg hfits
      (by rw [hargument]; decide)
  rw [hargument] at hallocated hnil
  refine ⟨s, s', vector, hreachable, hdispatch, hallocated.basicSize, hnil 1 (by decide), ?_⟩
  rw [hreturns.returned.rsp, hexecution]
  rfl

/-! ### Activating closures in a run -/

end System

end Calls

end SlvmNative
