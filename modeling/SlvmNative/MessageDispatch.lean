import SlvmNative.KernelRuns
import SlvmNative.MessageReturns
import SlvmNative.Primitives
import SlvmNative.SegmentMoves

/-!
# Dispatch of messages

What the C functions behind the send trampolines do with a message: they read it from the stack of
the sender, look its selector up and activate the method. A compiled method is entered through one
of the trampolines, a primitive is called, and what the sender needs to go on depends on its
calling convention.

The heap is a `World`, the stacks are the bytes of an `Execution`. The trampolines to and from C
read the headers of the segments where `Execution` has them; `SegmentHeaders` relates them to those
of `Trampolines`. The stack frames of the C functions themselves are left out, and so is the
debugging line with the address of a segment.

## Main definitions

* `Runtime` — a thread with its stack, over the heap
* `MessageSmalltalkMetadata`, `MessageCMetadata` — the two layouts of a message
* `Runtime.activateMethod`, `Runtime.sendDispatch`, `Runtime.supersendDispatch`
* `Runtime.Dispatches` — dispatch terminates, with an outcome
* `SendFailure` — how a dispatch aborts
-/

namespace SlvmNative

open ObjectMemory

/-! ### Layouts -/

/-- The members of `MessageCMetadata`: `framePointer`, `returnPointer`, the argument descriptor, a
union with its two parts, and `selector`. -/
def messageCMetadataMembers : List CType := [pointerType, pointerType, pointerType, pointerType]

/-- Both layouts have the same size, so that receiver and arguments follow at the same places. -/
example :
    CType.memberOffset 0 messageCMetadataMembers 1 = 8 ∧
      CType.memberOffset 0 messageCMetadataMembers 2 = 16 ∧
      CType.memberOffset 0 messageCMetadataMembers 3 = 24 ∧
      (CType.ofMembers messageCMetadataMembers).size = 32 ∧
      (CType.ofMembers messageSmalltalkMetadataMembers).size = 32 := by
  decide

/-- `MessageSmalltalkMetadata` -/
structure MessageSmalltalkMetadata where
  oopArgumentCount : ℕ
  nativeArgumentSize : ℕ
  selector : ℕ
  framePointer : UInt64
  returnPointer : UInt64

/-- `MessageCMetadata` -/
structure MessageCMetadata where
  framePointer : UInt64
  returnPointer : UInt64
  oopArgumentCount : ℕ
  nativeArgumentSize : ℕ
  selector : ℕ

/-- The metadata of a message that Smalltalk code sends, at the stack pointer. -/
def MessageSmalltalkMetadata.load (m : ByteMemory) (stackPointer : ℕ) :
    MessageSmalltalkMetadata where
  oopArgumentCount := (m.load16 stackPointer).toNat
  nativeArgumentSize := (m.load16 (stackPointer + 2)).toNat
  selector := (m.load64 (stackPointer + 8)).toNat
  framePointer := m.load64 (stackPointer + 16)
  returnPointer := m.load64 (stackPointer + 24)

/-- The metadata of a message that C code sends, at the stack pointer. -/
def MessageCMetadata.load (m : ByteMemory) (stackPointer : ℕ) : MessageCMetadata where
  framePointer := m.load64 stackPointer
  returnPointer := m.load64 (stackPointer + 8)
  oopArgumentCount := (m.load16 (stackPointer + 16)).toNat
  nativeArgumentSize := (m.load16 (stackPointer + 18)).toNat
  selector := (m.load64 (stackPointer + 24)).toNat

/-- `slvm_dynrun_convertSendMetadataToSmalltalkFromC` -/
def convertSendMetadataToSmalltalkFromC (source : MessageCMetadata) : MessageSmalltalkMetadata where
  oopArgumentCount := source.oopArgumentCount
  nativeArgumentSize := source.nativeArgumentSize
  selector := source.selector
  framePointer := source.framePointer
  returnPointer := source.returnPointer

/-- The metadata of a message, in the Smalltalk layout. -/
def smalltalkMetadata (sender : CallingConvention) (m : ByteMemory) (stackPointer : ℕ) :
    MessageSmalltalkMetadata :=
  if sender = .cDecl then convertSendMetadataToSmalltalkFromC (MessageCMetadata.load m stackPointer)
  else MessageSmalltalkMetadata.load m stackPointer

/-- What a message says, in whatever layout it is on the stack. -/
structure Message where
  selector : ℕ
  receiver : ℕ
  oopArguments : List ℕ
  nativeArgumentSize : ℕ

/-- `MessageSendRequiredArguments` at the stack pointer. -/
def Message.load (sender : CallingConvention) (m : ByteMemory) (stackPointer : ℕ) : Message :=
  let smalltalk := smalltalkMetadata sender m stackPointer
  { selector := smalltalk.selector
    receiver := (m.load64 (stackPointer + 32)).toNat
    oopArguments := (List.range smalltalk.oopArgumentCount).map fun i =>
      (m.load64 (stackPointer + 40 + i * 8)).toNat
    nativeArgumentSize := smalltalk.nativeArgumentSize }

/-- The size of the receiver and the arguments. -/
def Message.size (message : Message) : ℕ :=
  (message.oopArguments.length + 1) * 8 + message.nativeArgumentSize

/-- The primitive context of a message. -/
def Message.primitiveCall (message : Message) (sender : CallingConvention) (stackPointer : ℕ) :
    PrimitiveCall where
  errorCode := primitiveErrorSuccess
  receiver := message.receiver
  oopArguments := message.oopArguments
  contextCallingConvention := sender
  stackPointer := stackPointer
  selector := message.selector
  nativeArgumentSize := message.nativeArgumentSize

/-! ### The state -/

/-- What the linker puts in place of the symbols of `send.c`. -/
class SendImage extends TrampolineImage where
  /-- `_slvm_returnToC_trampoline` -/
  returnToC : UInt64
  /-- Behind the call of `_slvm_dynrun_switch_to_smalltalk`. -/
  switchReturn : UInt64

/-- Some addresses for the symbols. -/
@[reducible] def numberedSendImage : SendImage where
  toTrampolineImage := SwitchRun.numberedImage
  returnToC := 700
  switchReturn := 800

/-- A thread with its stack, over the heap. -/
structure Runtime (τ : Type) where
  world : World
  /-- What has been written to `stdout`. -/
  stdout : List UInt8
  execution : Execution τ

/-- How a dispatch aborts. -/
inductive SendFailure
  | invalidObjectClass
  | invalidSuperSend
  | doesNotUnderstand (receiver classIndex selector : ℕ)
  | strangeMethod (method methodClass : ℕ)
  | smalltalkToC
  | unsupportedSender (sender : CallingConvention)
  /-- The end of `slvm_dynrun_send_activateMethod`. -/
  | shouldNeverReachHere
  | primitiveFailed (selector : ℕ)
  /-- An assertion, an `abort` of a function called, or an access to what is not there. -/
  | fault
  deriving DecidableEq

/-- What is written before the process aborts, up to the numbers. -/
def SendFailure.text : SendFailure → String
  | .invalidObjectClass => "Invalid object class."
  | .invalidSuperSend => "Invalid super send lookup behavior."
  | .doesNotUnderstand .. => "TODO: Send does not understand.\nSelector: "
  | .strangeMethod .. => "Found strange method: "
  | .smalltalkToC => "TODO: Send from Smalltalk stack to C stack\n"
  | .unsupportedSender _ => "Unsupported sender calling convention: "
  | .shouldNeverReachHere => ""
  | .primitiveFailed _ => "Primitive without fallback context failed! Aborting."
  | .fault => ""

/-- What a dispatch comes to. -/
inductive Completion (τ : Type)
  /-- A trampoline has left the C functions. -/
  | jumped (s : Runtime τ)
  /-- The C function returns a result to its caller. -/
  | returned (result : ℕ) (s : Runtime τ)
  /-- Smalltalk code runs on a segment; the C function goes on when it returns. -/
  | switched (stackSegment : ℕ) (isStackFrameThreadBase : Bool) (s : Runtime τ)

/-! ### The stack -/

namespace Execution

variable {τ : Type} [DecidableEq τ]

/-- `slvm_ExecutionStack_getValidSegment` on a thread without segments; the thread data is cleared.
On other threads it answers no header, and what is done to its answer is left out. -/
def getValidSegment (s : Execution τ) (t : τ) : Option (ℕ × Execution τ) :=
  match s.segments.manager.getLastSegment t with
  | some _ => none
  | none => do
    let (result, manager) ← s.segments.manager.getValidSegment t
    let data ← (manager.header result).threadData
    let memory := (((s.machine.memory.store64 data 0).store64 (data + 8) 0).store64 (data + 16)
      0).store64 (data + 24) 0
    return (result,
      { s with
        segments := ⟨manager, Function.update s.segments.live t [result]⟩
        machine := { s.machine with memory := memory } })

/-- `_slvm_dynrun_switch_to_smalltalk`, on the segment with the given header. -/
def switchToSmalltalk [TrampolineImage] (s : Execution τ) (stackSegment : ℕ) (entryPoint : UInt64) :
    Option (Execution τ) := do
  let header := s.segments.manager.header stackSegment
  let machine := s.machine.enterFrame
  let rcx ← header.threadData
  -- store the old C pointers
  let machine := machine.push (machine.memory.load64 (rcx + 16))
  let machine := machine.push (machine.memory.load64 (rcx + 8))
  let machine := machine.push (machine.memory.load64 rcx)
  -- store the C pointers
  let memory := machine.memory.store64 rcx (UInt64.ofNat machine.rsp)
  let memory := memory.store64 (rcx + 8) machine.rbp
  let memory := memory.store64 (rcx + 16) TrampolineImage.backToCReturnPointer
  return { s with
    machine :=
      { rsp := header.stackPointer
        rbp := UInt64.ofNat header.framePointer
        rip := entryPoint
        memory := memory } }

/-- `_slvm_returnToC_trampoline`, and the code at the label it jumps to. -/
def returnToC (s : Execution τ) : Option (Execution τ) := do
  let rcx ← (s.segments.manager.header s.currentSegment).threadData
  let s := s.storeStackPointers
  let machine :=
    { s.machine with
      rsp := (s.machine.memory.load64 rcx).toNat
      rbp := s.machine.memory.load64 (rcx + 8)
      rip := s.machine.memory.load64 (rcx + 16) }
  return { s with machine := machine.backToC rcx }

/-- How the send trampolines start: `rax` is the selector and `rcx` the argument descriptor. -/
def enterSend (s : Execution τ) (rcx : UInt64) : Execution τ :=
  { s with machine := (s.machine.enterFrame.push s.rax).push rcx }.storeStackPointers

end Execution

/-! ### Activation -/

namespace Runtime

variable {τ : Type} [DecidableEq τ]

/-- The memory of the stacks. -/
abbrev stack (s : Runtime τ) : ByteMemory := s.execution.machine.memory

/-- The same state with other registers and memory. -/
def withMachine (s : Runtime τ) (machine : Machine) : Runtime τ :=
  { s with execution := { s.execution with machine := machine } }

variable [KernelImage] [SendImage]

/-- `slvm_CompiledMethod_getCallingConvention` -/
def compiledMethodCallingConvention (m : ObjectMemory) (method : ℕ) : ℕ :=
  (decodeSignedSmallInteger (m.slot method Field.flags)).toNat &&& 7

/-- The code of a compiled method. -/
def compiledMethodEntry (m : ObjectMemory) (method : ℕ) : UInt64 :=
  UInt64.ofNat (m.slot method Field.entryPoint) - 1

/-- The change of the stack for a message from C to a Smalltalk method. -/
def switchToMethod (s : Runtime τ) (t : τ) (stackPointer : ℕ) (smalltalk : MessageSmalltalkMetadata)
    (method : ℕ) : Option (Completion τ) := do
  let (stackSegment, execution) ← s.execution.getValidSegment t
  let header := execution.segments.manager.header stackSegment
  let isStackFrameThreadBase : Bool := header.threadData = some header.stackPointer
  -- copy the arguments, with 16 byte alignment
  let totalArgumentSize := (smalltalk.oopArgumentCount + 1) * 8 + smalltalk.nativeArgumentSize
  let totalArgumentSize := (totalArgumentSize + 15) &&& (2 ^ 32 - 16)
  let pointer := header.stackPointer - totalArgumentSize
  let memory := execution.machine.memory.copy pointer (stackPointer + 32) totalArgumentSize
  -- store the backward trampoline pointer
  let pointer := pointer - 8
  let memory := memory.store64 pointer SendImage.returnToC
  let execution : Execution τ :=
    { execution with
      segments := { execution.segments with
        manager := execution.segments.manager.setStackPointers stackSegment pointer
          header.framePointer }
      machine := { execution.machine with memory := memory }.push SendImage.switchReturn }
  let execution ← execution.switchToSmalltalk stackSegment
    (compiledMethodEntry s.world.memory method)
  return .switched stackSegment isStackFrameThreadBase { s with execution := execution }

/-- The part of `slvm_dynrun_send_activateMethod` for compiled methods. -/
def activateCompiledMethod (s : Runtime τ) (t : τ) (sender : CallingConvention) (stackPointer : ℕ)
    (method : ℕ) : Except SendFailure (Completion τ) :=
  let target := compiledMethodCallingConvention s.world.memory method
  let entryPoint := compiledMethodEntry s.world.memory method
  match sender with
  | .smalltalk =>
    if target = CallingConvention.smalltalk.code then
      -- adjust the stack pointer and jump to the called method
      .ok (.jumped (s.withMachine
        (s.execution.machine.returnToMethodTrampoline (stackPointer + 16) entryPoint)))
    else .error .smalltalkToC
  | .cDecl =>
    if target = CallingConvention.cDecl.code then
      .ok (.jumped (s.withMachine
        (s.execution.machine.returnToMethodTrampoline stackPointer entryPoint)))
    else if target = CallingConvention.smalltalk.code then
      match s.switchToMethod t stackPointer
        (smalltalkMetadata sender s.stack stackPointer) method with
      | some completion => .ok completion
      | none => .error .fault
    else .error .shouldNeverReachHere
  | .stdCall => .error (.unsupportedSender sender)

/-- What is done with the result of a primitive. -/
def returnFromPrimitive (s : Runtime τ) (sender : CallingConvention) (stackPointer result : ℕ) :
    Except SendFailure (Completion τ) :=
  match sender with
  | .smalltalk =>
    let (rax, machine) := s.execution.machine.returnToSmalltalkSender stackPointer
      (UInt64.ofNat result)
    .ok (.jumped { s with execution := { s.execution with machine := machine, rax := rax } })
  | .cDecl => .ok (.returned result s)
  -- `assert(senderCallingConvention == SLVM_CC_CDecl)`
  | .stdCall => .error .fault

variable [PrimitiveImage]

/-- `slvm_dynrun_send_activateMethod`. A primitive can let another method take its place, which is
what `fuel` is for. -/
def activateMethod : ℕ → Runtime τ → τ → CallingConvention → ℕ → ℕ →
    Except SendFailure (Completion τ)
  | 0, _, _, _, _, _ => .error .fault
  | fuel + 1, s, t, sender, stackPointer, method =>
    let message := Message.load sender s.stack stackPointer
    if method = nilOop then
      .error (.doesNotUnderstand message.receiver
        (s.world.memory.getClassIndexFromOop message.receiver) message.selector)
    else
      let methodClass := (s.world.memory.header method).classIndex
      if methodClass = KernelClass.CompiledMethod.index then
        s.activateCompiledMethod t sender stackPointer method
      else if methodClass = KernelClass.PrimitiveMethod.index then
        let outcome :=
          (PrimitiveImage.functionAt (s.world.memory.slot method Field.entryPoint)).bind
          fun primitive => primitive.call (message.primitiveCall sender stackPointer) s.world
        match outcome with
        | none => .error .fault
        -- `slvm_primitiveReplaceContextWithCompiledMethodActivation`
        | some (.replacesContext method) => activateMethod fuel s t sender stackPointer method
        | some (.returns result errorCode w printed) =>
          if errorCode ≠ primitiveErrorSuccess then .error (.primitiveFailed message.selector)
          else { s with world := w, stdout := s.stdout ++ printed }.returnFromPrimitive sender
            stackPointer result
      else .error (.strangeMethod method methodClass)

/-! ### Dispatch -/

/-- The end of the dispatch functions: look up the method and activate it. -/
def lookupAndActivate (fuel : ℕ) (s : Runtime τ) (t : τ) (sender : CallingConvention)
    (stackPointer behavior : ℕ) : Except SendFailure (Completion τ) :=
  match s.world.memory.behaviorLookup (Message.load sender s.stack stackPointer).selector fuel
      behavior with
  | none => .error .fault
  | some method => activateMethod fuel s t sender stackPointer method

/-- `slvm_dynrun_send_dispatch` -/
def sendDispatch (fuel : ℕ) (s : Runtime τ) (t : τ) (sender : CallingConvention)
    (stackPointer : ℕ) : Except SendFailure (Completion τ) :=
  match s.world.getClassFromOop (Message.load sender s.stack stackPointer).receiver with
  | none => .error .fault
  | some behavior =>
    if behavior = nilOop then .error .invalidObjectClass
    else lookupAndActivate fuel s t sender stackPointer behavior

/-- `slvm_dynrun_supersend_dispatch` -/
def supersendDispatch (fuel : ℕ) (s : Runtime τ) (t : τ) (sender : CallingConvention)
    (stackPointer behavior : ℕ) : Except SendFailure (Completion τ) :=
  if behavior = nilOop then .error .invalidSuperSend
  else lookupAndActivate fuel s t sender stackPointer behavior

/-- The dispatch of a message terminates, with an outcome. -/
def Dispatches (s : Runtime τ) (t : τ) (sender : CallingConvention) (stackPointer : ℕ)
    (outcome : Except SendFailure (Completion τ)) : Prop :=
  ∃ n, ∀ fuel ≥ n, sendDispatch fuel s t sender stackPointer = outcome

/-- The dispatch of a message to a superclass terminates, with an outcome. -/
def SuperDispatches (s : Runtime τ) (t : τ) (sender : CallingConvention)
    (stackPointer behavior : ℕ) (outcome : Except SendFailure (Completion τ)) : Prop :=
  ∃ n, ∀ fuel ≥ n, supersendDispatch fuel s t sender stackPointer behavior = outcome

/-! ### Termination -/

variable {s : Runtime τ} {t : τ} {sender : CallingConvention} {stackPointer method : ℕ}

omit [DecidableEq τ] [KernelImage] [SendImage] [PrimitiveImage] in
/-- A compiled method is an object, for no tag is its class index. -/
theorem classIndex_of_compiledMethod {m : ObjectMemory}
    (h : m.getClassIndexFromOop method = KernelClass.CompiledMethod.index) :
    (m.header method).classIndex = KernelClass.CompiledMethod.index := by
  rw [getClassIndexFromOop] at h
  split_ifs at h with hpointers
  · exact h
  · have hlt : method &&& 7 < 2 ^ 3 := Nat.and_lt_two_pow _ (by decide)
    rw [h] at hlt
    exact absurd hlt (by decide)

/-- A compiled method is not replaced by another one. -/
theorem activateMethod_of_compiled
    (h : (s.world.memory.header method).classIndex = KernelClass.CompiledMethod.index) (fuel : ℕ) :
    activateMethod (fuel + 1) s t sender stackPointer method =
      activateMethod 1 s t sender stackPointer method := by
  rw [activateMethod, activateMethod, h]
  rfl

/-- **The activation of a method** takes one replacement at most. -/
theorem activateMethod_of_le {fuel : ℕ} (hfuel : 2 ≤ fuel) :
    activateMethod fuel s t sender stackPointer method =
      activateMethod 2 s t sender stackPointer method := by
  obtain ⟨fuel, rfl⟩ := Nat.exists_eq_add_of_le' hfuel
  rw [activateMethod, activateMethod]
  generalize houtcome : (PrimitiveImage.functionAt _).bind _ = outcome
  rcases outcome with - | (⟨result, errorCode, w, printed⟩ | ⟨replacement⟩)
  · rfl
  · rfl
  · -- the method that takes the place of a primitive is a compiled one
    obtain ⟨primitive, -, hcall⟩ := Option.bind_eq_some_iff.mp houtcome
    obtain rfl := PrimitiveFunction.eq_of_replacesContext hcall
    obtain ⟨-, hclass, -⟩ := activateClosure_replacesContext hcall
    simp only [activateMethod_of_compiled (classIndex_of_compiledMethod hclass)]

/-- What activating the method that a selector resolves to comes to. -/
def activation (s : Runtime τ) (t : τ) (sender : CallingConvention) (stackPointer : ℕ)
    (resolved : Option ℕ) : Except SendFailure (Completion τ) :=
  activateMethod 2 s t sender stackPointer (resolved.getD nilOop)

/-- A message that resolves to nothing is not understood. -/
theorem activation_none : s.activation t sender stackPointer none =
    .error (.doesNotUnderstand (Message.load sender s.stack stackPointer).receiver
      (s.world.memory.getClassIndexFromOop (Message.load sender s.stack stackPointer).receiver)
      (Message.load sender s.stack stackPointer).selector) := by
  rw [activation, activateMethod]
  exact if_pos rfl

/-- A lookup that returns lets the activation happen. -/
theorem lookupAndActivate_of_lookup {behavior : ℕ} {resolved : Option ℕ}
    (h : s.world.memory.LookupReturns behavior (Message.load sender s.stack stackPointer).selector
      (resolved.getD nilOop)) :
    ∃ n, ∀ fuel ≥ n, lookupAndActivate fuel s t sender stackPointer behavior =
      s.activation t sender stackPointer resolved := by
  obtain ⟨n, hn⟩ := h
  refine ⟨max n 2, fun fuel hfuel => ?_⟩
  rw [lookupAndActivate, hn fuel ((Nat.le_max_left n 2).trans hfuel)]
  exact activateMethod_of_le ((Nat.le_max_right n 2).trans hfuel)

theorem dispatches_of_lookup {behavior : ℕ} {resolved : Option ℕ}
    (hclass : s.world.getClassFromOop (Message.load sender s.stack stackPointer).receiver =
      some behavior) (hne : behavior ≠ nilOop)
    (h : s.world.memory.LookupReturns behavior (Message.load sender s.stack stackPointer).selector
      (resolved.getD nilOop)) :
    s.Dispatches t sender stackPointer (s.activation t sender stackPointer resolved) := by
  obtain ⟨n, hn⟩ := lookupAndActivate_of_lookup h
  refine ⟨n, fun fuel hfuel => ?_⟩
  rw [sendDispatch, hclass]
  exact (if_neg hne).trans (hn fuel hfuel)

theorem superDispatches_of_lookup {behavior : ℕ} {resolved : Option ℕ} (hne : behavior ≠ nilOop)
    (h : s.world.memory.LookupReturns behavior (Message.load sender s.stack stackPointer).selector
      (resolved.getD nilOop)) :
    s.SuperDispatches t sender stackPointer behavior
      (s.activation t sender stackPointer resolved) := by
  obtain ⟨n, hn⟩ := lookupAndActivate_of_lookup h
  refine ⟨n, fun fuel hfuel => ?_⟩
  rw [supersendDispatch]
  exact (if_neg hne).trans (hn fuel hfuel)

/-! ### What a sender in Smalltalk sees -/

/-- The state in which a message from Smalltalk enters the code of a compiled method. -/
def entered (s : Runtime τ) (stackPointer method : ℕ) : Runtime τ :=
  s.withMachine (s.execution.machine.returnToMethodTrampoline (stackPointer + 16)
    (compiledMethodEntry s.world.memory method))

/-- The state in which a message from Smalltalk has been answered by a primitive. -/
def answered (s : Runtime τ) (stackPointer result : ℕ) (w : World) (printed : List UInt8) :
    Runtime τ where
  world := w
  stdout := s.stdout ++ printed
  execution :=
    { s.execution with
      machine :=
        (s.execution.machine.returnToSmalltalkSender stackPointer (UInt64.ofNat result)).2
      rax := UInt64.ofNat result }

end Runtime

end SlvmNative
