import SlvmNative.ByteHeap
import SlvmNative.MessageReturns

/-!
# Married contexts

The primitive `marryThisContext` makes a `MethodContext` for a stack frame: the receiver, the method
and the arguments are copied, and the frame remembers its context. The context is addressed through
the members of its structure, its array of data and the pointer that `slvm_firstNativeDataPointer`
computes from the packed pre-header. Stack and heap are one memory of bytes.

## Main definitions

* `StackFrame` — what is read from a frame
* `marryThisContext` — the primitive
* `Marriageable` — the frame, the heap and the class `MethodContext` are where they should be
* `Married` — the context of a frame

## Main results

* `fillContext_filled` — the three views of a context agree
* `marryThisContext_married` — the context is the frame's, and nothing else has changed
-/

namespace SlvmNative

/-! ### Descriptors and frames -/

/-- `slvm_ArgumentDescriptor_getOopCount`, `slvm_TemporaryDescriptor_getOopCount` -/
def descriptorOopCount (descriptor : ℕ) : ℕ := descriptor &&& 0xFFFF

/-- `slvm_ArgumentDescriptor_getNativeSize`, `slvm_TemporaryDescriptor_getNativeSize` -/
def descriptorNativeSize (descriptor : ℕ) : ℕ := (descriptor >>> 16) &&& 0xFFFF

/-- The members of `SLVM_StackFrameHeader_` before `arguments`: `firstTemporary`,
`temporaryDescriptor`, `argumentDescriptor`, `thisContext`, `method`, `previousFramePointer`,
`returnPointer` and `receiver`. -/
def stackFrameHeaderMembers : List CType := List.replicate 8 pointerType

/-- The members of `SLVM_MethodContext_` before `data`: the `SLVM_InstructionStream` of an object
header, `sender` and `pc`, and then `stackp`, `method`, `closureOrNil`, `receiver`,
`argumentDescriptor` and `temporaryDescriptor`. -/
def methodContextMembers : List CType :=
  CType.ofMembers [pointerType, pointerType, pointerType] :: List.replicate 6 pointerType

/-- The offsets used below. -/
example :
    CType.memberOffset 0 stackFrameHeaderMembers 1 = 8 ∧
      CType.memberOffset 0 stackFrameHeaderMembers 2 = 16 ∧
      CType.memberOffset 0 stackFrameHeaderMembers 3 = 24 ∧
      CType.memberOffset 0 stackFrameHeaderMembers 4 = 32 ∧
      CType.memberOffset 0 stackFrameHeaderMembers 5 = 40 ∧
      CType.memberOffset 0 stackFrameHeaderMembers 7 = 56 ∧
      (CType.ofMembers stackFrameHeaderMembers).size = 64 ∧
      CType.memberOffset 0 methodContextMembers 2 = 32 ∧
      CType.memberOffset 0 methodContextMembers 4 = 48 ∧
      CType.memberOffset 0 methodContextMembers 5 = 56 ∧
      CType.memberOffset 0 methodContextMembers 6 = 64 ∧
      (CType.ofMembers methodContextMembers).size = 72 := by
  decide

namespace StackFrame

/-- `slvm_stackFrameHeaderFromFramePointer`: the frame pointer points to `previousFramePointer`. -/
def header (framePointer : ℕ) : ℕ := framePointer - 40

/-- Where an argument is. -/
def argument (framePointer i : ℕ) : ℕ := header framePointer + 64 + i * 8

variable (m : ByteMemory) (framePointer : ℕ)

def argumentDescriptor : UInt64 := m.load64 (header framePointer + 16)

def temporaryDescriptor : UInt64 := m.load64 (header framePointer + 8)

def method : UInt64 := m.load64 (header framePointer + 32)

def receiver : UInt64 := m.load64 (header framePointer + 56)

def oopArgumentCount : ℕ := descriptorOopCount (argumentDescriptor m framePointer).toNat

def nativeArgumentSize : ℕ := descriptorNativeSize (argumentDescriptor m framePointer).toNat

/-- The pointers of the context: arguments and temporaries. -/
def oopCount : ℕ :=
  oopArgumentCount m framePointer + descriptorOopCount (temporaryDescriptor m framePointer).toNat

/-- The native bytes of the context: those of the arguments and of the temporaries. -/
def nativeSize : ℕ :=
  nativeArgumentSize m framePointer +
    descriptorNativeSize (temporaryDescriptor m framePointer).toNat

/-- Where the arguments end. -/
def argumentsEnd : ℕ :=
  argument framePointer (oopArgumentCount m framePointer) + nativeArgumentSize m framePointer

end StackFrame

/-! ### The primitive -/

/-- `slvm_encodeAlignedPointerAsSmallInteger` -/
def encodeAlignedPointerAsSmallInteger (value : UInt64) : UInt64 := value + 1

/-- `slvm_encodeSmallInteger`, of a word -/
def encodeWordAsSmallInteger (value : UInt64) : UInt64 := (value <<< 3) ||| 1

/-- The members of the context that are copied. -/
def copyContextParameters (m : ByteMemory) (context framePointer : ℕ) : ByteMemory :=
  let stackFrameHeader := StackFrame.header framePointer
  let m := m.store64 (context + 8)
    (encodeAlignedPointerAsSmallInteger (UInt64.ofNat framePointer))
  let m := m.store64 (context + 16)
    (encodeAlignedPointerAsSmallInteger (m.load64 (stackFrameHeader + 40)))
  let m := m.store64 (context + 32) (m.load64 (stackFrameHeader + 32))
  let m := m.store64 (context + 56) (encodeWordAsSmallInteger (m.load64 (stackFrameHeader + 16)))
  let m := m.store64 (context + 64) (encodeWordAsSmallInteger (m.load64 (stackFrameHeader + 8)))
  m.store64 (context + 48) (m.load64 (stackFrameHeader + 56))

/-- What the primitive stores into a new context. -/
def fillContext (s : ByteHeap) (context framePointer oopArgumentCount nativeArgumentSize : ℕ) :
    Option ByteHeap := do
  let m := copyContextParameters s.memory context framePointer
  let m := m.copyWords (context + 72) (StackFrame.argument framePointer 0) oopArgumentCount
  let contextNativeData ← ByteHeap.firstNativeDataPointer { s with memory := m } context
  let m := m.copy contextNativeData (StackFrame.argument framePointer oopArgumentCount)
    nativeArgumentSize
  some { s with memory := m }

/-- `slvm_dynrun_primitive_marryThisContext` -/
def marryThisContext [KernelImage] (s : Machine) (heap : StackHeap) (stackPointer : ℕ) :
    Option ((UInt64 × Machine) × StackHeap) := do
  let framePointer := (s.memory.load64 (stackPointer + 16)).toNat
  let oopArgumentCount := StackFrame.oopArgumentCount s.memory framePointer
  let nativeArgumentSize := StackFrame.nativeArgumentSize s.memory framePointer
  let oopCount := StackFrame.oopCount s.memory framePointer
  let nativeSize := StackFrame.nativeSize s.memory framePointer
  -- allocate the context object
  let (context, allocated) ← ByteHeap.basicNewMixedNative ⟨s.memory, heap⟩
    (kernelClass .MethodContext) oopCount nativeSize
  let filled ← fillContext allocated context framePointer oopArgumentCount nativeArgumentSize
  -- store the context in the stack frame
  let memory := filled.memory.store64 (StackFrame.header framePointer + 24) (UInt64.ofNat context)
  some ({ s with memory := memory }.runtimePrimitiveReturn stackPointer 1 (UInt64.ofNat context),
    filled.compactingHeap)

/-! ### The three views of a context -/

/-- The part of a frame the primitive reads. -/
def StackFrame.Apart (framePointer oopArgumentCount nativeArgumentSize lo hi : ℕ) : Prop :=
  StackFrame.argument framePointer oopArgumentCount + nativeArgumentSize ≤ lo ∨
    hi ≤ StackFrame.header framePointer

theorem copyContextParameters_spec (m : ByteMemory) {context framePointer : ℕ}
    (h : StackFrame.Apart framePointer 0 0 (context + 8) (context + 72)) :
    (copyContextParameters m context framePointer).load64 (context + 32) =
        StackFrame.method m framePointer ∧
      (copyContextParameters m context framePointer).load64 (context + 48) =
        StackFrame.receiver m framePointer ∧
      ∀ lo hi, hi ≤ context + 8 ∨ context + 72 ≤ lo →
        m.SameOn (copyContextParameters m context framePointer) lo hi := by
  simp only [StackFrame.Apart, StackFrame.argument] at h
  refine ⟨?_, ?_, fun lo hi hout => ?_⟩
  · simp (disch := omega) only [copyContextParameters, ByteMemory.load64_store64_of_disjoint,
      ByteMemory.load64_store64, StackFrame.method]
  · simp (disch := omega) only [copyContextParameters, ByteMemory.load64_store64_of_disjoint,
      ByteMemory.load64_store64, StackFrame.receiver]
  · exact (((((m.sameOn_store64 _ (by omega)).store64 _ (by omega)).store64 _ (by omega)).store64 _
      (by omega)).store64 _ (by omega)).store64 _ (by omega)

/-- The body of the context `o`, with `m` the memory before and `m'` after it is filled. -/
structure Filled (m : ByteMemory) (o : HeapObject)
    (framePointer oopArgumentCount nativeArgumentSize : ℕ) (m' : ByteMemory) : Prop where
  method : m'.load64 (o.header + 32) = StackFrame.method m framePointer
  receiver : m'.load64 (o.header + 48) = StackFrame.receiver m framePointer
  arguments : ∀ i < oopArgumentCount,
    m'.load64 (o.header + 72 + i * 8) = m.load64 (StackFrame.argument framePointer i)
  temporaries : m.SameOn m' (o.header + 72 + oopArgumentCount * 8)
    (o.header + 8 + o.oopSlotCount * 8)
  nativeArguments : ∀ i < nativeArgumentSize, m' (o.header + 8 + o.oopSlotCount * 8 + i) =
    m (StackFrame.argument framePointer oopArgumentCount + i)
  nativeTemporaries : m.SameOn m' (o.header + 8 + o.oopSlotCount * 8 + nativeArgumentSize)
    (o.header + 8 + o.totalSlotCount * 8)
  outside : ∀ lo hi, hi ≤ o.header + 8 ∨ o.header + 8 + o.totalSlotCount * 8 ≤ lo →
    m.SameOn m' lo hi

/-- **The three views of a context agree**: members, data and native area do not overlap, and all
stores are to slots of the context. -/
theorem fillContext_filled {s : ByteHeap} {o : HeapObject} {format sizeWord : ℕ}
    {framePointer oopArgumentCount nativeArgumentSize : ℕ}
    (hpreheader : FlatMemory.Preheader s.flat o format sizeWord)
    (hmixed : ObjectFormat.mixedObject ≤ format)
    (hcounts : FlatMemory.Preheader.SlotCounts o format sizeWord)
    (haligned : o.forwardingPointer % 8 = 0) (hheader : o.header = o.forwardingPointer + 24)
    (hoops : 8 + oopArgumentCount ≤ o.oopSlotCount)
    (hnative : o.oopSlotCount * 8 + nativeArgumentSize ≤ o.totalSlotCount * 8)
    (hapart : StackFrame.Apart framePointer oopArgumentCount nativeArgumentSize (o.header + 8)
      (o.header + 8 + o.totalSlotCount * 8)) :
    ∃ s', fillContext s o.header framePointer oopArgumentCount nativeArgumentSize = some s' ∧
      s'.compactingHeap = s.compactingHeap ∧
      Filled s.memory o framePointer oopArgumentCount nativeArgumentSize s'.memory := by
  have hargument : ∀ i, StackFrame.argument framePointer i =
      StackFrame.argument framePointer 0 + i * 8 := fun i => by
    simp only [StackFrame.argument, Nat.zero_mul, Nat.add_zero]
  have hfirst : StackFrame.argument framePointer 0 = StackFrame.header framePointer + 64 := rfl
  rw [StackFrame.Apart, hargument] at hapart
  obtain ⟨hmethod, hreceiver, hparameters⟩ := @copyContextParameters_spec s.memory o.header
    framePointer (by
      rw [StackFrame.Apart]
      omega)
  generalize hm₁ : copyContextParameters s.memory o.header framePointer = m₁ at *
  have hwords := fun {i} hi => @ByteMemory.load64_copyWords m₁ (o.header + 72)
    (StackFrame.argument framePointer 0) oopArgumentCount i hi (by omega)
  have hdata := fun {lo hi} h => @ByteMemory.sameOn_copyWords m₁ (o.header + 72)
    oopArgumentCount lo hi (StackFrame.argument framePointer 0) h
  generalize hm₂ : m₁.copyWords (o.header + 72) (StackFrame.argument framePointer 0)
    oopArgumentCount = m₂ at *
  -- the pre-header is still there for `slvm_firstNativeDataPointer`
  have hmeta : s.memory.SameOn m₂ o.forwardingPointer (o.header + 8) :=
    (hparameters _ _ (by omega)).trans (hdata (by omega))
  have hpreheader₂ : FlatMemory.Preheader (ByteHeap.flat { s with memory := m₂ }) o format
      sizeWord := by
    refine hpreheader.congr_words ?_ ?_ (congrArg FlatMemory.decodeHeader ?_)
    · exact congrArg UInt64.toNat (hmeta.mono (by omega) (by omega)).load64
    · exact congrArg UInt64.toNat (hmeta.mono (by omega) (by omega)).load64
    · exact congrArg UInt64.toNat (hmeta.mono (by omega) (by omega)).load64
  have hpointer := ByteHeap.firstNativeDataPointer_eq hpreheader₂ hmixed hcounts haligned hheader
  have hbytes := fun {i} hi => @ByteMemory.copy_of_mem m₂ (o.header + 8 + o.oopSlotCount * 8)
    nativeArgumentSize i (StackFrame.argument framePointer oopArgumentCount) hi
  have hnativeOut := fun {lo hi} h => @ByteMemory.sameOn_copy m₂ (o.header + 8 + o.oopSlotCount * 8)
    nativeArgumentSize lo hi (StackFrame.argument framePointer oopArgumentCount) h
  refine ⟨⟨m₂.copy (o.header + 8 + o.oopSlotCount * 8)
    (StackFrame.argument framePointer oopArgumentCount) nativeArgumentSize, s.compactingHeap⟩,
    ?_, rfl, ?_⟩
  · simp only [fillContext, hm₁, hm₂, hpointer, Option.bind_eq_bind, Option.bind_some]
  generalize m₂.copy (o.header + 8 + o.oopSlotCount * 8)
    (StackFrame.argument framePointer oopArgumentCount) nativeArgumentSize = m₃ at *
  have hbefore : ∀ lo hi, hi ≤ o.header + 8 ∨ o.header + 72 ≤ lo → hi ≤ o.header + 72 ∨
      o.header + 72 + oopArgumentCount * 8 ≤ lo → s.memory.SameOn m₂ lo hi :=
    fun lo hi hparameter hdatum => (hparameters lo hi hparameter).trans (hdata (by omega))
  constructor
  · refine (hnativeOut (by omega)).load64.trans ((hdata (by omega)).load64.trans hmethod)
  · refine (hnativeOut (by omega)).load64.trans ((hdata (by omega)).load64.trans hreceiver)
  · intro i hi
    rw [(hnativeOut (by omega)).load64, hwords hi, ← hargument]
    have hplace := hargument i
    exact (hparameters _ _ (by omega)).load64
  · exact (hbefore _ _ (by omega) (by omega)).trans (hnativeOut (by omega))
  · intro i hi
    have hplace := hargument oopArgumentCount
    refine (hbytes hi).trans ?_
    exact hbefore _ _ (by omega) (by omega) _ (Nat.le_refl _) (Nat.lt_succ_self _)
  · exact (hbefore _ _ (by omega) (by omega)).trans (hnativeOut (by omega))
  · intro lo hi hout
    exact (hbefore _ _ (by omega) (by omega)).trans (hnativeOut (by omega))

/-! ### Marriage -/

section

variable [KernelImage] {s : Machine} {heap : StackHeap} {stackPointer framePointer : ℕ}

/-- The primitive is called with the pointer to a frame: the frame is above what has been pushed for
the call, the stack and the class `MethodContext` are not in the heap, and the heap has room for the
context. -/
structure Marriageable (m : ByteMemory) (heap : StackHeap) (stackPointer framePointer : ℕ) :
    Prop where
  argument : (m.load64 (stackPointer + 16)).toNat = framePointer
  above : stackPointer + 32 + 40 ≤ framePointer
  apart : StackFrame.argumentsEnd m framePointer ≤ heap.start ∨
    heap.start + heap.capacity ≤ stackPointer
  capacity : heap.capacity = defaultCompactingHeapCapacity
  addressable : heap.start + heap.capacity ≤ 2 ^ 64
  room : heap.nextOffset 16 + 32 +
    (8 +
      (StackFrame.oopCount m framePointer * 8 + StackFrame.nativeSize m framePointer + 7) / 8) * 8
      ≤ heap.capacity
  format : m.load64 (kernelClass .MethodContext + 8 + Field.format * 8) =
    UInt64.ofNat (encodeFormatAndFixedSize KernelClass.MethodContext.info.format
      KernelClass.MethodContext.info.fixedSize)
  identityHash : (FlatMemory.decodeHeader
    (m.load64 (kernelClass .MethodContext)).toNat).identityHash =
    KernelClass.MethodContext.index
  classApart : kernelClass .MethodContext + 8 ≤ heap.start ∨
    heap.start + heap.capacity ≤ kernelClass .MethodContext

/-- The memory `s'` after a frame has been married to the new object `context`, where `m` is the
memory before and `allocated` that behind the allocation of the object. -/
structure Married (m : ByteMemory) (stackPointer framePointer context : ℕ)
    (allocated s' : ByteHeap) : Prop where
  classIndex : (s'.flat.header context).classIndex = KernelClass.MethodContext.index
  receiver : s'.memory.load64 (context + 48) = StackFrame.receiver m framePointer
  method : s'.memory.load64 (context + 32) = StackFrame.method m framePointer
  arguments : ∀ i < StackFrame.oopArgumentCount m framePointer,
    s'.memory.load64 (context + 72 + i * 8) = m.load64 (StackFrame.argument framePointer i)
  temporaries : ∀ i, StackFrame.oopArgumentCount m framePointer ≤ i →
    i < StackFrame.oopCount m framePointer →
    s'.memory.load64 (context + 72 + i * 8) = UInt64.ofNat nilOop
  /-- The native area is behind the pointers: the native arguments, and then zeros. -/
  nativeData : s'.firstNativeDataPointer context =
    some (context + 72 + StackFrame.oopCount m framePointer * 8)
  nativeArguments : ∀ i < StackFrame.nativeArgumentSize m framePointer,
    s'.memory (context + 72 + StackFrame.oopCount m framePointer * 8 + i) =
      m (StackFrame.argument framePointer (StackFrame.oopArgumentCount m framePointer) + i)
  nativeZero : ∀ i, StackFrame.nativeArgumentSize m framePointer ≤ i →
    i < StackFrame.nativeSize m framePointer →
    s'.memory (context + 72 + StackFrame.oopCount m framePointer * 8 + i) = 0
  basicSize : s'.flat.basicSize context =
    8 * (8 + StackFrame.oopCount m framePointer) + StackFrame.nativeSize m framePointer
  thisContext : s'.memory.load64 (StackFrame.header framePointer + 24) = UInt64.ofNat context
  /-- The frame is as it was, with all temporaries. -/
  frame : ∀ a, stackPointer + 32 ≤ a → a < StackFrame.argumentsEnd m framePointer →
    (a < StackFrame.header framePointer + 24 ∨ StackFrame.header framePointer + 32 ≤ a) →
    s'.memory a = m a
  /-- The object has been written in its slots only. -/
  slots : ∀ a, (a < context + 8 ∨
      allocated.compactingHeap.start + allocated.compactingHeap.size ≤ a) →
    (a < StackFrame.header framePointer + 24 ∨ StackFrame.header framePointer + 32 ≤ a) →
    (a < stackPointer + 16 ∨ stackPointer + 32 ≤ a) → s'.memory a = allocated.memory a

namespace Marriageable

/-- The class describes mixed objects with eight members. -/
theorem instance_eq (h : Marriageable s.memory heap stackPointer framePointer) :
    (ByteHeap.flat ⟨s.memory, heap⟩).instanceFormat (kernelClass .MethodContext) =
        ObjectFormat.mixedObject ∧
      (ByteHeap.flat ⟨s.memory, heap⟩).instanceFixedSize (kernelClass .MethodContext) = 8 := by
  have hword : (ByteHeap.flat ⟨s.memory, heap⟩).word
      (kernelClass .MethodContext + 8 + Field.format * 8) = encodeFormatAndFixedSize 24 8 := by
    show (s.memory.load64 _).toNat = _
    rw [h.format]
    decide
  rw [FlatMemory.instanceFormat, FlatMemory.instanceFixedSize, hword]
  exact ⟨decodeFormat_encode (by decide) (by decide), decodeFixedSize_encode (by decide)⟩

/-- A block in the heap for the context of the frame. -/
structure Block (m : ByteMemory) (heap : StackHeap) (framePointer : ℕ) (o : HeapObject) : Prop where
  aligned : o.forwardingPointer % 8 = 0
  header_eq : o.header = o.forwardingPointer + 24
  oopSlotCount_eq : o.oopSlotCount = 8 + StackFrame.oopCount m framePointer
  totalSlotCount_eq : o.totalSlotCount =
    8 + (StackFrame.oopCount m framePointer * 8 + StackFrame.nativeSize m framePointer + 7) / 8
  start_le : heap.start ≤ o.forwardingPointer
  le_end : o.header + 8 + o.totalSlotCount * 8 ≤ heap.start + heap.capacity

theorem allocate (h : Marriageable s.memory heap stackPointer framePointer) :
    ∃ (o : HeapObject) (allocated : ByteHeap) (pad sizeWord : ℕ),
      ByteHeap.basicNewMixedNative ⟨s.memory, heap⟩ (kernelClass .MethodContext)
        (StackFrame.oopCount s.memory framePointer) (StackFrame.nativeSize s.memory framePointer) =
          some (o.header, allocated) ∧ pad < 8 ∧
      ByteHeap.MixedObject ⟨s.memory, heap⟩ o (kernelClass .MethodContext)
        (ObjectFormat.mixedObject + pad) sizeWord allocated ∧
      FlatMemory.Preheader.SlotCounts o (ObjectFormat.mixedObject + pad) sizeWord ∧
      pad ≤ o.totalSlotCount * 8 ∧ o.totalSlotCount * 8 - pad =
        8 * (8 + StackFrame.oopCount s.memory framePointer) +
          StackFrame.nativeSize s.memory framePointer ∧
      Block s.memory heap framePointer o := by
  obtain ⟨hformat, hfixed⟩ := h.instance_eq
  have hroom := h.room
  have hcapacity := h.capacity
  have hle := @StackHeap.size_le_nextOffset heap 16 (by decide)
  rw [defaultCompactingHeapCapacity_eq] at hcapacity
  obtain ⟨allocated, pad, sizeWord, hnew, hpad, hobject, hcounts, hpadle, hcount⟩ :=
    ByteHeap.basicNewMixedNative_mixed ⟨s.memory, heap⟩ (kernelClass_ne_nilOop _)
      (v := StackFrame.oopCount s.memory framePointer)
      (n := StackFrame.nativeSize s.memory framePointer) hformat (by rw [hfixed]; omega)
      (by rw [defaultCompactingHeapCapacity_eq]; show heap.size ≤ _; omega) (by rw [hfixed])
  rw [hfixed] at hcount
  refine ⟨_, allocated, pad, sizeWord, hnew, hpad, hobject, hcounts, hpadle, hcount, ?_⟩
  have hstart := heap.start_aligned
  simp only [pageSize] at hstart
  constructor
  · show (heap.start + heap.nextOffset 16) % 8 = 0
    rw [StackHeap.nextOffset]
    omega
  · rfl
  · rfl
  · rfl
  · exact Nat.le_add_right _ _
  · show heap.start + heap.nextOffset 16 + 24 + 8 + (8 + _) * 8 ≤ _
    omega

end Marriageable

/-- A filled context and the last three stores of the primitive. -/
theorem married_of_filled (h : Marriageable s.memory heap stackPointer framePointer)
    {o : HeapObject} {allocated filled : ByteHeap} {pad sizeWord : ℕ} (hpad : pad < 8)
    (hobject : ByteHeap.MixedObject ⟨s.memory, heap⟩ o (kernelClass .MethodContext)
      (ObjectFormat.mixedObject + pad) sizeWord allocated)
    (hcounts : FlatMemory.Preheader.SlotCounts o (ObjectFormat.mixedObject + pad) sizeWord)
    (hpadle : pad ≤ o.totalSlotCount * 8)
    (hcount : o.totalSlotCount * 8 - pad = 8 * (8 + StackFrame.oopCount s.memory framePointer) +
      StackFrame.nativeSize s.memory framePointer)
    (hblock : Marriageable.Block s.memory heap framePointer o)
    (hfilled : Filled allocated.memory o framePointer
      (StackFrame.oopArgumentCount s.memory framePointer)
      (StackFrame.nativeArgumentSize s.memory framePointer) filled.memory)
    {s' : ByteHeap}
    (hthisContext : s'.memory.load64 (StackFrame.header framePointer + 24) = UInt64.ofNat o.header)
    (hsame : ∀ lo hi, (hi ≤ StackFrame.header framePointer + 24 ∨
        StackFrame.header framePointer + 32 ≤ lo) →
        (hi ≤ stackPointer + 16 ∨ stackPointer + 32 ≤ lo) →
      filled.memory.SameOn s'.memory lo hi) :
    Married s.memory stackPointer framePointer o.header allocated s' := by
  obtain ⟨haligned, hheader, hoops, htotal, hlo, hhi⟩ := hblock
  have hfinish := hobject.finish
  have habove := h.above
  have hargument : ∀ i, StackFrame.argument framePointer i =
      StackFrame.header framePointer + 64 + i * 8 := fun i => rfl
  have hframe : StackFrame.header framePointer = framePointer - 40 := rfl
  have hends := h.apart
  rw [StackFrame.argumentsEnd, hargument] at hends
  have hargumentCount : StackFrame.oopArgumentCount s.memory framePointer ≤
      StackFrame.oopCount s.memory framePointer := Nat.le_add_right _ _
  have hnativeCount : StackFrame.nativeArgumentSize s.memory framePointer ≤
      StackFrame.nativeSize s.memory framePointer := Nat.le_add_right _ _
  -- the stack is as it was after the allocation
  have hstack : ∀ lo hi, stackPointer ≤ lo → hi ≤ StackFrame.argument framePointer
      (StackFrame.oopArgumentCount s.memory framePointer) +
        StackFrame.nativeArgumentSize s.memory framePointer →
          s.memory.SameOn allocated.memory lo hi :=
    fun lo hi hlow hhigh => hobject.frame lo hi (by rw [hargument] at hhigh; omega)
  -- the object keeps its slots to the end
  have hkeep : ∀ lo hi, o.forwardingPointer ≤ lo → hi ≤ o.header + 8 + o.totalSlotCount * 8 →
      filled.memory.SameOn s'.memory lo hi := fun lo hi hlow hhigh =>
    hsame lo hi (by omega) (by omega)
  have hmeta : allocated.memory.SameOn s'.memory o.forwardingPointer (o.header + 8) :=
    (hfilled.outside _ _ (by omega)).trans (hkeep _ _ (Nat.le_refl _) (by omega))
  have hword : ∀ a, o.forwardingPointer ≤ a → a + 8 ≤ o.header + 8 →
      s'.flat.word a = allocated.flat.word a := fun a hlow hhigh =>
    congrArg UInt64.toNat (hmeta.mono hlow hhigh).load64
  have hpreheader : FlatMemory.Preheader s'.flat o (ObjectFormat.mixedObject + pad) sizeWord :=
    hobject.preheader.congr_words (hword _ (by omega) (by omega)) (hword _ (by omega) (by omega))
      (congrArg FlatMemory.decodeHeader (hword _ (by omega) (by omega)))
  have hroom : (StackFrame.oopCount s.memory framePointer * 8 +
      StackFrame.nativeSize s.memory framePointer + 7) / 8 * 8 ≤
        StackFrame.oopCount s.memory framePointer * 8 +
          StackFrame.nativeSize s.memory framePointer + 7 := Nat.div_mul_le_self _ _
  have hcapacity := h.capacity
  rw [defaultCompactingHeapCapacity_eq] at hcapacity
  have hbyte : ∀ {m₁ m₂ : ByteMemory} {a : ℕ}, m₁.SameOn m₂ a (a + 1) → m₂ a = m₁ a :=
    fun hsame => hsame _ (Nat.le_refl _) (Nat.lt_succ_self _)
  constructor
  · rw [FlatMemory.header, hword _ (by omega) (by omega)]
    have hclass := h.classApart
    exact (hobject.classIndex (by omega)).trans h.identityHash
  · refine (hkeep _ _ (by omega) (by omega)).load64.trans (hfilled.receiver.trans ?_)
    exact (hstack _ _ (by omega) (by rw [hargument]; omega)).load64
  · refine (hkeep _ _ (by omega) (by omega)).load64.trans (hfilled.method.trans ?_)
    exact (hstack _ _ (by omega) (by rw [hargument]; omega)).load64
  · intro i hi
    refine (hkeep _ _ (by omega) (by omega)).load64.trans ((hfilled.arguments i hi).trans ?_)
    exact (hstack _ _ (by rw [hargument]; omega) (by rw [hargument, hargument]; omega)).load64
  · intro i hi hi'
    have hnil := hobject.nil (8 + i) (by omega)
    rw [show o.header + 8 + (8 + i) * 8 = o.header + 72 + i * 8 by omega] at hnil
    refine (hkeep _ _ (by omega) (by omega)).load64.trans (Eq.trans ?_ hnil)
    exact (hfilled.temporaries.mono (by omega) (by omega)).load64
  · rw [ByteHeap.firstNativeDataPointer_eq hpreheader (Nat.le_add_right _ _) hcounts
      haligned hheader,
      hoops]
    exact congrArg some (by omega)
  · intro i hi
    have hnative := hfilled.nativeArguments i hi
    rw [hoops, show o.header + 8 + (8 + StackFrame.oopCount s.memory framePointer) * 8 + i =
      o.header + 72 + StackFrame.oopCount s.memory framePointer * 8 + i by omega] at hnative
    refine (hbyte (hkeep _ _ (by omega) (by omega))).trans (hnative.trans ?_)
    exact hbyte (hstack _ _ (by rw [hargument]; omega) (by omega))
  · intro i hi hi'
    refine (hbyte (hkeep _ _ (by omega) (by omega))).trans
      ((hbyte (hfilled.nativeTemporaries.mono (by omega) (by omega))).trans ?_)
    exact hobject.zero _ (by omega) (by omega)
  · rw [hpreheader.basicSize hcounts (by omega)
      (by rwa [spurFormatExtraSize_mixed hpad, spurFormatMultiplier_mixed hpad]) (by omega),
      spurFormatExtraSize_mixed hpad, spurFormatMultiplier_mixed hpad, hcount]
  · exact hthisContext
  · intro a hlow hhigh hout
    rw [StackFrame.argumentsEnd] at hhigh
    have hhigh' := hhigh
    rw [hargument] at hhigh'
    refine (hbyte (hsame _ _ (by omega) (by omega))).trans
      ((hbyte (hfilled.outside _ _ (by omega))).trans ?_)
    exact hbyte (hstack _ _ (by omega) (by omega))
  · intro a hblockOut hout hout'
    rw [hfinish] at hblockOut
    refine (hbyte (hsame _ _ (by omega) (by omega))).trans ?_
    exact hbyte (hfilled.outside _ _ (by omega))

/-- **The context of a frame**: the primitive returns a new `MethodContext` with the receiver, the
method and the arguments of the frame, and nothing else of the frame changes. -/
theorem marryThisContext_married (h : Marriageable s.memory heap stackPointer framePointer) :
    ∃ context allocated result heap',
      marryThisContext s heap stackPointer = some (result, heap') ∧
      ByteHeap.basicNewMixedNative ⟨s.memory, heap⟩ (kernelClass .MethodContext)
        (StackFrame.oopCount s.memory framePointer) (StackFrame.nativeSize s.memory framePointer) =
          some (context, allocated) ∧
      Married s.memory stackPointer framePointer context allocated ⟨result.2.memory, heap'⟩ ∧
      result.1.toNat = context ∧ result.2.rsp = stackPointer + 32 ∧
      result.2.rbp = s.memory.load64 stackPointer ∧
      result.2.rip = s.memory.load64 (stackPointer + 8) := by
  obtain ⟨o, allocated, pad, sizeWord, hnew, hpad, hobject, hcounts, hpadle, hcount, hblock⟩ :=
    h.allocate
  obtain ⟨haligned, hheader, hoops, htotal, hlo, hhi⟩ := hblock
  have hargumentCount : StackFrame.oopArgumentCount s.memory framePointer ≤
      StackFrame.oopCount s.memory framePointer := Nat.le_add_right _ _
  have hnativeCount : StackFrame.nativeArgumentSize s.memory framePointer ≤
      StackFrame.nativeSize s.memory framePointer := Nat.le_add_right _ _
  have hframe : StackFrame.header framePointer = framePointer - 40 := rfl
  have habove := h.above
  have haddressable := h.addressable
  have hends := h.apart
  rw [StackFrame.argumentsEnd] at hends
  have hpointer : framePointer < 2 ^ 64 :=
    h.argument ▸ (s.memory.load64 (stackPointer + 16)).toNat_lt
  obtain ⟨filled, hfill, -, hfilled⟩ := @fillContext_filled allocated o _ sizeWord framePointer
    (StackFrame.oopArgumentCount s.memory framePointer)
    (StackFrame.nativeArgumentSize s.memory framePointer) hobject.preheader (Nat.le_add_right _ _)
    hcounts haligned hheader (by omega) (by omega) (by rw [StackFrame.Apart]; omega)
  have hstack : s.memory.SameOn filled.memory stackPointer (stackPointer + 16) := by
    have hargument : StackFrame.header framePointer + 64 ≤ StackFrame.argument framePointer
      (StackFrame.oopArgumentCount s.memory framePointer) := Nat.le_add_right _ _
    exact (hobject.frame _ _ (by omega)).trans (hfilled.outside _ _ (by omega))
  generalize hm : filled.memory.store64 (StackFrame.header framePointer + 24)
    (UInt64.ofNat o.header) = m
  have hstored : ∀ lo hi, (hi ≤ StackFrame.header framePointer + 24 ∨
      StackFrame.header framePointer + 32 ≤ lo) → filled.memory.SameOn m lo hi :=
    fun lo hi hout => hm ▸ filled.memory.sameOn_store64 _ (by omega)
  have hreturn := @Machine.runtimePrimitiveReturn_resumed { s with memory := m } stackPointer 1
    (by omega) (UInt64.ofNat o.header)
  refine ⟨o.header, allocated, _, filled.compactingHeap, ?_, hnew, ?_, ?_, hreturn.rsp, ?_, ?_⟩
  · simp only [marryThisContext, h.argument, hnew, hfill, hm, Option.bind_eq_bind, Option.bind_some]
  · refine married_of_filled h hpad hobject hcounts hpadle hcount
      ⟨haligned, hheader, hoops, htotal, hlo, hhi⟩ hfilled ?_ fun lo hi hout hout' => ?_
    · refine (hreturn.sameOn (by omega)).load64.trans ?_
      show m.load64 _ = _
      rw [← hm, ByteMemory.load64_store64]
    · exact (hstored lo hi hout).trans (hreturn.sameOn (by omega))
  · rw [hreturn.rax, UInt64.toNat_ofNat']
    exact Nat.mod_eq_of_lt (by omega)
  · refine hreturn.rbp.trans ?_
    exact ((hstack.trans (hstored _ _ (by omega))).mono (by omega) (by omega)).load64
  · refine hreturn.rip.trans ?_
    exact ((hstack.trans (hstored _ _ (by omega))).mono (by omega) (by omega)).load64

end

/-- A frame with two pointers and three native bytes as arguments, and one pointer and five native
bytes as temporaries. -/
def exampleFrame : FlatMemory where
  word a :=
    if a = 8208 then 8320
    else if a = 8296 then 3 * 2 ^ 16 + 2
    else if a = 8288 then 5 * 2 ^ 16 + 1
    else if a = 5120 then 36 * 2 ^ 32
    else if a = 5144 then encodeFormatAndFixedSize 24 8
    else 0
  compactingHeap :=
    StackHeap.create 65536 defaultCompactingHeapCapacity HeapRun.exampleStart_aligned

/-- It is married. -/
theorem marryThisContext_married_example :
    letI := sequentialImage
    let s : Machine := ⟨0, 0, 0, (ByteHeap.ofFlat exampleFrame).memory⟩
    ∃ context allocated result heap',
      marryThisContext s exampleFrame.compactingHeap 8192 = some (result, heap') ∧
      Married s.memory 8192 8320 context allocated ⟨result.2.memory, heap'⟩ := by
  let := sequentialImage
  intro s
  have hload : ∀ a, a % 8 = 0 → s.memory.load64 a = UInt64.ofNat (exampleFrame.word a) :=
    fun a ha => ByteHeap.load64_ofFlat exampleFrame ha
  have hargument : StackFrame.argumentDescriptor s.memory 8320 = UInt64.ofNat (3 * 2 ^ 16 + 2) :=
    hload 8296 rfl
  have htemporary : StackFrame.temporaryDescriptor s.memory 8320 = UInt64.ofNat (5 * 2 ^ 16 + 1) :=
    hload 8288 rfl
  have hoopCount : StackFrame.oopCount s.memory 8320 = 3 := by
    rw [StackFrame.oopCount, StackFrame.oopArgumentCount, hargument, htemporary]
    decide
  have hnativeSize : StackFrame.nativeSize s.memory 8320 = 8 := by
    rw [StackFrame.nativeSize, StackFrame.nativeArgumentSize, hargument, htemporary]
    decide
  have hmarriageable : Marriageable s.memory exampleFrame.compactingHeap 8192 8320 := by
    constructor
    · rw [hload 8208 rfl]
      decide
    · decide
    · left
      rw [StackFrame.argumentsEnd, StackFrame.oopArgumentCount, StackFrame.nativeArgumentSize,
        hargument]
      decide
    · rfl
    · decide
    · rw [hoopCount, hnativeSize]
      decide
    · exact hload 5144 rfl
    · rw [show s.memory.load64 (kernelClass .MethodContext) = _ from hload 5120 rfl]
      decide
    · exact Or.inl (by decide)
  obtain ⟨context, allocated, result, heap', hmarry, -, hmarried, -⟩ :=
    marryThisContext_married hmarriageable
  exact ⟨context, allocated, result, heap', hmarry, hmarried⟩

end SlvmNative
