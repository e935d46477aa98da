import SlvmNative.Trampolines

/-!
# Returning from messages

How C code resumes the Smalltalk code that called it. `slvm_dynrun_returnToSmalltalkSender` answers
a message with the result of a primitive, `SLVM_RUNTIME_PRIMITIVE_RETURN` a call of the runtime.
Both move the frame pointer and the return pointer up, to the end of the arguments, and let
`_slvm_dynrun_returnToSender_trampoline` pop them there; the place they are moved to can overlap the
place they come from.

## Main definitions

* `moveReturnFrame` — the two stores
* `Machine.returnToSmalltalkSender`, `Machine.runtimePrimitiveReturn`
* `Machine.Resumed` — the sender goes on

## Main results

* `moveReturnFrame_spec` — moving up is safe, whatever the overlap
* `Machine.returns_resume` — both returns resume the sender
* `Machine.send_resumes` — a message to a primitive returns to its sender
-/

namespace SlvmNative

/-! ### Structures -/

/-- A `uint16_t` of an argument descriptor. -/
def descriptorPartType : CType := ⟨2, 2, by decide⟩

/-- The members of `MessageSmalltalkMetadata`: the argument descriptor, a union with its two parts,
`selector`, `framePointer` and `returnPointer`. -/
def messageSmalltalkMetadataMembers : List CType :=
  [pointerType, pointerType, pointerType, pointerType]

/-- The members of `RuntimePrimitiveArguments` before `arguments`: `framePointer` and
`returnPointer`. -/
def runtimePrimitiveArgumentsMembers : List CType := [pointerType, pointerType]

/-- The offsets used below: of the parts of a descriptor, of the pointers in the metadata, of what
follows the metadata and of the arguments of a call. -/
example :
    CType.memberOffset 0 [descriptorPartType, descriptorPartType] 1 = 2 ∧
      CType.memberOffset 0 messageSmalltalkMetadataMembers 2 = 16 ∧
      CType.memberOffset 0 messageSmalltalkMetadataMembers 3 = 24 ∧
      CType.memberOffset 0 [CType.ofMembers messageSmalltalkMetadataMembers, pointerType,
        pointerType] 2 = 40 ∧
      CType.memberOffset 0 runtimePrimitiveArgumentsMembers 1 = 8 ∧
      (CType.ofMembers runtimePrimitiveArgumentsMembers).size = 16 := by
  decide

/-! ### Moving a return frame -/

/-- The stores to the `MessageReturnFrame` at `returnFrame`, from the pointers at `source`. -/
def moveReturnFrame (m : ByteMemory) (source returnFrame : ℕ) : ByteMemory :=
  let m := m.store64 (returnFrame + 8) (m.load64 (source + 8))
  m.store64 returnFrame (m.load64 source)

/-- **Moving a return frame up** is safe even where it overlaps itself: the store of the return
pointer comes first and does not reach the frame pointer. -/
theorem moveReturnFrame_spec (m : ByteMemory) {source returnFrame : ℕ} (h : source ≤ returnFrame) :
    (moveReturnFrame m source returnFrame).load64 returnFrame = m.load64 source ∧
      (moveReturnFrame m source returnFrame).load64 (returnFrame + 8) = m.load64 (source + 8) ∧
      ∀ lo hi, returnFrame + 16 ≤ lo ∨ hi ≤ returnFrame →
        m.SameOn (moveReturnFrame m source returnFrame) lo hi := by
  have hsource : (m.store64 (returnFrame + 8) (m.load64 (source + 8))).load64 source =
      m.load64 source := m.load64_store64_of_disjoint _ (Or.inr (by omega))
  rw [moveReturnFrame, hsource]
  refine ⟨ByteMemory.load64_store64 _ _ _, ?_, fun lo hi hout => ?_⟩
  · rw [ByteMemory.load64_store64_of_disjoint _ _ (Or.inl (Nat.le_refl _)),
      ByteMemory.load64_store64]
  · exact (m.sameOn_store64 _ (by omega)).store64 _ (by omega)

namespace Machine

/-! ### The two returns -/

/-- `slvm_dynrun_returnToSmalltalkSender`; `arguments` is the message frame, and the result is left
in `rax`. -/
def returnToSmalltalkSender (s : Machine) (arguments : ℕ) (returnValue : UInt64) :
    UInt64 × Machine :=
  let oopArgumentCount := (s.memory.load16 arguments).toNat
  let nativeArgumentSize := (s.memory.load16 (arguments + 2)).toNat
  let nativeArguments := arguments + 40 + oopArgumentCount * 8
  let returnFrame := nativeArguments + nativeArgumentSize - 16
  let s := { s with memory := moveReturnFrame s.memory (arguments + 16) returnFrame }
  (returnValue, s.returnToSenderTrampoline returnFrame)

/-- `SLVM_RUNTIME_PRIMITIVE_RETURN`, with `_stackPointer`. -/
def runtimePrimitiveReturn (s : Machine) (stackPointer popCount : ℕ) (returnValue : UInt64) :
    UInt64 × Machine :=
  let popSize := (popCount * 8 % 2 ^ 64 + 15) % 2 ^ 64 &&& (2 ^ 64 - 16)
  let returnFrame := stackPointer + 16 + popSize - 16
  let s := { s with memory := moveReturnFrame s.memory stackPointer returnFrame }
  (returnValue, s.returnToSenderTrampoline returnFrame)

/-- The sender goes on in `s'` with a result in `rax`: it has its pointers back, and its stack
pointer is at `stackPointer`. Only the two words below that have been written. -/
structure Resumed (m : ByteMemory) (framePointer returnPointer result : UInt64) (stackPointer : ℕ)
    (s' : UInt64 × Machine) : Prop where
  rax : s'.1 = result
  rsp : s'.2.rsp = stackPointer
  rbp : s'.2.rbp = framePointer
  rip : s'.2.rip = returnPointer
  above : ∀ a, stackPointer ≤ a → s'.2.memory a = m a
  below : ∀ a, a + 16 < stackPointer → s'.2.memory a = m a

theorem Resumed.sameOn {m : ByteMemory} {framePointer returnPointer result : UInt64}
    {stackPointer lo hi : ℕ} {s' : UInt64 × Machine}
    (h : Resumed m framePointer returnPointer result stackPointer s')
    (hout : hi + 16 ≤ stackPointer ∨ stackPointer ≤ lo) : m.SameOn s'.2.memory lo hi := by
  intro a hlo hhi
  rcases hout with hbelow | habove
  · exact h.below a (by omega)
  · exact h.above a (by omega)

/-- What both returns have in common. -/
theorem resumed_of_moveReturnFrame (s : Machine) {source returnFrame : ℕ} (h : source ≤ returnFrame)
    (returnValue : UInt64) :
    Resumed s.memory (s.memory.load64 source) (s.memory.load64 (source + 8)) returnValue
      (returnFrame + 16) (returnValue, { s with
        memory := moveReturnFrame s.memory source returnFrame }.returnToSenderTrampoline
          returnFrame) := by
  obtain ⟨hframe, hreturn, hsame⟩ := moveReturnFrame_spec s.memory h
  constructor
  · rfl
  · rfl
  · exact hframe
  · exact hreturn
  · intro a ha
    exact hsame a (a + 1) (Or.inl ha) a (Nat.le_refl a) (Nat.lt_succ_self a)
  · intro a ha
    exact hsame a (a + 1) (Or.inr (by omega)) a (Nat.le_refl a) (Nat.lt_succ_self a)

theorem returnToSmalltalkSender_resumed (s : Machine) (arguments : ℕ) (returnValue : UInt64) :
    Resumed s.memory (s.memory.load64 (arguments + 16)) (s.memory.load64 (arguments + 24))
      returnValue
      (arguments + 40 + (s.memory.load16 arguments).toNat * 8 +
        (s.memory.load16 (arguments + 2)).toNat)
      (s.returnToSmalltalkSender arguments returnValue) := by
  rw [returnToSmalltalkSender]
  generalize (s.memory.load16 arguments).toNat = oopArgumentCount
  generalize (s.memory.load16 (arguments + 2)).toNat = nativeArgumentSize
  have h := @resumed_of_moveReturnFrame s (arguments + 16)
    (arguments + 40 + oopArgumentCount * 8 + nativeArgumentSize - 16) (by omega) returnValue
  rwa [Nat.sub_add_cancel (by omega)] at h

/-- The size of the popped arguments, rounded up to 16 bytes. -/
theorem popSize_eq {popCount : ℕ} (h : (popCount * 8 + 15) / 16 * 16 < 2 ^ 64) :
    (popCount * 8 % 2 ^ 64 + 15) % 2 ^ 64 &&& (2 ^ 64 - 16) = (popCount * 8 + 15) / 16 * 16 := by
  have hmask := @Words.and_neg_two_pow 64 4 (popCount * 8 + 15) (by decide) (by omega)
  rw [Nat.mod_eq_of_lt (show popCount * 8 < 2 ^ 64 by omega),
    Nat.mod_eq_of_lt (show popCount * 8 + 15 < 2 ^ 64 by omega)]
  exact hmask

theorem runtimePrimitiveReturn_resumed (s : Machine) {stackPointer popCount : ℕ}
    (hspace : stackPointer + 16 + (popCount * 8 + 15) / 16 * 16 ≤ 2 ^ 64) (returnValue : UInt64) :
    Resumed s.memory (s.memory.load64 stackPointer) (s.memory.load64 (stackPointer + 8)) returnValue
      (stackPointer + 16 + (popCount * 8 + 15) / 16 * 16)
      (s.runtimePrimitiveReturn stackPointer popCount returnValue) := by
  rw [runtimePrimitiveReturn, popSize_eq (by omega)]
  generalize (popCount * 8 + 15) / 16 * 16 = popSize
  have h := @resumed_of_moveReturnFrame s stackPointer (stackPointer + 16 + popSize - 16) (by omega)
    returnValue
  rwa [Nat.sub_add_cancel (by omega)] at h

/-- **Both returns resume the sender**, with its frame pointer, its return pointer and the result.
The stack pointer is past the receiver and all arguments of a message of any counts and sizes, or
past the popped arguments of a call of the runtime, and nothing from there on is written. -/
theorem returns_resume (s : Machine) (returnValue : UInt64) :
    (∀ arguments, Resumed s.memory (s.memory.load64 (arguments + 16))
        (s.memory.load64 (arguments + 24)) returnValue
        (arguments + 40 + (s.memory.load16 arguments).toNat * 8 +
          (s.memory.load16 (arguments + 2)).toNat)
        (s.returnToSmalltalkSender arguments returnValue)) ∧
      ∀ stackPointer popCount, stackPointer + 16 + (popCount * 8 + 15) / 16 * 16 ≤ 2 ^ 64 →
        Resumed s.memory (s.memory.load64 stackPointer) (s.memory.load64 (stackPointer + 8))
          returnValue (stackPointer + 16 + (popCount * 8 + 15) / 16 * 16)
          (s.runtimePrimitiveReturn stackPointer popCount returnValue) :=
  ⟨fun arguments => s.returnToSmalltalkSender_resumed arguments returnValue,
    fun _ _ hspace => s.runtimePrimitiveReturn_resumed hspace returnValue⟩

/-- A message with three bytes of native arguments, and a call with one argument. -/
theorem returns_resume_unaligned :
    let s : Machine := ⟨0, 0, 0, fun a => if a = 4098 then 3 else 0⟩
    Resumed s.memory (s.memory.load64 4112) (s.memory.load64 4120) 7 4139
        (s.returnToSmalltalkSender 4096 7) ∧
      Resumed s.memory (s.memory.load64 4096) (s.memory.load64 4104) 7 4128
        (s.runtimePrimitiveReturn 4096 1 7) := by
  intro s
  have hoops : (s.memory.load16 4096).toNat = 0 := by decide
  have hnative : (s.memory.load16 4098).toNat = 3 := by decide
  have h := (s.returns_resume 7).1 4096
  rw [hoops, hnative] at h
  exact ⟨h, (s.returns_resume 7).2 4096 1 (by decide)⟩

/-! ### Messages from end to end -/

variable {th : Thread} {segments : List ℕ} {s : Machine} {e : ℕ}

/-- A trampoline to C leaves the body of the segment alone. -/
theorem trapTo_sameOn (h : th.Carries s.memory segments) (he : e ∈ segments)
    (hpage : e ≤ s.rsp + 4096) (hroom : s.rsp + 64 ≤ e)
    (hdata : th.data + 24 ≤ s.rsp ∨ s.rsp ≤ th.data)
    (hlow : th.cstackLow + 8 ≤ (th.pointers s.memory).cstackPointer.toNat)
    (hhigh : (th.pointers s.memory).cstackPointer.toNat ≤ th.cstackHigh) (function : CFunction) :
    s.memory.SameOn (s.trapTo function).memory (e - 4096) (e - 64) := by
  obtain ⟨haligned, hend, hmax⟩ := h.page e he
  have hcstack := h.cstack e he
  obtain ⟨-, -, hrsp, -⟩ := restoreCStack_spec h ⟨e, he, by omega, hroom, by omega⟩
  have hsegment : segmentEnd s.rsp = e := segmentEnd_eq haligned hmax hpage (by omega)
  have hheader : s.memory.SameOn s.restoreCStack.2.memory (e - 4096) (e - 64) := by
    simp only [restoreCStack, hsegment]
    exact (s.memory.sameOn_store64 _ (by omega)).store64 _ (by omega)
  refine hheader.store64 _ ?_
  rw [hrsp]
  omega

/-- The message frame that a send trampoline leaves on the segment, below what the sender has
there. -/
theorem sendWith_frame (h : th.Carries s.memory segments) (he : e ∈ segments)
    (hpage : e + 24 ≤ s.rsp + 4096) (hroom : s.rsp + 64 ≤ e)
    (hdata : th.data + 48 ≤ s.rsp ∨ s.rsp ≤ th.data)
    (hlow : th.cstackLow + 8 ≤ (th.pointers s.memory).cstackPointer.toNat)
    (hhigh : (th.pointers s.memory).cstackPointer.toNat ≤ th.cstackHigh) (dispatch : CFunction)
    (rax rcx : UInt64) :
    let m := (s.sendWith dispatch rax rcx).memory
    m.load64 (s.rsp - 24) = rcx ∧ m.load64 (s.rsp - 8) = s.rbp ∧
      s.memory.SameOn m s.rsp (e - 64) := by
  have hthread := h.page e he
  obtain ⟨hframe, hroom₁⟩ := enterFrame_spec (n := 16) h ⟨e, he, by omega, hroom, by omega⟩
  obtain ⟨hselector, hroom₂⟩ := push_spec (n := 8) (h.kept hframe) hroom₁ rax
  obtain ⟨hdescriptor, -⟩ := push_spec (n := 0) ((h.kept hframe).kept hselector) hroom₂ rcx
  have hkept := (hframe.trans hselector).trans hdescriptor
  have hpointers := Thread.pointers_congr hkept.data
  have hrsp : ((s.enterFrame.push rax).push rcx).rsp = s.rsp - 24 := by
    show s.rsp - 8 - 8 - 8 = s.rsp - 24
    omega
  have htrap := trapTo_sameOn (h.kept hkept) he (by omega) (by omega) (by omega)
    (by rwa [hpointers]) (by rwa [hpointers]) dispatch
  -- the three pushes
  have hmemory : ((s.enterFrame.push rax).push rcx).memory =
      ((s.memory.store64 (s.rsp - 8) s.rbp).store64 (s.rsp - 16) rax).store64 (s.rsp - 24) rcx := by
    show ((s.memory.store64 (s.rsp - 8) s.rbp).store64 (s.rsp - 8 - 8) rax).store64
      (s.rsp - 8 - 8 - 8) rcx = _
    rw [show s.rsp - 8 - 8 = s.rsp - 16 by omega, show s.rsp - 16 - 8 = s.rsp - 24 by omega]
  rw [hmemory] at htrap
  refine ⟨?_, ?_, ?_⟩
  · refine (htrap.mono (by omega) (by omega)).load64.trans ?_
    exact ByteMemory.load64_store64 _ _ _
  · refine (htrap.mono (by omega) (by omega)).load64.trans ?_
    rw [ByteMemory.load64_store64_of_disjoint _ _ (by omega),
      ByteMemory.load64_store64_of_disjoint _ _ (by omega), ByteMemory.load64_store64]
  · refine ByteMemory.SameOn.trans ?_ (htrap.mono (by omega) (Nat.le_refl _))
    exact ((s.memory.sameOn_store64 _ (by omega)).store64 _ (by omega)).store64 _ (by omega)

/-- **A message to a primitive returns to its sender**: whatever the primitive did, as long as the
message frame is still there, the sender goes on behind its call with its own frame pointer, the
receiver and the arguments popped. -/
theorem send_resumes [TrampolineImage] (h : th.Carries s.memory segments) (he : e ∈ segments)
    (hpage : e + 24 ≤ s.rsp + 4096) (hroom : s.rsp + 72 ≤ e)
    (hdata : th.data + 48 ≤ s.rsp ∨ s.rsp ≤ th.data)
    (hlow : th.cstackLow + 8 ≤ (th.pointers s.memory).cstackPointer.toNat)
    (hhigh : (th.pointers s.memory).cstackPointer.toNat ≤ th.cstackHigh) (rax rcx : UInt64)
    {s₁ : Machine}
    (hframe : (s.sendTrampoline rax rcx).memory.SameOn s₁.memory (s.rsp - 24) (s.rsp + 8))
    (result : UInt64) :
    Resumed s₁.memory s.rbp (s.memory.load64 s.rsp) result
      (s.rsp + 16 + rcx.toNat % 2 ^ 16 * 8 + rcx.toNat / 2 ^ 16 % 2 ^ 16)
      (s₁.returnToSmalltalkSender (s.rsp - 24) result) := by
  have hthread := h.page e he
  obtain ⟨hdescriptor, hframePointer, hsame⟩ :=
    sendWith_frame h he hpage (by omega) hdata hlow hhigh
    TrampolineImage.sendDispatch rax rcx
  have hdescriptor₁ : s₁.memory.load64 (s.rsp - 24) = rcx :=
    (hframe.mono (by omega) (by omega)).load64.trans hdescriptor
  have hframePointer₁ : s₁.memory.load64 (s.rsp - 8) = s.rbp :=
    (hframe.mono (by omega) (by omega)).load64.trans hframePointer
  have hreturnPointer₁ : s₁.memory.load64 s.rsp = s.memory.load64 s.rsp :=
    (hframe.mono (by omega) (by omega)).load64.trans (hsame.mono (by omega) (by omega)).load64
  have hoops := s₁.memory.load16_toNat (s.rsp - 24) (k := 0) (by decide)
  have hnative := s₁.memory.load16_toNat (s.rsp - 24) (k := 2) (by decide)
  rw [hdescriptor₁, Nat.pow_zero, Nat.div_one, Nat.add_zero] at hoops
  rw [hdescriptor₁] at hnative
  have hresumed := s₁.returnToSmalltalkSender_resumed (s.rsp - 24) result
  rw [hoops, hnative, show s.rsp - 24 + 16 = s.rsp - 8 by omega,
    show s.rsp - 24 + 24 = s.rsp by omega, show s.rsp - 24 + 40 = s.rsp + 16 by omega,
    hframePointer₁, hreturnPointer₁] at hresumed
  exact hresumed

end Machine

end SlvmNative
