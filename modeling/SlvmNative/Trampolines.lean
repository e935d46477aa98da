import SlvmNative.Library.ByteMemory
import SlvmNative.Library.StructLayout
import SlvmNative.Library.Words
import Mathlib.Logic.Relation

/-!
# The x86_64 trampolines

How control changes between C code, on the stack of the operating system, and Smalltalk code, on
the segments of a thread. `_slvm_dynrun_switch_to_smalltalk` pushes the three pointers of the thread
data on the C stack and lets them point there; `_slvm_returnToC_trampoline` finds the thread data
through the header at the end of the page and leaves through them. In between the send trampolines
start C code at the saved stack pointer.

Memory is one array of bytes. Stack pointers and addresses are natural numbers; the stores of a
trampoline below address zero do not occur, as the stacks have room for them.

## Main definitions

* `Machine` — the registers and the memory
* `Machine.switchToSmalltalk`, `Machine.returnToCTrampoline`, `Machine.sendTrampoline`, …
* `SwitchRun`, `SwitchRun.Step` — C code, Smalltalk code and trampolines in any order
* `SwitchRun.Chain` — the switches in progress, found again on the C stack

## Main results

* `SwitchRun.valid_of_run` — the invariant holds in every state of a run
* `SwitchRun.returnToC_of_run` — every switch returns to its own caller
-/

namespace SlvmNative

open Relation

/-! ### Structures -/

/-- A pointer, `size_t` or oop of the 64-bit build. -/
def pointerType : CType := ⟨8, 8, by decide⟩

/-- `SLVM_LinkedListNode`, and `SLVM_LinkedList`: two pointers. -/
def listNodeType : CType := CType.ofMembers [pointerType, pointerType]

/-- The members of `SLVM_ThreadStackData_`: `cstackPointer`, `cframePointer`, `creturnPointer`,
`cextraPointer` and `segmentList`. -/
def threadStackDataMembers : List CType :=
  [pointerType, pointerType, pointerType, pointerType, listNodeType]

/-- The members of `SLVM_ExecutionStackSegmentHeader_`: `baseFramePointer`, `segmentSize`,
`threadData`, `linkPointer`, `framePointer`, `stackPointer` and `header`. -/
def segmentHeaderMembers : List CType :=
  [pointerType, pointerType, pointerType, pointerType, pointerType, pointerType, listNodeType]

/-- The offsets the trampolines use, from the end of a segment and in the thread data. -/
example :
    (CType.ofMembers segmentHeaderMembers).size = 64 ∧
      CType.memberOffset 0 segmentHeaderMembers 2 + 48 = 64 ∧
      CType.memberOffset 0 segmentHeaderMembers 4 + 32 = 64 ∧
      CType.memberOffset 0 segmentHeaderMembers 5 + 24 = 64 ∧
      CType.memberOffset 0 threadStackDataMembers 0 = 0 ∧
      CType.memberOffset 0 threadStackDataMembers 1 = 8 ∧
      CType.memberOffset 0 threadStackDataMembers 2 = 16 := by
  decide

/-! ### The machine -/

/-- The stack pointer, frame pointer and instruction pointer, and the memory. -/
structure Machine where
  rsp : ℕ
  rbp : UInt64
  rip : UInt64
  memory : ByteMemory

/-- A function in C, and the address behind the `call` of it in a trampoline. -/
structure CFunction where
  address : UInt64
  returnAddress : UInt64

/-- What the linker puts in place of the symbols in the trampolines. -/
class TrampolineImage where
  /-- `slvm_dynrun_send_dispatch` -/
  sendDispatch : CFunction
  /-- `slvm_dynrun_supersend_dispatch` -/
  supersendDispatch : CFunction
  /-- `slvm_dynrun_new_stack_segment` -/
  newStackSegment : CFunction
  /-- `slvm_dynrun_pop_stack_segment` -/
  popStackSegment : CFunction
  /-- `.LbackToCReturnPointer` -/
  backToCReturnPointer : UInt64
  /-- `_slvm_dynrun_pop_stack_segment_trap` -/
  popStackSegmentTrap : UInt64

namespace Machine

variable [TrampolineImage]

/-- `push` -/
def push (s : Machine) (v : UInt64) : Machine :=
  { s with rsp := s.rsp - 8, memory := s.memory.store64 (s.rsp - 8) v }

/-- `pop` -/
def pop (s : Machine) : UInt64 × Machine := (s.memory.load64 s.rsp, { s with rsp := s.rsp + 8 })

/-- `call`, with the address behind the instruction. -/
def call (s : Machine) (returnAddress target : UInt64) : Machine :=
  { s.push returnAddress with rip := target }

/-- `pop rbp` -/
def popRbp (s : Machine) : Machine := { s.pop.2 with rbp := s.pop.1 }

/-- `ret` -/
def ret (s : Machine) : Machine := { s.pop.2 with rip := s.pop.1 }

/-- The end of the segment of a stack pointer: `and rbx,-4096` and `add rbx,4096`. -/
def segmentEnd (rsp : ℕ) : ℕ := (rsp &&& (2 ^ 64 - 4096)) + 4096

/-- `push rbp` and `mov rbp,rsp` -/
def enterFrame (s : Machine) : Machine := { s.push s.rbp with rbp := UInt64.ofNat (s.rsp - 8) }

/-- What all trampolines from Smalltalk to C do: store the Smalltalk stack pointers in the header
of the segment, and restore the C stack from the thread data, whose address is left in `rcx`. -/
def restoreCStack (s : Machine) : ℕ × Machine :=
  let rbx := segmentEnd s.rsp
  let rcx := (s.memory.load64 (rbx - 48)).toNat
  let memory := (s.memory.store64 (rbx - 24) (UInt64.ofNat s.rsp)).store64 (rbx - 32) s.rbp
  (rcx,
    { s with
      rsp := (memory.load64 rcx).toNat
      rbp := memory.load64 (rcx + 8)
      memory := memory })

/-- `push rbp`, `mov rbp,rsp`, `push rax` and `push rcx`, then a C function on the C stack: `rax` is
the selector and `rcx` the argument descriptor. -/
def sendWith (s : Machine) (dispatch : CFunction) (rax rcx : UInt64) : Machine :=
  ((s.enterFrame.push rax).push rcx).restoreCStack.2.call dispatch.returnAddress dispatch.address

/-- `_slvm_dynrun_send_trampoline` -/
def sendTrampoline (s : Machine) (rax rcx : UInt64) : Machine :=
  s.sendWith TrampolineImage.sendDispatch rax rcx

/-- `_slvm_dynrun_supersend_trampoline` -/
def supersendTrampoline (s : Machine) (rax rcx : UInt64) : Machine :=
  s.sendWith TrampolineImage.supersendDispatch rax rcx

/-- `slvm_dynrun_primitive_dispatch_trampoline`, with the primitive in `rax`. -/
def primitiveDispatchTrampoline (s : Machine) (rax : CFunction) : Machine :=
  s.enterFrame.restoreCStack.2.call rax.returnAddress rax.address

/-- A C function on the C stack. -/
def trapTo (s : Machine) (function : CFunction) : Machine :=
  s.restoreCStack.2.call function.returnAddress function.address

/-- `_slvm_dynrun_stack_limit_trap` -/
def stackLimitTrap (s : Machine) : Machine := s.trapTo TrampolineImage.newStackSegment

/-- `_slvm_dynrun_pop_stack_segment_trap` -/
def popStackSegmentTrap (s : Machine) : Machine := s.trapTo TrampolineImage.popStackSegment

/-- `_slvm_dynrun_returnToSender_trampoline`; the result is left in `rax`. -/
def returnToSenderTrampoline (s : Machine) (restoreStackPointer : ℕ) : Machine :=
  { s with rsp := restoreStackPointer }.popRbp.ret

/-- `_slvm_dynrun_returnToMethod_trampoline` -/
def returnToMethodTrampoline (s : Machine) (restoreStackPointer : ℕ) (methodPointer : UInt64) :
    Machine :=
  { { s with rsp := restoreStackPointer }.popRbp with rip := methodPointer }

/-- `_slvm_dynrun_switch_to_smalltalk`; `stackSegment` is the end of the segment. -/
def switchToSmalltalk (s : Machine) (stackSegment : ℕ) (entryPoint : UInt64) : Machine :=
  let s := s.enterFrame
  let rcx := (s.memory.load64 (stackSegment - 48)).toNat
  -- store the old C pointers
  let s := s.push (s.memory.load64 (rcx + 16))
  let s := s.push (s.memory.load64 (rcx + 8))
  let s := s.push (s.memory.load64 rcx)
  -- store the C pointers
  let memory := s.memory.store64 rcx (UInt64.ofNat s.rsp)
  let memory := memory.store64 (rcx + 8) s.rbp
  let memory := memory.store64 (rcx + 16) TrampolineImage.backToCReturnPointer
  { rsp := (memory.load64 (stackSegment - 24)).toNat
    rbp := memory.load64 (stackSegment - 32)
    rip := entryPoint
    memory := memory }

/-- `pop qword [address]` -/
def popInto (s : Machine) (address : ℕ) : Machine :=
  { s.pop.2 with memory := s.memory.store64 address s.pop.1 }

/-- The code at `.LbackToCReturnPointer`. -/
def backToC (s : Machine) (rcx : ℕ) : Machine :=
  let s := ((s.popInto rcx).popInto (rcx + 8)).popInto (rcx + 16)
  { s with rsp := s.rbp.toNat }.popRbp.ret

/-- `_slvm_returnToC_trampoline`, with the thread data in `rcx`. -/
def returnToCTrampoline (s : Machine) : ℕ × Machine :=
  let (rcx, s) := s.restoreCStack
  (rcx, { s with rip := s.memory.load64 (rcx + 16) })

end Machine

/-! ### The memory of a thread -/

/-- The three pointers of the thread data that the trampolines use. -/
@[ext] structure ThreadPointers where
  cstackPointer : UInt64
  cframePointer : UInt64
  creturnPointer : UInt64

/-- A thread: where its thread data and its C stack are. -/
structure Thread where
  /-- The address of the thread data. -/
  data : ℕ
  /-- The C stack grows from `cstackHigh` down to `cstackLow`. -/
  cstackLow : ℕ
  cstackHigh : ℕ
  data_lt : data < 2 ^ 64
  cstackHigh_le : cstackHigh ≤ 2 ^ 64
  data_clear : data + 24 ≤ cstackLow ∨ cstackHigh ≤ data

namespace Thread

variable {th : Thread} {segments : List ℕ} {m m' m₁ m₂ m₃ : ByteMemory} {entry e a : ℕ}

/-- The pointers in the thread data. -/
def pointers (th : Thread) (m : ByteMemory) : ThreadPointers where
  cstackPointer := m.load64 th.data
  cframePointer := m.load64 (th.data + 8)
  creturnPointer := m.load64 (th.data + 16)

/-- The segments of the thread, each by its end: pages that keep clear of the C stack, with headers
that keep clear of the thread data and carry its address. -/
structure Carries (th : Thread) (m : ByteMemory) (segments : List ℕ) : Prop where
  page : ∀ e ∈ segments, e % 4096 = 0 ∧ 4096 ≤ e ∧ e ≤ 2 ^ 64
  cstack : ∀ e ∈ segments, e ≤ th.cstackLow ∨ th.cstackHigh + 4096 ≤ e
  header : ∀ e ∈ segments, th.data + 24 + 64 ≤ e ∨ e ≤ th.data
  threadData : ∀ e ∈ segments, m.load64 (e - 48) = UInt64.ofNat th.data

/-- What keeps the switches in progress intact: the C stack from `entry` on, the pointers in the
thread data and the thread data of the segments are left alone. -/
structure Kept (th : Thread) (entry : ℕ) (segments : List ℕ) (m m' : ByteMemory) : Prop where
  cstack : m.SameOn m' entry th.cstackHigh
  data : m.SameOn m' th.data (th.data + 24)
  threadData : ∀ e ∈ segments, m'.load64 (e - 48) = m.load64 (e - 48)

theorem Kept.trans (h₁ : Kept th entry segments m₁ m₂) (h₂ : Kept th entry segments m₂ m₃) :
    Kept th entry segments m₁ m₃ :=
  ⟨h₁.cstack.trans h₂.cstack, h₁.data.trans h₂.data, fun e he =>
    (h₂.threadData e he).trans (h₁.threadData e he)⟩

theorem Kept.mono {entry' : ℕ} (h : Kept th entry segments m m') (hle : entry ≤ entry') :
    Kept th entry' segments m m' :=
  ⟨h.cstack.mono hle (Nat.le_refl _), h.data, h.threadData⟩

theorem pointers_congr (h : m.SameOn m' th.data (th.data + 24)) :
    th.pointers m' = th.pointers m := by
  have hstack : m'.load64 th.data = m.load64 th.data :=
    (h.mono (Nat.le_refl _) (by omega)).load64
  have hframe : m'.load64 (th.data + 8) = m.load64 (th.data + 8) :=
    (h.mono (by omega) (by omega)).load64
  have hreturn : m'.load64 (th.data + 16) = m.load64 (th.data + 16) :=
    (h.mono (by omega) (by omega)).load64
  rw [pointers, pointers, hstack, hframe, hreturn]

theorem Carries.kept (h : Carries th m segments) (hkept : Kept th entry segments m m') :
    Carries th m' segments :=
  ⟨h.page, h.cstack, h.header, fun e he => (hkept.threadData e he).trans (h.threadData e he)⟩

/-- The address of the thread data is read from any segment. -/
theorem Carries.threadData_toNat (h : Carries th m segments) (he : e ∈ segments) :
    (m.load64 (e - 48)).toNat = th.data := by
  rw [h.threadData e he, UInt64.toNat_ofNat']
  exact Nat.mod_eq_of_lt th.data_lt

/-- A store into a segment, but not over the thread data or the word that points to it. -/
theorem Carries.kept_store_segment (h : Carries th m segments) (he : e ∈ segments)
    (hlow : e ≤ a + 4096) (hhigh : a + 8 ≤ e) (hword : a + 56 ≤ e ∨ e ≤ a + 40)
    (hdata : th.data + 24 ≤ a ∨ a + 8 ≤ th.data) (v : UInt64) :
    Kept th th.cstackLow segments m (m.store64 a v) := by
  obtain ⟨haligned, hpage, -⟩ := h.page e he
  have hcstack := h.cstack e he
  refine ⟨m.sameOn_store64 v (by omega), m.sameOn_store64 v (by omega), fun f hf => ?_⟩
  obtain ⟨haligned', hpage', -⟩ := h.page f hf
  refine m.load64_store64_of_disjoint v ?_
  by_cases hfe : f = e
  · subst hfe
    omega
  · -- another page
    omega

/-- A store on the C stack. -/
theorem Carries.kept_store_cstack (h : Carries th m segments) (hlow : th.cstackLow ≤ a)
    (hhigh : a + 8 ≤ th.cstackHigh) (v : UInt64) :
    Kept th (a + 8) segments m (m.store64 a v) := by
  have hclear := th.data_clear
  refine ⟨m.sameOn_store64 v (Or.inl (Nat.le_refl _)), m.sameOn_store64 v (by omega),
    fun f hf => ?_⟩
  obtain ⟨-, hpage, -⟩ := h.page f hf
  have hcstack := h.cstack f hf
  exact m.load64_store64_of_disjoint v (by omega)

/-- A store to one of the pointers in the thread data. -/
theorem Carries.threadData_store_data (h : Carries th m segments) (hlow : th.data ≤ a)
    (hhigh : a + 8 ≤ th.data + 24) (v : UInt64) : Carries th (m.store64 a v) segments := by
  refine ⟨h.page, h.cstack, h.header, fun f hf => ?_⟩
  have hheader := h.header f hf
  obtain ⟨-, hpage, -⟩ := h.page f hf
  rw [m.load64_store64_of_disjoint v (by omega)]
  exact h.threadData f hf

/-- The Smalltalk stack pointer is in a segment and has room below it for `n` bytes. -/
def HasRoom (th : Thread) (segments : List ℕ) (n : ℕ) (s : Machine) : Prop :=
  ∃ e ∈ segments, e + n ≤ s.rsp + 4096 ∧ s.rsp + 64 ≤ e ∧
    (th.data + 24 + n ≤ s.rsp ∨ s.rsp ≤ th.data)

end Thread

/-! ### What the trampolines do to memory -/

namespace Machine

variable {th : Thread} {segments : List ℕ} {s : Machine} {n : ℕ}

/-- The page of a stack pointer ends at the end of its segment. -/
theorem segmentEnd_eq {e rsp : ℕ} (haligned : e % 4096 = 0) (he : e ≤ 2 ^ 64)
    (hlow : e ≤ rsp + 4096) (hhigh : rsp < e) : segmentEnd rsp = e := by
  have hmask := @Words.and_neg_two_pow 64 12 rsp (by decide) (by omega)
  rw [segmentEnd, show (2 : ℕ) ^ 64 - 4096 = 2 ^ 64 - 2 ^ 12 from rfl, hmask]
  omega

/-- A push on the Smalltalk stack. -/
theorem push_spec (h : th.Carries s.memory segments) (hroom : th.HasRoom segments (n + 8) s)
    (v : UInt64) :
    th.Kept th.cstackLow segments s.memory (s.push v).memory ∧
      th.HasRoom segments n (s.push v) := by
  obtain ⟨e, he, hlow, hhigh, hdata⟩ := hroom
  obtain ⟨-, hpage, -⟩ := h.page e he
  refine ⟨h.kept_store_segment he (by omega) (by omega) (by omega) (by omega) v, e, he, ?_, ?_, ?_⟩
  · show e + n ≤ s.rsp - 8 + 4096
    omega
  · show s.rsp - 8 + 64 ≤ e
    omega
  · show th.data + 24 + n ≤ s.rsp - 8 ∨ s.rsp - 8 ≤ th.data
    omega

/-- **Back to the C stack**: the thread data is found through the header of the segment. -/
theorem restoreCStack_spec (h : th.Carries s.memory segments) (hroom : th.HasRoom segments 0 s) :
    s.restoreCStack.1 = th.data ∧
      th.Kept th.cstackLow segments s.memory s.restoreCStack.2.memory ∧
      s.restoreCStack.2.rsp = (th.pointers s.memory).cstackPointer.toNat ∧
      s.restoreCStack.2.rbp = (th.pointers s.memory).cframePointer := by
  obtain ⟨e, he, hlow, hhigh, -⟩ := hroom
  obtain ⟨haligned, hpage, hmax⟩ := h.page e he
  have hheader := h.header e he
  have hend : segmentEnd s.rsp = e := segmentEnd_eq haligned hmax (by omega) (by omega)
  have hstack := h.kept_store_segment (a := e - 24) he (by omega) (by omega) (by omega) (by omega)
    (UInt64.ofNat s.rsp)
  have hframe := (h.kept hstack).kept_store_segment (a := e - 32) he (by omega)
    (by omega) (by omega)
    (by omega) s.rbp
  have hkept := hstack.trans hframe
  have hpointers := Thread.pointers_congr hkept.data
  have hresult : s.restoreCStack = (th.data,
      { s with
        rsp := (th.pointers ((s.memory.store64 (e - 24) (UInt64.ofNat s.rsp)).store64 (e - 32)
          s.rbp)).cstackPointer.toNat
        rbp := (th.pointers ((s.memory.store64 (e - 24) (UInt64.ofNat s.rsp)).store64 (e - 32)
          s.rbp)).cframePointer
        memory := (s.memory.store64 (e - 24) (UInt64.ofNat s.rsp)).store64 (e - 32) s.rbp }) := by
    simp only [restoreCStack, hend, h.threadData_toNat he, Thread.pointers]
  rw [hresult, hpointers]
  exact ⟨rfl, hkept, rfl, rfl⟩

/-- A call on the C stack. -/
theorem call_spec (h : th.Carries s.memory segments) (hlow : th.cstackLow + 8 ≤ s.rsp)
    (hhigh : s.rsp ≤ th.cstackHigh) (returnAddress target : UInt64) :
    th.Kept s.rsp segments s.memory (s.call returnAddress target).memory := by
  have hkept := h.kept_store_cstack (a := s.rsp - 8) (by omega) (by omega) returnAddress
  rwa [Nat.sub_add_cancel (by omega)] at hkept

theorem trapTo_spec (h : th.Carries s.memory segments) (hroom : th.HasRoom segments 0 s)
    (hlow : th.cstackLow + 8 ≤ (th.pointers s.memory).cstackPointer.toNat)
    (hhigh : (th.pointers s.memory).cstackPointer.toNat ≤ th.cstackHigh) (function : CFunction) :
    th.Kept (th.pointers s.memory).cstackPointer.toNat segments s.memory
      (s.trapTo function).memory := by
  obtain ⟨-, hkept, hrsp, -⟩ := restoreCStack_spec h hroom
  rw [← hrsp] at hlow hhigh ⊢
  have hcall := call_spec (h.kept hkept) hlow hhigh function.returnAddress function.address
  exact (hkept.mono (by omega)).trans hcall

/-- The trampolines from Smalltalk to C, with the bytes they push on the Smalltalk stack. -/
inductive ToC [TrampolineImage] (s : Machine) : ℕ → Machine → Prop
  | send (rax rcx : UInt64) : ToC s 24 (s.sendTrampoline rax rcx)
  | supersend (rax rcx : UInt64) : ToC s 24 (s.supersendTrampoline rax rcx)
  | primitiveDispatch (rax : CFunction) : ToC s 8 (s.primitiveDispatchTrampoline rax)
  | stackLimit : ToC s 0 s.stackLimitTrap
  | popStackSegment : ToC s 0 s.popStackSegmentTrap

/-- A trampoline to C that starts with pushes on the Smalltalk stack. -/
theorem trapTo_spec_of_kept {s₁ : Machine} (h : th.Carries s.memory segments)
    (hkept : th.Kept th.cstackLow segments s.memory s₁.memory) (hroom : th.HasRoom segments 0 s₁)
    (hlow : th.cstackLow + 8 ≤ (th.pointers s.memory).cstackPointer.toNat)
    (hhigh : (th.pointers s.memory).cstackPointer.toNat ≤ th.cstackHigh) (function : CFunction) :
    th.Kept (th.pointers s.memory).cstackPointer.toNat segments s.memory
      (s₁.trapTo function).memory := by
  have hpointers := Thread.pointers_congr hkept.data
  have htrap := trapTo_spec (h.kept hkept) hroom (by rwa [hpointers]) (by rwa [hpointers]) function
  rw [hpointers] at htrap
  exact (hkept.mono (by omega)).trans htrap

theorem enterFrame_spec (h : th.Carries s.memory segments) (hroom : th.HasRoom segments (n + 8) s) :
    th.Kept th.cstackLow segments s.memory s.enterFrame.memory ∧
      th.HasRoom segments n s.enterFrame :=
  push_spec h hroom s.rbp

theorem sendWith_spec (h : th.Carries s.memory segments) (hroom : th.HasRoom segments 24 s)
    (hlow : th.cstackLow + 8 ≤ (th.pointers s.memory).cstackPointer.toNat)
    (hhigh : (th.pointers s.memory).cstackPointer.toNat ≤ th.cstackHigh) (dispatch : CFunction)
    (rax rcx : UInt64) :
    th.Kept (th.pointers s.memory).cstackPointer.toNat segments s.memory
      (s.sendWith dispatch rax rcx).memory := by
  obtain ⟨hframe, hroom₁⟩ := enterFrame_spec (n := 16) h hroom
  obtain ⟨hselector, hroom₂⟩ := push_spec (n := 8) (h.kept hframe) hroom₁ rax
  obtain ⟨hdescriptor, hroom₃⟩ := push_spec (n := 0) ((h.kept hframe).kept hselector) hroom₂ rcx
  exact trapTo_spec_of_kept h ((hframe.trans hselector).trans hdescriptor) hroom₃ hlow
    hhigh dispatch

/-- **A trampoline to C** leaves the C stack above the saved stack pointer and the thread data
alone. -/
theorem ToC.kept [TrampolineImage] {s' : Machine} (hto : ToC s n s')
    (h : th.Carries s.memory segments) (hroom : th.HasRoom segments n s)
    (hlow : th.cstackLow + 8 ≤ (th.pointers s.memory).cstackPointer.toNat)
    (hhigh : (th.pointers s.memory).cstackPointer.toNat ≤ th.cstackHigh) :
    th.Kept (th.pointers s.memory).cstackPointer.toNat segments s.memory s'.memory := by
  cases hto with
  | send rax rcx => exact sendWith_spec h hroom hlow hhigh _ rax rcx
  | supersend rax rcx => exact sendWith_spec h hroom hlow hhigh _ rax rcx
  | primitiveDispatch rax =>
    obtain ⟨hframe, hroom₁⟩ := enterFrame_spec (n := 0) h hroom
    exact trapTo_spec_of_kept h hframe hroom₁ hlow hhigh rax
  | stackLimit => exact trapTo_spec h hroom hlow hhigh _
  | popStackSegment => exact trapTo_spec h hroom hlow hhigh _

end Machine

/-! ### Switches in progress -/

/-- A C function that has switched to Smalltalk: where it goes on, its stack pointers at the call,
and the pointers in the thread data at that time. -/
structure Caller where
  returnAddress : UInt64
  stackPointer : ℕ
  framePointer : UInt64
  pointers : ThreadPointers

namespace Caller

variable [TrampolineImage] {th : Thread} {m m' : ByteMemory}

/-- The pointers in the thread data while Smalltalk runs for a caller. -/
def switched (caller : Caller) : ThreadPointers where
  cstackPointer := UInt64.ofNat (caller.stackPointer - 40)
  cframePointer := UInt64.ofNat (caller.stackPointer - 16)
  creturnPointer := TrampolineImage.backToCReturnPointer

/-- The frame that `_slvm_dynrun_switch_to_smalltalk` leaves on the C stack. -/
structure Saved (caller : Caller) (m : ByteMemory) : Prop where
  returnAddress : m.load64 (caller.stackPointer - 8) = caller.returnAddress
  framePointer : m.load64 (caller.stackPointer - 16) = caller.framePointer
  creturnPointer : m.load64 (caller.stackPointer - 24) = caller.pointers.creturnPointer
  cframePointer : m.load64 (caller.stackPointer - 32) = caller.pointers.cframePointer
  cstackPointer : m.load64 (caller.stackPointer - 40) = caller.pointers.cstackPointer

omit [TrampolineImage] in
theorem Saved.congr {caller : Caller} (h : caller.Saved m) (hroom : 40 ≤ caller.stackPointer)
    (hsame : m.SameOn m' (caller.stackPointer - 40) caller.stackPointer) : caller.Saved m' where
  returnAddress := ((hsame.mono (by omega) (by omega)).load64).trans h.returnAddress
  framePointer := ((hsame.mono (by omega) (by omega)).load64).trans h.framePointer
  creturnPointer := ((hsame.mono (by omega) (by omega)).load64).trans h.creturnPointer
  cframePointer := ((hsame.mono (by omega) (by omega)).load64).trans h.cframePointer
  cstackPointer := ((hsame.mono (by omega) (by omega)).load64).trans h.cstackPointer

end Caller

namespace Machine

variable [TrampolineImage] {th : Thread} {segments : List ℕ} {s : Machine} {e : ℕ}

/-- The caller of a switch, as the `call` instruction finds it. -/
def caller (s : Machine) (th : Thread) (returnAddress : UInt64) : Caller where
  returnAddress := returnAddress
  stackPointer := s.rsp
  framePointer := s.rbp
  pointers := th.pointers s.memory

/-- **A switch to Smalltalk** saves its caller below the stack pointer of the caller, and lets the
thread data point there. -/
theorem switchToSmalltalk_spec (h : th.Carries s.memory segments) (he : e ∈ segments)
    (hlow : th.cstackLow + 40 ≤ s.rsp) (hhigh : s.rsp ≤ th.cstackHigh)
    (returnAddress entryPoint : UInt64) :
    let m := ((s.push returnAddress).switchToSmalltalk e entryPoint).memory
    th.Carries m segments ∧ s.memory.SameOn m s.rsp th.cstackHigh ∧
      th.pointers m = (s.caller th returnAddress).switched ∧
      (s.caller th returnAddress).Saved m := by
  have hclear := th.data_clear
  -- five pushes on the C stack
  have hpush : ∀ {m : ByteMemory} (_ : th.Carries m segments) (k : ℕ) (_ : 8 ≤ k) (_ : k ≤ 40)
      (v : UInt64), th.Kept s.rsp segments m (m.store64 (s.rsp - k) v) := fun hm k hk hk' v =>
    (hm.kept_store_cstack (a := s.rsp - k) (by omega) (by omega) v).mono (by omega)
  generalize hm₁ : s.memory.store64 (s.rsp - 8) returnAddress = m₁
  have h₁ : th.Kept s.rsp segments s.memory m₁ := hm₁ ▸ hpush h 8 (by omega) (by omega) _
  generalize hm₂ : m₁.store64 (s.rsp - 16) s.rbp = m₂
  have h₂ : th.Kept s.rsp segments s.memory m₂ :=
    h₁.trans (hm₂ ▸ hpush (h.kept h₁) 16 (by omega) (by omega) _)
  have hp₂ := Thread.pointers_congr h₂.data
  generalize hm₃ : m₂.store64 (s.rsp - 24) (th.pointers s.memory).creturnPointer = m₃
  have h₃ : th.Kept s.rsp segments s.memory m₃ :=
    h₂.trans (hm₃ ▸ hpush (h.kept h₂) 24 (by omega) (by omega) _)
  have hp₃ := Thread.pointers_congr h₃.data
  generalize hm₄ : m₃.store64 (s.rsp - 32) (th.pointers s.memory).cframePointer = m₄
  have h₄ : th.Kept s.rsp segments s.memory m₄ :=
    h₃.trans (hm₄ ▸ hpush (h.kept h₃) 32 (by omega) (by omega) _)
  have hp₄ := Thread.pointers_congr h₄.data
  generalize hm₅ : m₄.store64 (s.rsp - 40) (th.pointers s.memory).cstackPointer = m₅
  have h₅ : th.Kept s.rsp segments s.memory m₅ :=
    h₄.trans (hm₅ ▸ hpush (h.kept h₄) 40 (by omega) (by omega) _)
  -- three stores to the thread data
  have hresult : ((s.push returnAddress).switchToSmalltalk e entryPoint).memory =
      ((m₅.store64 th.data (UInt64.ofNat (s.rsp - 40))).store64 (th.data + 8)
        (UInt64.ofNat (s.rsp - 16))).store64 (th.data + 16)
          TrampolineImage.backToCReturnPointer := by
    have hrcx := (h.kept h₂).threadData_toNat he
    have hreturn : m₂.load64 (th.data + 16) = (th.pointers s.memory).creturnPointer :=
      congrArg ThreadPointers.creturnPointer hp₂
    have hframe : m₃.load64 (th.data + 8) = (th.pointers s.memory).cframePointer :=
      congrArg ThreadPointers.cframePointer hp₃
    have hstack : m₄.load64 th.data = (th.pointers s.memory).cstackPointer :=
      congrArg ThreadPointers.cstackPointer hp₄
    simp only [switchToSmalltalk, enterFrame, push, Nat.sub_sub, Nat.reduceAdd, hm₁, hm₂, hrcx,
      hreturn, hm₃, hframe, hm₄, hstack, hm₅]
  rw [hresult]
  refine ⟨?_, ?_, ?_, ?_⟩
  · have hcarries : th.Carries m₅ segments := h.kept h₅
    have hstack := hcarries.threadData_store_data (Nat.le_refl _) (by omega)
      (UInt64.ofNat (s.rsp - 40))
    have hframe := hstack.threadData_store_data (Nat.le_add_right _ 8) (by omega)
      (UInt64.ofNat (s.rsp - 16))
    exact hframe.threadData_store_data (Nat.le_add_right _ 16) (by omega) _
  · exact ((h₅.cstack.store64 _ (by omega)).store64 _ (by omega)).store64 _ (by omega)
  · simp (disch := omega) only [Thread.pointers, Caller.switched, caller, ByteMemory.load64_store64,
      ByteMemory.load64_store64_of_disjoint]
  · subst hm₁ hm₂ hm₃ hm₄ hm₅
    constructor <;>
      simp (disch := omega) only [caller, ByteMemory.load64_store64,
        ByteMemory.load64_store64_of_disjoint]

omit [TrampolineImage] in
/-- **The way back to C** ends where a caller was saved, with its pointers in the thread data. -/
theorem backToC_spec {caller : Caller} (h : th.Carries s.memory segments)
    (hsaved : caller.Saved s.memory) (hlow : th.cstackLow + 40 ≤ caller.stackPointer)
    (hhigh : caller.stackPointer ≤ th.cstackHigh) (hrsp : s.rsp = caller.stackPointer - 40)
    (hrbp : s.rbp = UInt64.ofNat (caller.stackPointer - 16)) :
    let s' := s.backToC th.data
    s'.rip = caller.returnAddress ∧ s'.rsp = caller.stackPointer ∧ s'.rbp = caller.framePointer ∧
      th.pointers s'.memory = caller.pointers ∧
      s.memory.SameOn s'.memory th.cstackLow th.cstackHigh ∧ th.Carries s'.memory segments := by
  have hclear := th.data_clear
  have hmax := th.cstackHigh_le
  -- three stores to the thread data, of words on the C stack
  generalize hm : ((s.memory.store64 th.data caller.pointers.cstackPointer).store64 (th.data + 8)
    caller.pointers.cframePointer).store64 (th.data + 16) caller.pointers.creturnPointer = m
  have hsame : s.memory.SameOn m th.cstackLow th.cstackHigh := by
    subst hm
    exact (((s.memory.sameOn_store64 _ (by omega)).store64 _ (by omega)).store64 _ (by omega))
  have hcarries : th.Carries m segments := by
    subst hm
    have hstack := h.threadData_store_data (Nat.le_refl _) (by omega) caller.pointers.cstackPointer
    have hframe := hstack.threadData_store_data (Nat.le_add_right _ 8) (by omega)
      caller.pointers.cframePointer
    exact hframe.threadData_store_data (Nat.le_add_right _ 16) (by omega) _
  have hpointers : th.pointers m = caller.pointers := by
    subst hm
    simp (disch := omega) only [Thread.pointers, ByteMemory.load64_store64,
      ByteMemory.load64_store64_of_disjoint]
  have hsaved' : caller.Saved m := hsaved.congr (by omega) (hsame.mono (by omega) hhigh)
  have hframe : (UInt64.ofNat (caller.stackPointer - 16)).toNat = caller.stackPointer - 16 := by
    rw [UInt64.toNat_ofNat']
    exact Nat.mod_eq_of_lt (by omega)
  have hpops : s.backToC th.data =
      { rsp := caller.stackPointer - 16 + 8 + 8
        rbp := m.load64 (caller.stackPointer - 16)
        rip := m.load64 (caller.stackPointer - 16 + 8)
        memory := m } := by
    have hrsp₁ : caller.stackPointer - 40 + 8 = caller.stackPointer - 32 := by omega
    have hrsp₂ : caller.stackPointer - 32 + 8 = caller.stackPointer - 24 := by omega
    have hload₁ : (s.memory.store64 th.data caller.pointers.cstackPointer).load64
        (caller.stackPointer - 32) = caller.pointers.cframePointer := by
      rw [ByteMemory.load64_store64_of_disjoint _ _ (by omega)]
      exact hsaved.cframePointer
    have hload₂ : ((s.memory.store64 th.data caller.pointers.cstackPointer).store64 (th.data + 8)
        caller.pointers.cframePointer).load64 (caller.stackPointer - 24) =
          caller.pointers.creturnPointer := by
      rw [ByteMemory.load64_store64_of_disjoint _ _ (by omega),
        ByteMemory.load64_store64_of_disjoint _ _ (by omega)]
      exact hsaved.creturnPointer
    simp only [backToC, popInto, pop, popRbp, ret, hrsp, hrbp, hframe, hsaved.cstackPointer, hrsp₁,
      hload₁, hrsp₂, hload₂, hm]
  have hreturn : caller.stackPointer - 16 + 8 = caller.stackPointer - 8 := by omega
  rw [hpops]
  refine ⟨?_, ?_, hsaved'.framePointer, hpointers, hsame, hcarries⟩
  · show m.load64 (caller.stackPointer - 16 + 8) = caller.returnAddress
    rw [hreturn]
    exact hsaved'.returnAddress
  · show caller.stackPointer - 16 + 8 + 8 = caller.stackPointer
    omega

/-- **A return to C** goes through the label to the caller that the thread data points to. -/
theorem returnToC_spec {caller : Caller} (h : th.Carries s.memory segments)
    (hroom : th.HasRoom segments 0 s) (hsaved : caller.Saved s.memory)
    (hpointers : th.pointers s.memory = caller.switched)
    (hlow : th.cstackLow + 40 ≤ caller.stackPointer)
    (hhigh : caller.stackPointer ≤ th.cstackHigh) :
    s.returnToCTrampoline.2.rip = TrampolineImage.backToCReturnPointer ∧
      let s' := s.returnToCTrampoline.2.backToC s.returnToCTrampoline.1
      s'.rip = caller.returnAddress ∧ s'.rsp = caller.stackPointer ∧
        s'.rbp = caller.framePointer ∧ th.pointers s'.memory = caller.pointers ∧
        s.memory.SameOn s'.memory th.cstackLow th.cstackHigh ∧ th.Carries s'.memory segments := by
  have hmax := th.cstackHigh_le
  obtain ⟨hrcx, hkept, hrsp, hrbp⟩ := restoreCStack_spec h hroom
  have hpointers' : th.pointers s.restoreCStack.2.memory = caller.switched :=
    (Thread.pointers_congr hkept.data).trans hpointers
  rw [hpointers] at hrsp hrbp
  have hstack : (UInt64.ofNat (caller.stackPointer - 40)).toNat = caller.stackPointer - 40 := by
    rw [UInt64.toNat_ofNat']
    exact Nat.mod_eq_of_lt (by omega)
  have hsaved' : caller.Saved s.restoreCStack.2.memory :=
    hsaved.congr (by omega) (hkept.cstack.mono (by omega) hhigh)
  have hlabel : s.returnToCTrampoline.2.rip =
      (th.pointers s.restoreCStack.2.memory).creturnPointer := by
    rw [Thread.pointers, ← hrcx]
    rfl
  have hback := backToC_spec (s := s.returnToCTrampoline.2) (h.kept hkept) hsaved' hlow hhigh
    (hrsp.trans hstack) hrbp
  refine ⟨hlabel.trans (congrArg ThreadPointers.creturnPointer hpointers'), ?_⟩
  rw [show s.returnToCTrampoline.1 = th.data from hrcx]
  obtain ⟨hrip, hrsp', hrbp', hback', hsame, hcarries⟩ := hback
  exact ⟨hrip, hrsp', hrbp', hback', hkept.cstack.trans hsame, hcarries⟩

end Machine

/-! ### Runs -/

/-- Who runs, or waits for a return. -/
inductive Activation
  /-- C code that was entered at a stack pointer. -/
  | c (entry : ℕ)
  /-- Smalltalk code that a C function switched to. -/
  | smalltalk (caller : Caller)

/-- The state of a thread, with the activations in progress, the innermost first. -/
structure SwitchRun where
  machine : Machine
  segments : List ℕ
  activations : List Activation

namespace SwitchRun

variable [TrampolineImage] {th : Thread}

/-- One step of a run. C code writes its stack only below the stack pointer it was entered with, and
nothing in `src` but the trampolines writes the three pointers of the thread data. Smalltalk code
leaves the C stack and the thread data alone. All segments carry the same thread data. -/
inductive Step (th : Thread) : SwitchRun → SwitchRun → Prop
  | cCode {s : SwitchRun} {machine : Machine} {segments : List ℕ} {entry : ℕ}
      {k : List Activation} (h : s.activations = .c entry :: k)
      (hcstack : s.machine.memory.SameOn machine.memory entry th.cstackHigh)
      (hdata : s.machine.memory.SameOn machine.memory th.data (th.data + 24))
      (hsegments : th.Carries machine.memory segments) :
      Step th s ⟨machine, segments, s.activations⟩
  | smalltalkCode {s : SwitchRun} {machine : Machine} {caller : Caller} {k : List Activation}
      (h : s.activations = .smalltalk caller :: k)
      (hcstack : s.machine.memory.SameOn machine.memory th.cstackLow th.cstackHigh)
      (hdata : s.machine.memory.SameOn machine.memory th.data (th.data + 24))
      (hsegments : th.Carries machine.memory s.segments) :
      Step th s ⟨machine, s.segments, s.activations⟩
  /-- C code calls `_slvm_dynrun_switch_to_smalltalk`. -/
  | switchToSmalltalk {s : SwitchRun} {entry e : ℕ} {k : List Activation}
      (h : s.activations = .c entry :: k) (he : e ∈ s.segments)
      (hroom : th.cstackLow + 40 ≤ s.machine.rsp) (hentry : s.machine.rsp ≤ entry)
      (returnAddress entryPoint : UInt64) :
      Step th s ⟨(s.machine.push returnAddress).switchToSmalltalk e entryPoint, s.segments,
        .smalltalk (s.machine.caller th returnAddress) :: s.activations⟩
  /-- Smalltalk code enters one of the trampolines to C. -/
  | toC {s : SwitchRun} {caller : Caller} {k : List Activation} {n : ℕ} {machine : Machine}
      (h : s.activations = .smalltalk caller :: k) (hto : s.machine.ToC n machine)
      (hroom : th.HasRoom s.segments n s.machine)
      (hlow : th.cstackLow + 8 ≤ (th.pointers s.machine.memory).cstackPointer.toNat) :
      Step th s ⟨machine, s.segments,
        .c (th.pointers s.machine.memory).cstackPointer.toNat :: s.activations⟩
  | returnToSender {s : SwitchRun} {entry : ℕ} {caller : Caller} {k : List Activation}
      (h : s.activations = .c entry :: .smalltalk caller :: k) (restoreStackPointer : ℕ) :
      Step th s ⟨s.machine.returnToSenderTrampoline restoreStackPointer, s.segments,
        .smalltalk caller :: k⟩
  | returnToMethod {s : SwitchRun} {entry : ℕ} {caller : Caller} {k : List Activation}
      (h : s.activations = .c entry :: .smalltalk caller :: k) (restoreStackPointer : ℕ)
      (methodPointer : UInt64) :
      Step th s ⟨s.machine.returnToMethodTrampoline restoreStackPointer methodPointer, s.segments,
        .smalltalk caller :: k⟩
  /-- Smalltalk code enters `_slvm_returnToC_trampoline`, which reaches the label. -/
  | returnToC {s : SwitchRun} {caller : Caller} {k : List Activation}
      (h : s.activations = .smalltalk caller :: k) (hroom : th.HasRoom s.segments 0 s.machine)
      (hlabel : s.machine.returnToCTrampoline.2.rip = TrampolineImage.backToCReturnPointer) :
      Step th s ⟨s.machine.returnToCTrampoline.2.backToC s.machine.returnToCTrampoline.1,
        s.segments, k⟩

/-- The start of a run: C code before any switch. -/
structure Start (th : Thread) (s : SwitchRun) : Prop where
  activations : ∃ entry ≤ th.cstackHigh, s.activations = [.c entry]
  carries : th.Carries s.machine.memory s.segments

/-! ### The invariant of a run -/

/-- The callers of the switches in progress are saved on the C stack, one below the other, each with
the pointers to the one before; the thread data points to the last. -/
inductive Chain (th : Thread) (m : ByteMemory) : List Activation → ThreadPointers → Prop
  | base {entry : ℕ} {p : ThreadPointers} (h : entry ≤ th.cstackHigh) : Chain th m [.c entry] p
  | switch {caller : Caller} {entry : ℕ} {k : List Activation}
      (hk : Chain th m (.c entry :: k) caller.pointers) (hle : caller.stackPointer ≤ entry)
      (hlow : th.cstackLow + 40 ≤ caller.stackPointer) (hsaved : caller.Saved m) :
      Chain th m (.smalltalk caller :: .c entry :: k) caller.switched
  | send {caller : Caller} {k : List Activation} {p : ThreadPointers}
      (hk : Chain th m (.smalltalk caller :: k) p) :
      Chain th m (.c (caller.stackPointer - 40) :: .smalltalk caller :: k) p

/-- Where the C stack of the activations that wait starts. -/
def lowest : List Activation → ℕ
  | [] => 0
  | .c entry :: _ => entry
  | .smalltalk caller :: _ => caller.stackPointer - 40

theorem Chain.lowest_le {m : ByteMemory} {l : List Activation} {p : ThreadPointers}
    (h : Chain th m l p) : lowest l ≤ th.cstackHigh := by
  induction h with
  | base h => exact h
  | switch hk hle hlow hsaved ih =>
    have hentry : _ ≤ th.cstackHigh := ih
    simp only [lowest] at hentry ⊢
    omega
  | send hk ih => exact ih

/-- The chain depends on the C stack of the activations that wait. -/
theorem Chain.congr {m m' : ByteMemory} {l : List Activation} {p : ThreadPointers}
    (h : Chain th m l p) (hsame : m.SameOn m' (lowest l) th.cstackHigh) : Chain th m' l p := by
  induction h with
  | base h => exact Chain.base h
  | @switch caller entry k hk hle hlow hsaved ih =>
    have hentry : entry ≤ th.cstackHigh := hk.lowest_le
    simp only [lowest] at hsame ih
    refine Chain.switch (ih (hsame.mono (by omega) (Nat.le_refl _))) hle hlow ?_
    exact hsaved.congr (by omega) (hsame.mono (Nat.le_refl _) (by omega))
  | send hk ih => exact Chain.send (ih hsame)

/-- The invariant of a run. -/
structure Valid (th : Thread) (s : SwitchRun) : Prop where
  carries : th.Carries s.machine.memory s.segments
  chain : Chain th s.machine.memory s.activations (th.pointers s.machine.memory)

theorem Start.valid {s : SwitchRun} (h : Start th s) : Valid th s := by
  obtain ⟨entry, hentry, hactivations⟩ := h.activations
  refine ⟨h.carries, ?_⟩
  rw [hactivations]
  exact Chain.base hentry

/-- Changes that keep the waiting activations and the thread data. -/
theorem Valid.kept {s : SwitchRun} (h : Valid th s) {machine : Machine} {segments : List ℕ}
    (hcstack : s.machine.memory.SameOn machine.memory (lowest s.activations) th.cstackHigh)
    (hdata : s.machine.memory.SameOn machine.memory th.data (th.data + 24))
    (hsegments : th.Carries machine.memory segments) :
    Valid th ⟨machine, segments, s.activations⟩ := by
  refine ⟨hsegments, ?_⟩
  rw [Thread.pointers_congr hdata]
  exact h.chain.congr hcstack

/-- What holds while Smalltalk runs for a caller. -/
theorem Chain.of_smalltalk {m : ByteMemory} {caller : Caller} {k : List Activation}
    {p : ThreadPointers} (h : Chain th m (.smalltalk caller :: k) p) :
    p = caller.switched ∧ caller.Saved m ∧ th.cstackLow + 40 ≤ caller.stackPointer ∧
      caller.stackPointer ≤ th.cstackHigh ∧ Chain th m k caller.pointers ∧
      caller.stackPointer ≤ lowest k := by
  cases h with
  | switch hk hle hlow hsaved => exact ⟨rfl, hsaved, hlow, hle.trans hk.lowest_le, hk, hle⟩

/-- The C stack pointer saved in the thread data while Smalltalk runs for a caller. -/
theorem Valid.cstackPointer_eq {s : SwitchRun} (h : Valid th s) {caller : Caller}
    {k : List Activation} (htop : s.activations = .smalltalk caller :: k) :
    (th.pointers s.machine.memory).cstackPointer.toNat = caller.stackPointer - 40 := by
  have hchain := h.chain
  rw [htop] at hchain
  obtain ⟨hp, -, -, hhigh, -, -⟩ := hchain.of_smalltalk
  have hmax := th.cstackHigh_le
  rw [hp, Caller.switched, UInt64.toNat_ofNat']
  exact Nat.mod_eq_of_lt (by omega)

/-- **A step keeps the invariant.** -/
theorem Valid.step {s s' : SwitchRun} (h : Valid th s) (hstep : Step th s s') : Valid th s' := by
  have hchain := h.chain
  cases hstep with
  | cCode htop hcstack hdata hsegments => exact h.kept (by rw [htop]; exact hcstack) hdata hsegments
  | smalltalkCode htop hcstack hdata hsegments =>
    rw [htop] at hchain
    obtain ⟨-, -, hlow, -, -, -⟩ := hchain.of_smalltalk
    refine h.kept ?_ hdata hsegments
    rw [htop]
    exact hcstack.mono (by simp only [lowest]; omega) (Nat.le_refl _)
  | switchToSmalltalk htop he hroom hentry returnAddress entryPoint =>
    rw [htop] at hchain
    have hhigh := hentry.trans hchain.lowest_le
    obtain ⟨hcarries, hsame, hpointers, hsaved⟩ := Machine.switchToSmalltalk_spec h.carries he hroom
      hhigh returnAddress entryPoint
    refine ⟨hcarries, ?_⟩
    rw [hpointers, htop]
    refine Chain.switch ?_ hentry hroom hsaved
    exact hchain.congr (hsame.mono hentry (Nat.le_refl _))
  | toC htop hto hroom hlow =>
    have hcstack := h.cstackPointer_eq htop
    rw [htop] at hchain
    have hle := hchain.lowest_le
    simp only [lowest] at hle
    have hkept := hto.kept h.carries hroom hlow (by rwa [hcstack])
    rw [hcstack] at hkept
    refine ⟨h.carries.kept hkept, ?_⟩
    rw [Thread.pointers_congr hkept.data, hcstack, htop]
    exact Chain.send (hchain.congr hkept.cstack)
  | returnToSender htop restoreStackPointer =>
    rw [htop] at hchain
    cases hchain with
    | send hk => exact ⟨h.carries, hk⟩
  | returnToMethod htop restoreStackPointer methodPointer =>
    rw [htop] at hchain
    cases hchain with
    | send hk => exact ⟨h.carries, hk⟩
  | returnToC htop hroom hlabel =>
    rw [htop] at hchain
    obtain ⟨hp, hsaved, hlow, hhigh, hk, hle⟩ := hchain.of_smalltalk
    obtain ⟨-, -, -, -, hpointers, hsame, hcarries⟩ := Machine.returnToC_spec h.carries hroom hsaved
      hp hlow hhigh
    refine ⟨hcarries, ?_⟩
    rw [hpointers]
    exact hk.congr (hsame.mono (by omega) (Nat.le_refl _))

theorem Valid.run {s s' : SwitchRun} (h : Valid th s) (hrun : ReflTransGen (Step th) s s') :
    Valid th s' := by
  induction hrun with
  | refl => exact h
  | tail _ hstep ih => exact ih.step hstep

/-- The invariant holds in every state of a run. -/
theorem valid_of_run {s s' : SwitchRun} (hstart : Start th s)
    (hrun : ReflTransGen (Step th) s s') : Valid th s' :=
  hstart.valid.run hrun

/-- **Every switch returns to its own caller.** C code at a state `s` of a run switches to
Smalltalk; after a balanced sequence of steps the code it switched to returns: it arrives behind the
call, with the stack pointers of the caller and with the pointers of the thread data it had before.
-/
theorem returnToC_of_run {start s t : SwitchRun} (hstart : Start th start)
    (hrun : ReflTransGen (Step th) start s) {entry e : ℕ} {k : List Activation}
    (htop : s.activations = .c entry :: k) (he : e ∈ s.segments)
    (hroom : th.cstackLow + 40 ≤ s.machine.rsp) (hentry : s.machine.rsp ≤ entry)
    (returnAddress entryPoint : UInt64)
    (hbalanced : ReflTransGen (Step th)
      ⟨(s.machine.push returnAddress).switchToSmalltalk e entryPoint,
      s.segments, .smalltalk (s.machine.caller th returnAddress) :: s.activations⟩ t)
    (hreturn : t.activations = .smalltalk (s.machine.caller th returnAddress) :: s.activations)
    (hsmalltalk : th.HasRoom t.segments 0 t.machine) :
    t.machine.returnToCTrampoline.2.rip = TrampolineImage.backToCReturnPointer ∧
      let machine := t.machine.returnToCTrampoline.2.backToC t.machine.returnToCTrampoline.1
      machine.rip = returnAddress ∧ machine.rsp = s.machine.rsp ∧ machine.rbp = s.machine.rbp ∧
        th.pointers machine.memory = th.pointers s.machine.memory := by
  have hs := valid_of_run hstart hrun
  have ht := (hs.step (Step.switchToSmalltalk htop he hroom hentry returnAddress entryPoint)).run
    hbalanced
  have hchain := ht.chain
  rw [hreturn] at hchain
  obtain ⟨hp, hsaved, hlow, hhigh, -, -⟩ := hchain.of_smalltalk
  obtain ⟨hlabel, hrip, hrsp, hrbp, hpointers, -, -⟩ := Machine.returnToC_spec ht.carries hsmalltalk
    hsaved hp hlow hhigh
  exact ⟨hlabel, hrip, hrsp, hrbp, hpointers⟩

/-- A thread with one segment, which ends at 8192: the thread data is below the header. -/
def firstThread : Thread where
  data := 8080
  cstackLow := 65536
  cstackHigh := 131072
  data_lt := by decide
  cstackHigh_le := by decide
  data_clear := Or.inl (by decide)

/-- C code on that thread, before its first switch. -/
def firstCaller : SwitchRun where
  machine :=
    { rsp := 131000
      rbp := 131008
      rip := 0
      memory := ByteMemory.store64 (ByteMemory.store64 (fun _ => 0) (8192 - 48) 8080)
        (8192 - 24) 8000 }
  segments := [8192]
  activations := [.c 131072]

omit [TrampolineImage] in
theorem firstCaller_carries : firstThread.Carries firstCaller.machine.memory [8192] where
  page e he := by
    rw [List.mem_singleton.mp he]
    decide
  cstack e he := by
    rw [List.mem_singleton.mp he]
    decide
  header e he := by
    rw [List.mem_singleton.mp he]
    decide
  threadData e he := by
    rw [List.mem_singleton.mp he]
    exact (ByteMemory.load64_store64_of_disjoint _ _ (by decide)).trans
      (ByteMemory.load64_store64 _ _ _)

/-- Some addresses for the symbols. -/
@[reducible] def numberedImage : TrampolineImage where
  sendDispatch := ⟨100, 101⟩
  supersendDispatch := ⟨200, 201⟩
  newStackSegment := ⟨300, 301⟩
  popStackSegment := ⟨400, 401⟩
  backToCReturnPointer := 500
  popStackSegmentTrap := 600

/-- The C code has switched to Smalltalk. -/
def outerSwitch : SwitchRun where
  machine := (firstCaller.machine.push 7).switchToSmalltalk 8192 1234
  segments := [8192]
  activations := [.smalltalk (firstCaller.machine.caller firstThread 7), .c 131072]

/-- The Smalltalk code has sent a message: C code runs again, below the frame of the switch. -/
def nestedSend : SwitchRun where
  machine := outerSwitch.machine.sendTrampoline 5 2
  segments := [8192]
  activations := .c (firstThread.pointers outerSwitch.machine.memory).cstackPointer.toNat ::
    outerSwitch.activations

/-- That code has switched to Smalltalk too. -/
def innerSwitch : SwitchRun where
  machine := (nestedSend.machine.push 9).switchToSmalltalk 8192 4321
  segments := [8192]
  activations := .smalltalk (nestedSend.machine.caller firstThread 9) :: nestedSend.activations

/-- The inner switch has returned. -/
def innerReturned : SwitchRun where
  machine := innerSwitch.machine.returnToCTrampoline.2.backToC
    innerSwitch.machine.returnToCTrampoline.1
  segments := [8192]
  activations := nestedSend.activations

/-- The send has returned. -/
def sendReturned : SwitchRun where
  machine := innerReturned.machine.returnToSenderTrampoline 7992
  segments := [8192]
  activations := outerSwitch.activations

omit [TrampolineImage] in
/-- The two switches, and the send between them, are steps. -/
theorem nestedSend_steps : let := numberedImage
    Step firstThread firstCaller outerSwitch ∧ Step firstThread outerSwitch nestedSend ∧
      Step firstThread nestedSend innerSwitch := by
  intro _
  refine ⟨Step.switchToSmalltalk rfl List.mem_cons_self (by decide) (by decide) 7 1234,
    Step.toC rfl (Machine.ToC.send 5 2) ?_ (by decide +kernel),
    Step.switchToSmalltalk rfl List.mem_cons_self (by decide +kernel) (by decide +kernel) 9 4321⟩
  exact ⟨8192, List.mem_cons_self, by decide +kernel, by decide +kernel, by decide +kernel⟩

omit [TrampolineImage] in
/-- A switch nested behind a send: the inner one returns to the C code of the send, and after the
return of the send the outer one returns to its caller. -/
theorem returnToC_of_run_nested : let := numberedImage
    let outer := sendReturned.machine.returnToCTrampoline.2.backToC
      sendReturned.machine.returnToCTrampoline.1
    (innerReturned.machine.rip = 9 ∧ innerReturned.machine.rsp = nestedSend.machine.rsp ∧
      innerReturned.machine.rbp = nestedSend.machine.rbp ∧
      firstThread.pointers innerReturned.machine.memory =
        firstThread.pointers nestedSend.machine.memory) ∧
    outer.rip = 7 ∧ outer.rsp = 131000 ∧ outer.rbp = 131008 ∧
      firstThread.pointers outer.memory = firstThread.pointers firstCaller.machine.memory := by
  intro _
  have hstart : Start firstThread firstCaller :=
    ⟨⟨131072, Nat.le_refl _, rfl⟩, firstCaller_carries⟩
  obtain ⟨houter, hsend, hinner⟩ := nestedSend_steps
  have hroom : firstThread.HasRoom [8192] 0 innerSwitch.machine :=
    ⟨8192, List.mem_cons_self, by decide +kernel, by decide +kernel, by decide +kernel⟩
  obtain ⟨hlabel, hreturned⟩ := returnToC_of_run (k := outerSwitch.activations) hstart
    ((ReflTransGen.single houter).tail hsend) rfl List.mem_cons_self
    (by decide +kernel : 65536 + 40 ≤ nestedSend.machine.rsp) (by decide +kernel) 9 4321
    ReflTransGen.refl rfl hroom
  -- what the outer switch runs until it returns
  have hback : Step firstThread innerSwitch innerReturned := Step.returnToC rfl hroom hlabel
  have hbalanced : ReflTransGen (Step firstThread) outerSwitch sendReturned :=
    (((ReflTransGen.single hsend).tail hinner).tail hback).tail (Step.returnToSender rfl 7992)
  have hroom' : firstThread.HasRoom [8192] 0 sendReturned.machine :=
    ⟨8192, List.mem_cons_self, by decide +kernel, by decide +kernel, by decide +kernel⟩
  exact ⟨hreturned, (returnToC_of_run hstart ReflTransGen.refl rfl List.mem_cons_self (by decide)
    (by decide) 7 1234 hbalanced rfl hroom').2⟩

end SwitchRun

end SlvmNative
