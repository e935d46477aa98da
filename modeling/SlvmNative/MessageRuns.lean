import SlvmNative.MessageDispatch

/-!
# Messages in progress

Smalltalk code sends messages, calls the runtime and is moved to new stack segments, in any order
and to any depth. A callee keeps to the part of the stack below its return address; its sender goes
on where the return address says.

What the dispatch functions do on the way is not assumed: a message either enters a compiled method
in the state in which a direct call would have entered it, or is answered by a primitive.

## Main definitions

* `Execution.OnSegment`, `Execution.Keeps` — code on a segment, and what it leaves alone
* `Runtime.Enters`, `Runtime.Answers` — the two outcomes of a message from Smalltalk
* `MessageRun` — code, and calls from it, nested

## Main results

* `Runtime.Sends.enters_or_answers` — there is no third outcome
* `MessageRun.returns_to_caller` — every call returns to its caller, with the caller's stack as it
  was
-/

namespace SlvmNative

open LinkedList Relation

theorem ExecutionStack.setStackPointers_self {τ : Type} (s : ExecutionStack τ) (segment : ℕ) :
    s.setStackPointers segment (s.header segment).stackPointer (s.header segment).framePointer =
      s := by
  rw [ExecutionStack.setStackPointers]
  exact congrArg (fun header => { s with header := header }) (Function.update_eq_self ..)

/-- What does not touch the stack pointers stores those that are there. -/
theorem SegmentRun.exists_setStackPointers {τ : Type} (s : SegmentRun τ) (segment : ℕ) :
    ∃ stackPointer framePointer, s =
      { s with manager := s.manager.setStackPointers segment stackPointer framePointer } :=
  ⟨_, _, (congrArg (fun manager => { s with manager := manager })
    (s.manager.setStackPointers_self segment)).symm⟩

namespace Execution

variable {τ : Type} {t : τ} {kept : Set ℕ} {l : List ℕ} {g ret base : ℕ}
  {s s' s₁ s₂ s₃ : Execution τ}

/-! ### What code on a segment leaves alone -/

/-- Addresses that belong to no segment, such as those of the C stack. -/
def Outside (s : Execution τ) (kept : Set ℕ) : Prop :=
  ∀ a ∈ kept, a < s.segments.manager.executionStackMemoryPool.start ∨
    s.segments.manager.executionStackMemoryPool.start + executionStackCapacity ≤ a

/-- Code runs on the segment `g`, the last one of the thread. Its return address is at `ret`, and
from `base` on the segment is its caller's. -/
structure OnSegment (t : τ) (kept : Set ℕ) (l : List ℕ) (g ret base : ℕ) (s : Execution τ) :
    Prop where
  valid : s.segments.Valid
  addressable : s.Addressable
  live : s.segments.live t = l ++ [g]
  outside : s.Outside kept
  ret_le : ret + 8 ≤ base
  base_le : base ≤ g

/-- What code on a segment leaves alone: what `Preserves` says, its return address, and the
addresses outside the segments. -/
structure Keeps (t : τ) (kept : Set ℕ) (l : List ℕ) (g ret base : ℕ) (s s' : Execution τ) :
    Prop where
  preserves : Preserves t l g base s s'
  returnAddress : s.machine.memory.SameOn s'.machine.memory ret (ret + 8)
  outside : ∀ a ∈ kept, s'.machine.memory a = s.machine.memory a
  pool : s'.segments.manager.executionStackMemoryPool.start =
    s.segments.manager.executionStackMemoryPool.start

theorem Keeps.trans (h₁ : Keeps t kept l g ret base s s₁) (h₂ : Keeps t kept l g ret base s₁ s₂) :
    Keeps t kept l g ret base s s₂ where
  preserves := h₁.preserves.trans h₂.preserves
  returnAddress := h₁.returnAddress.trans h₂.returnAddress
  outside a ha := (h₂.outside a ha).trans (h₁.outside a ha)
  pool := h₂.pool.trans h₁.pool

/-- A callee whose arguments end at `base'` keeps to the part below. -/
theorem Keeps.of_preserves {base' : ℕ} (h : Preserves t l g base' s s')
    (houtside : ∀ a ∈ kept, s'.machine.memory a = s.machine.memory a)
    (hpool : s'.segments.manager.executionStackMemoryPool.start =
      s.segments.manager.executionStackMemoryPool.start)
    (hret : base' ≤ ret) (hbase : ret + 8 ≤ base) (hg : base ≤ g) :
    Keeps t kept l g ret base s s' where
  preserves := ⟨h.valid, h.addressable, h.live, h.header, h.older,
    fun a hlo hhi => h.current a (by omega) hhi⟩
  returnAddress a hlo hhi := h.current a (by omega) (by omega)
  outside := houtside
  pool := hpool

theorem Keeps.of_callee {ret' base' : ℕ} (h : Keeps t kept l g ret' base' s s')
    (hret : base' ≤ ret) (hbase : ret + 8 ≤ base) (hg : base ≤ g) :
    Keeps t kept l g ret base s s' :=
  Keeps.of_preserves h.preserves h.outside h.pool hret hbase hg

/-- Changes of registers. -/
theorem Keeps.of_eq (hvalid : s.segments.Valid) (hspace : s.Addressable)
    (hsegments : s'.segments = s.segments) (hmemory : s'.machine.memory = s.machine.memory) :
    Keeps t kept l g ret base s s' := by
  refine ⟨⟨?_, ?_, ?_, fun x _ => ?_, fun _ _ _ _ _ _ => ?_, fun _ _ _ => ?_⟩, fun _ _ _ => ?_,
    fun _ _ => ?_, ?_⟩
  · rwa [hsegments]
  · rwa [Addressable, hsegments]
  · rw [hsegments]
  · rw [hsegments]
  · rw [hmemory]
  · rw [hmemory]
  · rw [hmemory]
  · rw [hmemory]
  · rw [hsegments]

theorem OnSegment.keeps (h : OnSegment t kept l g ret base s)
    (hkeeps : Keeps t kept l g ret base s s') : OnSegment t kept l g ret base s' where
  valid := hkeeps.preserves.valid
  addressable := hkeeps.preserves.addressable
  live := (congrFun hkeeps.preserves.live t).trans h.live
  outside := by
    rw [Outside, hkeeps.pool]
    exact h.outside
  ret_le := h.ret_le
  base_le := h.base_le

/-- A callee on the same segment, whose return address is at `ret'`. -/
theorem OnSegment.callee {ret' base' : ℕ} (h : OnSegment t kept l g ret base s)
    (hret : ret' + 8 ≤ base') (hbase : base' ≤ ret) : OnSegment t kept l g ret' base' s := by
  have hret_le := h.ret_le
  have hbase_le := h.base_le
  exact ⟨h.valid, h.addressable, h.live, h.outside, hret, by omega⟩

variable [DecidableEq τ]

/-- The page of a live segment is in the pool. -/
theorem segment_inPool (hvalid : s.segments.Valid) {r : ℕ} (hr : r ∈ s.segments.live t) :
    s.segments.manager.executionStackMemoryPool.start + 4032 ≤ r ∧
      r + 64 ≤ s.segments.manager.executionStackMemoryPool.start + executionStackCapacity := by
  obtain ⟨⟨page, hpage, rfl⟩, -, -⟩ := hvalid.live_carved hr
  obtain ⟨segments, h⟩ := hvalid
  have hfits := h.fits
  simp only [pageSize] at hpage ⊢
  omega

/-- Addresses outside the segments are not in the page of a segment. -/
theorem OnSegment.not_inPage (h : OnSegment t kept l g ret base s) {r a : ℕ}
    (hr : r ∈ s.segments.live t) (ha : a ∈ kept) : a + 4032 < r ∨ r + 64 ≤ a := by
  have hpool := segment_inPool h.valid hr
  rcases h.outside a ha with hlow | hhigh <;> omega

/-- Two live segments of a thread are in different pages. -/
theorem OnSegment.page_disjoint (h : OnSegment t kept l g ret base s) {x : ℕ} (hx : x ∈ l) :
    x + 4096 ≤ g ∨ g + 4096 ≤ x := by
  have hg : g ∈ s.segments.live t := by rw [h.live]; simp
  have hx' : x ∈ s.segments.live t := by rw [h.live]; simp [hx]
  have hne : x ≠ g := ne_of_mem_of_not_mem hx (not_mem_of_live h.valid h.live)
  exact SegmentRun.page_disjoint (h.valid.live_carved hx').1 (h.valid.live_carved hg).1 hne

/-- A segment is not at the start of the address space. -/
theorem OnSegment.segment_le (h : OnSegment t kept l g ret base s) : 4032 ≤ g :=
  (segment_bounds h.valid h.addressable (t := t) (r := g) (by simp [h.live])).2.1

/-- Stores to the page of the segment, but below the return address. -/
theorem OnSegment.keeps_of_written (h : OnSegment t kept l g ret base s)
    (hsegments : ∃ stackPointer framePointer, s'.segments =
      { s.segments with
        manager := s.segments.manager.setStackPointers g stackPointer framePointer })
    (hmemory : ∀ a, a + 4032 < g ∨ ret ≤ a → s'.machine.memory a = s.machine.memory a) :
    Keeps t kept l g ret base s s' := by
  have hret := h.ret_le
  have hbase := h.base_le
  have hg : g ∈ s.segments.live t := by rw [h.live]; simp
  have hlocal : Local t l g base s s' := by
    refine ⟨hsegments, fun x hx a hlow hpointer hhigh => ?_, fun a hlow hhigh => ?_⟩
    · have hpage := h.page_disjoint hx
      exact hmemory a (by omega)
    · exact hmemory a (by omega)
  refine ⟨hlocal.preserves h.valid h.addressable (not_mem_of_live h.valid h.live),
    fun a hlow _ => hmemory a (Or.inr hlow), fun a ha => ?_, ?_⟩
  · have hpage := h.not_inPage hg ha
    exact hmemory a (by omega)
  · obtain ⟨stackPointer, framePointer, heq⟩ := hsegments
    rw [heq]
    rfl

/-- Code of its own: it changes registers, the stack pointers in the header of its segment and
memory, but nothing that it has to leave alone. -/
structure Own (t : τ) (kept : Set ℕ) (l : List ℕ) (g ret base : ℕ) (s s' : Execution τ) :
    Prop where
  step : Local t l g base s s'
  returnAddress : s.machine.memory.SameOn s'.machine.memory ret (ret + 8)
  outside : ∀ a ∈ kept, s'.machine.memory a = s.machine.memory a

omit [DecidableEq τ] in
theorem Own.refl (s : Execution τ) : Own t kept l g ret base s s where
  step := ⟨s.segments.exists_setStackPointers g, fun _ _ _ _ _ _ => rfl, fun _ _ _ => rfl⟩
  returnAddress := ByteMemory.SameOn.refl _ _ _
  outside _ _ := rfl

theorem Own.keeps (hown : Own t kept l g ret base s s') (h : OnSegment t kept l g ret base s) :
    Keeps t kept l g ret base s s' := by
  refine ⟨hown.step.preserves h.valid h.addressable (not_mem_of_live h.valid h.live),
    hown.returnAddress, hown.outside, ?_⟩
  obtain ⟨stackPointer, framePointer, heq⟩ := hown.step.segments
  rw [heq]
  rfl

/-! ### Send trampolines -/

/-- A call with arguments of some size fits: there is room for what the trampoline pushes below its
return address, and the arguments end below the return address of the caller. -/
structure Fits (g ret pushed size : ℕ) (s : Execution τ) : Prop where
  room : g + pushed ≤ s.machine.rsp + 4032
  arguments : s.machine.rsp + 8 + size ≤ ret

/-- The stack pointers that a trampoline stores are those of the segment. -/
theorem OnSegment.storeStackPointers_segments (h : OnSegment t kept l g ret base s) (m : Machine)
    (hlow : g ≤ m.rsp + 4032) (hhigh : m.rsp ≤ g) :
    ({ s with machine := m } : Execution τ).storeStackPointers.segments =
      { s.segments with manager := s.segments.manager.setStackPointers g m.rsp m.rbp.toNat } := by
  have hcurrent := (currentSegment_eq (s := { s with machine := m }) (t := t) (g := g) h.valid
    h.addressable (by rw [h.live]; simp) hlow hhigh).2
  rw [storeStackPointers, hcurrent]

/-- The message that a sender has on its stack, above the return address. -/
def sentMessage (s : Execution τ) (rcx : UInt64) : Message where
  selector := s.rax.toNat
  receiver := (s.machine.memory.load64 (s.machine.rsp + 8)).toNat
  oopArguments := (List.range (rcx.toNat % 2 ^ 16)).map fun i =>
    (s.machine.memory.load64 (s.machine.rsp + 16 + i * 8)).toNat
  nativeArgumentSize := rcx.toNat / 2 ^ 16 % 2 ^ 16

omit [DecidableEq τ] in
/-- The memory after a send trampoline has pushed the metadata. -/
theorem enterSend_memory (s : Execution τ) (rcx : UInt64) (h : 24 ≤ s.machine.rsp) :
    (s.enterSend rcx).machine.memory =
      ((s.machine.memory.store64 (s.machine.rsp - 8) s.machine.rbp).store64 (s.machine.rsp - 16)
        s.rax).store64 (s.machine.rsp - 24) rcx := by
  show ((s.machine.memory.store64 (s.machine.rsp - 8) s.machine.rbp).store64
    (s.machine.rsp - 8 - 8) s.rax).store64 (s.machine.rsp - 8 - 8 - 8) rcx = _
  rw [show s.machine.rsp - 8 - 8 = s.machine.rsp - 16 by omega,
    show s.machine.rsp - 16 - 8 = s.machine.rsp - 24 by omega]

omit [DecidableEq τ] in
/-- **The message the dispatch functions see** is the one that was sent. -/
theorem load_enterSend (s : Execution τ) (rcx : UInt64) (h : 24 ≤ s.machine.rsp) :
    Message.load .smalltalk (s.enterSend rcx).machine.memory (s.machine.rsp - 24) =
      s.sentMessage rcx := by
  have hmemory := s.enterSend_memory rcx h
  generalize (s.enterSend rcx).machine.memory = m at hmemory
  have hdescriptor : m.load64 (s.machine.rsp - 24) = rcx := by
    rw [hmemory]
    exact ByteMemory.load64_store64 _ _ _
  have hselector : m.load64 (s.machine.rsp - 24 + 8) = s.rax := by
    rw [hmemory, show s.machine.rsp - 24 + 8 = s.machine.rsp - 16 by omega,
      ByteMemory.load64_store64_of_disjoint _ _ (by omega), ByteMemory.load64_store64]
  have habove : ∀ a, s.machine.rsp ≤ a → m.load64 a = s.machine.memory.load64 a := by
    intro a ha
    simp (disch := omega) only [hmemory, ByteMemory.load64_store64_of_disjoint]
  have hoops := m.load16_toNat (s.machine.rsp - 24) (k := 0) (by decide)
  have hnative := m.load16_toNat (s.machine.rsp - 24) (k := 2) (by decide)
  rw [hdescriptor, Nat.pow_zero, Nat.div_one, Nat.add_zero] at hoops
  rw [hdescriptor] at hnative
  rw [Message.load, sentMessage]
  simp only [smalltalkMetadata, reduceCtorEq, if_false, MessageSmalltalkMetadata.load, hoops,
    hnative, hselector]
  rw [habove _ (by omega), show s.machine.rsp - 24 + 32 = s.machine.rsp + 8 by omega]
  refine congrArg (fun arguments => Message.mk _ _ arguments _) (List.map_congr_left fun i _ => ?_)
  rw [habove _ (by omega),
    show s.machine.rsp - 24 + 40 + i * 8 = s.machine.rsp + 16 + i * 8 by omega]

omit [DecidableEq τ] in
/-- The pointers of the sender, in the metadata. -/
theorem enterSend_pointers (s : Execution τ) (rcx : UInt64) (h : 24 ≤ s.machine.rsp) :
    (s.enterSend rcx).machine.memory.load64 (s.machine.rsp - 24 + 16) = s.machine.rbp ∧
      (s.enterSend rcx).machine.memory.load64 (s.machine.rsp - 24 + 24) =
        s.machine.memory.load64 s.machine.rsp := by
  rw [s.enterSend_memory rcx h, show s.machine.rsp - 24 + 16 = s.machine.rsp - 8 by omega,
    show s.machine.rsp - 24 + 24 = s.machine.rsp by omega]
  constructor
  · simp (disch := omega) only [ByteMemory.load64_store64, ByteMemory.load64_store64_of_disjoint]
  · simp (disch := omega) only [ByteMemory.load64_store64_of_disjoint]

/-- What a send trampoline leaves alone: everything from the return address of the message on. -/
theorem OnSegment.keeps_enterSend (h : OnSegment t kept l g ret base s) {size : ℕ}
    (hfits : Fits g ret 24 size s) (rcx : UInt64) :
    (∃ stackPointer framePointer, (s.enterSend rcx).segments =
      { s.segments with
        manager := s.segments.manager.setStackPointers g stackPointer framePointer }) ∧
      ∀ a, a + 4032 < g ∨ s.machine.rsp ≤ a →
        (s.enterSend rcx).machine.memory a = s.machine.memory a := by
  have hroom := hfits.room
  have harguments := hfits.arguments
  have hret := h.ret_le
  have hbase := h.base_le
  have hsmall := h.segment_le
  have hrsp : ((s.machine.enterFrame.push s.rax).push rcx).rsp = s.machine.rsp - 24 := by
    show s.machine.rsp - 8 - 8 - 8 = s.machine.rsp - 24
    omega
  refine ⟨⟨_, _, h.storeStackPointers_segments _ ?_ ?_⟩, fun a ha => ?_⟩
  · rw [hrsp]
    omega
  · rw [hrsp]
    omega
  · rw [s.enterSend_memory rcx (by omega)]
    have hsame : s.machine.memory.SameOn _ a (a + 1) :=
      (((ByteMemory.SameOn.refl s.machine.memory a (a + 1)).store64 s.machine.rbp
        (a := s.machine.rsp - 8) (by omega)).store64 s.rax (a := s.machine.rsp - 16)
          (by omega)).store64 rcx (a := s.machine.rsp - 24) (by omega)
    exact hsame a (Nat.le_refl a) (Nat.lt_succ_self a)

/-! ### Calls of the runtime -/

/-- How `slvm_dynrun_primitive_dispatch_trampoline` starts, up to the call of the primitive. -/
def enterPrimitive (s : Execution τ) : Execution τ :=
  { s with machine := s.machine.enterFrame }.storeStackPointers

/-- `SLVM_RUNTIME_PRIMITIVE_RETURN` -/
def primitiveReturn (s : Execution τ) (stackPointer popCount : ℕ) (returnValue : UInt64) :
    Execution τ :=
  let (rax, machine) := s.machine.runtimePrimitiveReturn stackPointer popCount returnValue
  { s with machine := machine, rax := rax }

/-- **A call of the runtime** returns to its caller, whatever the primitive did, as long as it left
alone what Smalltalk code has to leave alone, and the two pointers of its caller. -/
theorem OnSegment.returned_primitiveReturn (h : OnSegment t kept l g ret base s) {popCount : ℕ}
    (hfits : Fits g ret 8 ((popCount * 8 + 15) / 16 * 16) s)
    (heffect : Own t kept l g ret base s.enterPrimitive s₁)
    (hframe : s.enterPrimitive.machine.memory.SameOn s₁.machine.memory (s.machine.rsp - 8)
      (s.machine.rsp + 8)) (result : UInt64) :
    Returned s (s₁.primitiveReturn (s.machine.rsp - 8) popCount result)
        ((popCount * 8 + 15) / 16 * 16) result ∧
      Keeps t kept l g ret base s (s₁.primitiveReturn (s.machine.rsp - 8) popCount result) := by
  have hroom := hfits.room
  have harguments := hfits.arguments
  have hret := h.ret_le
  have hbase := h.base_le
  have hsmall := h.segment_le
  have hpage := (segment_bounds h.valid h.addressable (t := t) (r := g) (by simp [h.live])).2.2
  have hentered : s.enterPrimitive.machine.memory =
      s.machine.memory.store64 (s.machine.rsp - 8) s.machine.rbp := rfl
  have hkeeps : Keeps t kept l g ret base s s.enterPrimitive := by
    refine h.keeps_of_written ⟨_, _, h.storeStackPointers_segments _ ?_ ?_⟩ fun a ha => ?_
    · show g ≤ s.machine.rsp - 8 + 4032
      omega
    · show s.machine.rsp - 8 ≤ g
      omega
    · rw [hentered]
      have hsame : s.machine.memory.SameOn
          (s.machine.memory.store64 (s.machine.rsp - 8) s.machine.rbp) a (a + 1) :=
        s.machine.memory.sameOn_store64 _ (by omega)
      exact hsame a (Nat.le_refl a) (Nat.lt_succ_self a)
  have hkeeps₁ := hkeeps.trans (heffect.keeps (h.keeps hkeeps))
  have hresumed := @Machine.runtimePrimitiveReturn_resumed s₁.machine (s.machine.rsp - 8) popCount
    (by omega) result
  generalize (popCount * 8 + 15) / 16 * 16 = size at hfits hroom harguments hresumed ⊢
  have hpointer : s₁.machine.memory.load64 (s.machine.rsp - 8) = s.machine.rbp := by
    refine (hframe.mono (Nat.le_refl _) (by omega)).load64.trans ?_
    rw [hentered]
    exact ByteMemory.load64_store64 _ _ _
  have hreturn : s₁.machine.memory.load64 (s.machine.rsp - 8 + 8) =
      s.machine.memory.load64 s.machine.rsp := by
    refine (hframe.mono (by omega) (by omega)).load64.trans ?_
    rw [hentered, show s.machine.rsp - 8 + 8 = s.machine.rsp by omega]
    exact ByteMemory.load64_store64_of_disjoint _ _ (by omega)
  refine ⟨⟨hresumed.rip.trans hreturn, ?_, hresumed.rbp.trans hpointer, rfl⟩, hkeeps₁.trans ?_⟩
  · refine hresumed.rsp.trans ?_
    omega
  · refine (h.keeps hkeeps₁).keeps_of_written ?_ fun a ha => ?_
    · exact s₁.segments.exists_setStackPointers g
    · rcases ha with hbelow | habove
      · exact hresumed.below a (by omega)
      · exact hresumed.above a (by omega)

/-! ### Returns and moves -/

/-- `ret n` -/
def retPop (s : Execution τ) (n : ℕ) : Execution τ :=
  { s with machine := { s.machine.ret with rsp := s.machine.rsp + 8 + n } }

omit [DecidableEq τ] in
/-- Code that has its stack pointer, its frame pointer and its return address back returns. -/
theorem returned_retPop {size : ℕ} (hrsp : s'.machine.rsp = s.machine.rsp)
    (hrbp : s'.machine.rbp = s.machine.rbp)
    (hreturn : s.machine.memory.SameOn s'.machine.memory s.machine.rsp (s.machine.rsp + 8)) :
    Returned s (s'.retPop size) size s'.rax := by
  refine ⟨?_, ?_, hrbp, rfl⟩
  · show s'.machine.memory.load64 s'.machine.rsp = _
    rw [hrsp]
    exact hreturn.load64
  · show s'.machine.rsp + 8 + size = _
    rw [hrsp]

omit [DecidableEq τ] in
theorem Keeps.retPop (h : Keeps t kept l g ret base s s') (n : ℕ) :
    Keeps t kept l g ret base s (s'.retPop n) :=
  h.trans (Keeps.of_eq h.preserves.valid h.preserves.addressable rfl rfl)

variable [TrampolineImage]

/-- A callee that is moved to a new segment: it is on a segment again, and what is outside the
segments is as before. -/
theorem OnSegment.moved {r base' : ℕ} (h : OnSegment t kept l g ret base s)
    (hlimit : AtLimit t l g base' s) (htrap : s.stackLimitTrap t = some s₁)
    (hlive : s₁.segments.live t = l ++ [g, r]) :
    Moved t l g r s s₁ ∧ OnSegment t kept (l ++ [g]) r s₁.machine.rsp r s₁ ∧
      (∀ a ∈ kept, s₁.machine.memory a = s.machine.memory a) ∧
      s₁.segments.manager.executionStackMemoryPool.start =
        s.segments.manager.executionStackMemoryPool.start := by
  obtain ⟨r', hmoved⟩ := moved_of_stackLimitTrap h.valid h.addressable hlimit htrap
  obtain rfl := (hmoved.eq_of_live hlive).symm
  obtain ⟨x, new, manager, hcreate, hnew, hresult⟩ :=
    exists_afterMove h.valid h.addressable hlimit htrap
  obtain ⟨-, -, -, hstart, -⟩ := ExecutionStack.createNewSegment_header hcreate
  have hpool : s₁.segments.manager.executionStackMemoryPool.start =
      s.segments.manager.executionStackMemoryPool.start := by
    rw [hresult]
    exact hstart
  have hlive' : s₁.segments.live t = l ++ [g, x] := by
    rw [hresult]
    show Function.update s.segments.live t (s.segments.live t ++ [x]) t = _
    rw [Function.update_self, h.live]
    simp
  obtain rfl := hmoved.eq_of_live hlive'
  have hrsp := hmoved.rsp
  have hsize : 24 ≤ s.argumentSize := le_totalArgumentSize _
  have hseg : OnSegment t kept (l ++ [g]) r s₁.machine.rsp r s₁ := by
    refine ⟨hmoved.valid, hmoved.addressable, by rw [hlive]; simp, ?_, by omega, Nat.le_refl r⟩
    rw [Outside, hpool]
    exact h.outside
  have hpages := hseg.page_disjoint (x := g) (by simp)
  have hlow := hlimit.low
  have harguments := hlimit.arguments
  have hbase := hlimit.base_le
  have hfits := hlimit.fits
  have hsmall : 4032 ≤ r := (segment_bounds hmoved.valid hmoved.addressable
    (t := t) (r := r) (by simp [hlive])).2.1
  refine ⟨hmoved, hseg, fun a ha => ?_, hpool⟩
  -- neither the page of the full segment nor that of the new one
  have hnotg := h.not_inPage (r := g) (by simp [h.live]) ha
  have hnotr := hseg.not_inPage (r := r) (by simp [hlive]) ha
  rw [hresult]
  have hseen := @movedMemory_seen s.machine.memory s.machine.rsp new s.argumentSize
    TrampolineImage.popStackSegmentTrap s.machine.rbp hsize (by omega)
  exact hseen.same a (by omega) (by omega)

omit [TrampolineImage] in
/-- The trap that pops a segment stores neither to the memory nor to the pool. -/
theorem popStackSegmentTrap_frame (h : s.popStackSegmentTrap t = some s') :
    s'.machine.memory = s.machine.memory ∧
      s'.segments.manager.executionStackMemoryPool =
        s.segments.manager.executionStackMemoryPool := by
  rw [popStackSegmentTrap, popStackSegment] at h
  simp only [Option.bind_eq_bind, Option.bind_eq_some_iff, Option.pure_def,
    Option.some.injEq] at h
  obtain ⟨-, -, manager, hpop, rfl⟩ := h
  exact ⟨rfl, (ExecutionStack.popSegment_header hpop).2⟩

end Execution

/-! ### Messages -/

namespace Runtime

variable {τ : Type} [DecidableEq τ] [KernelImage] [SendImage] [PrimitiveImage]

/-- `_slvm_dynrun_send_trampoline`, with the argument descriptor in `rcx`. -/
def sendTrampoline (fuel : ℕ) (s : Runtime τ) (t : τ) (rcx : UInt64) :
    Except SendFailure (Completion τ) :=
  sendDispatch fuel { s with execution := s.execution.enterSend rcx } t .smalltalk
    (s.execution.machine.rsp - 24)

/-- `_slvm_dynrun_supersend_trampoline`, with the argument descriptor in `rcx` and the behavior
in `rdx`. -/
def supersendTrampoline (fuel : ℕ) (s : Runtime τ) (t : τ) (rcx : UInt64) (behavior : ℕ) :
    Except SendFailure (Completion τ) :=
  supersendDispatch fuel { s with execution := s.execution.enterSend rcx } t .smalltalk
    (s.execution.machine.rsp - 24) behavior

/-- A message, to the class of the receiver or to a superclass, gets to `s₁`. -/
def Sends (s : Runtime τ) (t : τ) (rcx : UInt64) (s₁ : Runtime τ) : Prop :=
  ∃ fuel, s.sendTrampoline fuel t rcx = .ok (.jumped s₁) ∨
    ∃ behavior, s.supersendTrampoline fuel t rcx behavior = .ok (.jumped s₁)

/-- A message enters the code of a compiled method. -/
def Enters (s : Runtime τ) (t : τ) (rcx : UInt64) (s₁ : Runtime τ) : Prop :=
  s.Sends t rcx s₁ ∧ ∃ method, s₁ = entered { s with execution := s.execution.enterSend rcx }
    (s.execution.machine.rsp - 24) method

/-- A message is answered by a primitive. -/
def Answers (s : Runtime τ) (t : τ) (rcx : UInt64) (s₁ : Runtime τ) : Prop :=
  s.Sends t rcx s₁ ∧ ∃ result w printed, s₁ =
    answered { s with execution := s.execution.enterSend rcx } (s.execution.machine.rsp - 24)
      result w printed

variable {s s₁ : Runtime τ} {t : τ} {rcx : UInt64} {kept : Set ℕ} {l : List ℕ} {g ret base : ℕ}

open Execution

/-- What the code of a compiled method finds: the registers of a direct call, and memory that is as
before from the return address on. -/
theorem Enters.spec (h : s.Enters t rcx s₁) (hseg : OnSegment t kept l g ret base s.execution)
    {size : ℕ} (hfits : Fits g ret 24 size s.execution) :
    s₁.execution.machine.rsp = s.execution.machine.rsp ∧
      s₁.execution.machine.rbp = s.execution.machine.rbp ∧
      (∀ a, s.execution.machine.rsp ≤ a →
        s₁.execution.machine.memory a = s.execution.machine.memory a) ∧
      Keeps t kept l g ret base s.execution s₁.execution := by
  obtain ⟨-, method, rfl⟩ := h
  have hroom := hfits.room
  have harguments := hfits.arguments
  have hsmall := hseg.segment_le
  obtain ⟨hsegments, hmemory⟩ := hseg.keeps_enterSend hfits rcx
  refine ⟨?_, ?_, fun a ha => hmemory a (Or.inr ha),
    hseg.keeps_of_written hsegments fun a ha => hmemory a (by omega)⟩
  · show s.execution.machine.rsp - 24 + 16 + 8 = _
    omega
  · exact (s.execution.enterSend_pointers rcx (by omega)).1

/-- **A message that a primitive answers** returns to its sender. -/
theorem Answers.returned (h : s.Answers t rcx s₁)
    (hseg : OnSegment t kept l g ret base s.execution)
    (hfits : Fits g ret 24 (s.execution.sentMessage rcx).size s.execution) :
    Returned s.execution s₁.execution (s.execution.sentMessage rcx).size s₁.execution.rax ∧
      Keeps t kept l g ret base s.execution s₁.execution := by
  obtain ⟨-, result, w, printed, rfl⟩ := h
  have hroom := hfits.room
  have harguments := hfits.arguments
  have hsmall := hseg.segment_le
  obtain ⟨hsegments, hmemory⟩ := hseg.keeps_enterSend hfits rcx
  have hresumed := (s.execution.enterSend rcx).machine.returnToSmalltalkSender_resumed
    (s.execution.machine.rsp - 24) (UInt64.ofNat result)
  have hsize : s.execution.machine.rsp - 24 + 40 +
      ((s.execution.enterSend rcx).machine.memory.load16 (s.execution.machine.rsp - 24)).toNat * 8 +
      ((s.execution.enterSend rcx).machine.memory.load16
        (s.execution.machine.rsp - 24 + 2)).toNat =
      s.execution.machine.rsp + 8 + (s.execution.sentMessage rcx).size := by
    have hload := congrArg Message.size (s.execution.load_enterSend rcx (by omega))
    rw [← hload]
    simp only [Message.size, Message.load, smalltalkMetadata, MessageSmalltalkMetadata.load,
      reduceCtorEq, if_false, List.length_map, List.length_range]
    omega
  rw [hsize] at hresumed
  have hpopped : 8 ≤ (s.execution.sentMessage rcx).size := by
    rw [Message.size]
    omega
  obtain ⟨hframe, hreturn⟩ := s.execution.enterSend_pointers rcx (by omega)
  refine ⟨⟨?_, hresumed.rsp, ?_, rfl⟩, hseg.keeps_of_written hsegments fun a ha => ?_⟩
  · exact hresumed.rip.trans hreturn
  · exact hresumed.rbp.trans hframe
  · refine Eq.trans ?_ (hmemory a (by omega))
    rcases ha with hbelow | habove
    · exact hresumed.below a (by omega)
    · exact hresumed.above a (by omega)

end Runtime

/-! ### Runs -/

/-- What runs: code on a segment, or a call with some bytes of arguments that returns. -/
inductive RunMode
  | code
  | call (size : ℕ)

open Execution

section Runs

variable {τ : Type} [DecidableEq τ] [KernelImage] [SendImage] [PrimitiveImage]

/-- Code runs on the segment `g`, its return address at `ret` and its caller's part from `base` on.
In between its own steps it makes calls, whose return address is at the stack pointer: messages
that are answered, messages that enter a compiled method, on the same segment or moved to a new one,
and calls of the runtime. -/
inductive MessageRun (t : τ) (kept : Set ℕ) :
    RunMode → List ℕ → ℕ → ℕ → ℕ → Runtime τ → Runtime τ → Prop
  | refl (l : List ℕ) (g ret base : ℕ) (s : Runtime τ) : MessageRun t kept .code l g ret base s s
  | own {l : List ℕ} {g ret base : ℕ} {s s₁ s₂ : Runtime τ}
      (hrun : MessageRun t kept .code l g ret base s s₁)
      (hown : Own t kept l g ret base s₁.execution s₂.execution) :
      MessageRun t kept .code l g ret base s s₂
  | call {size : ℕ} {l : List ℕ} {g ret base : ℕ} {s s₁ s₂ : Runtime τ}
      (hrun : MessageRun t kept .code l g ret base s s₁)
      (hcall : MessageRun t kept (.call size) l g ret base s₁ s₂) :
      MessageRun t kept .code l g ret base s s₂
  | answered {l : List ℕ} {g ret base : ℕ} {s s₁ : Runtime τ} {rcx : UInt64}
      (hfits : Fits g ret 24 (s.execution.sentMessage rcx).size s.execution)
      (hanswers : s.Answers t rcx s₁) :
      MessageRun t kept (.call (s.execution.sentMessage rcx).size) l g ret base s s₁
  | entered {l : List ℕ} {g ret base : ℕ} {s s₁ s₂ : Runtime τ} {rcx : UInt64}
      (hfits : Fits g ret 24 (s.execution.sentMessage rcx).size s.execution)
      (henters : s.Enters t rcx s₁)
      (hcallee : MessageRun t kept .code l g s.execution.machine.rsp
        (s.execution.machine.rsp + 8 + (s.execution.sentMessage rcx).size) s₁ s₂)
      (hrsp : s₂.execution.machine.rsp = s₁.execution.machine.rsp)
      (hrbp : s₂.execution.machine.rbp = s₁.execution.machine.rbp) :
      MessageRun t kept (.call (s.execution.sentMessage rcx).size) l g ret base s
        { s₂ with execution := s₂.execution.retPop (s.execution.sentMessage rcx).size }
  | moved {l : List ℕ} {g ret base r : ℕ} {s s₁ s₂ s₃ : Runtime τ} {rcx : UInt64}
      {moved popped : Execution τ}
      (hfits : Fits g ret 24 (s.execution.sentMessage rcx).size s.execution)
      (henters : s.Enters t rcx s₁)
      -- the callee calls the trap before it changes its frame pointer
      (hown : Own t kept l g s.execution.machine.rsp
        (s.execution.machine.rsp + 8 + (s.execution.sentMessage rcx).size) s₁.execution
          s₂.execution)
      (hrsp : s₂.execution.machine.rsp + 8 = s₁.execution.machine.rsp)
      (hrbp : s₂.execution.machine.rbp = s₁.execution.machine.rbp)
      (hsize : s₂.execution.argumentSize = (s.execution.sentMessage rcx).size + 16)
      (hlow : g ≤ s₂.execution.machine.rsp + 4032) (hroom : s₂.execution.argumentSize + 8 ≤ 4032)
      (htrap : s₂.execution.stackLimitTrap t = some moved)
      (hlive : moved.segments.live t = l ++ [g, r])
      (hcallee : MessageRun t kept .code (l ++ [g]) r moved.machine.rsp r
        { s₂ with execution := moved } s₃)
      (hrsp' : s₃.execution.machine.rsp = moved.machine.rsp)
      (hrbp' : s₃.execution.machine.rbp = moved.machine.rbp)
      (hpop : (s₃.execution.retPop (s.execution.sentMessage rcx).size).popStackSegmentTrap t =
        some popped) :
      MessageRun t kept (.call (s.execution.sentMessage rcx).size) l g ret base s
        { s₃ with execution := popped }
  | runtimePrimitive {l : List ℕ} {g ret base : ℕ} {s s₁ : Runtime τ} {popCount : ℕ}
      {result : UInt64} (hfits : Fits g ret 8 ((popCount * 8 + 15) / 16 * 16) s.execution)
      (heffect : Own t kept l g ret base s.execution.enterPrimitive s₁.execution)
      (hframe : s.execution.enterPrimitive.machine.memory.SameOn s₁.execution.machine.memory
        (s.execution.machine.rsp - 8) (s.execution.machine.rsp + 8)) :
      MessageRun t kept (.call ((popCount * 8 + 15) / 16 * 16)) l g ret base s
        { s₁ with execution :=
            s₁.execution.primitiveReturn (s.execution.machine.rsp - 8) popCount result }

/-- What a run comes to: code leaves alone what is not its own, and a call has returned. -/
def RunMode.Done (mode : RunMode) (s s' : Execution τ) : Prop :=
  match mode with
  | .code => True
  | .call size => Returned s s' size s'.rax

variable {t : τ} {kept : Set ℕ} {l : List ℕ} {g ret base : ℕ} {s s₁ s₂ s₃ : Runtime τ}

/-- A call that enters a compiled method, on the segment of the sender. -/
theorem Runtime.Enters.returned {rcx : UInt64} (henters : s.Enters t rcx s₁)
    (hseg : OnSegment t kept l g ret base s.execution) {size : ℕ}
    (hfits : Fits g ret 24 size s.execution)
    (hcallee : OnSegment t kept l g s.execution.machine.rsp (s.execution.machine.rsp + 8 + size)
      s₁.execution → Keeps t kept l g s.execution.machine.rsp
        (s.execution.machine.rsp + 8 + size) s₁.execution s₂.execution)
    (hrsp : s₂.execution.machine.rsp = s₁.execution.machine.rsp)
    (hrbp : s₂.execution.machine.rbp = s₁.execution.machine.rbp) :
    Returned s.execution (s₂.execution.retPop size) size s₂.execution.rax ∧
      Keeps t kept l g ret base s.execution (s₂.execution.retPop size) := by
  obtain ⟨hrsp₁, hrbp₁, habove, hkeeps⟩ := henters.spec hseg hfits
  have hkept := hcallee ((hseg.keeps hkeeps).callee (by omega) hfits.arguments)
  refine ⟨returned_retPop (hrsp.trans hrsp₁) (hrbp.trans hrbp₁) fun a hlow hhigh => ?_,
    (hkeeps.trans (hkept.of_callee hfits.arguments hseg.ret_le hseg.base_le)).retPop size⟩
  exact (hkept.returnAddress a hlow hhigh).trans (habove a hlow)

/-- A call that enters a compiled method and is moved to a new segment. -/
theorem Runtime.Enters.returned_moved {rcx : UInt64} (henters : s.Enters t rcx s₁)
    (hseg : OnSegment t kept l g ret base s.execution) {size r : ℕ}
    (hfits : Fits g ret 24 size s.execution)
    (hown : Own t kept l g s.execution.machine.rsp (s.execution.machine.rsp + 8 + size)
      s₁.execution s₂.execution)
    (hrsp : s₂.execution.machine.rsp + 8 = s₁.execution.machine.rsp)
    (hrbp : s₂.execution.machine.rbp = s₁.execution.machine.rbp)
    (hsize : s₂.execution.argumentSize = size + 16) (hlow : g ≤ s₂.execution.machine.rsp + 4032)
    (hroom : s₂.execution.argumentSize + 8 ≤ 4032) {moved popped : Execution τ}
    (htrap : s₂.execution.stackLimitTrap t = some moved)
    (hlive : moved.segments.live t = l ++ [g, r])
    (hcallee : OnSegment t kept (l ++ [g]) r moved.machine.rsp r moved →
      Keeps t kept (l ++ [g]) r moved.machine.rsp r moved s₃.execution)
    (hrsp' : s₃.execution.machine.rsp = moved.machine.rsp)
    (hrbp' : s₃.execution.machine.rbp = moved.machine.rbp)
    (hpop : (s₃.execution.retPop size).popStackSegmentTrap t = some popped) :
    Returned s.execution popped size popped.rax ∧
      Keeps t kept l g ret base s.execution popped := by
  obtain ⟨hrsp₁, hrbp₁, habove, hkeeps⟩ := henters.spec hseg hfits
  have hseg₁ : OnSegment t kept l g s.execution.machine.rsp (s.execution.machine.rsp + 8 + size)
      s₁.execution := (hseg.keeps hkeeps).callee (by omega) hfits.arguments
  have hkeeps₂ := hown.keeps hseg₁
  have hseg₂ := hseg₁.keeps hkeeps₂
  -- the move
  have hlimit : AtLimit t l g (s.execution.machine.rsp + 8 + size) s₂.execution :=
    ⟨hseg₂.live, hlow, by omega, hseg₂.base_le, hroom⟩
  obtain ⟨hmoved, hseg', houtside, hpool⟩ := hseg₂.moved hlimit htrap hlive
  -- the callee on the new segment
  have hkeeps₃ := hcallee hseg'
  have hback : Returned moved (s₃.execution.retPop size) (s₂.execution.argumentSize - 16)
      s₃.execution.rax := by
    rw [hsize, Nat.add_sub_cancel]
    exact returned_retPop hrsp' hrbp' hkeeps₃.returnAddress
  obtain ⟨popped', hpop', hreturned, hpreserves, -⟩ := move_spec hseg₂.valid hlimit hmoved
    (hkeeps₃.retPop size).preserves hback
  obtain rfl := Option.some.inj (hpop'.symm.trans hpop)
  obtain ⟨hmemory, hpopped⟩ := popStackSegmentTrap_frame hpop
  refine ⟨⟨?_, ?_, ?_, rfl⟩, (hkeeps.trans ?_).trans (Keeps.of_preserves hpreserves
    (fun a ha => ?_) ?_ hfits.arguments hseg.ret_le hseg.base_le)⟩
  · refine hreturned.rip.trans ?_
    show s₂.execution.machine.memory.load64 (s₂.execution.machine.rsp + 8) = _
    rw [hrsp, hrsp₁]
    exact hkeeps₂.returnAddress.load64.trans
      (ByteMemory.SameOn.load64 fun a hlow _ => habove a hlow)
  · refine hreturned.rsp.trans ?_
    show s₂.execution.machine.rsp + 8 + 8 + (s₂.execution.argumentSize - 16) = _
    omega
  · exact hreturned.rbp.trans (hrbp.trans hrbp₁)
  · exact hkeeps₂.of_callee hfits.arguments hseg.ret_le hseg.base_le
  · rw [hmemory]
    exact ((hkeeps₃.retPop size).outside a ha).trans (houtside a ha)
  · rw [hpopped]
    exact (hkeeps₃.retPop size).pool.trans hpool

/-- What a run does: code leaves alone what is not its own, and calls return. -/
theorem MessageRun.spec {mode : RunMode} {s' : Runtime τ}
    (hrun : MessageRun t kept mode l g ret base s s')
    (hseg : OnSegment t kept l g ret base s.execution) :
    mode.Done s.execution s'.execution ∧
      Keeps t kept l g ret base s.execution s'.execution := by
  induction hrun with
  | refl l g ret base s =>
    exact ⟨trivial, Keeps.of_eq hseg.valid hseg.addressable rfl rfl⟩
  | own hrun hown ih =>
    have hkeeps := (ih hseg).2
    exact ⟨trivial, hkeeps.trans (hown.keeps (hseg.keeps hkeeps))⟩
  | call hrun hcall ih ihcall =>
    have hkeeps := (ih hseg).2
    exact ⟨trivial, hkeeps.trans (ihcall (hseg.keeps hkeeps)).2⟩
  | answered hfits hanswers => exact hanswers.returned hseg hfits
  | entered hfits henters hcallee hrsp hrbp ih =>
    exact henters.returned hseg hfits (fun hcalled => (ih hcalled).2) hrsp hrbp
  | moved hfits henters hown hrsp hrbp hsize hlow hroom htrap hlive hcallee hrsp' hrbp' hpop ih =>
    exact henters.returned_moved hseg hfits hown hrsp hrbp hsize hlow hroom htrap hlive
      (fun hcalled => (ih hcalled).2) hrsp' hrbp' hpop
  | runtimePrimitive hfits heffect hframe =>
    exact hseg.returned_primitiveReturn hfits heffect hframe _

end Runs

/-- A heap with one behavior, the class of all objects, whose only method is the compiled one at
65792, for the selector 65856. -/
def oneMethodWorld : World where
  memory :=
    { forwardingWord := fun _ => 0
      sizeWord := fun _ => 0
      header := fun o =>
        let classIndex :=
          if o = 65600 then KernelClass.MethodDictionary.index
          else if o = 65792 then KernelClass.CompiledMethod.index
          else KernelClass.Array.index
        ObjectHeader.ofFields classIndex 2 0 1
      slot := fun o i => (List.lookup (o, i)
        -- the behavior, its dictionary and the two arrays of this
        [((65536, Field.methodDict), 65600), ((65600, Field.array), 65664),
         ((65600, Field.keys), 65728), ((65664, 0), 65792), ((65728, 0), 65856),
         -- the method, whose code is at 4096
         ((65792, Field.entryPoint), 4097), ((65792, Field.flags), 1)]).getD 0
      byte := fun _ _ => 0
      heapStart := 4096
      heapSize := 0
      heapStart_aligned := rfl }
  classTable _ := some fun _ => 65536
  classTablePageCount := 1
  classTableBaseSize := 512
  classTableSize := 0
  newSymbols := 0
  symbolTable := 0
  globals := 0

/-- Code on the first segment of a thread. -/
theorem firstAtLimit_onSegment (ret base : ℕ) (hret : ret + 8 ≤ base) (hbase : base ≤ 8128)
    {s : Execution Unit} (h : s.segments = firstAtLimit.segments) :
    OnSegment () ∅ [] 8128 ret base s where
  valid := h ▸ firstAtLimit_valid.1
  addressable := by
    rw [Addressable, h]
    exact firstAtLimit_valid.2
  live := by rw [h]; rfl
  outside := fun _ ha => ha.elim
  ret_le := hret
  base_le := hbase

end SlvmNative
