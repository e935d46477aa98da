import SlvmNative.MessageDispatch

/-!
# Segment headers in memory

The trampolines that change between the stacks are modelled on two layouts. A `Machine` has the
headers of the segments as words of its memory, which is what the assembly sees. An `Execution` has
them in the manager of the segments, which is what the C functions around the trampolines need. Here
the second model is related to the first one: started in related states, the trampolines end in
related states.

## Main definitions

* `ExecutionStack.HeldIn` — a memory holds the headers of some segments
* `ExecutionStack.Holds` — a machine is another one whose memory holds the headers as well

## Main results

* `ExecutionStack.exists_heldIn` — every manager has such a memory
* `ExecutionStack.Holds.restoreCStack` — how all trampolines from Smalltalk to C start
* `Execution.enterSend_holds` — the send trampolines
* `Execution.switchToSmalltalk_of_valid` — a thread changes from C to Smalltalk
* `Execution.returnToC_of_valid` — and goes back
-/

namespace SlvmNative

/-- An address range keeps clear of the headers of some segments. -/
def ClearOf (segments : List ℕ) (lo hi : ℕ) : Prop :=
  ∀ g ∈ segments, hi ≤ g ∨ g + sizeofSegmentHeader ≤ lo

theorem ClearOf.mono {segments : List ℕ} {lo hi lo' hi' : ℕ} (h : ClearOf segments lo hi)
    (hlo : lo ≤ lo') (hhi : hi' ≤ hi) : ClearOf segments lo' hi' := fun g hg =>
  (h g hg).imp hhi.trans fun h => h.trans hlo

/-- The headers of some segments do not overlap. -/
def Apart (segments : List ℕ) : Prop :=
  ∀ g ∈ segments, ∀ x ∈ segments, x ≠ g →
    x + sizeofSegmentHeader ≤ g ∨ g + sizeofSegmentHeader ≤ x

/-- The live segments of a thread are in pages of their own. -/
theorem SegmentRun.Valid.apart {τ : Type} [DecidableEq τ] {s : SegmentRun τ} (h : s.Valid) (t : τ) :
    Apart (s.live t) := by
  intro g hg x hx hne
  have hpages := page_disjoint (h.live_carved hx).1 (h.live_carved hg).1 hne
  simp only [pageSize, sizeofSegmentHeader] at hpages ⊢
  omega

/-- The data of a thread is below the header of its first segment. -/
theorem SegmentRun.Valid.clearOf_threadData {τ : Type} [DecidableEq τ] {s : SegmentRun τ}
    (h : s.Valid) {t : τ} {data : ℕ} (hdata : s.manager.currentThreadStackData t = some data) :
    ClearOf (s.live t) data (data + 24) := by
  obtain ⟨first, hfirst, hlow, hend⟩ := (h.holdsThreadData t).inside data hdata
  have hmem : first ∈ s.live t := List.mem_of_mem_head? hfirst
  intro g hg
  simp only [sizeofThreadStackData, sizeofSegmentHeader, pageSize] at hlow hend ⊢
  by_cases hne : g = first
  · omega
  · have hpages := page_disjoint (h.live_carved hg).1 (h.live_carved hmem).1 hne
    simp only [pageSize] at hpages
    omega

/-- The stacks of the operating system are outside the pool of segments. -/
theorem SegmentRun.Valid.clearOf_outside {τ : Type} [DecidableEq τ] {s : SegmentRun τ}
    (h : s.Valid) (t : τ) {lo hi : ℕ}
    (houtside : hi ≤ s.manager.executionStackMemoryPool.start ∨
      s.manager.executionStackMemoryPool.start + executionStackCapacity ≤ lo) :
    ClearOf (s.live t) lo hi := by
  intro g hg
  obtain ⟨page, hpage, rfl⟩ := (h.live_carved hg).1
  obtain ⟨lists, hmanager⟩ := h
  have hfits := hmanager.fits
  simp only [pageSize, sizeofSegmentHeader] at hpage ⊢
  omega

namespace ExecutionStack

variable {τ : Type} {manager : ExecutionStack τ} {segments : List ℕ} {m m' : ByteMemory}
  {g data a : ℕ}

/-! ### Memory -/

/-- The memory `m'` is `m`, but that it holds the headers of some segments: what the trampolines
read and write of them, at the offsets in the layout. -/
structure HeldIn (manager : ExecutionStack τ) (segments : List ℕ) (m m' : ByteMemory) : Prop where
  threadData : ∀ g ∈ segments, ∀ data, (manager.header g).threadData = some data →
    (m'.load64 (g + 16)).toNat = data
  framePointer : ∀ g ∈ segments,
    m'.load64 (g + 32) = UInt64.ofNat (manager.header g).framePointer
  stackPointer : ∀ g ∈ segments,
    (m'.load64 (g + 40)).toNat = (manager.header g).stackPointer
  same : ∀ a, ClearOf segments a (a + 1) → m' a = m a

/-- The offsets of `threadData`, `framePointer` and `stackPointer`. -/
example : CType.memberOffset 0 segmentHeaderMembers 2 = 16 ∧
    CType.memberOffset 0 segmentHeaderMembers 4 = 32 ∧
    CType.memberOffset 0 segmentHeaderMembers 5 = 40 := by
  decide

theorem HeldIn.sameOn (h : manager.HeldIn segments m m') {lo hi : ℕ}
    (hclear : ClearOf segments lo hi) : m.SameOn m' lo hi := fun a hlo hhi =>
  h.same a (hclear.mono hlo hhi)

theorem HeldIn.load64 (h : manager.HeldIn segments m m') (hclear : ClearOf segments a (a + 8)) :
    m'.load64 a = m.load64 a :=
  (h.sameOn hclear).load64

/-- A store outside the headers. -/
theorem HeldIn.store64 (h : manager.HeldIn segments m m') (hclear : ClearOf segments a (a + 8))
    (v : UInt64) : manager.HeldIn segments (m.store64 a v) (m'.store64 a v) := by
  have hword : ∀ x ∈ segments, ∀ k, k + 8 ≤ 64 →
      (m'.store64 a v).load64 (x + k) = m'.load64 (x + k) := by
    intro x hx k hk
    have hx := hclear x hx
    simp only [sizeofSegmentHeader] at hx
    exact m'.load64_store64_of_disjoint v (by omega)
  refine ⟨fun x hx data hdata => ?_, fun x hx => ?_, fun x hx => ?_, fun b hb => ?_⟩
  · rw [hword x hx 16 (by decide), h.threadData x hx data hdata]
  · rw [hword x hx 32 (by decide), h.framePointer x hx]
  · rw [hword x hx 40 (by decide), h.stackPointer x hx]
  · rw [ByteMemory.store64, ByteMemory.storeBytes, ByteMemory.store64, ByteMemory.storeBytes,
      h.same b hb]

/-- The stores of the stack pointers into a header. -/
theorem HeldIn.setStackPointers (h : manager.HeldIn segments m m') (hg : g ∈ segments)
    (hapart : Apart segments) {stackPointer : ℕ} (hlt : stackPointer < 2 ^ 64)
    (framePointer : UInt64) :
    (manager.setStackPointers g stackPointer framePointer.toNat).HeldIn segments m
      ((m'.store64 (g + 40) (UInt64.ofNat stackPointer)).store64 (g + 32) framePointer) := by
  have hword : ∀ x k, x + k + 8 ≤ g + 32 ∨ g + 48 ≤ x + k →
      ((m'.store64 (g + 40) (UInt64.ofNat stackPointer)).store64 (g + 32) framePointer).load64
        (x + k) = m'.load64 (x + k) := by
    intro x k hk
    rw [ByteMemory.load64_store64_of_disjoint _ _ (by omega),
      ByteMemory.load64_store64_of_disjoint _ _ (by omega)]
  have hother : ∀ x ∈ segments, x ≠ g → ∀ k, k + 8 ≤ 64 →
      x + k + 8 ≤ g + 32 ∨ g + 48 ≤ x + k := by
    intro x hx hne k hk
    have hx := hapart g hg x hx hne
    simp only [sizeofSegmentHeader] at hx
    omega
  refine ⟨fun x hx data hdata => ?_, fun x hx => ?_, fun x hx => ?_, fun b hb => ?_⟩
  · rw [setStackPointers_threadData] at hdata
    rw [← h.threadData x hx data hdata]
    by_cases hxg : x = g
    · rw [hxg, hword g 16 (by omega)]
    · rw [hword x 16 (hother x hx hxg 16 (by decide))]
  · by_cases hxg : x = g
    · rw [hxg, setStackPointers_header_self, ByteMemory.load64_store64, UInt64.ofNat_toNat]
    · rw [manager.setStackPointers_header_of_ne _ _ _ hxg, ← h.framePointer x hx,
        hword x 32 (hother x hx hxg 32 (by decide))]
  · by_cases hxg : x = g
    · rw [hxg, setStackPointers_header_self, ByteMemory.load64_store64_of_disjoint _ _ (by omega),
        ByteMemory.load64_store64, UInt64.toNat_ofNat', Nat.mod_eq_of_lt hlt]
    · rw [manager.setStackPointers_header_of_ne _ _ _ hxg, ← h.stackPointer x hx,
        hword x 40 (hother x hx hxg 40 (by decide))]
  · have hb' := hb g hg
    have hsame : m'.SameOn _ b (b + 1) :=
      ((ByteMemory.SameOn.refl m' b (b + 1)).store64 (UInt64.ofNat stackPointer)
        (a := g + 40) (by simp only [sizeofSegmentHeader] at hb'; omega)).store64 framePointer
        (a := g + 32) (by simp only [sizeofSegmentHeader] at hb'; omega)
    rw [hsame b (Nat.le_refl b) (Nat.lt_succ_self b), h.same b hb]

/-- The words of one more header. -/
theorem HeldIn.cons (h : manager.HeldIn segments m m') (hapart : Apart (g :: segments))
    (hg : g ∉ segments) (hstack : (manager.header g).stackPointer < 2 ^ 64)
    (hdata : ∀ data, (manager.header g).threadData = some data → data < 2 ^ 64) :
    manager.HeldIn (g :: segments) m
      (((m'.store64 (g + 16) (UInt64.ofNat ((manager.header g).threadData.getD 0))).store64 (g + 32)
        (UInt64.ofNat (manager.header g).framePointer)).store64 (g + 40)
          (UInt64.ofNat (manager.header g).stackPointer)) := by
  have hother : ∀ x ∈ segments, ∀ k, k + 8 ≤ 64 → x + k + 8 ≤ g ∨ g + 64 ≤ x + k := by
    intro x hx k hk
    have hx := hapart g List.mem_cons_self x (List.mem_cons_of_mem g hx)
      (ne_of_mem_of_not_mem hx hg)
    simp only [sizeofSegmentHeader] at hx
    omega
  refine ⟨fun x hx data hx' => ?_, fun x hx => ?_, fun x hx => ?_, fun b hb => ?_⟩
  · rcases List.mem_cons.mp hx with rfl | hx
    · rw [ByteMemory.load64_store64_of_disjoint _ _ (by omega),
        ByteMemory.load64_store64_of_disjoint _ _ (by omega), ByteMemory.load64_store64, hx',
        Option.getD_some, UInt64.toNat_ofNat', Nat.mod_eq_of_lt (hdata data hx')]
    · have hclear := hother x hx 16 (by decide)
      simp (disch := omega) only [ByteMemory.load64_store64_of_disjoint, h.threadData x hx data hx']
  · rcases List.mem_cons.mp hx with rfl | hx
    · rw [ByteMemory.load64_store64_of_disjoint _ _ (by omega), ByteMemory.load64_store64]
    · have hclear := hother x hx 32 (by decide)
      simp (disch := omega) only [ByteMemory.load64_store64_of_disjoint, h.framePointer x hx]
  · rcases List.mem_cons.mp hx with rfl | hx
    · rw [ByteMemory.load64_store64, UInt64.toNat_ofNat', Nat.mod_eq_of_lt hstack]
    · have hclear := hother x hx 40 (by decide)
      simp (disch := omega) only [ByteMemory.load64_store64_of_disjoint, h.stackPointer x hx]
  · have hb' := hb g List.mem_cons_self
    simp only [sizeofSegmentHeader] at hb'
    have hsame : m'.SameOn _ b (b + 1) :=
      (((ByteMemory.SameOn.refl m' b (b + 1)).store64
        (UInt64.ofNat ((manager.header g).threadData.getD 0)) (a := g + 16) (by omega)).store64
          (UInt64.ofNat (manager.header g).framePointer) (a := g + 32) (by omega)).store64
            (UInt64.ofNat (manager.header g).stackPointer) (a := g + 40) (by omega)
    rw [hsame b (Nat.le_refl b) (Nat.lt_succ_self b),
      h.same b fun x hx => hb x (List.mem_cons_of_mem g hx)]

/-- **Every memory can hold the headers**, if they do not overlap and hold addresses. -/
theorem exists_heldIn (manager : ExecutionStack τ) (m : ByteMemory) (segments : List ℕ)
    (hnodup : segments.Nodup) (hapart : Apart segments)
    (hstack : ∀ g ∈ segments, (manager.header g).stackPointer < 2 ^ 64)
    (hdata : ∀ g ∈ segments, ∀ data, (manager.header g).threadData = some data →
      data < 2 ^ 64) : ∃ m', manager.HeldIn segments m m' := by
  induction segments with
  | nil => exact ⟨m, ⟨by simp, by simp, by simp, fun _ _ => rfl⟩⟩
  | cons g segments ih =>
    obtain ⟨hg, hnodup⟩ := List.nodup_cons.mp hnodup
    obtain ⟨m', hm'⟩ := ih hnodup
      (fun x hx y hy => hapart x (List.mem_cons_of_mem g hx) y (List.mem_cons_of_mem g hy))
      (fun x hx => hstack x (List.mem_cons_of_mem g hx))
      (fun x hx => hdata x (List.mem_cons_of_mem g hx))
    exact ⟨_, hm'.cons hapart hg (hstack g List.mem_cons_self) (hdata g List.mem_cons_self)⟩

/-! ### Machines -/

/-- The machine `c` is `s`, but that its memory holds the headers of some segments as well. -/
structure Holds (manager : ExecutionStack τ) (segments : List ℕ) (s c : Machine) : Prop where
  rsp : c.rsp = s.rsp
  rbp : c.rbp = s.rbp
  rip : c.rip = s.rip
  memory : manager.HeldIn segments s.memory c.memory

namespace Holds

variable {s c : Machine}

theorem push (h : manager.Holds segments s c)
    (hclear : ClearOf segments (s.rsp - 8) (s.rsp - 8 + 8))
    (v : UInt64) : manager.Holds segments (s.push v) (c.push v) := by
  refine ⟨congrArg (· - 8) h.rsp, h.rbp, h.rip, ?_⟩
  rw [Machine.push, Machine.push, h.rsp]
  exact h.memory.store64 hclear v

/-- A push of a word outside the headers. -/
theorem pushWord (h : manager.Holds segments s c)
    (hclear : ClearOf segments (s.rsp - 8) (s.rsp - 8 + 8)) (ha : ClearOf segments a (a + 8)) :
    manager.Holds segments (s.push (s.memory.load64 a)) (c.push (c.memory.load64 a)) := by
  rw [h.memory.load64 ha]
  exact h.push hclear _

/-- The pointers to the C stack, in the thread data. -/
theorem storePointers (h : manager.Holds segments s c) (hdata : ClearOf segments data (data + 24))
    (label : UInt64) :
    manager.HeldIn segments
      (((s.memory.store64 data (UInt64.ofNat s.rsp)).store64 (data + 8) s.rbp).store64 (data + 16)
        label)
      (((c.memory.store64 data (UInt64.ofNat c.rsp)).store64 (data + 8) c.rbp).store64 (data + 16)
        label) := by
  rw [h.rsp, h.rbp]
  exact ((h.memory.store64 (hdata.mono (Nat.le_refl _) (by omega)) _).store64
    (hdata.mono (by omega) (by omega)) _).store64 (hdata.mono (by omega) (by omega)) _

theorem enterFrame (h : manager.Holds segments s c)
    (hclear : ClearOf segments (s.rsp - 8) (s.rsp - 8 + 8)) :
    manager.Holds segments s.enterFrame c.enterFrame := by
  have hpush := h.push hclear s.rbp
  refine ⟨hpush.rsp, ?_, hpush.rip, ?_⟩
  · rw [Machine.enterFrame, Machine.enterFrame, h.rsp]
  · rw [Machine.enterFrame, Machine.enterFrame, h.rbp]
    exact hpush.memory

/-- What a `pop` reads. -/
theorem pop (h : manager.Holds segments s c) (hclear : ClearOf segments s.rsp (s.rsp + 8)) :
    c.pop.1 = s.pop.1 ∧ manager.Holds segments s.pop.2 c.pop.2 := by
  refine ⟨?_, congrArg (· + 8) h.rsp, h.rbp, h.rip, h.memory⟩
  rw [Machine.pop, Machine.pop, h.rsp]
  exact h.memory.load64 hclear

theorem popInto (h : manager.Holds segments s c) (hclear : ClearOf segments s.rsp (s.rsp + 8))
    (haddress : ClearOf segments a (a + 8)) :
    manager.Holds segments (s.popInto a) (c.popInto a) := by
  obtain ⟨hword, hpopped⟩ := h.pop hclear
  refine ⟨hpopped.rsp, h.rbp, h.rip, ?_⟩
  rw [Machine.popInto, Machine.popInto, hword]
  exact h.memory.store64 haddress s.pop.1

theorem popRbp (h : manager.Holds segments s c) (hclear : ClearOf segments s.rsp (s.rsp + 8)) :
    manager.Holds segments s.popRbp c.popRbp := by
  obtain ⟨hword, hpopped⟩ := h.pop hclear
  exact ⟨hpopped.rsp, hword, h.rip, h.memory⟩

theorem ret (h : manager.Holds segments s c) (hclear : ClearOf segments s.rsp (s.rsp + 8)) :
    manager.Holds segments s.ret c.ret := by
  obtain ⟨hword, hpopped⟩ := h.pop hclear
  exact ⟨hpopped.rsp, h.rbp, hword, h.memory⟩

/-! ### From Smalltalk to C -/

/-- **How all trampolines from Smalltalk to C start**: the stack pointers go to the header of the
segment, and the C stack is that of the thread data. -/
theorem restoreCStack (h : manager.Holds segments s c) (hg : g ∈ segments)
    (hapart : Apart segments) (hend : Machine.segmentEnd s.rsp = g + 64) (hlt : s.rsp < 2 ^ 64)
    (hdata : (manager.header g).threadData = some data)
    (hclear : ClearOf segments data (data + 24)) :
    c.restoreCStack.1 = data ∧
      (manager.setStackPointers g s.rsp s.rbp.toNat).Holds segments
        { s with rsp := (s.memory.load64 data).toNat, rbp := s.memory.load64 (data + 8) }
        c.restoreCStack.2 := by
  have hend' : Machine.segmentEnd c.rsp = g + 64 := h.rsp ▸ hend
  have haddress : (c.memory.load64 (g + 64 - 48)).toNat = data :=
    h.memory.threadData g hg data hdata
  have hmemory := h.memory.setStackPointers hg hapart hlt s.rbp
  have hstored : c.restoreCStack.2.memory =
      (c.memory.store64 (g + 40) (UInt64.ofNat s.rsp)).store64 (g + 32) s.rbp := by
    rw [Machine.restoreCStack, hend', h.rsp, h.rbp]
    rfl
  refine ⟨?_, ?_, ?_, h.rip, hstored ▸ hmemory⟩
  · rw [Machine.restoreCStack, hend', haddress]
  · show c.restoreCStack.2.rsp = _
    rw [← hmemory.load64 (hclear.mono (Nat.le_refl _) (by omega)), ← hstored]
    simp only [Machine.restoreCStack, hend', haddress]
  · show c.restoreCStack.2.rbp = _
    rw [← hmemory.load64 (a := data + 8) (hclear.mono (by omega) (by omega)), ← hstored]
    simp only [Machine.restoreCStack, hend', haddress]

/-- The code behind the switch, on the C stack. -/
theorem backToC (h : manager.Holds segments s c) (hdata : ClearOf segments data (data + 24))
    (hstack : ClearOf segments s.rsp (s.rsp + 24))
    (hframe : ClearOf segments s.rbp.toNat (s.rbp.toNat + 16)) :
    manager.Holds segments (s.backToC data) (c.backToC data) := by
  have hword : ∀ k, k + 8 ≤ 24 → ClearOf segments (data + k) (data + k + 8) := fun k hk =>
    hdata.mono (Nat.le_add_right _ _) (by omega)
  have hpop : ∀ k, k + 8 ≤ 24 → ClearOf segments (s.rsp + k) (s.rsp + k + 8) := fun k hk =>
    hstack.mono (Nat.le_add_right _ _) (by omega)
  have hpopped := ((h.popInto (hpop 0 (by decide)) (hword 0 (by decide))).popInto
    (hpop 8 (by decide)) (hword 8 (by decide))).popInto (hpop 16 (by decide)) (hword 16 (by decide))
  -- the frame of the C function
  have hleft : manager.Holds segments
      { ((s.popInto data).popInto (data + 8)).popInto (data + 16) with rsp := s.rbp.toNat }
      { ((c.popInto data).popInto (data + 8)).popInto (data + 16) with rsp := c.rbp.toNat } :=
    ⟨congrArg UInt64.toNat h.rbp, hpopped.rbp, hpopped.rip, hpopped.memory⟩
  exact (hleft.popRbp (hframe.mono (Nat.le_refl _) (Nat.le_add_right _ 8))).ret
    (hframe.mono (Nat.le_add_right _ 8) (Nat.le_refl _))

end Holds

end ExecutionStack

/-! ### The trampolines -/

namespace Execution

open ExecutionStack

variable {τ : Type} [TrampolineImage] {s : Execution τ} {c : Machine} {segments : List ℕ}
  {g data : ℕ}

omit [TrampolineImage] in
/-- How the send trampolines start. What the C function behind them gets is a machine that holds the
headers of the state in which its model starts. -/
theorem enterSend_holds (h : s.segments.manager.Holds segments s.machine c) (hg : g ∈ segments)
    (hapart : Apart segments) (hlt : s.machine.rsp < 2 ^ 64)
    (hend : Machine.segmentEnd (s.machine.rsp - 24) = g + 64) (hroom : 24 ≤ s.machine.rsp)
    (hstack : ClearOf segments (s.machine.rsp - 24) s.machine.rsp)
    (hdata : (s.segments.manager.header g).threadData = some data)
    (hclear : ClearOf segments data (data + 24)) (rcx : UInt64) :
    let entered := s.enterSend rcx
    entered.segments.manager.Holds segments
      { entered.machine with
        rsp := (entered.machine.memory.load64 data).toNat
        rbp := entered.machine.memory.load64 (data + 8) }
      ((c.enterFrame.push s.rax).push rcx).restoreCStack.2 := by
  have hpushed := ((h.enterFrame (hstack.mono (by omega) (by omega))).push
    (s := s.machine.enterFrame) (hstack.mono (by show _ ≤ s.machine.rsp - 8 - 8; omega)
      (by show s.machine.rsp - 8 - 8 + 8 ≤ _; omega)) s.rax).push
    (s := s.machine.enterFrame.push s.rax)
    (hstack.mono (by show _ ≤ s.machine.rsp - 8 - 8 - 8; omega)
      (by show s.machine.rsp - 8 - 8 - 8 + 8 ≤ _; omega)) rcx
  have hrsp : ((s.machine.enterFrame.push s.rax).push rcx).rsp = s.machine.rsp - 24 := by
    show s.machine.rsp - 8 - 8 - 8 = _
    omega
  have hcurrent : Machine.segmentEnd ((s.machine.enterFrame.push s.rax).push rcx).rsp = g + 64 := by
    rw [hrsp, hend]
  have hspec := (hpushed.restoreCStack hg hapart hcurrent (by omega) hdata hclear).2
  have hsegment : currentSegment
      { s with machine := (s.machine.enterFrame.push s.rax).push rcx } = g := by
    rw [currentSegment, hcurrent]
    exact Nat.add_sub_cancel g 64
  rw [enterSend, storeStackPointers, hsegment]
  exact hspec

/-- **The change from C to Smalltalk is the same on both layouts.** -/
theorem switchToSmalltalk_holds (h : s.segments.manager.Holds segments s.machine c)
    (hg : g ∈ segments) (hroom : 32 ≤ s.machine.rsp)
    (hstack : ClearOf segments (s.machine.rsp - 32) s.machine.rsp)
    (hdata : (s.segments.manager.header g).threadData = some data)
    (hclear : ClearOf segments data (data + 24)) (entryPoint : UInt64) :
    ∃ s', s.switchToSmalltalk g entryPoint = some s' ∧
      s'.segments.manager.Holds segments s'.machine (c.switchToSmalltalk (g + 64) entryPoint) := by
  have hword : ∀ k, k + 8 ≤ 24 → ClearOf segments (data + k) (data + k + 8) := fun k hk =>
    hclear.mono (Nat.le_add_right _ _) (by omega)
  have hpush : ∀ rsp, s.machine.rsp ≤ rsp + 24 → rsp ≤ s.machine.rsp →
      ClearOf segments (rsp - 8) (rsp - 8 + 8) := fun rsp hlo hhi =>
    hstack.mono (by omega) (by omega)
  have hentered := h.enterFrame (hpush s.machine.rsp (by omega) (Nat.le_refl _))
  have haddress : (c.enterFrame.memory.load64 (g + 64 - 48)).toNat = data :=
    hentered.memory.threadData g hg data hdata
  -- the old pointers go to the C stack
  have h₁ := hentered.pushWord (hpush (s.machine.rsp - 8) (by omega) (by omega))
    (hword 16 (by decide))
  have h₂ := h₁.pushWord (hpush (s.machine.rsp - 8 - 8) (by omega) (by omega))
    (hword 8 (by decide))
  have h₃ := h₂.pushWord (hpush (s.machine.rsp - 8 - 8 - 8) (by omega) (by omega))
    (hword 0 (by decide))
  -- and the new ones to the thread data
  have hmemory := h₃.storePointers hclear TrampolineImage.backToCReturnPointer
  rw [switchToSmalltalk, hdata]
  refine ⟨_, rfl, ?_⟩
  rw [Machine.switchToSmalltalk]
  simp only [haddress]
  exact ⟨hmemory.stackPointer g hg, hmemory.framePointer g hg, rfl, hmemory⟩

omit [TrampolineImage] in
/-- **The way back to C is the same on both layouts.** -/
theorem returnToC_holds (h : s.segments.manager.Holds segments s.machine c) (hg : g ∈ segments)
    (hapart : Apart segments) (hlt : s.machine.rsp < 2 ^ 64)
    (hend : Machine.segmentEnd s.machine.rsp = g + 64)
    (hdata : (s.segments.manager.header g).threadData = some data)
    (hclear : ClearOf segments data (data + 24))
    (hstack : ClearOf segments (s.machine.memory.load64 data).toNat
      ((s.machine.memory.load64 data).toNat + 24))
    (hframe : ClearOf segments (s.machine.memory.load64 (data + 8)).toNat
      ((s.machine.memory.load64 (data + 8)).toNat + 16)) :
    ∃ s', s.returnToC = some s' ∧ s'.segments.manager.Holds segments s'.machine
      (c.returnToCTrampoline.2.backToC c.returnToCTrampoline.1) := by
  obtain ⟨haddress, hrestored⟩ := h.restoreCStack hg hapart hend hlt hdata hclear
  have hcurrent : s.currentSegment = g := by
    rw [currentSegment, hend]
    exact Nat.add_sub_cancel g 64
  have hjump : c.restoreCStack.2.memory.load64 (data + 16) = s.machine.memory.load64 (data + 16) :=
    hrestored.memory.load64 (hclear.mono (by omega) (by omega))
  have hleft : (s.segments.manager.setStackPointers g s.machine.rsp s.machine.rbp.toNat).Holds
      segments
      { s.machine with
        rsp := (s.machine.memory.load64 data).toNat
        rbp := s.machine.memory.load64 (data + 8)
        rip := s.machine.memory.load64 (data + 16) } c.returnToCTrampoline.2 := by
    refine ⟨hrestored.rsp, hrestored.rbp, ?_, hrestored.memory⟩
    rw [← hjump, ← haddress]
    rfl
  have hback := hleft.backToC hclear hstack hframe
  rw [show c.returnToCTrampoline.1 = data from haddress, returnToC, hcurrent, hdata]
  refine ⟨_, rfl, ?_⟩
  rw [storeStackPointers, hcurrent]
  exact hback

/-! ### Threads -/

variable [DecidableEq τ] {t : τ}

/-- **A thread changes to Smalltalk** from a C stack outside the pool of segments, to any of its
segments, on both layouts in the same way. -/
theorem switchToSmalltalk_of_valid (hvalid : s.segments.Valid)
    (h : s.segments.manager.Holds (s.segments.live t) s.machine c) (hg : g ∈ s.segments.live t)
    (hroom : 32 ≤ s.machine.rsp)
    (houtside : s.machine.rsp ≤ s.segments.manager.executionStackMemoryPool.start ∨
      s.segments.manager.executionStackMemoryPool.start + executionStackCapacity ≤
        s.machine.rsp - 32) (entryPoint : UInt64) :
    ∃ s', s.switchToSmalltalk g entryPoint = some s' ∧
      s'.segments.manager.Holds (s.segments.live t) s'.machine
        (c.switchToSmalltalk (g + 64) entryPoint) := by
  have hthread := hvalid.holdsThreadData t
  obtain ⟨data, hdata⟩ : ∃ data, s.segments.manager.currentThreadStackData t = some data :=
    Option.ne_none_iff_exists'.mp fun hnone =>
      List.ne_nil_of_mem hg (hthread.eq_none_iff.mp hnone)
  exact switchToSmalltalk_holds h hg hroom (hvalid.clearOf_outside t houtside)
    ((hthread.threadData g hg).trans hdata) (hvalid.clearOf_threadData hdata) entryPoint

omit [TrampolineImage] in
/-- **A thread goes back to C** from any of its segments, to a C stack outside the pool, on both
layouts in the same way. -/
theorem returnToC_of_valid (hvalid : s.segments.Valid) (hspace : s.Addressable)
    (h : s.segments.manager.Holds (s.segments.live t) s.machine c) (hg : g ∈ s.segments.live t)
    (hlow : g ≤ s.machine.rsp + 4032) (hhigh : s.machine.rsp ≤ g)
    (hdata : s.segments.manager.currentThreadStackData t = some data)
    (hstack : (s.machine.memory.load64 data).toNat + 24 ≤
        s.segments.manager.executionStackMemoryPool.start ∨
      s.segments.manager.executionStackMemoryPool.start + executionStackCapacity ≤
        (s.machine.memory.load64 data).toNat)
    (hframe : (s.machine.memory.load64 (data + 8)).toNat + 16 ≤
        s.segments.manager.executionStackMemoryPool.start ∨
      s.segments.manager.executionStackMemoryPool.start + executionStackCapacity ≤
        (s.machine.memory.load64 (data + 8)).toNat) :
    ∃ s', s.returnToC = some s' ∧ s'.segments.manager.Holds (s.segments.live t) s'.machine
      (c.returnToCTrampoline.2.backToC c.returnToCTrampoline.1) := by
  obtain ⟨-, -, hmax⟩ := segment_bounds hvalid hspace hg
  exact returnToC_holds h hg (hvalid.apart t) (by omega)
    (currentSegment_eq hvalid hspace hg hlow hhigh).1
    (((hvalid.holdsThreadData t).threadData g hg).trans hdata) (hvalid.clearOf_threadData hdata)
    (hvalid.clearOf_outside t hstack) (hvalid.clearOf_outside t hframe)

end Execution

end SlvmNative
