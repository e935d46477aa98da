import SlvmNative.ExecutionStack
import SlvmNative.Trampolines

/-!
# Moves to new stack segments

What happens when a segment is full. The callee enters the stack limit trap; its arguments and the
two return pointers are copied to a new segment, where it goes on, and it returns to the trap that
pops this segment again and returns to the sender. The place of the arguments on the old segment
holds what the sender is resumed with.

The headers of the segments and their lists are those of `ExecutionStack`, the bodies are bytes. The
C stack the two functions run on is left out.

## Main definitions

* `Execution` — the segments, the registers and the memory
* `Execution.newStackSegment`, `Execution.popStackSegment` — and the traps that call them
* `Execution.Returned` — a callee has returned
* `Execution.Runs` — a callee runs, with moves nested to any depth

## Main results

* `Execution.move_spec` — one move, if the callee leaves the older segments alone
* `Execution.move_of_runs` — moves are transparent, whatever moves the callee makes in turn
* `Execution.Runs.threadData` — the data of the thread, on its first segment, is kept
-/

namespace SlvmNative

open LinkedList Relation

/-! ### Stores to the headers -/

namespace ExecutionStack

variable {τ : Type}

/-- Stores to the `stackPointer` and the `framePointer` of a header. -/
def setStackPointers (s : ExecutionStack τ) (segment stackPointer framePointer : ℕ) :
    ExecutionStack τ :=
  { s with
    header := Function.update s.header segment
      { s.header segment with stackPointer := stackPointer, framePointer := framePointer } }

section SetStackPointers

variable (s : ExecutionStack τ) (segment stackPointer framePointer : ℕ)

@[simp] theorem setStackPointers_links :
    (s.setStackPointers segment stackPointer framePointer).links = s.links := rfl

@[simp] theorem setStackPointers_pool :
    (s.setStackPointers segment stackPointer framePointer).executionStackMemoryPool =
      s.executionStackMemoryPool := rfl

@[simp] theorem setStackPointers_current :
    (s.setStackPointers segment stackPointer framePointer).currentThreadStackData =
      s.currentThreadStackData := rfl

theorem setStackPointers_eq_self :
    s.setStackPointers segment (s.header segment).stackPointer
      (s.header segment).framePointer = s := by
  rw [setStackPointers, Function.update_eq_self]

@[simp] theorem setStackPointers_header_self :
    (s.setStackPointers segment stackPointer framePointer).header segment =
      { s.header segment with stackPointer := stackPointer, framePointer := framePointer } :=
  Function.update_self ..

theorem setStackPointers_header_of_ne {other : ℕ} (h : other ≠ segment) :
    (s.setStackPointers segment stackPointer framePointer).header other = s.header other :=
  Function.update_of_ne h _ _

theorem setStackPointers_threadData (other : ℕ) :
    ((s.setStackPointers segment stackPointer framePointer).header other).threadData =
      (s.header other).threadData := by
  by_cases h : other = segment
  · rw [h, setStackPointers_header_self]
  · rw [setStackPointers_header_of_ne _ _ _ _ h]

end SetStackPointers

/-- The lists do not depend on the stack pointers. -/
theorem Valid.setStackPointers {s : ExecutionStack τ} {segments : SegmentList → List ℕ}
    {live : τ → List ℕ} {loose : Option ℕ} (h : s.Valid segments live loose)
    (segment stackPointer framePointer : ℕ) :
    (s.setStackPointers segment stackPointer framePointer).Valid segments live loose :=
  ⟨h.capacity, h.fits, h.whole, h.represents, h.carved, h.loose_free, h.live_of_none,
    h.live_of_some, h.owner, h.distinct, fun t x hx =>
      (s.setStackPointers_threadData segment stackPointer framePointer x).trans
        (h.threadData t x hx)⟩

/-- An allocated segment has a fresh header; the pool stays where it is. -/
theorem allocateSegment_header {s s' : ExecutionStack τ} {r : ℕ}
    (hs : s.allocateSegment = some (r, s')) :
    ∃ s₀ : ExecutionStack τ, s' = s₀.clearSegment r ∧ s₀.header = s.header ∧
      s₀.executionStackMemoryPool.start = s.executionStackMemoryPool.start ∧
      s₀.currentThreadStackData = s.currentThreadStackData := by
  unfold ExecutionStack.allocateSegment at hs
  split at hs
  · simp only [Option.some.injEq, Prod.mk.injEq] at hs
    obtain ⟨rfl, rfl⟩ := hs
    exact ⟨_, rfl, rfl, rfl, rfl⟩
  · split at hs
    rename_i base pool hpool
    split at hs
    · simp only [Option.some.injEq, Prod.mk.injEq] at hs
      obtain ⟨rfl, rfl⟩ := hs
      have hstart := s.executionStackMemoryPool.allocate_start pageSize pageSize
      rw [hpool] at hstart
      exact ⟨_, rfl, rfl, hstart, rfl⟩
    · cases hs

/-- The header of a new segment, and all others. -/
theorem createNewSegment_header {s s' : ExecutionStack τ} {t : τ} {r : ℕ}
    (hs : s.createNewSegment t = some (r, s')) :
    (s'.header r).stackPointer = r ∧ (s'.header r).framePointer = 0 ∧
      (∀ other, other ≠ r → s'.header other = s.header other) ∧
      s'.executionStackMemoryPool.start = s.executionStackMemoryPool.start ∧
      s'.currentThreadStackData = s.currentThreadStackData := by
  unfold ExecutionStack.createNewSegment at hs
  simp only [Option.bind_eq_bind, Option.bind_eq_some_iff, Option.pure_def, Option.some.injEq,
    Prod.mk.injEq, Prod.exists] at hs
  obtain ⟨data, -, result, s₁, hallocate, rfl, rfl⟩ := hs
  obtain ⟨s₀, rfl, hheader, hpool, hcurrent⟩ := allocateSegment_header hallocate
  refine ⟨?_, ?_, fun other hother => ?_, hpool, hcurrent⟩
  · simp only [addSegment, clearSegment, Function.update_self]
  · simp only [addSegment, clearSegment, Function.update_self, ExecutionStackSegmentHeader.zero]
  · simp only [addSegment, Function.update_of_ne hother]
    rw [s₀.clearSegment_header_of_ne hother, hheader]

/-- The header of the first segment of a thread: the thread data lies below it. -/
theorem getValidSegment_header [DecidableEq τ] {s s' : ExecutionStack τ} {t : τ} {r : ℕ}
    (hthread : s.currentThreadStackData t = none) (hs : s.getValidSegment t = some (r, s')) :
    s'.header r = { ExecutionStackSegmentHeader.zero with
      stackPointer := r - sizeofThreadStackData
      threadData := some (r - sizeofThreadStackData) } ∧
      s'.executionStackMemoryPool.start = s.executionStackMemoryPool.start := by
  unfold ExecutionStack.getValidSegment at hs
  have hlast : s.getLastSegment t = none := by rw [getLastSegment, hthread, Option.bind_none]
  rw [hlast] at hs
  simp only [Option.bind_eq_bind, Option.bind_eq_some_iff, Option.pure_def, Option.some.injEq,
    Prod.mk.injEq, Prod.exists] at hs
  obtain ⟨result, s₁, hallocate, data, hdata, rfl, rfl⟩ := hs
  obtain ⟨s₀, rfl, hheader, hpool, hcurrent⟩ := allocateSegment_header hallocate
  have hfirst : (s₀.clearSegment result).getFirstSegment t = none := by
    show ((s₀.currentThreadStackData t).bind _) = none
    rw [hcurrent, hthread, Option.bind_none]
  rw [if_pos (by rw [hfirst]; rfl)] at hdata ⊢
  have hdata' : data = result - sizeofThreadStackData := by
    simp only [allocateThreadData, Function.update_self, Option.some_inj,
      clearSegment_header_self] at hdata
    exact hdata.symm
  refine ⟨?_, hpool⟩
  simp only [addSegment, allocateThreadData, clearSegment, Function.update_self, hdata']
  rfl

/-- Popping a segment leaves the headers alone. -/
theorem popSegment_header [DecidableEq τ] {s s' : ExecutionStack τ} {t : τ} {r : ℕ}
    (hs : s.popSegment t r = some s') :
    s'.header = s.header ∧ s'.executionStackMemoryPool = s.executionStackMemoryPool := by
  unfold ExecutionStack.popSegment at hs
  simp only [Option.bind_eq_bind, Option.bind_eq_some_iff, Option.pure_def, Option.some.injEq] at hs
  obtain ⟨data, -, rfl⟩ := hs
  exact ⟨rfl, rfl⟩

end ExecutionStack

/-- A new segment is in a page of its own. -/
theorem SegmentRun.Valid.createNewSegment {τ : Type} [DecidableEq τ] {s : SegmentRun τ}
    (h : s.Valid) {t : τ} {r : ℕ} {manager : ExecutionStack τ}
    (hs : s.manager.createNewSegment t = some (r, manager)) :
    SegmentRun.Valid ⟨manager, Function.update s.live t (s.live t ++ [r])⟩ ∧
      ∀ x ∈ s.live t, x + pageSize ≤ r ∨ r + pageSize ≤ x := by
  have hvalid := h.step (SegmentRun.Step.createNewSegment hs)
  refine ⟨hvalid, fun x hx => ?_⟩
  have hlive : (Function.update s.live t (s.live t ++ [r])) t = s.live t ++ [r] :=
    Function.update_self ..
  have hmem : ∀ y ∈ s.live t ++ [r], y ∈ (Function.update s.live t (s.live t ++ [r])) t :=
    fun y hy => hlive.symm ▸ hy
  obtain ⟨hcarved, hnodup, -⟩ := hvalid.live_carved (hmem x (List.mem_append_left _ hx))
  obtain ⟨hcarved', -, -⟩ := hvalid.live_carved (hmem r (by simp))
  refine SegmentRun.page_disjoint hcarved hcarved' ?_
  rintro rfl
  change (Function.update s.live t (s.live t ++ [x]) t).Nodup at hnodup
  rw [hlive] at hnodup
  exact (List.nodup_append.mp hnodup).2.2 x hx x List.mem_cons_self rfl

/-! ### Argument descriptors -/

/-- The size of what `slvm_dynrun_new_stack_segment` copies: two return pointers, the receiver, the
oop arguments and the native ones. -/
def totalArgumentSize (argumentDescriptor : ℕ) : ℕ :=
  let nativeArgumentSize := (argumentDescriptor >>> 16) % 2 ^ 16
  let oopArgumentCount := argumentDescriptor &&& 0xFFFF
  nativeArgumentSize + (oopArgumentCount + 1 + 2) * 8

theorem le_totalArgumentSize (argumentDescriptor : ℕ) :
    24 ≤ totalArgumentSize argumentDescriptor := by
  rw [totalArgumentSize]
  omega

/-! ### The machine -/

/-- The segments of all threads, and the registers and the memory of one of them. -/
structure Execution (τ : Type) where
  segments : SegmentRun τ
  machine : Machine
  rax : UInt64

namespace Execution

variable {τ : Type} [DecidableEq τ] [TrampolineImage]

/-- The segment the stack pointer is in. -/
def currentSegment (s : Execution τ) : ℕ := Machine.segmentEnd s.machine.rsp - sizeofSegmentHeader

/-- How the traps start: store the Smalltalk stack pointers in the header of the segment. -/
def storeStackPointers (s : Execution τ) : Execution τ :=
  { s with segments := { s.segments with
      manager := s.segments.manager.setStackPointers s.currentSegment s.machine.rsp
        s.machine.rbp.toNat } }

/-- `_slvm_dynrun_returnToSender_trampoline` -/
def returnToSender (s : Execution τ) (restoreStackPointer : ℕ) (returnValue : UInt64) :
    Execution τ :=
  { s with machine := s.machine.returnToSenderTrampoline restoreStackPointer, rax := returnValue }

/-- `slvm_dynrun_new_stack_segment` -/
def newStackSegment (s : Execution τ) (t : τ) (currentStackHead argumentDescriptor : ℕ) :
    Option (Execution τ) := do
  let totalArgumentSize := totalArgumentSize argumentDescriptor
  let currentSegment := currentStackHead - sizeofSegmentHeader
  -- allocate the new segment
  let (newSegment, manager) ← s.segments.manager.createNewSegment t
  let newPointer := (manager.header newSegment).stackPointer - totalArgumentSize
  -- copy the arguments and the return pointers
  let memory := s.machine.memory.copy newPointer (manager.header currentSegment).stackPointer
    totalArgumentSize
  -- fix the return pointers
  let newPointer := newPointer - 8
  let senderReturnPointer := memory.load64 (newPointer + 16)
  let memory := memory.store64 (newPointer + 16) TrampolineImage.popStackSegmentTrap
  let memory := memory.store64 newPointer (UInt64.ofNat (manager.header newSegment).framePointer)
  -- fix the old segment for returning
  let oldPointer := (manager.header currentSegment).stackPointer + (totalArgumentSize - 16)
  let memory := memory.store64 oldPointer
    (UInt64.ofNat (manager.header currentSegment).framePointer)
  let memory := memory.store64 (oldPointer + 8) senderReturnPointer
  let manager := manager.setStackPointers newSegment newPointer
    (manager.header newSegment).framePointer
  let manager := manager.setStackPointers currentSegment oldPointer
    (manager.header currentSegment).framePointer
  let s : Execution τ :=
    { segments := ⟨manager, Function.update s.segments.live t (s.segments.live t ++ [newSegment])⟩
      machine := { s.machine with memory := memory }
      rax := s.rax }
  -- return to the new segment
  return s.returnToSender newPointer 0

/-- `_slvm_dynrun_stack_limit_trap`, with the argument descriptor in `rax`. -/
def stackLimitTrap (s : Execution τ) (t : τ) : Option (Execution τ) :=
  s.storeStackPointers.newStackSegment t (Machine.segmentEnd s.machine.rsp) (s.rax.toNat % 2 ^ 32)

/-- `slvm_dynrun_pop_stack_segment` -/
def popStackSegment (s : Execution τ) (t : τ) (currentStackHead : ℕ) (returnValue : UInt64) :
    Option (Execution τ) := do
  let currentSegment := currentStackHead - sizeofSegmentHeader
  -- `assert(currentSegment->header.previous)`
  let previous ← s.segments.manager.links.previous (segmentNode currentSegment)
  let previousSegment := previous + sizeofListNode - sizeofSegmentHeader
  let manager ← s.segments.manager.popSegment t currentSegment
  let s : Execution τ :=
    { s with segments :=
        ⟨manager, Function.update s.segments.live t (s.segments.live t).dropLast⟩ }
  -- return to the sender
  return s.returnToSender (manager.header previousSegment).stackPointer returnValue

/-- `_slvm_dynrun_pop_stack_segment_trap`, with the result in `rax`. -/
def popStackSegmentTrap (s : Execution τ) (t : τ) : Option (Execution τ) :=
  s.storeStackPointers.popStackSegment t (Machine.segmentEnd s.machine.rsp) s.rax

/-! ### The memory of a move -/

/-- The memory after a move of `total` bytes from the stack pointer `old` of a full segment to the
stack pointer `new` of a fresh one, one word below the copy. -/
def movedMemory (m : ByteMemory) (old new total : ℕ) (trap framePointer : UInt64) : ByteMemory :=
  let copied := m.copy (new + 8) old total
  (((copied.store64 (new + 16) trap).store64 new 0).store64 (old + (total - 16))
    framePointer).store64 (old + (total - 16) + 8) (copied.load64 (new + 16))

section MovedMemory

variable {m : ByteMemory} {old new total : ℕ} {trap framePointer : UInt64}

/-- What the callee finds on the new segment, and what the sender will be resumed with. -/
structure MoveSeen (m m' : ByteMemory) (old new total : ℕ) (trap framePointer : UInt64) : Prop where
  newFramePointer : m'.load64 new = 0
  resume : m'.load64 (new + 8) = m.load64 old
  returnPointer : m'.load64 (new + 16) = trap
  arguments : ∀ i < total - 16, m' (new + 24 + i) = m (old + 16 + i)
  senderFramePointer : m'.load64 (old + (total - 16)) = framePointer
  senderReturnPointer : m'.load64 (old + (total - 16) + 8) = m.load64 (old + 8)
  /-- Everything else is as before. -/
  same : ∀ a, (a < new ∨ new + 8 + total ≤ a) → (a < old + (total - 16) ∨ old + total ≤ a) →
    m' a = m a

omit [TrampolineImage] in
theorem movedMemory_seen (htotal : 24 ≤ total)
    (hclear : old + total ≤ new ∨ new + 8 + total ≤ old) :
    MoveSeen m (movedMemory m old new total trap framePointer) old new total trap framePointer := by
  have hcopied : (m.copy (new + 8) old total).load64 (new + 16) = m.load64 (old + 8) :=
    @ByteMemory.load64_copy m (new + 8) total 8 old (by omega)
  have hresume : (m.copy (new + 8) old total).load64 (new + 8) = m.load64 old :=
    @ByteMemory.load64_copy m (new + 8) total 0 old (by omega)
  refine ⟨?_, ?_, ?_, fun i hi => ?_, ?_, ?_, fun a hnew hold => ?_⟩
  · simp (disch := omega) only [movedMemory, ByteMemory.load64_store64,
      ByteMemory.load64_store64_of_disjoint]
  · simp (disch := omega) only [movedMemory, ByteMemory.load64_store64_of_disjoint, hresume]
  · simp (disch := omega) only [movedMemory, ByteMemory.load64_store64,
      ByteMemory.load64_store64_of_disjoint]
  · have hargument := @ByteMemory.copy_of_mem m (new + 8) total (16 + i) old (by omega)
    have hsame : (m.copy (new + 8) old total).SameOn
        (movedMemory m old new total trap framePointer) (new + 24) (new + 8 + total) :=
      ((((ByteMemory.SameOn.refl _ _ _).store64 _ (by omega)).store64 _ (by omega)).store64 _
        (by omega)).store64 _ (by omega)
    rw [hsame (new + 24 + i) (by omega) (by omega), show new + 24 + i = new + 8 + (16 + i) by omega,
      hargument, Nat.add_assoc]
  · simp (disch := omega) only [movedMemory, ByteMemory.load64_store64,
      ByteMemory.load64_store64_of_disjoint]
  · simp only [movedMemory, ByteMemory.load64_store64, hcopied]
  · have hsame : m.SameOn (movedMemory m old new total trap framePointer) a (a + 1) :=
      ((((m.sameOn_copy old (by omega)).store64 _ (by omega)).store64 _ (by omega)).store64 _
        (by omega)).store64 _ (by omega)
    exact hsame a (Nat.le_refl a) (Nat.lt_succ_self a)

end MovedMemory

/-! ### One move -/

variable {s s₁ s₂ s₃ : Execution τ} {t : τ} {l : List ℕ} {g : ℕ}

/-- The size of the return pointers, the receiver and the arguments of a callee in the trap. -/
def argumentSize (s : Execution τ) : ℕ := totalArgumentSize (s.rax.toNat % 2 ^ 32)

/-- Code on the segment `g` of the thread `t` has entered the stack limit trap: above the stack
pointer are the return pointers of the trap and of the callee, the receiver and the arguments, which
end at `base` or below, and a fresh segment has room for them and one more word. A move does not
need `base` to be below the thread data that a first segment holds under its header; where it is,
the thread data is kept (`Runs.threadData`). -/
structure AtLimit (t : τ) (l : List ℕ) (g base : ℕ) (s : Execution τ) : Prop where
  live : s.segments.live t = l ++ [g]
  low : g ≤ s.machine.rsp + 4032
  arguments : s.machine.rsp + s.argumentSize ≤ base
  base_le : base ≤ g
  fits : s.argumentSize + 8 ≤ 4032

/-- The pool of segments is an address range. -/
def Addressable (s : Execution τ) : Prop :=
  s.segments.manager.executionStackMemoryPool.start + executionStackCapacity ≤ 2 ^ 64

omit [TrampolineImage] in
/-- A live segment ends its page. -/
theorem segment_bounds (hvalid : s.segments.Valid) (hspace : s.Addressable) {r : ℕ}
    (hr : r ∈ s.segments.live t) : (r + 64) % 4096 = 0 ∧ 4032 ≤ r ∧ r + 64 ≤ 2 ^ 64 := by
  obtain ⟨segments, h⟩ := hvalid
  have hcarved := (SegmentRun.Valid.live_carved ⟨segments, h⟩ hr).1
  have hfits := h.fits
  have hstart := s.segments.manager.executionStackMemoryPool.start_aligned
  rw [Addressable] at hspace
  obtain ⟨page, hpage, rfl⟩ := hcarved
  simp only [pageSize] at hstart hpage ⊢
  omega

omit [TrampolineImage] in
/-- The traps find the header of the segment the stack pointer is in. -/
theorem currentSegment_eq (hvalid : s.segments.Valid) (hspace : s.Addressable)
    (hg : g ∈ s.segments.live t) (hlow : g ≤ s.machine.rsp + 4032) (hhigh : s.machine.rsp ≤ g) :
    Machine.segmentEnd s.machine.rsp = g + 64 ∧ s.currentSegment = g := by
  obtain ⟨haligned, -, hmax⟩ := segment_bounds hvalid hspace hg
  have hend : Machine.segmentEnd s.machine.rsp = g + 64 :=
    Machine.segmentEnd_eq haligned hmax (by omega) (by omega)
  refine ⟨hend, ?_⟩
  rw [currentSegment, hend]
  exact Nat.add_sub_cancel g 64

omit [DecidableEq τ] [TrampolineImage] in
theorem storeStackPointers_valid (hvalid : s.segments.Valid) :
    s.storeStackPointers.segments.Valid := by
  obtain ⟨segments, h⟩ := hvalid
  exact ⟨segments, h.setStackPointers _ _ _⟩

/-- What a move of the callee from `g` to the new segment `r` does: `s'` is the state in which the
callee goes on. -/
structure Moved (t : τ) (l : List ℕ) (g r : ℕ) (s s' : Execution τ) : Prop where
  valid : s'.segments.Valid
  addressable : s'.Addressable
  live : s'.segments.live = Function.update s.segments.live t (l ++ [g, r])
  /-- The callee goes on behind the call of the trap, without a frame. -/
  rip : s'.machine.rip = s.machine.memory.load64 s.machine.rsp
  rsp : s'.machine.rsp + s.argumentSize = r + 8
  rbp : s'.machine.rbp = 0
  /-- Its return address is the trap that pops the segment. -/
  returnPointer : s'.machine.memory.load64 s'.machine.rsp = TrampolineImage.popStackSegmentTrap
  /-- It finds the receiver and the arguments above. -/
  arguments : ∀ i < s.argumentSize - 16,
    s'.machine.memory (s'.machine.rsp + 8 + i) = s.machine.memory (s.machine.rsp + 16 + i)
  /-- What the sender will be resumed with is at the stack pointer of its segment. -/
  stackPointer : (s'.segments.manager.header g).stackPointer =
    s.machine.rsp + (s.argumentSize - 16)
  senderFramePointer :
    s'.machine.memory.load64 (s.machine.rsp + (s.argumentSize - 16)) = s.machine.rbp
  senderReturnPointer : s'.machine.memory.load64 (s.machine.rsp + (s.argumentSize - 16) + 8) =
    s.machine.memory.load64 (s.machine.rsp + 8)
  header : ∀ x ∈ l, s'.segments.manager.header x = s.segments.manager.header x
  /-- The pages of the live segments are as before, but for the place of the arguments. -/
  same : ∀ x ∈ l ++ [g], ∀ a, x ≤ a + 4032 → a < x →
    (a < s.machine.rsp + (s.argumentSize - 16) ∨ s.machine.rsp + s.argumentSize ≤ a) →
      s'.machine.memory a = s.machine.memory a

/-- The state after a move from the stack pointer of the segment `g` to the new segment `r`, whose
stack pointer is `new`, when `manager` has created it. -/
def afterMove (s : Execution τ) (t : τ) (manager : ExecutionStack τ) (g r new : ℕ) : Execution τ :=
  let memory := movedMemory s.machine.memory s.machine.rsp new s.argumentSize
    TrampolineImage.popStackSegmentTrap s.machine.rbp
  { segments :=
      ⟨(manager.setStackPointers r new 0).setStackPointers g
        (s.machine.rsp + (s.argumentSize - 16)) s.machine.rbp.toNat,
        Function.update s.segments.live t (s.segments.live t ++ [r])⟩
    machine := { s.machine with memory := memory }.returnToSenderTrampoline new
    rax := 0 }

/-- The trap creates a segment and moves the callee there. -/
theorem exists_afterMove (hvalid : s.segments.Valid) (hspace : s.Addressable) {base : ℕ}
    (hlimit : AtLimit t l g base s) (htrap : s.stackLimitTrap t = some s₁) :
    ∃ r new manager, s.storeStackPointers.segments.manager.createNewSegment t = some (r, manager) ∧
      new + 8 + s.argumentSize = r ∧ s₁ = s.afterMove t manager g r new := by
  have hg : g ∈ s.segments.live t := by simp [hlimit.live]
  have harguments := hlimit.arguments
  have hbase := hlimit.base_le
  have hfits := hlimit.fits
  obtain ⟨hend, hcurrent⟩ := currentSegment_eq hvalid hspace hg hlimit.low (by omega)
  have hhead : g + 64 - sizeofSegmentHeader = g := Nat.add_sub_cancel g 64
  rw [stackLimitTrap, hend, newStackSegment, hhead] at htrap
  simp only [Option.bind_eq_bind, Option.bind_eq_some_iff, Option.pure_def, Option.some.injEq,
    Prod.exists] at htrap
  obtain ⟨r, manager, hcreate, hresult⟩ := htrap
  obtain ⟨hmanager, hpages⟩ := (storeStackPointers_valid hvalid).createNewSegment hcreate
  obtain ⟨hsp, hfp, hother, -, -⟩ := ExecutionStack.createNewSegment_header hcreate
  have hpage := hpages g hg
  simp only [pageSize] at hpage
  have hgr : g ≠ r := by omega
  have hr : r ∈ (Function.update s.segments.live t (s.segments.live t ++ [r])) t := by
    rw [Function.update_self]
    simp
  have hlow := ExecutionStack.Valid.le_of_carved (hmanager.live_carved hr).1
  have hgheader : manager.header g = { s.segments.manager.header g with
      stackPointer := s.machine.rsp, framePointer := s.machine.rbp.toNat } := by
    rw [hother g hgr, storeStackPointers, hcurrent]
    exact s.segments.manager.setStackPointers_header_self g _ _
  obtain ⟨new, hnew⟩ : ∃ new, new + 8 + s.argumentSize = r := ⟨r - s.argumentSize - 8, by omega⟩
  have hcopy : r - s.argumentSize = new + 8 := by omega
  have hpointer : new + 8 - 8 = new := Nat.add_sub_cancel new 8
  have hsize : totalArgumentSize (s.rax.toNat % 2 ^ 32) = s.argumentSize := rfl
  have hframe : ((manager.setStackPointers r new 0).header g).framePointer =
      s.machine.rbp.toNat := by
    rw [ExecutionStack.setStackPointers_header_of_ne _ _ _ _ hgr, hgheader]
  refine ⟨r, new, manager, hcreate, hnew, ?_⟩
  rw [← hresult]
  simp only [returnToSender, hsize, hsp, hfp, hcopy, hpointer, hgheader, hframe, UInt64.ofNat_toNat]
  rfl

/-- **The stack limit trap** moves the callee to a new segment. -/
theorem moved_of_stackLimitTrap (hvalid : s.segments.Valid) (hspace : s.Addressable) {base : ℕ}
    (hlimit : AtLimit t l g base s) (htrap : s.stackLimitTrap t = some s₁) :
    ∃ r, Moved t l g r s s₁ := by
  have hg : g ∈ s.segments.live t := by simp [hlimit.live]
  have hsize : 24 ≤ s.argumentSize := le_totalArgumentSize _
  have harguments := hlimit.arguments
  have hbase := hlimit.base_le
  have hlow := hlimit.low
  obtain ⟨r, new, manager, hcreate, hnew, rfl⟩ := exists_afterMove hvalid hspace hlimit htrap
  obtain ⟨hmanager, hpages⟩ := (storeStackPointers_valid hvalid).createNewSegment hcreate
  obtain ⟨-, -, hother, hpool, -⟩ := ExecutionStack.createNewSegment_header hcreate
  have hstored : s.storeStackPointers.segments.live = s.segments.live := rfl
  rw [hstored] at hmanager hpages
  simp only [pageSize] at hpages
  have hr : r ∈ (Function.update s.segments.live t (s.segments.live t ++ [r])) t := by
    rw [Function.update_self]
    simp
  have hlow' := ExecutionStack.Valid.le_of_carved (hmanager.live_carved hr).1
  have hpage := hpages g hg
  have hfits := hlimit.fits
  have hgr : g ≠ r := by omega
  have hseen := @movedMemory_seen s.machine.memory s.machine.rsp new s.argumentSize
    TrampolineImage.popStackSegmentTrap s.machine.rbp hsize (by omega)
  -- the segments of the thread before `g`
  have hnodup : (l ++ [g]).Nodup := by
    have hcarved := (hvalid.live_carved hg).2.1
    rwa [hlimit.live] at hcarved
  have hother' : ∀ x ∈ l, manager.header x = s.segments.manager.header x ∧ x ≠ g ∧ x ≠ r := by
    intro x hx
    have hxg : x ≠ g := fun hxg =>
      (List.nodup_append.mp hnodup).2.2 x hx g List.mem_cons_self hxg
    have hxpage := hpages x (by simp [hlimit.live, hx])
    have hxr : x ≠ r := by omega
    refine ⟨?_, hxg, hxr⟩
    rw [hother x hxr]
    have hcurrent := (currentSegment_eq hvalid hspace hg hlow (by omega)).2
    rw [storeStackPointers, hcurrent]
    exact s.segments.manager.setStackPointers_header_of_ne _ _ _ hxg
  obtain ⟨segments, hmanager⟩ := hmanager
  refine ⟨r, ⟨segments, (hmanager.setStackPointers _ _ _).setStackPointers _ _ _⟩, ?_, ?_,
    hseen.resume, ?_, hseen.newFramePointer, hseen.returnPointer, fun i hi => ?_, ?_,
    hseen.senderFramePointer, hseen.senderReturnPointer, fun x hx => ?_,
    fun x hx a hlo hhi hold => ?_⟩
  · exact (congrArg (· + executionStackCapacity) hpool).trans_le hspace
  · show Function.update s.segments.live t (s.segments.live t ++ [r]) = _
    rw [hlimit.live, List.append_assoc]
    rfl
  · show new + 8 + 8 + s.argumentSize = r + 8
    omega
  · exact hseen.arguments i hi
  · simp only [afterMove, ExecutionStack.setStackPointers_header_self]
  · obtain ⟨hheader, hxg, hxr⟩ := hother' x hx
    simp only [afterMove, ExecutionStack.setStackPointers_header_of_ne _ _ _ _ hxg,
      ExecutionStack.setStackPointers_header_of_ne _ _ _ _ hxr, hheader]
  · have hxpage := hpages x (by rw [hlimit.live]; exact hx)
    exact hseen.same a (by omega) hold

/-! ### Returns -/

/-- The trap had returned at once, on the same segment. -/
def resume (s : Execution τ) : Execution τ := { s with machine := s.machine.ret }

/-- A callee that was entered in `s`, with `size` bytes of receiver and arguments, has returned: it
jumped to its return address, popped receiver and arguments, and restored the frame pointer. -/
structure Returned (s s' : Execution τ) (size : ℕ) (result : UInt64) : Prop where
  rip : s'.machine.rip = s.machine.memory.load64 s.machine.rsp
  rsp : s'.machine.rsp = s.machine.rsp + 8 + size
  rbp : s'.machine.rbp = s.machine.rbp
  rax : s'.rax = result

/-- Code on the segment `g` of a thread left alone what is not its own: the segments of the thread
with their stacks, and its segment from `base` on. -/
structure Preserves (t : τ) (l : List ℕ) (g base : ℕ) (s s' : Execution τ) : Prop where
  valid : s'.segments.Valid
  addressable : s'.Addressable
  live : s'.segments.live = s.segments.live
  header : ∀ x ∈ l, s'.segments.manager.header x = s.segments.manager.header x
  older : ∀ x ∈ l, ∀ a, x ≤ a + 4032 → (s.segments.manager.header x).stackPointer ≤ a → a < x →
    s'.machine.memory a = s.machine.memory a
  current : ∀ a, base ≤ a → a < g → s'.machine.memory a = s.machine.memory a

omit [DecidableEq τ] [TrampolineImage] in
theorem Preserves.refl {base : ℕ} (hvalid : s.segments.Valid) (hspace : s.Addressable) :
    Preserves t l g base s s :=
  ⟨hvalid, hspace, rfl, fun _ _ => rfl, fun _ _ _ _ _ _ => rfl, fun _ _ _ => rfl⟩

omit [DecidableEq τ] [TrampolineImage] in
theorem Preserves.trans {base : ℕ} (h₁ : Preserves t l g base s s₁)
    (h₂ : Preserves t l g base s₁ s₂) : Preserves t l g base s s₂ where
  valid := h₂.valid
  addressable := h₂.addressable
  live := h₂.live.trans h₁.live
  header x hx := (h₂.header x hx).trans (h₁.header x hx)
  older x hx a hlo hsp hhi := by
    refine (h₂.older x hx a hlo ?_ hhi).trans (h₁.older x hx a hlo hsp hhi)
    rw [h₁.header x hx]
    exact hsp
  current a hlo hhi := (h₂.current a hlo hhi).trans (h₁.current a hlo hhi)

omit [DecidableEq τ] [TrampolineImage] in
/-- The segment before the last one of a thread, and that the thread has data. -/
theorem exists_previous {segments : SegmentRun τ} (hvalid : segments.Valid) {r : ℕ}
    (hlive : segments.live t = l ++ [g, r]) :
    segments.manager.links.previous (segmentNode r) = some (segmentNode g) ∧
      ∃ data, segments.manager.currentThreadStackData t = some data := by
  obtain ⟨lists, h⟩ := hvalid
  obtain ⟨data, hdata⟩ : ∃ data, segments.manager.currentThreadStackData t = some data := by
    cases hcurrent : segments.manager.currentThreadStackData t with
    | none =>
      have hnil := h.live_of_none t hcurrent
      rw [hlive] at hnil
      simp at hnil
    | some data => exact ⟨data, rfl⟩
  refine ⟨?_, data, hdata⟩
  have hlist := h.represents.isList (.segmentList data)
  have hnodes : (lists (.segmentList data)).map segmentNode =
      (l ++ [g]).map segmentNode ++ segmentNode r :: [] := by
    rw [← (h.live_of_some t data hdata).1, hlive]
    simp
  rw [hnodes] at hlist
  have hprevious : segments.manager.links.previous (segmentNode r) =
      ((l ++ [g]).map segmentNode).getLast? := hlist.around.2.2.1.2
  rw [hprevious]
  simp

omit [TrampolineImage] in
/-- A segment that was popped is on the free list. -/
theorem mem_freeList {segments segments' : SegmentRun τ} (hvalid : segments.Valid)
    (hvalid' : segments'.Valid) {r : ℕ} (hr : r ∈ segments.live t)
    (hpool : segments'.manager.executionStackMemoryPool = segments.manager.executionStackMemoryPool)
    (hlive : ∀ t', t' ≠ t → segments'.live t' = segments.live t') (hpopped : r ∉ segments'.live t) :
    ∃ nodes, segments'.manager.links.IsList .executionStackFreeList nodes ∧
      segmentNode r ∈ nodes := by
  obtain ⟨hcarved, -, hunique⟩ := hvalid.live_carved hr
  obtain ⟨lists, h⟩ := hvalid'
  obtain ⟨list, hlist⟩ := ((h.carved r).mp (hpool ▸ hcarved)).resolve_right (by simp)
  cases list with
  | executionStackFreeList =>
    exact ⟨_, h.represents.isList .executionStackFreeList, List.mem_map_of_mem hlist⟩
  | segmentList data =>
    obtain ⟨t', ht'⟩ := h.owner data (List.ne_nil_of_mem hlist)
    rw [← (h.live_of_some t' data ht').1] at hlist
    by_cases hne : t' = t
    · exact absurd (hne ▸ hlist) hpopped
    · rw [hlive t' hne] at hlist
      exact absurd (hunique t' hlist) hne

/-- The state after the new segment `r` was popped. -/
def afterPop (s : Execution τ) (t : τ) (manager : ExecutionStack τ) (g : ℕ) : Execution τ :=
  { segments := ⟨manager, Function.update s.segments.live t (s.segments.live t).dropLast⟩
    machine := s.machine.returnToSenderTrampoline (s.segments.manager.header g).stackPointer
    rax := s.rax }

omit [TrampolineImage] in
/-- The trap that pops a segment, entered at the very end of it. -/
theorem popStackSegmentTrap_eq (hvalid : s.segments.Valid) (hspace : s.Addressable) {r : ℕ}
    (hlive : s.segments.live t = l ++ [g, r]) (hrsp : s.machine.rsp = r) :
    ∃ manager, s.popStackSegmentTrap t = some (s.afterPop t manager g) ∧
      SegmentRun.Valid ⟨manager, Function.update s.segments.live t (l ++ [g])⟩ ∧
      (∀ x, x ≠ r → manager.header x = s.segments.manager.header x) ∧
      manager.executionStackMemoryPool = s.segments.manager.executionStackMemoryPool := by
  have hr : r ∈ s.segments.live t := by simp [hlive]
  have hgr : g ≠ r := by
    have hnodup := (hvalid.live_carved hr).2.1
    rw [hlive] at hnodup
    have hpair := (List.nodup_append.mp hnodup).2.1
    simpa using hpair
  obtain ⟨hend, hcurrent⟩ := currentSegment_eq hvalid hspace hr (by omega) (by omega)
  have hhead : r + 64 - sizeofSegmentHeader = r := Nat.add_sub_cancel r 64
  have hstored := storeStackPointers_valid hvalid
  have hlive' : s.storeStackPointers.segments.live t = l ++ [g, r] := hlive
  obtain ⟨hprevious, data, hdata⟩ := exists_previous hstored hlive'
  have hprev : segmentNode g + sizeofListNode - sizeofSegmentHeader = g := Nat.add_sub_cancel g 64
  obtain ⟨manager, hpop⟩ : ∃ manager, s.storeStackPointers.segments.manager.popSegment t r =
      some manager := by
    rw [ExecutionStack.popSegment, hdata]
    exact ⟨_, rfl⟩
  obtain ⟨hheader, hpool⟩ := ExecutionStack.popSegment_header hpop
  have hother : ∀ x, x ≠ r → manager.header x = s.segments.manager.header x := by
    intro x hx
    rw [hheader, storeStackPointers, hcurrent]
    exact s.segments.manager.setStackPointers_header_of_ne _ _ _ hx
  refine ⟨manager, ?_, ?_, hother, hpool⟩
  · rw [popStackSegmentTrap, hend, popStackSegment, hhead]
    simp only [hprevious, hpop, Option.bind_eq_bind, Option.bind_some, Option.pure_def, hprev,
      returnToSender, hother g hgr]
    rfl
  · have hlast : s.storeStackPointers.segments.live t = (l ++ [g]) ++ [r] := by
      rw [hlive']
      simp
    exact hstored.step (SegmentRun.Step.popSegment hlast hpop)

/-- **One move is transparent**: if the callee left the older segments alone, then after its return
and the pop of its segment it is as if it had returned on the segment it was moved from. -/
theorem move_spec (hvalid : s.segments.Valid) {base r : ℕ}
    (hlimit : AtLimit t l g base s) (hmoved : Moved t l g r s s₁)
    (hcallee : Preserves t (l ++ [g]) r r s₁ s₂) {result : UInt64}
    (hreturned : Returned s₁ s₂ (s.argumentSize - 16) result) :
    ∃ s₃, s₂.popStackSegmentTrap t = some s₃ ∧
      Returned s.resume s₃ (s.argumentSize - 16) result ∧ Preserves t l g base s s₃ ∧
      ∃ nodes, s₃.segments.manager.links.IsList .executionStackFreeList nodes ∧
        segmentNode r ∈ nodes := by
  have hg : g ∈ s.segments.live t := by simp [hlimit.live]
  have hsize : 24 ≤ s.argumentSize := le_totalArgumentSize _
  have harguments := hlimit.arguments
  have hbase := hlimit.base_le
  have hlow := hlimit.low
  have hlive : s₂.segments.live t = l ++ [g, r] := by
    rw [hcallee.live, hmoved.live, Function.update_self]
  have hrsp : s₂.machine.rsp = r := by
    have hentered := hmoved.rsp
    rw [hreturned.rsp]
    omega
  obtain ⟨manager, htrap, hpopped, hheader, hpool⟩ := popStackSegmentTrap_eq hcallee.valid
    hcallee.addressable hlive hrsp
  have hnodup : (l ++ [g, r]).Nodup := by
    have hcarved := (hcallee.valid.live_carved (t := t) (r := r) (by simp [hlive])).2.1
    rwa [hlive] at hcarved
  have hgr : g ≠ r := by
    have hpair := (List.nodup_append.mp hnodup).2.1
    simpa using hpair
  have hlr : ∀ x ∈ l, x ≠ r ∧ x ≠ g := fun x hx =>
    ⟨fun hxr => (List.nodup_append.mp hnodup).2.2 x hx r (by simp) hxr,
      fun hxg => (List.nodup_append.mp hnodup).2.2 x hx g (by simp) hxg⟩
  have hdrop : (s₂.segments.live t).dropLast = l ++ [g] := by
    rw [hlive, show l ++ [g, r] = l ++ [g] ++ [r] by simp, List.dropLast_concat]
  have hlive' : (s₂.afterPop t manager g).segments.live = s.segments.live := by
    show Function.update s₂.segments.live t (s₂.segments.live t).dropLast = s.segments.live
    rw [hdrop, hcallee.live, hmoved.live, Function.update_idem, ← hlimit.live,
      Function.update_eq_self]
  -- the sender is resumed from the old place of the arguments
  have hgheader : s₂.segments.manager.header g = s₁.segments.manager.header g :=
    hcallee.header g (by simp)
  have hpointer : (s₂.segments.manager.header g).stackPointer =
      s.machine.rsp + (s.argumentSize - 16) := by
    rw [hgheader, hmoved.stackPointer]
  have hsender : s₁.machine.memory.SameOn s₂.machine.memory
      (s.machine.rsp + (s.argumentSize - 16)) g := fun a hlo hhi =>
    hcallee.older g (by simp) a (by omega) (by rw [hmoved.stackPointer]; exact hlo) hhi
  have hframe := (hsender.mono (Nat.le_refl _)
    (show s.machine.rsp + (s.argumentSize - 16) + 8 ≤ g by omega)).load64.trans
      hmoved.senderFramePointer
  have hreturn := (hsender.mono (Nat.le_add_right _ 8)
    (show s.machine.rsp + (s.argumentSize - 16) + 8 + 8 ≤ g by omega)).load64.trans
      hmoved.senderReturnPointer
  refine ⟨_, htrap, ⟨?_, ?_, ?_, hreturned.rax⟩, ⟨?_, ?_, hlive', fun x hx => ?_,
    fun x hx a hlo hsp hhi => ?_, fun a hlo hhi => ?_⟩, ?_⟩
  · show s₂.machine.memory.load64 ((s₂.segments.manager.header g).stackPointer + 8) = _
    rw [hpointer]
    exact hreturn
  · show (s₂.segments.manager.header g).stackPointer + 8 + 8 =
      s.machine.rsp + 8 + 8 + (s.argumentSize - 16)
    omega
  · show s₂.machine.memory.load64 (s₂.segments.manager.header g).stackPointer = s.machine.rbp
    rw [hpointer]
    exact hframe
  · rw [show (s₂.afterPop t manager g).segments = ⟨manager, Function.update s₂.segments.live t
      (s₂.segments.live t).dropLast⟩ from rfl, hdrop]
    exact hpopped
  · have haddressable := hcallee.addressable
    rw [Addressable] at haddressable ⊢
    exact (congrArg (fun pool => pool.start + executionStackCapacity) hpool).trans_le haddressable
  · obtain ⟨hxr, -⟩ := hlr x hx
    exact ((hheader x hxr).trans (hcallee.header x (by simp [hx]))).trans (hmoved.header x hx)
  · -- an older segment is in a page of its own
    obtain ⟨-, hxg⟩ := hlr x hx
    have hpages := SegmentRun.page_disjoint
      (hvalid.live_carved (t := t) (r := x) (by simp [hlimit.live, hx])).1
      (hvalid.live_carved hg).1 hxg
    simp only [pageSize] at hpages
    have hcallee' := hcallee.older x (by simp [hx]) a hlo
      (by rw [hmoved.header x hx]; exact hsp) hhi
    exact hcallee'.trans (hmoved.same x (by simp [hx]) a hlo hhi (by omega))
  · have hcallee' := hsender a (by omega) hhi
    exact hcallee'.trans (hmoved.same g (by simp) a (by omega) hhi (by omega))
  · refine mem_freeList (t := t) hcallee.valid ?_ (by simp [hlive]) hpool (fun t' ht' => ?_) ?_
    · rw [show (s₂.afterPop t manager g).segments = ⟨manager, Function.update s₂.segments.live t
        (s₂.segments.live t).dropLast⟩ from rfl, hdrop]
      exact hpopped
    · exact Function.update_of_ne ht' _ _
    · rw [hlive', hlimit.live]
      intro hmem
      rcases List.mem_append.mp hmem with hmem | hmem
      · exact (hlr r hmem).1 rfl
      · exact hgr (List.mem_singleton.mp hmem).symm

/-! ### Nested moves -/

/-- Code on the segment `g` runs without a move: it changes registers, the stack pointers in the
header of its segment and memory, but not the stacks of the older segments, nor its own segment from
`base` on. -/
structure Local (t : τ) (l : List ℕ) (g base : ℕ) (s s' : Execution τ) : Prop where
  segments : ∃ stackPointer framePointer, s'.segments =
    { s.segments with
      manager := s.segments.manager.setStackPointers g stackPointer framePointer }
  older : ∀ x ∈ l, ∀ a, x ≤ a + 4032 → (s.segments.manager.header x).stackPointer ≤ a → a < x →
    s'.machine.memory a = s.machine.memory a
  current : ∀ a, base ≤ a → a < g → s'.machine.memory a = s.machine.memory a

/-- A callee runs on the segment `g`, whose part from `base` on is its sender's. In between its own
steps it makes calls that are moved to a new segment `r`, where they run in the same way and
return. -/
inductive Runs (t : τ) : List ℕ → ℕ → ℕ → Execution τ → Execution τ → Prop
  | refl (l : List ℕ) (g base : ℕ) (s : Execution τ) : Runs t l g base s s
  | own {l : List ℕ} {g base : ℕ} {s s₁ s₂ : Execution τ} (hruns : Runs t l g base s s₁)
      (hlocal : Local t l g base s₁ s₂) : Runs t l g base s s₂
  | move {l : List ℕ} {g base r : ℕ} {s s₁ s₂ s₃ s₄ : Execution τ} {result : UInt64}
      (hruns : Runs t l g base s s₁) (hlimit : AtLimit t l g base s₁)
      (htrap : s₁.stackLimitTrap t = some s₂) (hlive : s₂.segments.live t = l ++ [g, r])
      (hcallee : Runs t (l ++ [g]) r r s₂ s₃)
      (hreturned : Returned s₂ s₃ (s₁.argumentSize - 16) result)
      (hpop : s₃.popStackSegmentTrap t = some s₄) : Runs t l g base s s₄

omit [DecidableEq τ] [TrampolineImage] in
theorem Local.preserves {base : ℕ} (h : Local t l g base s s₁) (hvalid : s.segments.Valid)
    (hspace : s.Addressable) (hg : g ∉ l) : Preserves t l g base s s₁ := by
  obtain ⟨stackPointer, framePointer, hsegments⟩ := h.segments
  refine ⟨?_, ?_, ?_, fun x hx => ?_, h.older, h.current⟩
  · rw [hsegments]
    obtain ⟨lists, hmanager⟩ := hvalid
    exact ⟨lists, hmanager.setStackPointers _ _ _⟩
  · rw [Addressable, hsegments]
    exact hspace
  · rw [hsegments]
  · rw [hsegments]
    exact s.segments.manager.setStackPointers_header_of_ne _ _ _ (ne_of_mem_of_not_mem hx hg)

omit [TrampolineImage] in
/-- A segment is on the list of its thread once. -/
theorem not_mem_of_live (hvalid : s.segments.Valid) (hlive : s.segments.live t = l ++ [g]) :
    g ∉ l := by
  have hnodup := (hvalid.live_carved (t := t) (r := g) (by simp [hlive])).2.1
  rw [hlive] at hnodup
  exact fun hmem => (List.nodup_append.mp hnodup).2.2 g hmem g List.mem_cons_self rfl

/-- The new segment of a move is the last one of the thread. -/
theorem Moved.eq_of_live {r r' : ℕ} (h : Moved t l g r s s₁)
    (hlive : s₁.segments.live t = l ++ [g, r']) : r = r' := by
  rw [h.live, Function.update_self] at hlive
  simpa using hlive

/-- **Moves are local**: whatever moves a callee makes, it leaves alone what is not its own. -/
theorem Runs.preserves {base : ℕ} (hruns : Runs t l g base s s₁) (hvalid : s.segments.Valid)
    (hspace : s.Addressable) (hlive : s.segments.live t = l ++ [g]) :
    Preserves t l g base s s₁ := by
  induction hruns with
  | refl l g base s => exact Preserves.refl hvalid hspace
  | own _ hlocal ih =>
    have hkept := ih hvalid hspace hlive
    have hlive' := (congrFun hkept.live t).trans hlive
    exact hkept.trans (hlocal.preserves hkept.valid hkept.addressable
      (not_mem_of_live hkept.valid hlive'))
  | move _ hlimit htrap hlast _ hreturned hpop ih ihcallee =>
    have hkept := ih hvalid hspace hlive
    obtain ⟨r, hmoved⟩ := moved_of_stackLimitTrap hkept.valid hkept.addressable hlimit htrap
    obtain rfl := hmoved.eq_of_live hlast
    have hcallee := ihcallee hmoved.valid hmoved.addressable (by rw [hlast]; simp)
    obtain ⟨s', hpop', -, hpreserves, -⟩ := move_spec hkept.valid hlimit hmoved hcallee hreturned
    obtain rfl := Option.some.inj (hpop'.symm.trans hpop)
    exact hkept.trans hpreserves

omit [DecidableEq τ] [TrampolineImage] in
/-- The data of the thread, below the header of its first segment, is kept if it is not in the part
of that segment its code may use. -/
theorem Preserves.threadData {base data : ℕ} (h : Preserves t l g base s s₁)
    (hvalid : s.segments.Valid) (hlive : s.segments.live t = l ++ [g])
    (hdata : s.segments.manager.currentThreadStackData t = some data)
    (hbase : l = [] → base ≤ data)
    (hfirst : ∀ x ∈ l.head?, (s.segments.manager.header x).stackPointer ≤ data) :
    ∀ a, data ≤ a → a < data + sizeofThreadStackData →
      s₁.machine.memory a = s.machine.memory a := by
  intro a hlo hhi
  obtain ⟨lists, hmanager⟩ := hvalid
  -- the thread data ends at the first segment of the thread
  obtain ⟨x, hx, hend⟩ := (hmanager.live_of_some t data hdata).2
  rw [Option.toList_none, List.append_nil, hlive] at hx
  cases l with
  | nil =>
    obtain rfl : g = x := Option.some.inj hx
    exact h.current a ((hbase rfl).trans hlo) (hend ▸ hhi)
  | cons first l =>
    obtain rfl : first = x := Option.some.inj hx
    refine h.older first List.mem_cons_self a ?_ ((hfirst first rfl).trans hlo) (hend ▸ hhi)
    rw [← hend, sizeofThreadStackData]
    omega

/-- **A callee keeps the data of its thread**, whatever moves it makes. -/
theorem Runs.threadData {base data : ℕ} (hruns : Runs t l g base s s₁)
    (hvalid : s.segments.Valid) (hspace : s.Addressable)
    (hlive : s.segments.live t = l ++ [g])
    (hdata : s.segments.manager.currentThreadStackData t = some data)
    (hbase : l = [] → base ≤ data)
    (hfirst : ∀ x ∈ l.head?, (s.segments.manager.header x).stackPointer ≤ data) :
    ∀ a, data ≤ a → a < data + sizeofThreadStackData →
      s₁.machine.memory a = s.machine.memory a :=
  (hruns.preserves hvalid hspace hlive).threadData hvalid hlive hdata hbase hfirst

/-- **Moving to a new stack segment is transparent.** A callee at the limit of its segment is moved
to a new one, runs there, with moves nested to any depth, and returns. It finds its receiver and its
arguments; it returns to the trap that pops the segment; and then the sender goes on as if the
callee had run on the segment of the sender, with the same segments, its stack untouched, and the
new segment on the free list. -/
theorem move_of_runs (hvalid : s.segments.Valid) (hspace : s.Addressable) {base r : ℕ}
    (hlimit : AtLimit t l g base s) (htrap : s.stackLimitTrap t = some s₁)
    (hlive : s₁.segments.live t = l ++ [g, r]) (hruns : Runs t (l ++ [g]) r r s₁ s₂)
    {result : UInt64} (hreturned : Returned s₁ s₂ (s.argumentSize - 16) result) :
    s₁.machine.rip = s.resume.machine.rip ∧
      (∀ i < s.argumentSize - 16, s₁.machine.memory (s₁.machine.rsp + 8 + i) =
        s.resume.machine.memory (s.resume.machine.rsp + 8 + i)) ∧
      s₂.machine.rip = TrampolineImage.popStackSegmentTrap ∧
      ∃ s₃, s₂.popStackSegmentTrap t = some s₃ ∧
        Returned s.resume s₃ (s.argumentSize - 16) result ∧
        s₃.segments.live = s.segments.live ∧ Preserves t l g base s s₃ ∧
        ∃ nodes, s₃.segments.manager.links.IsList .executionStackFreeList nodes ∧
          segmentNode r ∈ nodes := by
  obtain ⟨r', hmoved⟩ := moved_of_stackLimitTrap hvalid hspace hlimit htrap
  obtain rfl := hmoved.eq_of_live hlive
  have hcallee := hruns.preserves hmoved.valid hmoved.addressable (by rw [hlive]; simp)
  obtain ⟨s₃, hpop, hreturned', hpreserves, hfree⟩ :=
    move_spec hvalid hlimit hmoved hcallee hreturned
  exact ⟨hmoved.rip, hmoved.arguments, hreturned.rip.trans hmoved.returnPointer, s₃, hpop,
    hreturned', hpreserves.live, hpreserves, hfree⟩

end Execution

namespace Execution

/-- A thread after its first send, whose code has entered the stack limit trap with two oop
arguments and three bytes of native ones. -/
def firstAtLimit : Execution Unit where
  segments := ⟨((SegmentRun.initialManager.getValidSegment ()).map Prod.snd).getD
    SegmentRun.initialManager, Function.update (fun _ => []) () [8128]⟩
  machine := { rsp := 8000, rbp := 8100, rip := 0, memory := fun _ => 0 }
  rax := 3 * 65536 + 2

/-- The state with other registers. -/
def withRegisters {τ : Type} (s : Execution τ) (rsp : ℕ) (rbp rip rax : UInt64) : Execution τ :=
  { s with machine := { s.machine with rsp := rsp, rbp := rbp, rip := rip }, rax := rax }

theorem local_withRegisters {τ : Type} {s : Execution τ} {t : τ} {l : List ℕ} {g base rsp : ℕ}
    {rbp rip rax : UInt64} : Local t l g base s (s.withRegisters rsp rbp rip rax) := by
  have hsegments := s.segments.manager.setStackPointers_eq_self g
  exact ⟨⟨(s.segments.manager.header g).stackPointer, (s.segments.manager.header g).framePointer,
    by rw [hsegments]; rfl⟩, fun _ _ _ _ _ _ => rfl, fun _ _ _ => rfl⟩

theorem firstAtLimit_valid : firstAtLimit.segments.Valid ∧ firstAtLimit.Addressable := by
  obtain ⟨manager, h, -⟩ := SegmentRun.exists_firstSend
  have hmanager : firstAtLimit.segments =
      ⟨manager, Function.update (fun _ => []) () [8128]⟩ := by
    rw [firstAtLimit, h]
    rfl
  refine ⟨?_, by rw [Addressable]; decide +kernel⟩
  rw [hmanager]
  exact SegmentRun.valid_of_run (SegmentRun.reachable_firstSend h)

/-- The trap moves to the second page of the pool, and from there, after a deeper call, to the
third. -/
theorem exists_firstMoves : let := SwitchRun.numberedImage
    ∃ s₁ s₂, firstAtLimit.stackLimitTrap () = some s₁ ∧ s₁.segments.live () = [8128, 12224] ∧
      (s₁.withRegisters 12000 12100 0 (3 * 65536 + 2)).stackLimitTrap () = some s₂ ∧
      s₂.segments.live () = [8128, 12224, 16320] := by
  intro _
  have hlive : ((firstAtLimit.stackLimitTrap ()).bind fun s₁ =>
      ((s₁.withRegisters 12000 12100 0 (3 * 65536 + 2)).stackLimitTrap ()).map fun s₂ =>
        (s₁.segments.live (), s₂.segments.live ())) =
      some ([8128, 12224], [8128, 12224, 16320]) := by decide +kernel
  simp only [Option.bind_eq_some_iff, Option.map_eq_some_iff, Prod.mk.injEq] at hlive
  obtain ⟨s₁, htrap₁, s₂, htrap₂, hlive₁, hlive₂⟩ := hlive
  exact ⟨s₁, s₂, htrap₁, hlive₁, htrap₂, hlive₂⟩

/-- A callee that was moved makes a call that is moved again; both return. -/
theorem move_of_runs_nested : let := SwitchRun.numberedImage
    ∃ s₁ inner s₂ s₃ : Execution Unit, firstAtLimit.stackLimitTrap () = some s₁ ∧
      Runs () [8128] 12224 12224 s₁ s₂ ∧
      (s₁.withRegisters 12000 12100 0 (3 * 65536 + 2)).stackLimitTrap () = some inner ∧
      inner.segments.live () = [8128, 12224, 16320] ∧
      Returned s₁ s₂ 27 42 ∧ s₂.popStackSegmentTrap () = some s₃ ∧
      Returned firstAtLimit.resume s₃ 27 42 := by
  intro _
  obtain ⟨s₁, inner, htrap, hlive, htrap', hlive'⟩ := exists_firstMoves
  have hlimit : AtLimit () [] 8128 8064 firstAtLimit :=
    ⟨rfl, by decide, by decide, by decide, by decide⟩
  obtain ⟨r, hmoved⟩ := moved_of_stackLimitTrap firstAtLimit_valid.1 firstAtLimit_valid.2
    hlimit htrap
  obtain rfl : r = 12224 := hmoved.eq_of_live (l := []) hlive
  -- the deeper call, on the third segment
  let deep := s₁.withRegisters 12000 12100 0 (3 * 65536 + 2)
  have hsize : deep.argumentSize = 43 := by
    show totalArgumentSize ((3 * 65536 + 2 : UInt64).toNat % 2 ^ 32) = 43
    decide
  have hlimit' : AtLimit () [8128] 12224 12224 deep :=
    ⟨hlive, show 12224 ≤ 12000 + 4032 by decide, hsize ▸ show 12000 + 43 ≤ 12224 by decide,
      Nat.le_refl _, hsize ▸ show 43 + 8 ≤ 4032 by decide⟩
  obtain ⟨r, hmoved'⟩ := moved_of_stackLimitTrap (s := deep) hmoved.valid hmoved.addressable hlimit'
    htrap'
  obtain rfl : r = 16320 := hmoved'.eq_of_live hlive'
  let inner' := inner.withRegisters (inner.machine.rsp + 8 + 27) inner.machine.rbp
    (inner.machine.memory.load64 inner.machine.rsp) 7
  have hinner : Runs () ([8128] ++ [12224]) 16320 16320 inner inner' :=
    (Runs.refl _ _ _ inner).own local_withRegisters
  have hreturned' : Returned inner inner' (deep.argumentSize - 16) 7 := by
    rw [hsize]
    exact ⟨rfl, rfl, rfl, rfl⟩
  obtain ⟨back, hpop', -⟩ := move_spec (s := deep) hmoved.valid hlimit' hmoved'
    (hinner.preserves hmoved'.valid hmoved'.addressable hlive') hreturned'
  -- back on the second segment
  let s₂ := back.withRegisters (s₁.machine.rsp + 8 + 27) s₁.machine.rbp
    (s₁.machine.memory.load64 s₁.machine.rsp) 42
  have hruns : Runs () [8128] 12224 12224 s₁ s₂ :=
    ((((Runs.refl _ _ _ s₁).own local_withRegisters).move hlimit' htrap' hlive' hinner hreturned'
      hpop').own local_withRegisters)
  have hreturned : Returned s₁ s₂ 27 42 := ⟨rfl, rfl, rfl, rfl⟩
  obtain ⟨-, -, -, s₃, hpop, hresumed, -⟩ := move_of_runs firstAtLimit_valid.1 firstAtLimit_valid.2
    hlimit htrap hlive hruns hreturned
  exact ⟨s₁, inner, s₂, s₃, htrap, hruns, htrap', hlive', hreturned, hpop, hresumed⟩

end Execution

end SlvmNative
