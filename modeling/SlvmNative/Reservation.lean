import SlvmNative.ExecutionStack
import SlvmNative.HeapWalkEnds

/-!
# Reserved address space

Which allocations stay within the address space their heap has reserved. The bump allocator answers
every request and counts it, whether it fits or not; that the commit behind it failed is printed and
not reported. Objects are requested from the compacting heap on 16-byte boundaries, stack segments
from the pool of pages.

## Main definitions

* `StackHeap.Request`, `StackHeap.Respects` — an allocation that stays in the reserved space, or is
  refused
* `StackHeap.Fits` — a request there is room for
* `StackHeap.Request.ofSlots` — what is requested for the slots of an object

## Main results

* `StackHeap.respectsAll_iff_fitsAll` — sequences of allocations
* `FlatMemory.basicNew_request`, `ExecutionStack.allocateSegment_request` — who requests what
-/

namespace SlvmNative

namespace StackHeap

/-- The arguments of `slvm_StackHeap_allocate`. -/
structure Request where
  alignment : ℕ
  size : ℕ

/-- What the callers in the runtime ask for: objects on 16-byte boundaries, and pages. -/
def Request.WellFormed (r : Request) : Prop :=
  (r.alignment = 16 ∨ r.alignment = pageSize) ∧ r.size < 2 ^ 64

/-- The answer to a request lies in the reserved space, or is `NULL` and nothing has changed. -/
def Respects (heap : StackHeap) (r : Request) : Prop :=
  let (address, heap') := heap.allocate r.alignment r.size
  (heap.start ≤ address ∧ address + r.size ≤ heap.start + heap.capacity) ∨
    (address = 0 ∧ heap'.size = heap.size ∧ heap'.commitedCapacity = heap.commitedCapacity)

/-- There is room for a request behind the used part of the heap. -/
def Fits (heap : StackHeap) (r : Request) : Prop :=
  heap.nextOffset r.alignment + r.size ≤ heap.capacity

instance (heap : StackHeap) (r : Request) : Decidable (heap.Fits r) :=
  inferInstanceAs (Decidable (_ ≤ _))

/-- All requests of a sequence are respected. -/
def RespectsAll (heap : StackHeap) : List Request → Prop
  | [] => True
  | r :: requests =>
    heap.Respects r ∧ (heap.allocate r.alignment r.size).2.RespectsAll requests

/-- There is room for all requests of a sequence. -/
def FitsAll (heap : StackHeap) : List Request → Prop
  | [] => True
  | r :: requests => heap.Fits r ∧ (heap.allocate r.alignment r.size).2.FitsAll requests

/-- The heap is in order: the used part lies in the reserved space, which does not wrap. -/
structure Reserved (heap : StackHeap) : Prop where
  start_pos : 0 < heap.start
  size_le : heap.size ≤ heap.capacity
  end_le : heap.start + heap.capacity ≤ 2 ^ 64

theorem create_reserved {start capacity : ℕ} (h : start % pageSize = 0) (hstart : 0 < start)
    (hspace : start + capacity ≤ 2 ^ 64) : (create start capacity h).Reserved :=
  ⟨hstart, Nat.zero_le _, hspace⟩

variable {heap : StackHeap} {r : Request}

/-- Where the answer to a request is. -/
theorem Reserved.allocate_eq (h : heap.Reserved) (hr : r.WellFormed) :
    (heap.allocate r.alignment r.size).1 = heap.start + heap.nextOffset r.alignment ∧
      (heap.allocate r.alignment r.size).2.size =
        (heap.nextOffset r.alignment + r.size) % 2 ^ 64 := by
  obtain ⟨hstart, hsize, hend⟩ := h
  obtain ⟨halignment, -⟩ := hr
  have hpage := heap.start_aligned
  have hmask : (heap.size + (r.alignment - 1)) % 2 ^ 64 &&& (2 ^ 64 - r.alignment) =
      heap.nextOffset r.alignment := by
    rcases halignment with h16 | hp
    · rw [h16, Nat.mod_eq_of_lt, and_neg_sixteen, nextOffset]
      all_goals simp only [pageSize] at hpage; omega
    · rw [hp, Nat.mod_eq_of_lt, and_neg_pageSize, nextOffset]
      all_goals simp only [pageSize] at hpage ⊢; omega
  constructor
  · simp only [allocate, hmask]
  · simp only [allocate, hmask]

/-- **One request** is respected just in case there is room for it. -/
theorem Reserved.respects_iff (h : heap.Reserved) (hr : r.WellFormed) :
    heap.Respects r ↔ heap.Fits r := by
  obtain ⟨haddress, -⟩ := h.allocate_eq hr
  have hstart := h.start_pos
  rw [Respects, Fits]
  simp only [haddress]
  constructor
  · rintro (⟨-, hle⟩ | ⟨hzero, -⟩)
    · omega
    · omega
  · intro hfits
    exact Or.inl ⟨Nat.le_add_right _ _, by omega⟩

/-- A request there is room for leaves the heap in order. -/
theorem Reserved.allocate (h : heap.Reserved) (hr : r.WellFormed) (hfits : heap.Fits r) :
    (heap.allocate r.alignment r.size).2.Reserved := by
  obtain ⟨-, hsize⟩ := h.allocate_eq hr
  have hstart := h.start_pos
  have hend := h.end_le
  rw [Fits] at hfits
  refine ⟨hstart, ?_, hend⟩
  rw [hsize, Nat.mod_eq_of_lt (by omega)]
  exact hfits

/-- **A sequence of requests** is respected just in case there is room for each of them. -/
theorem respectsAll_iff_fitsAll (requests : List Request)
    (hrequests : ∀ r ∈ requests, r.WellFormed) (start capacity : ℕ) (h : start % pageSize = 0)
    (hstart : 0 < start) (hspace : start + capacity ≤ 2 ^ 64) :
    (create start capacity h).RespectsAll requests ↔
      (create start capacity h).FitsAll requests := by
  have hreserved := create_reserved h hstart hspace
  generalize create start capacity h = heap at hreserved
  induction requests generalizing heap with
  | nil => exact Iff.rfl
  | cons r requests ih =>
    have hr := hrequests r List.mem_cons_self
    have hiff := hreserved.respects_iff hr
    rw [RespectsAll, FitsAll, hiff]
    refine and_congr_right fun hfits => ?_
    exact ih (fun r' hr' => hrequests r' (List.mem_cons_of_mem r hr')) _
      (hreserved.allocate hr hfits)

/-- A heap of one page, and two requests for half of it. -/
theorem respectsAll_iff_fitsAll_halves :
    (create 4096 4096 rfl).RespectsAll [⟨16, 2048⟩, ⟨16, 2048⟩] ↔
      (create 4096 4096 rfl).FitsAll [⟨16, 2048⟩, ⟨16, 2048⟩] := by
  refine respectsAll_iff_fitsAll _ (fun r hr => ?_) 4096 4096 rfl (by decide) (by decide)
  rcases List.mem_pair.mp hr with rfl | rfl
  · exact ⟨Or.inl rfl, by decide⟩
  · exact ⟨Or.inl rfl, by decide⟩

/-- The size of the pre-header of an object, with its size word if it is big. -/
def preheaderSize (slotCount : ℕ) : ℕ := if slotCount ≥ 255 then 24 else 8

/-- What is requested for an object of `slotCount` slots: its pre-header, its header and the slots,
added up in 64 bits. -/
def Request.ofSlots (slotCount : ℕ) : Request :=
  ⟨16, (preheaderSize slotCount + 8 + slotCount * 8) % 2 ^ 64⟩

theorem Request.ofSlots_wellFormed (slotCount : ℕ) : (ofSlots slotCount).WellFormed :=
  ⟨Or.inl rfl, Nat.mod_lt _ (by decide)⟩

/-- From 2 ^ 61 slots on a request is for 2 ^ 61 slots less than the object has. -/
theorem Request.ofSlots_size_of_le {slotCount : ℕ} (h : 2 ^ 61 ≤ slotCount) :
    (ofSlots slotCount).size = (32 + slotCount % 2 ^ 61 * 8) % 2 ^ 64 := by
  have hbig : slotCount ≥ 255 := le_trans (by decide) h
  rw [ofSlots, preheaderSize, if_pos hbig]
  show (32 + slotCount * 8) % 2 ^ 64 = _
  omega

end StackHeap

/-! ### Objects and segments -/

namespace FlatMemory

variable [KernelImage]

omit [KernelImage] in
/-- An object of `slotCount` slots is requested with its pre-header, and begins there. -/
theorem instantiateObject_request (m : FlatMemory) (slotCount : ℕ) :
    (m.instantiateObject slotCount).2.compactingHeap =
        (m.compactingHeap.allocate 16 (StackHeap.Request.ofSlots slotCount).size).2 ∧
      (m.instantiateObject slotCount).1 =
        (m.compactingHeap.allocate 16 (StackHeap.Request.ofSlots slotCount).size).1 +
          StackHeap.preheaderSize slotCount := by
  by_cases hbig : slotCount ≥ 255
  · simp only [instantiateObject, StackHeap.Request.ofSlots, StackHeap.preheaderSize, if_pos hbig]
    exact ⟨rfl, trivial⟩
  · simp only [instantiateObject, StackHeap.Request.ofSlots, StackHeap.preheaderSize, if_neg hbig]
    exact ⟨rfl, trivial⟩

/-- **`slvm_Behavior_basicNew` makes one request** of the compacting heap, for the slots it comes
out with, and the object begins behind the pre-header at the answer. -/
theorem basicNew_request {m m' : FlatMemory} {b v o : ℕ} (h : m.basicNew b v = some (o, m')) :
    (StackHeap.Request.ofSlots (m.basicNewSlots b v)).WellFormed ∧
      m'.compactingHeap = (m.compactingHeap.allocate 16
        (StackHeap.Request.ofSlots (m.basicNewSlots b v)).size).2 ∧
      o = (m.compactingHeap.allocate 16
        (StackHeap.Request.ofSlots (m.basicNewSlots b v)).size).1 +
          StackHeap.preheaderSize (m.basicNewSlots b v) := by
  have hrequest := m.instantiateObject_request (m.basicNewSlots b v)
  simp only [basicNew] at h
  split_ifs at h
  all_goals
    obtain ⟨rfl, rfl⟩ := Prod.mk.inj (Option.some.inj h)
    exact ⟨StackHeap.Request.ofSlots_wellFormed _, hrequest⟩

/-- A memory in which the class `Array` says how its instances are laid out, and an empty heap. -/
def arrayMemory : FlatMemory where
  word := Function.update (fun _ => 0) (kernelClass .Array + 8 + Field.format * 8)
    (encodeFormatAndFixedSize ObjectFormat.variableSizeNoIvars 0)
  compactingHeap :=
    StackHeap.create 65536 defaultCompactingHeapCapacity HeapRun.exampleStart_aligned

omit [KernelImage] in
/-- **An array of 2^31 elements** ends beyond the reserved space, and is counted. -/
theorem not_respectsAll_array :
    letI := sequentialImage
    (∃ o m', arrayMemory.basicNew (kernelClass .Array) (2 ^ 31) = some (o, m') ∧
      arrayMemory.compactingHeap.start + arrayMemory.compactingHeap.capacity <
        o + 8 + 2 ^ 31 * 8 ∧
      arrayMemory.compactingHeap.capacity < m'.compactingHeap.size) ∧
      ¬ arrayMemory.compactingHeap.RespectsAll [⟨16, 32 + 2 ^ 31 * 8⟩] := by
  let := sequentialImage
  constructor
  · have hsome : (arrayMemory.basicNew (kernelClass .Array) (2 ^ 31)).isSome := by decide +kernel
    obtain ⟨⟨o, m'⟩, h⟩ := Option.isSome_iff_exists.mp hsome
    have ho : (arrayMemory.basicNew (kernelClass .Array) (2 ^ 31)).map Prod.fst =
        some (65536 + 24) := by decide +kernel
    have hsize : (arrayMemory.basicNew (kernelClass .Array) (2 ^ 31)).map
        (fun p => p.2.compactingHeap.size) = some (32 + 2 ^ 31 * 8) := by decide +kernel
    rw [h] at ho hsize
    refine ⟨o, m', h, ?_, ?_⟩
    · rw [show o = 65536 + 24 from Option.some.inj ho]
      decide
    · rw [show m'.compactingHeap.size = 32 + 2 ^ 31 * 8 from Option.some.inj hsize]
      decide
  · rintro ⟨hrespects, -⟩
    have hreserved : arrayMemory.compactingHeap.Reserved :=
      StackHeap.create_reserved rfl (by decide) (by decide)
    have hfits := (hreserved.respects_iff ⟨Or.inl rfl, by decide⟩).mp hrespects
    have hnot : ¬ (StackHeap.create 65536 defaultCompactingHeapCapacity rfl).Fits
        ⟨16, 32 + 2 ^ 31 * 8⟩ := by decide
    exact hnot hfits

end FlatMemory

namespace ExecutionStack

variable {τ : Type}

/-- **`slvm_ExecutionStack_allocateSegment` makes one request** of the pool when there is no free
segment, for a page, and the header ends the page at the answer. -/
theorem allocateSegment_request {s s' : ExecutionStack τ} {result : ℕ}
    (hfree : s.links.first .executionStackFreeList = none)
    (h : s.allocateSegment = some (result, s')) :
    s'.executionStackMemoryPool = (s.executionStackMemoryPool.allocate pageSize pageSize).2 ∧
      result + sizeofSegmentHeader =
        (s.executionStackMemoryPool.allocate pageSize pageSize).1 + pageSize := by
  unfold ExecutionStack.allocateSegment at h
  rw [hfree] at h
  simp only [Option.ite_none_right_eq_some, Option.some.injEq, Prod.mk.injEq] at h
  obtain ⟨-, rfl, rfl⟩ := h
  refine ⟨rfl, ?_⟩
  simp only [pageSize, sizeofSegmentHeader]
  omega

end ExecutionStack

end SlvmNative
