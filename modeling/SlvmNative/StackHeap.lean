import SlvmNative.Library.Words

/-!
# Stack heaps

The bump allocator of `memory.c` with its 64-bit size arithmetic. It underlies both the
compacting heap of objects and the pool of execution-stack segments. It never checks the
capacity: an allocation beyond it is committed in vain and the first access faults.

## Main definitions

* `StackHeap`, `StackHeap.create`, `StackHeap.allocate`

## Main results

* `StackHeap.allocate_of_mask` — an allocation that fits the address space is the next aligned block
-/

namespace SlvmNative

/-- `SLVM_PAGE_SIZE` -/
abbrev pageSize : ℕ := 4096

/-- `SLVM_StackHeapInformation` -/
structure StackHeap where
  /-- `base.start`, where the address space was reserved. -/
  start : ℕ
  /-- `base.size`, how much of it is in use. -/
  size : ℕ
  capacity : ℕ
  commitedCapacity : ℕ
  /-- Address space is reserved by the page. -/
  start_aligned : start % pageSize = 0

namespace StackHeap

/-- `slvm_StackHeap_create`, when `slvm_vm_allocateSpace` returned `start`. -/
def create (start capacity : ℕ) (h : start % pageSize = 0) : StackHeap where
  start := start
  size := 0
  capacity := capacity
  commitedCapacity := 0
  start_aligned := h

/-- `slvm_StackHeap_allocate`. Alignments are powers of two, so they are never zero. -/
def allocate (heap : StackHeap) (alignment size : ℕ) : ℕ × StackHeap :=
  -- `(heap->base.size + alignment - 1) & (-alignment)`
  let offset := (heap.size + (alignment - 1)) % 2 ^ 64 &&& (2 ^ 64 - alignment)
  let newSize := (offset + size) % 2 ^ 64
  let requiredCommitedCapacity := (newSize + (pageSize - 1)) % 2 ^ 64 &&& (2 ^ 64 - pageSize)
  (heap.start + offset,
    { heap with
      size := newSize
      commitedCapacity := max heap.commitedCapacity requiredCommitedCapacity })

/-- The offset of the next block of a given alignment. -/
def nextOffset (heap : StackHeap) (alignment : ℕ) : ℕ :=
  (heap.size + (alignment - 1)) / alignment * alignment

theorem size_le_nextOffset (heap : StackHeap) {alignment : ℕ} (h : 0 < alignment) :
    heap.size ≤ heap.nextOffset alignment := by
  have hdiv := Nat.div_add_mod (heap.size + (alignment - 1)) alignment
  have hmod := Nat.mod_lt (heap.size + (alignment - 1)) h
  rw [nextOffset, Nat.mul_comm]
  omega

theorem nextOffset_le (heap : StackHeap) (alignment : ℕ) :
    heap.nextOffset alignment ≤ heap.size + (alignment - 1) :=
  Nat.div_mul_le_self _ _

/-- **An allocation that fits the address space** is the next block of its alignment. -/
theorem allocate_of_mask (heap : StackHeap) {alignment size : ℕ} (hpos : 0 < alignment)
    (hmask : ∀ x < 2 ^ 64, x &&& (2 ^ 64 - alignment) = x / alignment * alignment)
    (hfit : heap.size + alignment + size < 2 ^ 64) :
    (heap.allocate alignment size).1 = heap.start + heap.nextOffset alignment ∧
      (heap.allocate alignment size).2.size = heap.nextOffset alignment + size := by
  have hle := heap.nextOffset_le alignment
  have hnew : heap.nextOffset alignment + size < 2 ^ 64 := by
    clear hmask
    omega
  have hlt : heap.size + (alignment - 1) < 2 ^ 64 := by
    clear hmask
    omega
  have hoffset : (heap.size + (alignment - 1)) % 2 ^ 64 &&& (2 ^ 64 - alignment) =
      heap.nextOffset alignment := by
    rw [Nat.mod_eq_of_lt hlt, nextOffset]
    exact hmask _ hlt
  refine ⟨?_, ?_⟩
  · simp only [allocate, hoffset]
  · simp only [allocate, hoffset]
    exact Nat.mod_eq_of_lt hnew

theorem and_neg_sixteen {x : ℕ} (hx : x < 2 ^ 64) : x &&& (2 ^ 64 - 16) = x / 16 * 16 := by
  have h := @Words.and_neg_two_pow 64 4 x (by decide) hx
  rwa [show (2 : ℕ) ^ 4 = 16 from rfl] at h

theorem and_neg_pageSize {x : ℕ} (hx : x < 2 ^ 64) :
    x &&& (2 ^ 64 - pageSize) = x / pageSize * pageSize := by
  have h := @Words.and_neg_two_pow 64 12 x (by decide) hx
  rwa [show (2 : ℕ) ^ 12 = pageSize from rfl] at h

/-- Objects are allocated on 16-byte boundaries. -/
theorem allocate_sixteen (heap : StackHeap) {size : ℕ} (hfit : heap.size + 16 + size < 2 ^ 64) :
    (heap.allocate 16 size).1 = heap.start + heap.nextOffset 16 ∧
      (heap.allocate 16 size).2.size = heap.nextOffset 16 + size :=
  heap.allocate_of_mask (Nat.succ_pos 15) (fun _ hx => and_neg_sixteen hx) hfit

/-- Stack segments are allocated on page boundaries. -/
theorem allocate_page (heap : StackHeap) {size : ℕ}
    (hfit : heap.size + pageSize + size < 2 ^ 64) :
    (heap.allocate pageSize size).1 = heap.start + heap.nextOffset pageSize ∧
      (heap.allocate pageSize size).2.size = heap.nextOffset pageSize + size :=
  heap.allocate_of_mask (Nat.succ_pos 4095) (fun _ hx => and_neg_pageSize hx) hfit

@[simp] theorem allocate_start (heap : StackHeap) (alignment size : ℕ) :
    (heap.allocate alignment size).2.start = heap.start := rfl

@[simp] theorem allocate_capacity (heap : StackHeap) (alignment size : ℕ) :
    (heap.allocate alignment size).2.capacity = heap.capacity := rfl

end StackHeap

end SlvmNative
