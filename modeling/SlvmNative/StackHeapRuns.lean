import Mathlib.Logic.Relation
import SlvmNative.StackHeap

/-!
# Runs of stack-heap allocations

Any sequence of blocks taken from one stack heap, with the ranges it commits. A block starts where
the last one ended, rounded up to its alignment, so the gaps belong to no block; pages are
committed as the end of the last block moves past them.

## Main definitions

* `StackHeap.committedRange` — what one allocation passes to `slvm_vm_commitRange`
* `Tiles` — consecutive ranges with no gap and no overlap
* `StackHeapRun`, `StackHeapRun.Step` — the blocks and the commits of a heap, and an allocation

## Main results

* `StackHeap.allocate_of_fits` — an allocation that ends in the address space does not wrap
* `StackHeapRun.blocks_of_run` — alignment, order, commitment and tiling in every state of a run
-/

namespace SlvmNative

open Relation

/-! ### Tilings -/

/-- Ranges, given by offset and size with the last one first, that cover `[0, c)` with no gap and
no overlap. -/
structure Tiles (ranges : List (ℕ × ℕ)) (c : ℕ) : Prop where
  nonempty : ∀ r ∈ ranges, 0 < r.2
  disjoint : ranges.Pairwise fun r r' => r'.1 + r'.2 ≤ r.1
  covers : ∀ x, x < c ↔ ∃ r ∈ ranges, r.1 ≤ x ∧ x < r.1 + r.2

theorem Tiles.nil : Tiles [] 0 where
  nonempty := by simp
  disjoint := List.Pairwise.nil
  covers := by simp

/-- The next tile starts where the last one ended. -/
theorem Tiles.cons {ranges : List (ℕ × ℕ)} {c c' : ℕ} (h : Tiles ranges c) (hlt : c < c') :
    Tiles ((c, c' - c) :: ranges) c' where
  nonempty := by
    intro r hr
    rcases List.mem_cons.mp hr with rfl | hr
    · exact Nat.sub_pos_of_lt hlt
    · exact h.nonempty r hr
  disjoint := by
    refine List.pairwise_cons.mpr ⟨?_, h.disjoint⟩
    intro r hr
    -- the last byte of an earlier tile is below `c`
    have hpos := h.nonempty r hr
    have hlast := (h.covers (r.1 + r.2 - 1)).mpr ⟨r, hr, by omega, by omega⟩
    simp only
    omega
  covers := by
    intro x
    simp only [List.mem_cons, exists_eq_or_imp, ← h.covers x]
    omega

/-! ### One allocation -/

/-- `(n + SLVM_PAGE_SIZE - 1) & (-SLVM_PAGE_SIZE)`, where it does not wrap. -/
def roundUpToPage (n : ℕ) : ℕ := (n + (pageSize - 1)) / pageSize * pageSize

theorem roundUpToPage_zero : roundUpToPage 0 = 0 := by decide

theorem le_roundUpToPage (n : ℕ) : n ≤ roundUpToPage n := by
  simp only [roundUpToPage, pageSize]
  omega

theorem roundUpToPage_mono {n n' : ℕ} (h : n ≤ n') : roundUpToPage n ≤ roundUpToPage n' := by
  simp only [roundUpToPage, pageSize]
  omega

theorem roundUpToPage_add_le (n k : ℕ) :
    roundUpToPage (roundUpToPage n + k) ≤ roundUpToPage n + pageSize * k := by
  simp only [roundUpToPage, pageSize]
  omega

namespace StackHeap

/-- The range that `slvm_StackHeap_allocate` passes to `slvm_vm_commitRange`, if it calls it. -/
def committedRange (heap : StackHeap) (alignment size : ℕ) : Option (ℕ × ℕ) :=
  let offset := (heap.size + (alignment - 1)) % 2 ^ 64 &&& (2 ^ 64 - alignment)
  let newSize := (offset + size) % 2 ^ 64
  let requiredCommitedCapacity := (newSize + (pageSize - 1)) % 2 ^ 64 &&& (2 ^ 64 - pageSize)
  if heap.commitedCapacity < requiredCommitedCapacity then
    some (heap.commitedCapacity, requiredCommitedCapacity - heap.commitedCapacity)
  else none

/-- The next block of an alignment that divides the page starts within the last page in use. -/
theorem nextOffset_le_roundUpToPage (heap : StackHeap) {k : ℕ} (hk : k ≤ 12) :
    heap.nextOffset (2 ^ k) ≤ roundUpToPage heap.size := by
  have hpos : 0 < 2 ^ k := Nat.two_pow_pos k
  have hpage : pageSize = 2 ^ k * 2 ^ (12 - k) := by
    rw [← Nat.pow_add, Nat.add_sub_cancel' hk]
  obtain ⟨q, hq⟩ : ∃ q, roundUpToPage heap.size = q * 2 ^ k :=
    ⟨(heap.size + (pageSize - 1)) / pageSize * 2 ^ (12 - k), by rw [roundUpToPage, hpage]; ring⟩
  have hle := le_roundUpToPage heap.size
  rw [nextOffset, hq]
  refine Nat.mul_le_mul_right _ ?_
  rw [hq] at hle
  calc (heap.size + (2 ^ k - 1)) / 2 ^ k
      ≤ (q * 2 ^ k + (2 ^ k - 1)) / 2 ^ k := Nat.div_le_div_right (by omega)
    _ = q := by
      rw [Nat.mul_comm, Nat.mul_add_div hpos, Nat.div_eq_of_lt (by omega), Nat.add_zero]

/-- **An allocation that ends in the address space**, short of its last page, does not wrap: it
takes the next block of its alignment and commits up to the page where the block ends. -/
theorem allocate_of_fits (heap : StackHeap) {k size : ℕ} (hk : k ≤ 12)
    (hfit : heap.nextOffset (2 ^ k) + size ≤ 2 ^ 64 - pageSize) :
    heap.allocate (2 ^ k) size = (heap.start + heap.nextOffset (2 ^ k),
        { heap with
          size := heap.nextOffset (2 ^ k) + size
          commitedCapacity := max heap.commitedCapacity
            (roundUpToPage (heap.nextOffset (2 ^ k) + size)) }) ∧
      heap.committedRange (2 ^ k) size =
        if heap.commitedCapacity < roundUpToPage (heap.nextOffset (2 ^ k) + size) then
          some (heap.commitedCapacity,
            roundUpToPage (heap.nextOffset (2 ^ k) + size) - heap.commitedCapacity)
        else none := by
  have hlow := heap.size_le_nextOffset (Nat.two_pow_pos k)
  have halign : 2 ^ k ≤ pageSize := Nat.pow_le_pow_right (by decide) hk
  have hlt : heap.size + (2 ^ k - 1) < 2 ^ 64 := by
    simp only [pageSize] at hfit halign
    omega
  have hoffset : (heap.size + (2 ^ k - 1)) % 2 ^ 64 &&& (2 ^ 64 - 2 ^ k) =
      heap.nextOffset (2 ^ k) := by
    rw [Nat.mod_eq_of_lt hlt, Words.and_neg_two_pow (by omega) hlt]
    rfl
  have hsize : (heap.nextOffset (2 ^ k) + size) % 2 ^ 64 = heap.nextOffset (2 ^ k) + size :=
    Nat.mod_eq_of_lt (by simp only [pageSize] at hfit; omega)
  have hpages : (heap.nextOffset (2 ^ k) + size + (pageSize - 1)) % 2 ^ 64 &&&
      (2 ^ 64 - pageSize) = roundUpToPage (heap.nextOffset (2 ^ k) + size) := by
    have hlt' : heap.nextOffset (2 ^ k) + size + (pageSize - 1) < 2 ^ 64 := by
      simp only [pageSize] at hfit ⊢
      omega
    rw [Nat.mod_eq_of_lt hlt', and_neg_pageSize hlt']
    rfl
  constructor
  · simp only [allocate, hoffset, hsize, hpages]
  · simp only [committedRange, hoffset, hsize, hpages]

end StackHeap

/-! ### Runs -/

/-- A block that `slvm_StackHeap_allocate` returned: its address, and what was asked for. -/
structure Block where
  start : ℕ
  alignment : ℕ
  size : ℕ

/-- A stack heap with the blocks it returned and the ranges it committed, the last ones first. -/
structure StackHeapRun where
  heap : StackHeap
  blocks : List Block
  commits : List (ℕ × ℕ)

namespace StackHeapRun

/-- The heap that `slvm_StackHeap_create` leaves. -/
def created (start capacity : ℕ) (h : start % pageSize = 0) : StackHeapRun :=
  ⟨StackHeap.create start capacity h, [], []⟩

/-- One call of `slvm_StackHeap_allocate`. -/
def allocate (s : StackHeapRun) (alignment size : ℕ) : StackHeapRun where
  heap := (s.heap.allocate alignment size).2
  blocks := ⟨(s.heap.allocate alignment size).1, alignment, size⟩ :: s.blocks
  commits := (s.heap.committedRange alignment size).toList ++ s.commits

/-- The sum of the sizes asked for. -/
def requested (s : StackHeapRun) : ℕ := (s.blocks.map Block.size).sum

/-- The running total stays within the capacity: the total in use, with the gaps between the
blocks; or the total asked for, in a capacity that has room for the gaps in a word. -/
def WithinCapacity (s : StackHeapRun) (alignment size : ℕ) : Prop :=
  s.heap.nextOffset alignment + size ≤ s.heap.capacity ∨
    s.requested + size ≤ s.heap.capacity ∧ pageSize * (s.heap.capacity + 1) ≤ 2 ^ 64

/-- An allocation whose alignment is a power of two, at most the page size. -/
inductive Step : StackHeapRun → StackHeapRun → Prop
  | allocate (s : StackHeapRun) (k size : ℕ) (hk : 2 ^ k ≤ pageSize)
      (hwithin : s.WithinCapacity (2 ^ k) size) : Step s (s.allocate (2 ^ k) size)

/-- What holds of the blocks and the commits of a heap that starts at `start`. -/
structure Valid (start capacity : ℕ) (s : StackHeapRun) : Prop where
  start_eq : s.heap.start = start
  capacity_eq : s.heap.capacity = capacity
  aligned : ∀ b ∈ s.blocks, b.start % b.alignment = 0
  increasing : s.blocks.Pairwise fun later earlier => earlier.start + earlier.size ≤ later.start
  inside : ∀ b ∈ s.blocks, start ≤ b.start ∧ b.start + b.size ≤ start + s.heap.size
  committed : s.heap.commitedCapacity = roundUpToPage s.heap.size
  tiles : Tiles s.commits s.heap.commitedCapacity
  /-- The gaps cost at most a page for each byte asked for. -/
  bounded : roundUpToPage s.heap.size ≤ pageSize * s.requested

variable {start capacity : ℕ}

theorem valid_created (h : start % pageSize = 0) :
    Valid start capacity (created start capacity h) where
  start_eq := rfl
  capacity_eq := rfl
  aligned := by simp [created]
  increasing := List.Pairwise.nil
  inside := by simp [created]
  committed := roundUpToPage_zero.symm
  tiles := Tiles.nil
  bounded := roundUpToPage_zero.le.trans (Nat.zero_le _)

/-- A block within the capacity ends before the last page of the address space. -/
theorem Valid.fits {s : StackHeapRun} (v : Valid start capacity s) (hstart : pageSize ≤ start)
    (hspace : start + capacity ≤ 2 ^ 64) {k size : ℕ} (hk : k ≤ 12)
    (hwithin : s.WithinCapacity (2 ^ k) size) :
    s.heap.nextOffset (2 ^ k) + size ≤ 2 ^ 64 - pageSize := by
  have hnext := s.heap.nextOffset_le_roundUpToPage hk
  have hbounded := v.bounded
  have hcapacity := v.capacity_eq
  simp only [WithinCapacity, pageSize] at hwithin hnext hbounded hstart ⊢
  omega

/-- **An allocation keeps the invariant.** -/
theorem Valid.step {s s' : StackHeapRun} (v : Valid start capacity s) (hstart : pageSize ≤ start)
    (hspace : start + capacity ≤ 2 ^ 64) (hstep : Step s s') : Valid start capacity s' := by
  cases hstep with | allocate k size hpow hwithin =>
  have hk : k ≤ 12 := (Nat.pow_le_pow_iff_right (by decide)).mp hpow
  obtain ⟨hallocate, hcommit⟩ :=
    s.heap.allocate_of_fits hk (v.fits hstart hspace hk hwithin)
  have hlow := s.heap.size_le_nextOffset (Nat.two_pow_pos k)
  have hgrows : roundUpToPage s.heap.size ≤
      roundUpToPage (s.heap.nextOffset (2 ^ k) + size) :=
    roundUpToPage_mono (hlow.trans (Nat.le_add_right _ _))
  have hmax : max s.heap.commitedCapacity (roundUpToPage (s.heap.nextOffset (2 ^ k) + size)) =
      roundUpToPage (s.heap.nextOffset (2 ^ k) + size) :=
    max_eq_right (v.committed.trans_le hgrows)
  have hheap : (s.allocate (2 ^ k) size).heap =
      { s.heap with
        size := s.heap.nextOffset (2 ^ k) + size
        commitedCapacity := roundUpToPage (s.heap.nextOffset (2 ^ k) + size) } := by
    rw [allocate, hallocate, hmax]
  have hblocks : (s.allocate (2 ^ k) size).blocks =
      ⟨start + s.heap.nextOffset (2 ^ k), 2 ^ k, size⟩ :: s.blocks := by
    simp only [allocate, hallocate, v.start_eq]
  constructor
  · rw [hheap, ← v.start_eq]
  · rw [hheap, ← v.capacity_eq]
  · intro b hb
    rw [hblocks, List.mem_cons] at hb
    rcases hb with rfl | hb
    · -- the heap starts on a page, and the alignment divides the page
      have hdvd : 2 ^ k ∣ start :=
        (pow_dvd_pow 2 hk).trans (Nat.dvd_of_mod_eq_zero (v.start_eq ▸ s.heap.start_aligned))
      exact Nat.mod_eq_zero_of_dvd (Nat.dvd_add hdvd (Nat.dvd_mul_left _ _))
    · exact v.aligned b hb
  · rw [hblocks]
    refine List.pairwise_cons.mpr ⟨?_, v.increasing⟩
    intro b hb
    have hinside := (v.inside b hb).2
    simp only
    omega
  · intro b hb
    rw [hblocks, List.mem_cons] at hb
    rw [hheap]
    rcases hb with rfl | hb
    · constructor
      · exact Nat.le_add_right _ _
      · simp only
        omega
    · obtain ⟨hfrom, hto⟩ := v.inside b hb
      refine ⟨hfrom, ?_⟩
      simp only
      omega
  · rw [hheap]
  · rw [hheap, allocate, hcommit]
    by_cases hlt : s.heap.commitedCapacity < roundUpToPage (s.heap.nextOffset (2 ^ k) + size)
    · rw [if_pos hlt]
      exact v.tiles.cons hlt
    · rw [if_neg hlt]
      have heq : s.heap.commitedCapacity = roundUpToPage (s.heap.nextOffset (2 ^ k) + size) :=
        le_antisymm (v.committed.trans_le hgrows) (Nat.le_of_not_lt hlt)
      simp only [Option.toList_none, List.nil_append, ← heq]
      exact v.tiles
  · rw [hheap, requested, hblocks, List.map_cons, List.sum_cons]
    have hnext := s.heap.nextOffset_le_roundUpToPage hk
    have hbounded := v.bounded
    have hround := roundUpToPage_add_le s.heap.size size
    have hmono := roundUpToPage_mono (Nat.add_le_add_right hnext size)
    simp only [requested, pageSize] at *
    omega

/-- **The invariant holds in every state of a run.** -/
theorem valid_of_run (hstart : pageSize ≤ start) (hspace : start + capacity ≤ 2 ^ 64)
    {h : start % pageSize = 0} {s : StackHeapRun}
    (hrun : ReflTransGen Step (created start capacity h) s) : Valid start capacity s := by
  induction hrun with
  | refl => exact valid_created h
  | tail _ hstep ih => exact ih.step hstart hspace hstep

/-- **The blocks and the commits of every run.** The address space that `slvm_vm_allocateSpace`
reserved starts on a page other than the one of `NULL` and does not wrap. -/
theorem blocks_of_run (hstart : start ≠ 0) (hpage : start % pageSize = 0)
    (hspace : start + capacity ≤ 2 ^ 64) {s : StackHeapRun}
    (hrun : ReflTransGen Step (created start capacity hpage) s) :
    (∀ b ∈ s.blocks, b.start % b.alignment = 0) ∧
      (s.blocks.Pairwise fun later earlier => earlier.start + earlier.size ≤ later.start) ∧
      (∀ b ∈ s.blocks, start ≤ b.start ∧ b.start + b.size ≤ start + s.heap.commitedCapacity) ∧
      s.heap.commitedCapacity = roundUpToPage s.heap.size ∧
      Tiles s.commits s.heap.commitedCapacity := by
  have hpos : pageSize ≤ start := by
    simp only [pageSize] at hpage ⊢
    omega
  have v := valid_of_run hpos hspace hrun
  refine ⟨v.aligned, v.increasing, ?_, v.committed, v.tiles⟩
  intro b hb
  obtain ⟨hfrom, hto⟩ := v.inside b hb
  refine ⟨hfrom, hto.trans ?_⟩
  rw [v.committed]
  exact Nat.add_le_add_left (le_roundUpToPage _) _

/-- A 24-byte object at a word boundary, then a page: two commits, with a gap between the blocks. -/
theorem blocks_of_run_object_page :
    let s := ((created pageSize (4 * pageSize) rfl).allocate (2 ^ 3) 24).allocate (2 ^ 12) pageSize
    s.blocks.map Block.start = [2 * pageSize, pageSize] ∧
      s.commits = [(pageSize, pageSize), (0, pageSize)] ∧
      Tiles s.commits s.heap.commitedCapacity := by
  intro s
  have hrun : ReflTransGen Step (created pageSize (4 * pageSize) rfl) s :=
    .tail (.single (.allocate _ 3 24 (by decide) (.inl (by decide))))
      (.allocate _ 12 pageSize (by decide) (.inl (by decide)))
  obtain ⟨-, -, -, -, htiles⟩ := blocks_of_run (by decide) rfl (by decide) hrun
  exact ⟨by decide, by decide, htiles⟩

end StackHeapRun

end SlvmNative
