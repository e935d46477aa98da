import SlvmNative.Library.LinkedList
import SlvmNative.StackHeap

/-!
# Execution-stack segments

The segments of the Smalltalk stacks: pages of a pool, each with its header at the very end of the
page. A header carries the list node of its segment, 48 bytes in. The segments of a thread are on
the list of the thread's data, which lives below the header of the thread's first segment; popped
segments go to a free list shared by all threads. Memory is kept by structure: the fields of a
header under the address of the header, the links of a node under the address of the node.

## Main definitions

* `ExecutionStack`, `executionStackInitialize`
* `getFirstSegment`, `getLastSegment`, `getValidSegment`, `createNewSegment`, `popSegment`
* `ExecutionStack.Valid` — which segment is on which list, and what its header says
* `SegmentRun.Step` — the operations of any number of threads, one at a time

## Main results

* `SegmentRun.valid_of_run` — the invariant holds in every state of a run
* `SegmentRun.listed_of_run` — every segment is on one list, in a page of its own
* `SegmentRun.answersHeaders_iff_of_run` — when the getters return the headers of live segments
-/

namespace SlvmNative

open LinkedList Relation

/-- `SLVM_EXECUTION_STACK_CAPACITY` -/
def executionStackCapacity : ℕ := 64 <<< 20

theorem executionStackCapacity_eq : executionStackCapacity = 67108864 := rfl

/-- `sizeof(SLVM_LinkedListNode)` -/
abbrev sizeofListNode : ℕ := 16

/-- `sizeof(SLVM_ExecutionStackSegmentHeader)` -/
abbrev sizeofSegmentHeader : ℕ := 64

/-- `sizeof(SLVM_ThreadStackData)` -/
abbrev sizeofThreadStackData : ℕ := 48

/-- The address of the list node `header` of a segment header. -/
def segmentNode (segment : ℕ) : ℕ := segment + 48

theorem segmentNode_injective : Function.Injective segmentNode := fun _ _ h =>
  Nat.add_right_cancel h

/-- The lists of `memory.c`. -/
inductive SegmentList
  | executionStackFreeList
  /-- The `segmentList` of the thread data at an address. -/
  | segmentList (threadData : ℕ)
  deriving DecidableEq

/-- `SLVM_ExecutionStackSegmentHeader`, without its list node. -/
structure ExecutionStackSegmentHeader where
  baseFramePointer : ℕ
  segmentSize : ℕ
  threadData : Option ℕ
  linkPointer : ℕ
  framePointer : ℕ
  stackPointer : ℕ

/-- A header of zeros. -/
def ExecutionStackSegmentHeader.zero : ExecutionStackSegmentHeader := ⟨0, 0, none, 0, 0, 0⟩

/-- The execution-stack manager, for threads `τ`. -/
structure ExecutionStack (τ : Type) where
  executionStackMemoryPool : StackHeap
  /-- The links of all nodes, and the ends of all lists. -/
  links : Links ℕ SegmentList
  /-- The segment header at an address. -/
  header : ℕ → ExecutionStackSegmentHeader
  currentThreadStackData : τ → Option ℕ

namespace ExecutionStack

variable {τ : Type}

/-- `slvm_ExecutionStack_initialize`, when `slvm_vm_allocateSpace` returned `start`; it aborts on
`NULL`. -/
def executionStackInitialize (start : ℕ) (h : start % pageSize = 0) : Option (ExecutionStack τ) :=
  if start = 0 then none
  else some
    { executionStackMemoryPool := StackHeap.create start executionStackCapacity h
      links := Links.empty
      header := fun _ => ExecutionStackSegmentHeader.zero
      currentThreadStackData := fun _ => none }

/-- `slvm_ExecutionStack_getFirstSegment`: the first *node*, cast to a header. -/
def getFirstSegment (s : ExecutionStack τ) (t : τ) : Option ℕ :=
  (s.currentThreadStackData t).bind fun data => s.links.first (.segmentList data)

/-- `slvm_ExecutionStack_getLastSegment`: the last *node*, cast to a header. -/
def getLastSegment (s : ExecutionStack τ) (t : τ) : Option ℕ :=
  (s.currentThreadStackData t).bind fun data => s.links.last (.segmentList data)

/-- The end of `slvm_ExecutionStack_allocateSegment`: clear the header and set its initial stack
pointer. -/
def clearSegment (s : ExecutionStack τ) (result : ℕ) : ExecutionStack τ :=
  { s with
    links := s.links.clearNode (segmentNode result)
    header := Function.update s.header result
      { ExecutionStackSegmentHeader.zero with stackPointer := result } }

@[simp] theorem clearSegment_header_self (s : ExecutionStack τ) (result : ℕ) :
    ((s.clearSegment result).header result).stackPointer = result := by
  simp only [clearSegment, Function.update_self]

theorem clearSegment_header_of_ne (s : ExecutionStack τ) {result other : ℕ} (h : other ≠ result) :
    (s.clearSegment result).header other = s.header other := by
  simp only [clearSegment, Function.update_of_ne h]

/-- `slvm_ExecutionStack_allocateSegment`. The pool does not check its capacity; the first store
into a header beyond it faults. -/
def allocateSegment (s : ExecutionStack τ) : Option (ℕ × ExecutionStack τ) :=
  match s.links.first .executionStackFreeList with
  | some node =>
    let result := node + sizeofListNode - sizeofSegmentHeader
    some (result,
      { s with links := s.links.removeNode .executionStackFreeList node }.clearSegment result)
  | none =>
    let (base, pool) := s.executionStackMemoryPool.allocate pageSize pageSize
    if pool.size ≤ pool.capacity then
      let result := base + pageSize - sizeofSegmentHeader
      some (result, { s with executionStackMemoryPool := pool }.clearSegment result)
    else none

/-- Reserve the thread data at the start of a first segment and clear it. -/
def allocateThreadData [DecidableEq τ] (s : ExecutionStack τ) (t : τ) (result : ℕ) :
    ExecutionStack τ :=
  let data := (s.header result).stackPointer - (sizeofThreadStackData + 15) / 16 * 16
  { s with
    links := s.links.clearList (.segmentList data)
    header := Function.update s.header result { s.header result with stackPointer := data }
    currentThreadStackData := Function.update s.currentThreadStackData t (some data) }

theorem allocateThreadData_current_of_ne [DecidableEq τ] (s : ExecutionStack τ) {t t' : τ}
    (h : t' ≠ t) (result : ℕ) :
    (s.allocateThreadData t result).currentThreadStackData t' = s.currentThreadStackData t' := by
  simp only [allocateThreadData, Function.update_of_ne h]

/-- Tie a segment to the data of its thread and append it to the segments of the thread. -/
def addSegment (s : ExecutionStack τ) (result data : ℕ) : ExecutionStack τ :=
  { s with
    links := s.links.addNode (.segmentList data) (segmentNode result)
    header := Function.update s.header result { s.header result with threadData := some data } }

/-- `slvm_ExecutionStack_getValidSegment` -/
def getValidSegment [DecidableEq τ] (s : ExecutionStack τ) (t : τ) :
    Option (ℕ × ExecutionStack τ) :=
  match s.getLastSegment t with
  | some segment => some (segment, s)
  | none => do
    let (result, s) ← s.allocateSegment
    let s := if (s.getFirstSegment t).isNone then s.allocateThreadData t result else s
    -- `assert(currentThreadStackData)`
    let data ← s.currentThreadStackData t
    return (result, s.addSegment result data)

/-- `slvm_ExecutionStack_createNewSegment` -/
def createNewSegment (s : ExecutionStack τ) (t : τ) : Option (ℕ × ExecutionStack τ) := do
  -- `assert(currentThreadStackData)`
  let data ← s.currentThreadStackData t
  let (result, s) ← s.allocateSegment
  return (result, s.addSegment result data)

/-- `slvm_ExecutionStack_popSegment`, on a thread that has thread data. -/
def popSegment [DecidableEq τ] (s : ExecutionStack τ) (t : τ) (segment : ℕ) :
    Option (ExecutionStack τ) := do
  let data ← s.currentThreadStackData t
  let links := s.links.removeNode (.segmentList data) (segmentNode segment)
  let currentThreadStackData :=
    if (links.first (.segmentList data)).isNone then
      Function.update s.currentThreadStackData t none
    else s.currentThreadStackData
  return { s with
    links := links.addNode .executionStackFreeList (segmentNode segment)
    currentThreadStackData := currentThreadStackData }

/-! ### The invariant -/

/-- The header of a page that has been carved from the pool. -/
def Carved (pool : StackHeap) (segment : ℕ) : Prop :=
  ∃ page, (page + 1) * pageSize ≤ pool.size ∧ segment = pool.start + page * pageSize + 4032

/-- Which segment is on which list, which segments each thread has, and which segment, if any, has
been allocated and is on no list yet. -/
structure Valid (s : ExecutionStack τ) (segments : SegmentList → List ℕ) (live : τ → List ℕ)
    (loose : Option ℕ) : Prop where
  capacity : s.executionStackMemoryPool.capacity = executionStackCapacity
  fits : s.executionStackMemoryPool.size ≤ executionStackCapacity
  whole : s.executionStackMemoryPool.size % pageSize = 0
  represents : s.links.Represents fun list => (segments list).map segmentNode
  /-- Every carved segment is on a list or loose. -/
  carved : ∀ h, Carved s.executionStackMemoryPool h ↔ (∃ list, h ∈ segments list) ∨ loose = some h
  loose_free : ∀ h, loose = some h → ∀ list, h ∉ segments list
  /-- A thread has no thread data exactly when it has no segments. -/
  live_of_none : ∀ t, s.currentThreadStackData t = none → live t = []
  /-- The thread data lies below the header of the first segment. -/
  live_of_some : ∀ t data, s.currentThreadStackData t = some data →
    live t = segments (.segmentList data) ∧
      ∃ h, (live t ++ loose.toList).head? = some h ∧ data + sizeofThreadStackData = h
  /-- Only the list of some thread has segments, and two threads have different lists. -/
  owner : ∀ data, segments (.segmentList data) ≠ [] → ∃ t, s.currentThreadStackData t = some data
  distinct : ∀ t t' data, s.currentThreadStackData t = some data →
    s.currentThreadStackData t' = some data → t = t'
  threadData : ∀ t, ∀ h ∈ live t, (s.header h).threadData = s.currentThreadStackData t

namespace Valid

variable {s s' : ExecutionStack τ} {segments : SegmentList → List ℕ} {live : τ → List ℕ}
  {loose : Option ℕ} {r : ℕ} {t : τ}

theorem start {start : ℕ} {h : start % pageSize = 0}
    (hs : executionStackInitialize start h = some s) :
    s.Valid (fun _ => []) (fun _ => []) none := by
  unfold executionStackInitialize at hs
  split at hs
  · cases hs
  · obtain rfl := Option.some.inj hs
    refine ⟨rfl, Nat.zero_le _, rfl, Links.empty_represents, fun r => ?_, ?_,
      fun _ _ => rfl, ?_, ?_,
      ?_, ?_⟩
    · constructor
      · rintro ⟨page, hpage, -⟩
        exact absurd hpage (by simp [StackHeap.create])
      · simp
    all_goals simp

theorem mem_carved (h : s.Valid segments live loose) {list : SegmentList}
    (hr : r ∈ segments list) : Carved s.executionStackMemoryPool r :=
  (h.carved r).mpr (Or.inl ⟨list, hr⟩)

/-- A header is followed by nothing in its page, and preceded by almost all of it. -/
theorem le_of_carved {pool : StackHeap} (h : Carved pool r) : 4032 ≤ r := by
  obtain ⟨page, -, rfl⟩ := h
  exact Nat.le_add_left _ _

theorem first_eq (h : s.Valid segments live loose) (list : SegmentList) :
    s.links.first list = ((segments list).map segmentNode).head? :=
  (h.represents.isList list).first_eq

theorem last_eq (h : s.Valid segments live loose) (list : SegmentList) :
    s.links.last list = ((segments list).map segmentNode).getLast? :=
  (h.represents.isList list).last_eq

/-- The segment that is on no list yet has a node that is on no list yet. -/
theorem loose_node (h : s.Valid segments live (some r)) (list : SegmentList) :
    segmentNode r ∉ (segments list).map segmentNode := by
  rw [List.mem_map_of_injective segmentNode_injective]
  exact h.loose_free r rfl list

/-- Which lists the segments are on after one list was changed. -/
theorem map_update (segments : SegmentList → List ℕ) (list : SegmentList) (l : List ℕ) :
    (fun other => (Function.update segments list l other).map segmentNode) =
      Function.update (fun other => (segments other).map segmentNode) list (l.map segmentNode) := by
  funext other
  by_cases hother : other = list
  · subst hother
    simp only [Function.update_self]
  · simp only [Function.update_of_ne hother]

/-- Taking the first segment of the free list. -/
theorem allocateSegment_free (h : s.Valid segments live none) {node : ℕ}
    (hnode : s.links.first .executionStackFreeList = some node) :
    ∃ r rest, node = segmentNode r ∧ segments .executionStackFreeList = r :: rest ∧
      (s.links.removeNode .executionStackFreeList node).Represents fun list =>
        (Function.update segments .executionStackFreeList rest list).map segmentNode := by
  have hfirst := (h.first_eq .executionStackFreeList).symm.trans hnode
  obtain ⟨r, rest, hfree⟩ : ∃ r rest, segments .executionStackFreeList = r :: rest := by
    cases hfree : segments .executionStackFreeList with
    | nil => simp [hfree] at hfirst
    | cons r rest => exact ⟨r, rest, rfl⟩
  rw [hfree, List.map_cons, List.head?_cons] at hfirst
  obtain rfl := Option.some.inj hfirst
  refine ⟨r, rest, rfl, hfree, ?_⟩
  rw [map_update]
  refine h.represents.removeNode (l := []) ?_
  rw [hfree]
  rfl

/-- The segment that is on no list yet is no thread's. -/
theorem loose_not_live (h : s.Valid segments live (some r)) (t : τ) : r ∉ live t := by
  intro hr
  cases hcurrent : s.currentThreadStackData t with
  | none =>
    rw [h.live_of_none t hcurrent] at hr
    exact absurd hr List.not_mem_nil
  | some data =>
    rw [(h.live_of_some t data hcurrent).1] at hr
    exact h.loose_free r rfl _ hr

/-- Clearing the header of a segment that is on no list. -/
theorem clearSegment (h : s.Valid segments live (some r)) :
    (s.clearSegment r).Valid segments live (some r) where
  capacity := h.capacity
  fits := h.fits
  whole := h.whole
  represents := h.represents.clearNode h.loose_node
  carved := h.carved
  loose_free := h.loose_free
  live_of_none := h.live_of_none
  live_of_some := h.live_of_some
  owner := h.owner
  distinct := h.distinct
  threadData t x hx := by
    have hxr : x ≠ r := by
      rintro rfl
      exact h.loose_not_live t hx
    rw [s.clearSegment_header_of_ne hxr]
    exact h.threadData t x hx

/-- The head of the segments of a thread does not depend on the loose segment. -/
theorem head_append (h : s.Valid segments live none) {data : ℕ}
    (hdata : s.currentThreadStackData t = some data) (l : List ℕ) :
    ∃ x, (live t ++ l).head? = some x ∧ data + sizeofThreadStackData = x := by
  obtain ⟨-, x, hx, heq⟩ := h.live_of_some t data hdata
  rw [Option.toList_none, List.append_nil] at hx
  exact ⟨x, by rw [List.head?_append, hx]; rfl, heq⟩

/-- The first segment of the free list, before its header is cleared. -/
theorem take (h : s.Valid segments live none) {rest : List ℕ} {links : Links ℕ SegmentList}
    (hfree : segments .executionStackFreeList = r :: rest)
    (hlinks : links.Represents fun list =>
      (Function.update segments .executionStackFreeList rest list).map segmentNode) :
    ({ s with links := links } : ExecutionStack τ).Valid
      (Function.update segments .executionStackFreeList rest) live (some r) := by
  have hother : ∀ list, list ≠ .executionStackFreeList →
      Function.update segments .executionStackFreeList rest list = segments list :=
    fun list hne => Function.update_of_ne hne _ _
  have hnodup : (r :: rest).Nodup := by
    have hmap := (h.represents.isList .executionStackFreeList).nodup
    rw [hfree] at hmap
    exact List.Nodup.of_map _ hmap
  have hdisjoint : ∀ list, list ≠ .executionStackFreeList → r ∉ segments list := by
    intro list hne hr
    refine h.represents.disjoint _ _ hne.symm (segmentNode r) ?_ (List.mem_map_of_mem hr)
    rw [hfree]
    exact List.mem_map_of_mem List.mem_cons_self
  refine ⟨h.capacity, h.fits, h.whole, hlinks, fun x => ?_, ?_, h.live_of_none, ?_, ?_,
    h.distinct, h.threadData⟩
  · rw [h.carved x]
    constructor
    · rintro (⟨list, hx⟩ | hx)
      · by_cases hlist : list = .executionStackFreeList
        · rw [hlist, hfree] at hx
          rcases List.mem_cons.mp hx with rfl | hx
          · exact Or.inr rfl
          · exact Or.inl ⟨.executionStackFreeList, by rwa [Function.update_self]⟩
        · exact Or.inl ⟨list, by rwa [hother list hlist]⟩
      · cases hx
    · rintro (⟨list, hx⟩ | hx)
      · by_cases hlist : list = .executionStackFreeList
        · rw [hlist, Function.update_self] at hx
          exact Or.inl ⟨.executionStackFreeList, by rw [hfree]; exact List.mem_cons_of_mem r hx⟩
        · rw [hother list hlist] at hx
          exact Or.inl ⟨list, hx⟩
      · obtain rfl := Option.some.inj hx
        exact Or.inl ⟨.executionStackFreeList, by rw [hfree]; exact List.mem_cons_self⟩
  · intro x hx list
    obtain rfl := Option.some.inj hx
    by_cases hlist : list = .executionStackFreeList
    · rw [hlist, Function.update_self]
      exact (List.nodup_cons.mp hnodup).1
    · rw [hother list hlist]
      exact hdisjoint list hlist
  · intro t data hdata
    refine ⟨?_, h.head_append hdata _⟩
    rw [hother _ (by simp)]
    exact (h.live_of_some t data hdata).1
  · intro data hdata
    rw [hother _ (by simp)] at hdata
    exact h.owner data hdata

/-- A page carved from the pool, before its header is cleared. -/
theorem carve (h : s.Valid segments live none) {pool : StackHeap} {base : ℕ}
    (hpool : s.executionStackMemoryPool.allocate pageSize pageSize = (base, pool))
    (hfits : pool.size ≤ pool.capacity) :
    ({ s with executionStackMemoryPool := pool } : ExecutionStack τ).Valid segments live
      (some (base + pageSize - sizeofSegmentHeader)) := by
  have hcapacity := h.capacity
  have hsize := h.fits
  have hwhole := h.whole
  rw [executionStackCapacity_eq] at hcapacity hsize
  have hfit : s.executionStackMemoryPool.size + pageSize + pageSize < 2 ^ 64 := by
    simp only [pageSize]
    omega
  obtain ⟨hbase, hnew⟩ := s.executionStackMemoryPool.allocate_page hfit
  rw [hpool] at hbase hnew
  have hnext : s.executionStackMemoryPool.nextOffset pageSize =
      s.executionStackMemoryPool.size := by
    simp only [StackHeap.nextOffset, pageSize] at hwhole ⊢
    omega
  rw [hnext] at hbase hnew
  have hstart : pool.start = s.executionStackMemoryPool.start := by
    have := s.executionStackMemoryPool.allocate_start pageSize pageSize
    rwa [hpool] at this
  have hcap : pool.capacity = s.executionStackMemoryPool.capacity := by
    have := s.executionStackMemoryPool.allocate_capacity pageSize pageSize
    rwa [hpool] at this
  simp only [pageSize] at hbase hnew hwhole
  have hr : base + pageSize - sizeofSegmentHeader =
      s.executionStackMemoryPool.start + s.executionStackMemoryPool.size + 4032 := by
    simp only [pageSize, sizeofSegmentHeader, hbase]
    omega
  have hcarved : ∀ x, Carved pool x ↔ Carved s.executionStackMemoryPool x ∨
      x = base + pageSize - sizeofSegmentHeader := by
    intro x
    rw [hr]
    constructor
    · rintro ⟨page, hpage, rfl⟩
      rw [hnew] at hpage
      by_cases hold : (page + 1) * pageSize ≤ s.executionStackMemoryPool.size
      · exact Or.inl ⟨page, hold, by rw [hstart]⟩
      · simp only [pageSize] at hold hpage ⊢
        exact Or.inr (by omega)
    · rintro (⟨page, hpage, rfl⟩ | rfl)
      · exact ⟨page, by omega, by rw [hstart]⟩
      · refine ⟨s.executionStackMemoryPool.size / pageSize, ?_, ?_⟩
        · simp only [pageSize]
          omega
        · simp only [pageSize]
          omega
  have hfresh : ¬Carved s.executionStackMemoryPool (base + pageSize - sizeofSegmentHeader) := by
    rintro ⟨page, hpage, heq⟩
    rw [hr] at heq
    simp only [pageSize] at hpage heq
    omega
  refine ⟨hcap.trans h.capacity, ?_, ?_, h.represents, fun x => ?_, ?_, h.live_of_none, ?_, h.owner,
    h.distinct, h.threadData⟩
  · rwa [hcap, h.capacity] at hfits
  · simp only [pageSize]
    omega
  · have hold := h.carved x
    rw [hcarved x, hold, Option.some_inj, @eq_comm _ x]
    simp
  · intro x hx list hmem
    obtain rfl := Option.some.inj hx
    exact hfresh (h.mem_carved hmem)
  · intro t data hdata
    exact ⟨(h.live_of_some t data hdata).1, h.head_append hdata _⟩

/-- **`slvm_ExecutionStack_allocateSegment`** returns the header of a carved page that is on no
list any more, and no thread notices. -/
theorem allocateSegment (h : s.Valid segments live none)
    (hs : s.allocateSegment = some (r, s')) :
    ∃ segments', s'.Valid segments' live (some r) ∧
      s'.currentThreadStackData = s.currentThreadStackData ∧ (s'.header r).stackPointer = r ∧
      ∀ data, segments' (.segmentList data) = segments (.segmentList data) := by
  unfold ExecutionStack.allocateSegment at hs
  split at hs
  · rename_i node hnode
    obtain ⟨r', rest, rfl, hfree, hlinks⟩ := h.allocateSegment_free hnode
    have hr : segmentNode r' + sizeofListNode - sizeofSegmentHeader = r' :=
      Nat.add_sub_cancel r' 64
    simp only [hr, Option.some.injEq, Prod.mk.injEq] at hs
    obtain ⟨rfl, rfl⟩ := hs
    refine ⟨_, (h.take hfree hlinks).clearSegment, rfl, clearSegment_header_self _ _,
      fun data => ?_⟩
    · rw [Function.update_of_ne (by simp)]
  · split at hs
    rename_i base pool hpool
    split at hs
    · rename_i hfits
      simp only [Option.some.injEq, Prod.mk.injEq] at hs
      obtain ⟨rfl, rfl⟩ := hs
      exact ⟨segments, (h.carve hpool hfits).clearSegment, rfl, clearSegment_header_self _ _,
        fun data => rfl⟩
    · cases hs

/-- A thread with thread data has segments. -/
theorem live_ne_nil (h : s.Valid segments live none) {data : ℕ}
    (hdata : s.currentThreadStackData t = some data) : live t ≠ [] := by
  obtain ⟨x, hx, -⟩ := h.head_append hdata []
  rw [List.append_nil] at hx
  rintro hnil
  rw [hnil] at hx
  cases hx

/-- What `slvm_ExecutionStack_getFirstSegment` returns: the node of the first segment. -/
theorem getFirstSegment_eq (h : s.Valid segments live none) (t : τ) :
    s.getFirstSegment t = (live t).head?.map segmentNode := by
  unfold ExecutionStack.getFirstSegment
  cases hcurrent : s.currentThreadStackData t with
  | none =>
    rw [h.live_of_none t hcurrent]
    rfl
  | some data =>
    rw [Option.bind_some, h.first_eq, (h.live_of_some t data hcurrent).1, List.head?_map]

/-- What `slvm_ExecutionStack_getLastSegment` returns: the node of the last segment. -/
theorem getLastSegment_eq (h : s.Valid segments live none) (t : τ) :
    s.getLastSegment t = (live t).getLast?.map segmentNode := by
  unfold ExecutionStack.getLastSegment
  cases hcurrent : s.currentThreadStackData t with
  | none =>
    rw [h.live_of_none t hcurrent]
    rfl
  | some data =>
    rw [Option.bind_some, h.last_eq, (h.live_of_some t data hcurrent).1, List.getLast?_map]

/-- Moving the last segment of a thread to the end of the free list keeps every segment on exactly
one list. -/
theorem segments_popSegment (segments : SegmentList → List ℕ) {data : ℕ} {l : List ℕ}
    (hsegments : l ++ [r] = segments (.segmentList data)) (x : ℕ) :
    (∃ list, x ∈ segments list) ↔ ∃ list, x ∈ Function.update
      (Function.update segments (.segmentList data) l) .executionStackFreeList
      (segments .executionStackFreeList ++ [r]) list := by
  constructor
  · rintro ⟨list, hx⟩
    by_cases hfree : list = .executionStackFreeList
    · subst hfree
      exact ⟨.executionStackFreeList, by
        rw [Function.update_self]; exact List.mem_append_left _ hx⟩
    · by_cases hlist : list = .segmentList data
      · rw [hlist, ← hsegments] at hx
        rcases List.mem_append.mp hx with hx | hx
        · exact ⟨list, by rwa [Function.update_of_ne hfree, hlist, Function.update_self]⟩
        · exact ⟨.executionStackFreeList, by
            rw [Function.update_self]; exact List.mem_append_right _ hx⟩
      · exact ⟨list, by rwa [Function.update_of_ne hfree, Function.update_of_ne hlist]⟩
  · rintro ⟨list, hx⟩
    by_cases hfree : list = .executionStackFreeList
    · rw [hfree, Function.update_self] at hx
      rcases List.mem_append.mp hx with hx | hx
      · exact ⟨_, hx⟩
      · exact ⟨.segmentList data, by rw [← hsegments]; exact List.mem_append_right _ hx⟩
    · rw [Function.update_of_ne hfree] at hx
      by_cases hlist : list = .segmentList data
      · rw [hlist, Function.update_self] at hx
        exact ⟨.segmentList data, by rw [← hsegments]; exact List.mem_append_left _ hx⟩
      · rw [Function.update_of_ne hlist] at hx
        exact ⟨list, hx⟩

/-- The links after the last segment of a thread was moved to the free list. -/
theorem represents_popSegment (h : s.Valid segments live none) {data : ℕ} {l : List ℕ}
    (hsegments : l ++ [r] = segments (.segmentList data)) :
    let links := s.links.removeNode (.segmentList data) (segmentNode r)
    links.first (.segmentList data) = l.head?.map segmentNode ∧
      (links.addNode .executionStackFreeList (segmentNode r)).Represents fun list =>
        (Function.update (Function.update segments (.segmentList data) l) .executionStackFreeList
          (segments .executionStackFreeList ++ [r]) list).map segmentNode := by
  intro links
  have hremoved : links.Represents fun list =>
      (Function.update segments (.segmentList data) l list).map segmentNode := by
    rw [map_update]
    have hnodes : (segments (.segmentList data)).map segmentNode =
        l.map segmentNode ++ segmentNode r :: [] := by
      rw [← hsegments, List.map_append, List.map_singleton]
    simpa only [List.append_nil] using h.represents.removeNode hnodes
  have hnodup : (l ++ [r]).Nodup := by
    rw [hsegments]
    exact (h.represents.isList (.segmentList data)).nodup.of_map _
  have houtside : ∀ list, r ∉ Function.update segments (.segmentList data) l list := by
    intro list hr
    by_cases hlist : list = .segmentList data
    · rw [hlist, Function.update_self] at hr
      exact (List.nodup_append.mp hnodup).2.2 r hr r List.mem_cons_self rfl
    · rw [Function.update_of_ne hlist] at hr
      refine h.represents.disjoint list (.segmentList data) hlist (segmentNode r)
        (List.mem_map_of_mem hr) ?_
      rw [← hsegments]
      exact List.mem_map_of_mem (List.mem_append_right _ List.mem_cons_self)
  refine ⟨?_, ?_⟩
  · rw [(hremoved.isList (.segmentList data)).first_eq]
    simp only [Function.update_self, List.head?_map]
  · have hnode : ∀ list, segmentNode r ∉
        (Function.update segments (.segmentList data) l list).map segmentNode := by
      intro list
      rw [List.mem_map_of_injective segmentNode_injective]
      exact houtside list
    have hadded := @Links.Represents.addNode _ _ _ _ _ .executionStackFreeList _ _ hremoved hnode
    rw [map_update, List.map_append, List.map_singleton]
    rwa [Function.update_of_ne (by simp)] at hadded

variable [DecidableEq τ]

/-- A thread without thread data gets it below its first segment. -/
theorem allocateThreadData (h : s.Valid segments live (some r))
    (hnone : s.currentThreadStackData t = none) (hr : (s.header r).stackPointer = r)
    (hlive : ∀ t' data, s.currentThreadStackData t' = some data → live t' ≠ []) :
    (s.allocateThreadData t r).Valid segments live (some r) ∧
      (s.allocateThreadData t r).currentThreadStackData t = some (r - sizeofThreadStackData) := by
  have hle := le_of_carved ((h.carved r).mpr (Or.inr rfl))
  have hlivet := h.live_of_none t hnone
  have hother : ∀ t' data, s.currentThreadStackData t' = some data → t' ≠ t := by
    rintro t' data hdata rfl
    rw [hnone] at hdata
    cases hdata
  -- the header of the first segment tells the data of threads apart
  have hfresh : ∀ t', s.currentThreadStackData t' ≠ some (r - sizeofThreadStackData) := by
    intro t' hdata
    obtain ⟨-, x, hx, heq⟩ := h.live_of_some t' _ hdata
    obtain ⟨y, l, hy⟩ := List.exists_cons_of_ne_nil (hlive t' _ hdata)
    rw [hy, List.cons_append, List.head?_cons] at hx
    obtain rfl := Option.some.inj hx
    refine h.loose_not_live t' ?_
    rw [hy, show r = y by simp only [sizeofThreadStackData] at heq; omega]
    exact List.mem_cons_self
  have hempty : segments (.segmentList (r - sizeofThreadStackData)) = [] := by
    by_contra hne
    obtain ⟨t', ht'⟩ := h.owner _ hne
    exact hfresh t' ht'
  have hdata : (s.header r).stackPointer - (sizeofThreadStackData + 15) / 16 * 16 =
      r - sizeofThreadStackData := by
    rw [hr]
    rfl
  have hself : (s.allocateThreadData t r).currentThreadStackData t =
      some (r - sizeofThreadStackData) := by
    simp only [ExecutionStack.allocateThreadData, Function.update_self, hdata]
  have hcurrent : ∀ t', t' ≠ t →
      (s.allocateThreadData t r).currentThreadStackData t' = s.currentThreadStackData t' :=
    fun t' hne => s.allocateThreadData_current_of_ne hne r
  refine ⟨⟨h.capacity, h.fits, h.whole, ?_, h.carved, h.loose_free, fun t' ht' => ?_,
    fun t' data ht' => ?_, fun data hne => ?_, fun t₁ t₂ data h₁ h₂ => ?_,
    fun t' x hx => ?_⟩, hself⟩
  · simp only [ExecutionStack.allocateThreadData, hdata]
    exact h.represents.clearList (by rw [hempty, List.map_nil])
  · by_cases hne : t' = t
    · rw [hne]
      exact hlivet
    · rw [hcurrent t' hne] at ht'
      exact h.live_of_none t' ht'
  · by_cases hne : t' = t
    · subst hne
      rw [hself, Option.some_inj] at ht'
      rw [← ht', hempty, hlivet]
      refine ⟨rfl, r, rfl, ?_⟩
      simp only [sizeofThreadStackData]
      omega
    · rw [hcurrent t' hne] at ht'
      exact h.live_of_some t' data ht'
  · obtain ⟨t', ht'⟩ := h.owner data hne
    exact ⟨t', (hcurrent t' (hother t' data ht')).trans ht'⟩
  · by_cases hne₁ : t₁ = t <;> by_cases hne₂ : t₂ = t
    · exact hne₁.trans hne₂.symm
    · rw [hne₁, hself, Option.some_inj] at h₁
      rw [hcurrent t₂ hne₂, ← h₁] at h₂
      exact absurd h₂ (hfresh t₂)
    · rw [hne₂, hself, Option.some_inj] at h₂
      rw [hcurrent t₁ hne₁, ← h₂] at h₁
      exact absurd h₁ (hfresh t₁)
    · rw [hcurrent t₁ hne₁] at h₁
      rw [hcurrent t₂ hne₂] at h₂
      exact h.distinct t₁ t₂ data h₁ h₂
  · have hne : t' ≠ t := by
      rintro rfl
      rw [hlivet] at hx
      exact absurd hx List.not_mem_nil
    have hxr : x ≠ r := by
      rintro rfl
      exact h.loose_not_live t' hx
    have hheader : (s.allocateThreadData t r).header x = s.header x := by
      simp only [ExecutionStack.allocateThreadData, Function.update_of_ne hxr]
    rw [hheader, hcurrent t' hne]
    exact h.threadData t' x hx

/-- Appending the loose segment to the segments of a thread. -/
theorem addSegment (h : s.Valid segments live (some r)) {data : ℕ}
    (hdata : s.currentThreadStackData t = some data)
    (hlive : ∀ t' data', t' ≠ t → s.currentThreadStackData t' = some data' → live t' ≠ []) :
    (s.addSegment r data).Valid
      (Function.update segments (.segmentList data) (segments (.segmentList data) ++ [r]))
      (Function.update live t (live t ++ [r])) none where
  capacity := h.capacity
  fits := h.fits
  whole := h.whole
  represents := by
    rw [map_update, List.map_append]
    exact h.represents.addNode h.loose_node
  carved x := by
    refine (h.carved x).trans ⟨?_, ?_⟩
    · rintro (⟨list, hx⟩ | hx)
      · by_cases hlist : list = .segmentList data
        · rw [hlist] at hx
          exact Or.inl ⟨.segmentList data, by
            rw [Function.update_self]; exact List.mem_append_left _ hx⟩
        · exact Or.inl ⟨list, by rwa [Function.update_of_ne hlist]⟩
      · exact Or.inl ⟨.segmentList data, by
          rw [Function.update_self, Option.some.inj hx]
          exact List.mem_append_right _ List.mem_cons_self⟩
    · rintro (⟨list, hx⟩ | hx)
      · by_cases hlist : list = .segmentList data
        · rw [hlist, Function.update_self] at hx
          rcases List.mem_append.mp hx with hx | hx
          · exact Or.inl ⟨_, hx⟩
          · exact Or.inr (congrArg some (List.mem_singleton.mp hx).symm)
        · rw [Function.update_of_ne hlist] at hx
          exact Or.inl ⟨list, hx⟩
      · cases hx
  loose_free _ hx := by cases hx
  live_of_none t' ht' := by
    have hne : t' ≠ t := by
      rintro rfl
      rw [show s.currentThreadStackData t' = none from ht'] at hdata
      cases hdata
    rw [Function.update_of_ne hne]
    exact h.live_of_none t' ht'
  live_of_some t' data' ht' := by
    replace ht' : s.currentThreadStackData t' = some data' := ht'
    obtain ⟨hlive', x, hx, heq⟩ := h.live_of_some t' data' ht'
    by_cases hne : t' = t
    · subst hne
      rw [ht', Option.some_inj] at hdata
      subst hdata
      rw [Function.update_self, Function.update_self, hlive']
      refine ⟨rfl, x, ?_, heq⟩
      rw [hlive'] at hx
      rwa [Option.toList_none, List.append_nil]
    · have hlist : SegmentList.segmentList data' ≠ .segmentList data := by
        intro hlist
        rw [SegmentList.segmentList.inj hlist] at ht'
        exact hne (h.distinct t' t data ht' hdata)
      rw [Function.update_of_ne hne, Function.update_of_ne hlist]
      refine ⟨hlive', x, ?_, heq⟩
      obtain ⟨y, l, hy⟩ := List.exists_cons_of_ne_nil (hlive t' data' hne ht')
      rw [hy] at hx ⊢
      exact hx
  owner data' hne := by
    by_cases hlist : data' = data
    · rw [hlist]
      exact ⟨t, hdata⟩
    · rw [Function.update_of_ne (fun he => hlist (SegmentList.segmentList.inj he))] at hne
      exact h.owner data' hne
  distinct := h.distinct
  threadData t' x hx := by
    have hmem : x ∈ live t' ∨ t' = t ∧ x = r := by
      by_cases hne : t' = t
      · rw [hne, Function.update_self] at hx
        rcases List.mem_append.mp hx with hx | hx
        · exact Or.inl (hne ▸ hx)
        · exact Or.inr ⟨hne, List.mem_singleton.mp hx⟩
      · rw [Function.update_of_ne hne] at hx
        exact Or.inl hx
    rcases hmem with hmem | ⟨rfl, rfl⟩
    · have hxr : x ≠ r := by
        rintro rfl
        exact h.loose_not_live t' hmem
      simp only [ExecutionStack.addSegment, Function.update_of_ne hxr]
      exact h.threadData t' x hmem
    · simp only [ExecutionStack.addSegment, Function.update_self]
      exact hdata.symm

/-- **`slvm_ExecutionStack_getValidSegment` on a thread without segments** starts the thread. -/
theorem getValidSegment_first (h : s.Valid segments live none) (hlive : live t = [])
    (hs : s.getValidSegment t = some (r, s')) :
    ∃ segments', s'.Valid segments' (Function.update live t [r]) none := by
  have hnone : s.currentThreadStackData t = none := by
    by_contra hne
    obtain ⟨data, hdata⟩ := Option.ne_none_iff_exists'.mp hne
    exact h.live_ne_nil hdata hlive
  have hlast : s.getLastSegment t = none := by
    rw [h.getLastSegment_eq, hlive]
    rfl
  unfold ExecutionStack.getValidSegment at hs
  rw [hlast] at hs
  simp only [Option.bind_eq_bind, Option.bind_eq_some_iff, Option.pure_def, Option.some.injEq,
    Prod.mk.injEq, Prod.exists] at hs
  obtain ⟨result, s₁, hallocate, data, hdata, rfl, rfl⟩ := hs
  obtain ⟨segments₁, h₁, hcurrent, hsp, -⟩ := h.allocateSegment hallocate
  have hfirst : s₁.getFirstSegment t = none := by
    unfold ExecutionStack.getFirstSegment
    rw [hcurrent, hnone]
    rfl
  rw [hfirst, Option.isNone_none, if_pos rfl] at hdata ⊢
  have hnonempty : ∀ t' data', s₁.currentThreadStackData t' = some data' → live t' ≠ [] := by
    intro t' data' ht'
    rw [hcurrent] at ht'
    exact h.live_ne_nil ht'
  obtain ⟨h₂, -⟩ := h₁.allocateThreadData ((congrFun hcurrent t).trans hnone) hsp hnonempty
  have h₃ := h₂.addSegment hdata fun t' data' hne ht' => by
    refine hnonempty t' data' ?_
    rwa [s₁.allocateThreadData_current_of_ne hne] at ht'
  rw [hlive] at h₃
  exact ⟨_, h₃⟩

/-- **`slvm_ExecutionStack_createNewSegment`** appends a segment to those of its thread. -/
theorem createNewSegment (h : s.Valid segments live none)
    (hs : s.createNewSegment t = some (r, s')) :
    ∃ segments', s'.Valid segments' (Function.update live t (live t ++ [r])) none := by
  unfold ExecutionStack.createNewSegment at hs
  simp only [Option.bind_eq_bind, Option.bind_eq_some_iff, Option.pure_def, Option.some.injEq,
    Prod.mk.injEq, Prod.exists] at hs
  obtain ⟨data, hdata, result, s₁, hallocate, rfl, rfl⟩ := hs
  obtain ⟨segments₁, h₁, hcurrent, -, -⟩ := h.allocateSegment hallocate
  refine ⟨_, h₁.addSegment ((congrFun hcurrent t).trans hdata) fun t' data' _ ht' => ?_⟩
  rw [hcurrent] at ht'
  exact h.live_ne_nil ht'


/-- **`slvm_ExecutionStack_popSegment` of the last segment** moves it to the end of the
free list. -/
theorem popSegment (h : s.Valid segments live none) {l : List ℕ} (hlive : live t = l ++ [r])
    (hs : s.popSegment t r = some s') :
    ∃ segments', s'.Valid segments' (Function.update live t l) none := by
  unfold ExecutionStack.popSegment at hs
  simp only [Option.bind_eq_bind, Option.bind_eq_some_iff, Option.pure_def, Option.some.injEq] at hs
  obtain ⟨data, hdata, hs⟩ := hs
  obtain ⟨hsegments, x, hx, heq⟩ := h.live_of_some t data hdata
  rw [hlive] at hsegments
  obtain ⟨hfirst, hlinks⟩ := h.represents_popSegment hsegments
  -- the thread loses its data with its last segment
  have hcurrent : ∀ t', s'.currentThreadStackData t' =
      if t' = t ∧ l = [] then none else s.currentThreadStackData t' := by
    intro t'
    rw [hfirst] at hs
    cases l with
    | nil =>
      rw [← hs]
      simp [Function.update_apply]
    | cons y l =>
      rw [← hs]
      simp
  have hrest : s'.executionStackMemoryPool = s.executionStackMemoryPool ∧ s'.header = s.header ∧
      s'.links = (s.links.removeNode (.segmentList data) (segmentNode r)).addNode
        .executionStackFreeList (segmentNode r) := by
    rw [← hs]
    exact ⟨rfl, rfl, rfl⟩
  obtain ⟨hpool, hheader, hlinks'⟩ := hrest
  have hsome : ∀ t' data', s'.currentThreadStackData t' = some data' →
      s.currentThreadStackData t' = some data' ∧ (t' = t → l ≠ []) := by
    intro t' data' ht'
    rw [hcurrent] at ht'
    split at ht'
    · cases ht'
    · rename_i hne
      exact ⟨ht', fun ht hl => hne ⟨ht, hl⟩⟩
  refine ⟨Function.update (Function.update segments (.segmentList data) l) .executionStackFreeList
      (segments .executionStackFreeList ++ [r]), ?_, ?_, ?_, ?_, fun y => ?_, fun _ hy => ?_,
    fun t' ht' => ?_, fun t' data' ht' => ?_, fun data' hne => ?_, fun t₁ t₂ data' h₁ h₂ => ?_,
    fun t' y hy => ?_⟩
  · rw [hpool]; exact h.capacity
  · rw [hpool]; exact h.fits
  · rw [hpool]; exact h.whole
  · rw [hlinks']; exact hlinks
  · rw [hpool, h.carved y, ← segments_popSegment segments hsegments y]
  · cases hy
  · by_cases hne : t' = t
    · rw [hne, hcurrent] at ht'
      rw [hne, Function.update_self]
      by_contra hl
      rw [if_neg (fun h => hl h.2), hdata] at ht'
      cases ht'
    · rw [Function.update_of_ne hne]
      rw [hcurrent, if_neg (fun h => hne h.1)] at ht'
      exact h.live_of_none t' ht'
  · obtain ⟨hold, hl⟩ := hsome t' data' ht'
    have hfree : SegmentList.segmentList data' ≠ .executionStackFreeList := by simp
    rw [Function.update_of_ne hfree]
    by_cases hne : t' = t
    · subst hne
      rw [hdata, Option.some_inj] at hold
      subst hold
      rw [Function.update_self, Function.update_self]
      obtain ⟨y, l', rfl⟩ := List.exists_cons_of_ne_nil (hl rfl)
      rw [hlive] at hx
      exact ⟨rfl, x, hx, heq⟩
    · have hlist : SegmentList.segmentList data' ≠ .segmentList data := by
        intro hlist
        rw [SegmentList.segmentList.inj hlist] at hold
        exact hne (h.distinct t' t data hold hdata)
      rw [Function.update_of_ne hne, Function.update_of_ne hlist]
      exact h.live_of_some t' data' hold
  · rw [Function.update_of_ne (by simp)] at hne
    by_cases hdata' : data' = data
    · rw [hdata', Function.update_self] at hne
      refine ⟨t, ?_⟩
      rw [hcurrent, if_neg (fun h => hne h.2), hdata, hdata']
    · rw [Function.update_of_ne (fun he => hdata' (SegmentList.segmentList.inj he))] at hne
      obtain ⟨t', ht'⟩ := h.owner data' hne
      refine ⟨t', ?_⟩
      rw [hcurrent, if_neg, ht']
      rintro ⟨rfl, -⟩
      exact hdata' (Option.some.inj (ht'.symm.trans hdata))
  · exact h.distinct t₁ t₂ data' (hsome t₁ data' h₁).1 (hsome t₂ data' h₂).1
  · rw [hheader, hcurrent]
    by_cases hne : t' = t
    · rw [hne, Function.update_self] at hy
      rw [if_neg (fun h => List.ne_nil_of_mem hy h.2), hne]
      exact h.threadData t y (by rw [hlive]; exact List.mem_append_left _ hy)
    · rw [Function.update_of_ne hne] at hy
      rw [if_neg (fun h => hne h.1)]
      exact h.threadData t' y hy

end Valid

end ExecutionStack

/-! ### Runs -/

/-- A state of a run, with the live segments of each thread in order: the headers that were
allocated for it and not popped since. -/
structure SegmentRun (τ : Type) where
  manager : ExecutionStack τ
  live : τ → List ℕ

namespace SegmentRun

variable {τ : Type} [DecidableEq τ]

/-- One operation of some thread. -/
inductive Step : SegmentRun τ → SegmentRun τ → Prop
  /-- `slvm_ExecutionStack_getValidSegment` on a thread without segments. -/
  | getFirstValidSegment {s : SegmentRun τ} {t : τ} {r : ℕ} {manager : ExecutionStack τ}
      (hlive : s.live t = []) (h : s.manager.getValidSegment t = some (r, manager)) :
      Step s ⟨manager, Function.update s.live t [r]⟩
  /-- `slvm_ExecutionStack_getValidSegment` on a thread that has segments. -/
  | getValidSegment {s : SegmentRun τ} {t : τ} {r : ℕ} {manager : ExecutionStack τ}
      (hlive : s.live t ≠ []) (h : s.manager.getValidSegment t = some (r, manager)) :
      Step s ⟨manager, s.live⟩
  | createNewSegment {s : SegmentRun τ} {t : τ} {r : ℕ} {manager : ExecutionStack τ}
      (h : s.manager.createNewSegment t = some (r, manager)) :
      Step s ⟨manager, Function.update s.live t (s.live t ++ [r])⟩
  /-- `slvm_ExecutionStack_popSegment` of the last segment of a thread. -/
  | popSegment {s : SegmentRun τ} {t : τ} {r : ℕ} {l : List ℕ} {manager : ExecutionStack τ}
      (hlive : s.live t = l ++ [r]) (h : s.manager.popSegment t r = some manager) :
      Step s ⟨manager, Function.update s.live t l⟩

/-- A state of a run that begins with `slvm_ExecutionStack_initialize`. -/
def Reachable (s : SegmentRun τ) : Prop :=
  ∃ (start : ℕ) (h : start % pageSize = 0) (manager : ExecutionStack τ),
    ExecutionStack.executionStackInitialize start h = some manager ∧
      ReflTransGen Step ⟨manager, fun _ => []⟩ s

/-- The invariant of a run. -/
def Valid (s : SegmentRun τ) : Prop := ∃ segments, s.manager.Valid segments s.live none

/-- On a thread with segments `slvm_ExecutionStack_getValidSegment` is
`slvm_ExecutionStack_getLastSegment`. -/
theorem Valid.getValidSegment_of_live {s : SegmentRun τ} (h : s.Valid) {t : τ}
    (hlive : s.live t ≠ []) :
    s.manager.getValidSegment t =
      some (segmentNode ((s.live t).getLast hlive), s.manager) := by
  obtain ⟨segments, h⟩ := h
  have hlast := h.getLastSegment_eq t
  rw [List.getLast?_eq_some_getLast hlive, Option.map_some] at hlast
  unfold ExecutionStack.getValidSegment
  rw [hlast]

/-- **One operation** keeps the invariant. -/
theorem Valid.step {s s' : SegmentRun τ} (h : s.Valid) (hstep : Step s s') : s'.Valid := by
  cases hstep with
  | getFirstValidSegment hlive hs => exact h.elim fun _ h => h.getValidSegment_first hlive hs
  | getValidSegment hlive hs =>
    rw [h.getValidSegment_of_live hlive] at hs
    obtain ⟨rfl, rfl⟩ := Prod.mk.inj (Option.some.inj hs)
    exact h
  | createNewSegment hs => exact h.elim fun _ h => h.createNewSegment hs
  | popSegment hlive hs => exact h.elim fun _ h => h.popSegment hlive hs

/-- **Every state of a run is valid.** -/
theorem valid_of_run {s : SegmentRun τ} (h : Reachable s) : s.Valid := by
  obtain ⟨start, hstart, manager, hmanager, hrun⟩ := h
  induction hrun with
  | refl => exact ⟨_, ExecutionStack.Valid.start hmanager⟩
  | tail _ hstep ih => exact ih.step hstep

/-- Every live segment is the header at the very end of a page of the pool, and no segment is live
twice. -/
theorem Valid.live_carved {s : SegmentRun τ} (h : s.Valid) {t : τ} {r : ℕ} (hr : r ∈ s.live t) :
    ExecutionStack.Carved s.manager.executionStackMemoryPool r ∧
      (s.live t).Nodup ∧ ∀ t', r ∈ s.live t' → t' = t := by
  obtain ⟨segments, h⟩ := h
  have hdata : ∀ t, ∀ x ∈ s.live t, ∃ data, s.manager.currentThreadStackData t = some data ∧
      s.live t = segments (.segmentList data) := by
    intro t x hx
    cases hcurrent : s.manager.currentThreadStackData t with
    | none =>
      rw [h.live_of_none t hcurrent] at hx
      exact absurd hx List.not_mem_nil
    | some data => exact ⟨data, rfl, (h.live_of_some t data hcurrent).1⟩
  obtain ⟨data, hcurrent, hlive⟩ := hdata t r hr
  refine ⟨?_, ?_, fun t' hr' => ?_⟩
  · rw [hlive] at hr
    exact h.mem_carved hr
  · rw [hlive]
    exact (h.represents.isList (.segmentList data)).nodup.of_map _
  · obtain ⟨data', hcurrent', hlive'⟩ := hdata t' r hr'
    by_contra hne
    have hlist : SegmentList.segmentList data' ≠ .segmentList data := by
      intro hlist
      rw [SegmentList.segmentList.inj hlist] at hcurrent'
      exact hne (h.distinct t' t data hcurrent' hcurrent)
    rw [hlive] at hr
    rw [hlive'] at hr'
    exact h.represents.disjoint _ _ hlist (segmentNode r) (List.mem_map_of_mem hr')
      (List.mem_map_of_mem hr)

/-! ### Where the segments are -/

/-- The segments are on the lists `segments`: each on exactly one of them, that of a thread or the
free list, in a page of its own. -/
structure Listed (s : SegmentRun τ) (segments : SegmentList → List ℕ) : Prop where
  isList : ∀ list, s.manager.links.IsList list ((segments list).map segmentNode)
  onOneList : ∀ r, ExecutionStack.Carved s.manager.executionStackMemoryPool r →
    ∃! list, r ∈ segments list
  nodup : ∀ list, (segments list).Nodup
  carved : ∀ list, ∀ r ∈ segments list,
    ExecutionStack.Carved s.manager.executionStackMemoryPool r
  thread : ∀ data, segments (.segmentList data) ≠ [] →
    ∃! t, s.manager.currentThreadStackData t = some data
  /-- A header ends its page. -/
  page : ∀ r, ExecutionStack.Carved s.manager.executionStackMemoryPool r →
    (r + sizeofSegmentHeader) % pageSize = 0 ∧
      s.manager.executionStackMemoryPool.start + pageSize ≤ r + sizeofSegmentHeader ∧
      r + sizeofSegmentHeader ≤
        s.manager.executionStackMemoryPool.start + s.manager.executionStackMemoryPool.size
  live : ∀ t data, s.manager.currentThreadStackData t = some data →
    s.live t = segments (.segmentList data)

/-- The thread data of a thread lies in its first segment, and every segment of it knows it. -/
structure HoldsThreadData (s : SegmentRun τ) (t : τ) : Prop where
  threadData : ∀ r ∈ s.live t,
    (s.manager.header r).threadData = s.manager.currentThreadStackData t
  inside : ∀ data, s.manager.currentThreadStackData t = some data →
    ∃ r, (s.live t).head? = some r ∧ r + sizeofSegmentHeader ≤ data + pageSize ∧
      data + sizeofThreadStackData ≤ r
  eq_none_iff : s.manager.currentThreadStackData t = none ↔ s.live t = []

/-- Two segments are in different pages. -/
theorem page_disjoint {pool : StackHeap} {r r' : ℕ} (hr : ExecutionStack.Carved pool r)
    (hr' : ExecutionStack.Carved pool r') (hne : r ≠ r') :
    r + pageSize ≤ r' ∨ r' + pageSize ≤ r := by
  obtain ⟨page, -, rfl⟩ := hr
  obtain ⟨page', -, rfl⟩ := hr'
  simp only [pageSize] at hne ⊢
  omega

omit [DecidableEq τ] in
theorem Valid.listed {s : SegmentRun τ} (h : s.Valid) : ∃ segments, s.Listed segments := by
  obtain ⟨segments, h⟩ := h
  have hstart := s.manager.executionStackMemoryPool.start_aligned
  refine ⟨segments, h.represents.isList, fun r hr => ?_,
    fun list => (h.represents.isList list).nodup.of_map _, fun list r hr => h.mem_carved hr,
    fun data hne => ?_, fun r hr => ?_, fun t data ht => (h.live_of_some t data ht).1⟩
  · obtain ⟨list, hlist⟩ := ((h.carved r).mp hr).resolve_right (by simp)
    refine ⟨list, hlist, fun other hother => ?_⟩
    by_contra hne
    exact h.represents.disjoint other list hne (segmentNode r) (List.mem_map_of_mem hother)
      (List.mem_map_of_mem hlist)
  · obtain ⟨t, ht⟩ := h.owner data hne
    exact ⟨t, ht, fun t' ht' => h.distinct t' t data ht' ht⟩
  · obtain ⟨page, hpage, rfl⟩ := hr
    simp only [pageSize, sizeofSegmentHeader] at hstart hpage ⊢
    omega

omit [DecidableEq τ] in
theorem Valid.holdsThreadData {s : SegmentRun τ} (h : s.Valid) (t : τ) : s.HoldsThreadData t := by
  obtain ⟨segments, h⟩ := h
  refine ⟨h.threadData t, fun data hdata => ?_, ?_⟩
  · obtain ⟨r, hr, heq⟩ := h.head_append hdata []
    rw [List.append_nil] at hr
    refine ⟨r, hr, ?_, heq.le⟩
    simp only [sizeofSegmentHeader, pageSize, sizeofThreadStackData] at heq ⊢
    omega
  · constructor
    · exact h.live_of_none t
    · intro hlive
      by_contra hne
      obtain ⟨data, hdata⟩ := Option.ne_none_iff_exists'.mp hne
      exact h.live_ne_nil hdata hlive

/-- **Every segment is on one list**, in every state of every run of any number of threads, in a
page of its own, and every thread finds its data from its segments. -/
theorem listed_of_run (s : SegmentRun τ) (h : Reachable s) :
    (∃ segments, s.Listed segments) ∧
      (∀ r r', ExecutionStack.Carved s.manager.executionStackMemoryPool r →
        ExecutionStack.Carved s.manager.executionStackMemoryPool r' → r ≠ r' →
        r + pageSize ≤ r' ∨ r' + pageSize ≤ r) ∧
      ∀ t, s.HoldsThreadData t :=
  ⟨(valid_of_run h).listed, fun _ _ hr hr' => page_disjoint hr hr',
    (valid_of_run h).holdsThreadData⟩

/-- A manager in an address space at 4096. -/
def initialManager {τ : Type} : ExecutionStack τ where
  executionStackMemoryPool := StackHeap.create 4096 executionStackCapacity rfl
  links := Links.empty
  header := fun _ => ExecutionStackSegmentHeader.zero
  currentThreadStackData := fun _ => none

/-- Two threads take their first segments; the first makes a second segment and gives it up, and the
second thread is given the same page. -/
theorem exists_recycled :
    ∃ m₁ m₂ m₃ m₄ m₅ : ExecutionStack Bool,
      initialManager.getValidSegment false = some (8128, m₁) ∧
      m₁.getValidSegment true = some (12224, m₂) ∧
      m₂.createNewSegment false = some (16320, m₃) ∧ m₃.popSegment false 16320 = some m₄ ∧
      m₄.createNewSegment true = some (16320, m₅) := by
  have hrun : ((initialManager : ExecutionStack Bool).getValidSegment false >>= fun p₁ =>
      p₁.2.getValidSegment true >>= fun p₂ => p₂.2.createNewSegment false >>= fun p₃ =>
      p₃.2.popSegment false 16320 >>= fun m₄ => (m₄.createNewSegment true).map fun p₅ =>
        (p₁.1, p₂.1, p₃.1, p₅.1)) = some (8128, 12224, 16320, 16320) := by
    decide +kernel
  simp only [bind, Option.bind_eq_some_iff, Option.map_eq_some_iff, Prod.mk.injEq] at hrun
  obtain ⟨⟨_, m₁⟩, h₁, ⟨_, m₂⟩, h₂, ⟨_, m₃⟩, h₃, m₄, h₄, ⟨_, m₅⟩, h₅, rfl, rfl, rfl, rfl⟩ := hrun
  exact ⟨m₁, m₂, m₃, m₄, m₅, h₁, h₂, h₃, h₄, h₅⟩

theorem listed_of_run_recycled :
    ∃ s : SegmentRun Bool, Reachable s ∧ s.live false = [8128] ∧ s.live true = [12224, 16320] ∧
      (∃ segments, s.Listed segments) ∧
        (∀ r r', ExecutionStack.Carved s.manager.executionStackMemoryPool r →
          ExecutionStack.Carved s.manager.executionStackMemoryPool r' → r ≠ r' →
          r + pageSize ≤ r' ∨ r' + pageSize ≤ r) ∧
        ∀ t, s.HoldsThreadData t := by
  obtain ⟨m₁, m₂, m₃, m₄, m₅, h₁, h₂, h₃, h₄, h₅⟩ := exists_recycled
  have hreachable : Reachable _ := ⟨4096, rfl, initialManager, rfl,
    ((((ReflTransGen.single (Step.getFirstValidSegment rfl h₁)).tail
      (Step.getFirstValidSegment rfl h₂)).tail (Step.createNewSegment h₃)).tail
      (Step.popSegment (l := [8128]) rfl h₄)).tail (Step.createNewSegment h₅)⟩
  exact ⟨_, hreachable, rfl, rfl, listed_of_run _ hreachable⟩

/-- The getters return the headers of the first and the last live segment of a thread. -/
def AnswersHeaders (s : SegmentRun τ) (t : τ) : Prop :=
  s.manager.getFirstSegment t = (s.live t).head? ∧
    s.manager.getLastSegment t = (s.live t).getLast? ∧
    (s.live t ≠ [] → (s.manager.getValidSegment t).map Prod.fst = (s.live t).getLast?)

/-- **In every reachable state the getters return the headers of live segments only for a thread
that has none**: each of them returns the list node of the segment instead, 48 bytes further on. -/
theorem answersHeaders_iff_of_run (s : SegmentRun τ) (h : Reachable s) (t : τ) :
    AnswersHeaders s t ↔ s.live t = [] := by
  obtain ⟨segments, hvalid⟩ := valid_of_run h
  rw [AnswersHeaders, hvalid.getFirstSegment_eq, hvalid.getLastSegment_eq]
  constructor
  · rintro ⟨hfirst, -, -⟩
    cases hlive : s.live t with
    | nil => rfl
    | cons r rest =>
      rw [hlive, List.head?_cons, Option.map_some, Option.some_inj, segmentNode] at hfirst
      omega
  · intro hlive
    rw [hlive]
    exact ⟨rfl, rfl, fun hne => absurd rfl hne⟩

/-- After its first send the only live segment of the thread is the header at 8128. -/
theorem exists_firstSend : ∃ manager, initialManager.getValidSegment () = some (8128, manager) ∧
    manager.getLastSegment () = some 8176 := by
  have hnone : (initialManager.getValidSegment ()).isSome := by decide +kernel
  obtain ⟨⟨r, manager⟩, h⟩ := Option.isSome_iff_exists.mp hnone
  have hr : (initialManager.getValidSegment ()).map Prod.fst = some 8128 := by decide +kernel
  have hlast : (initialManager.getValidSegment ()).bind (fun p => p.2.getLastSegment ()) =
      some 8176 := by decide +kernel
  rw [h] at hr hlast
  obtain rfl : r = 8128 := Option.some.inj hr
  exact ⟨manager, h, hlast⟩

theorem reachable_firstSend {manager : ExecutionStack Unit}
    (h : initialManager.getValidSegment () = some (8128, manager)) :
    Reachable ⟨manager, Function.update (fun _ => []) () [8128]⟩ :=
  ⟨4096, rfl, initialManager, rfl, ReflTransGen.single (Step.getFirstValidSegment rfl h)⟩

theorem answersHeaders_iff_of_run_firstSend :
    ∃ manager, initialManager.getValidSegment () = some (8128, manager) ∧
      (AnswersHeaders ⟨manager, Function.update (fun _ => []) () [8128]⟩ () ↔ [8128] = []) := by
  obtain ⟨manager, h, -⟩ := exists_firstSend
  exact ⟨manager, h, answersHeaders_iff_of_run _ (reachable_firstSend h) ()⟩

/-- After the first send of a thread its last segment is not the header of a segment. -/
theorem not_answersHeaders_firstSend :
    ∃ s : SegmentRun Unit, Reachable s ∧ s.live () = [8128] ∧
      s.manager.getLastSegment () = some 8176 ∧ ¬AnswersHeaders s () := by
  obtain ⟨manager, h, hlast⟩ := exists_firstSend
  refine ⟨_, reachable_firstSend h, rfl, hlast, ?_⟩
  rintro ⟨-, hheader, -⟩
  rw [hlast] at hheader
  exact absurd (Option.some.inj hheader) (by decide)

end SegmentRun

end SlvmNative
