import SlvmNative.CompactingHeap

/-!
# Where the walk of the compacting heap ends

Runs that allocate objects of any format and size with `slvm_Behavior_basicNew` and
`slvm_Behavior_basicNewMixedNative`, and the closing assertion of `slvm_spur_heap_iterate` in their
states.

## The distinction that decides it

The walker rounds its position up to 16 bytes after every object. The allocator rounds before an
object, and what it records as the size of the heap is the unrounded end of the last one. Pre-header
and header take 16 or 32 bytes, so that end is on a 16-byte boundary exactly when the last object
has an even number of slots; behind every other object both sides round.

`slvm_Behavior_basicNewMixedNative` does not ask whether its behavior is mixed. If it is not, the
walker takes the word with both slot counts for one number. The pointers are counted in its upper
half, so they add a multiple of 2^35 bytes, modulo 2^64, to the size.

## Main definitions

* `NewObject`, `NewObject.Readable` — what is remembered of an allocation, and whether the walker
  finds its size
* `AllocationRun`, `AllocationRun.Step` — allocations of any kind, and stores, in any order

## Main results

* `AllocationRun.valid_of_run` — the invariant holds in every state of a run
* `AllocationRun.heapIterate_isSome_of_run` — where the closing assertion holds
-/

namespace SlvmNative

open Relation

namespace FlatMemory

variable (m : FlatMemory) (b v n : ℕ)

/-- The slot count `slvm_Behavior_basicNew` comes out with. -/
def basicNewSlots : ℕ :=
  (m.instanceFixedSize b + (extraSlots (m.instanceFormat b) v).1) % 2 ^ 64

/-- The object `slvm_Behavior_basicNew` makes. -/
def basicNewObject : HeapObject := m.wrappedObjectOf (m.basicNewSlots b v)

/-- The slots `slvm_Behavior_basicNewMixedNative` adds for `v` pointers and `n` bytes. -/
def mixedNativeExtraSlots : ℕ := ((v * 8 + n) % 2 ^ 64 + 8 - 1) % 2 ^ 64 / 8

/-- The slot count `slvm_Behavior_basicNewMixedNative` comes out with. -/
def mixedNativeSlots : ℕ := (m.instanceFixedSize b + mixedNativeExtraSlots v n) % 2 ^ 64

/-- The object `slvm_Behavior_basicNewMixedNative` makes. -/
def mixedNativeObject : HeapObject :=
  m.mixedObjectOf ((m.instanceFixedSize b + v) % 2 ^ 64) (m.mixedNativeSlots b v n % 2 ^ 61)

/-- The format `slvm_Behavior_basicNewMixedNative` stores in the header, with the padding added. -/
def mixedNativeFormat : ℕ :=
  (m.instanceFormat b +
    unsignedSub 64 (mixedNativeExtraSlots v n * 8 % 2 ^ 64) ((v * 8 + n) % 2 ^ 64)) % 2 ^ 5

/-- A slot count whose size wraps is beyond 2 ^ 61 by less than 2 ^ 16. -/
theorem mixedNativeSlots_lt : m.mixedNativeSlots b v n < 2 ^ 61 + 2 ^ 16 := by
  have hfixed : m.instanceFixedSize b < 2 ^ 16 := decodeFixedSize_lt _
  have hextra : mixedNativeExtraSlots v n < 2 ^ 61 := by
    rw [mixedNativeExtraSlots]
    omega
  exact (Nat.mod_le _ _).trans_lt (by omega)

/-- An object lies in the address space of the heap, with its header and slots, and its pointers lie
in the object. The stores that initialize any other object fault. -/
structure HoldsBody (o : HeapObject) : Prop where
  body_le : o.header + 8 + o.totalSlotCount * 8 ≤
    m.compactingHeap.start + m.compactingHeap.capacity
  oopSlotCount_le : o.oopSlotCount ≤ o.totalSlotCount

end FlatMemory

/-! ### Objects of any kind -/

/-- An object that has been allocated, by either function. -/
inductive NewObject
  | basicNew (object : HeapObject)
  /-- With the format stored in the header. -/
  | basicNewMixedNative (object : HeapObject) (format : ℕ)

namespace NewObject

/-- The object itself. -/
def object : NewObject → HeapObject
  | .basicNew object => object
  | .basicNewMixedNative object _ => object

/-- The walker finds the size of the object: its format says that both slot counts are there, or the
pointers it then counts as slots add nothing to the size. -/
def Readable : NewObject → Prop
  | .basicNew _ => True
  | .basicNewMixedNative object format =>
    ObjectFormat.mixedObject ≤ format ∨ object.oopSlotCount % 2 ^ 29 = 0

instance : DecidablePred Readable
  | .basicNew _ => inferInstanceAs (Decidable True)
  | .basicNewMixedNative _ _ => inferInstanceAs (Decidable (_ ∨ _))

/-- The pre-header and the header of an object are what its instantiator wrote. The slot count it
wrote may be more than the slots there is memory for. -/
def Intact (m : FlatMemory) : NewObject → Prop
  | .basicNew object => ∃ format slotCount, slotCount % 2 ^ 61 = object.totalSlotCount ∧
    FlatMemory.Preheader m object format slotCount
  | .basicNewMixedNative object format => object.header = object.forwardingPointer + 24 ∧
    object.oopSlotCount ≤ object.totalSlotCount ∧
    ∃ slotCount, slotCount % 2 ^ 61 = object.totalSlotCount ∧ slotCount < 2 ^ 61 + 2 ^ 16 ∧
      FlatMemory.Preheader m object format
        ((slotCount ||| object.oopSlotCount <<< 32) % 2 ^ 64)

/-- They stay so as long as their words are untouched. -/
theorem Intact.congr {m m' : FlatMemory} {new : NewObject} (h : new.Intact m)
    (hw : ∀ a, new.object.forwardingPointer ≤ a → a < new.object.header + 8 →
      m'.word a = m.word a) : new.Intact m' := by
  cases new with
  | basicNew object =>
    obtain ⟨format, slotCount, hslots, hpreheader⟩ := h
    exact ⟨format, slotCount, hslots, hpreheader.congr hw⟩
  | basicNewMixedNative object format =>
    obtain ⟨h24, hle, slotCount, hslots, hlt, hpreheader⟩ := h
    exact ⟨h24, hle, slotCount, hslots, hlt, hpreheader.congr hw⟩

/-- The word with both slot counts of an object of the heap, as one number. -/
theorem packed_eq {slotCount oops : ℕ} (hlt : slotCount < 2 ^ 61 + 2 ^ 16)
    (htotal : slotCount % 2 ^ 61 < 2 ^ 32) (hle : oops ≤ slotCount % 2 ^ 61) :
    (slotCount ||| oops <<< 32) % 2 ^ 64 = slotCount + 2 ^ 32 * oops := by
  have hlow := Words.shiftLeft_or htotal oops
  rcases Nat.lt_or_ge slotCount (2 ^ 61) with hsmall | hlarge
  · rw [Nat.mod_eq_of_lt hsmall] at hlow
    rw [Nat.or_comm, hlow]
    omega
  · -- the object has less than 2 ^ 16 slots, so the pointers do not reach bit 61
    have hslots : slotCount = 2 ^ 61 ||| slotCount % 2 ^ 61 := by
      have hor := Nat.two_pow_add_eq_or_of_lt (Nat.mod_lt slotCount (by decide : 0 < 2 ^ 61)) 1
      rw [Nat.mul_one] at hor
      rw [← hor]
      omega
    have hhigh := @Nat.two_pow_add_eq_or_of_lt 61 (2 ^ 32 * oops + slotCount % 2 ^ 61) (by omega) 1
    rw [Nat.mul_one] at hhigh
    have hword : slotCount ||| oops <<< 32 = 2 ^ 61 + (2 ^ 32 * oops + slotCount % 2 ^ 61) := by
      conv_lhs => rw [hslots]
      rw [Nat.or_assoc, Nat.or_comm (slotCount % 2 ^ 61), hlow, hhigh]
    rw [hword]
    omega

/-- The walker finds every object of a heap where it is. Of a readable one it finds the size; any
other is far too big for it. -/
theorem Intact.seen {m : FlatMemory} {new : NewObject} (h : new.Intact m)
    (hlt : new.object.totalSlotCount < 2 ^ 31) :
    Parses m (parseObject m new.object.forwardingPointer) ∧
      (parseObject m new.object.forwardingPointer).header = new.object.header ∧
      (new.Readable →
        (parseObject m new.object.forwardingPointer).next = new.object.next) ∧
      (¬ new.Readable →
        new.object.header + 2 ^ 35 ≤ (parseObject m new.object.forwardingPointer).next) := by
  have hmask : ∀ word : ℕ, word &&& 0xFFFFFFFF = word % 2 ^ 32 := fun word => by
    rw [show (0xFFFFFFFF : ℕ) = 2 ^ 32 - 1 from rfl, Nat.and_two_pow_sub_one_eq_mod]
  cases new with
  | basicNew object =>
    obtain ⟨format, slotCount, hslots, hpreheader⟩ := h
    obtain ⟨hparses, hheader, hshape⟩ := hpreheader.parseObject_total
    refine ⟨hparses, hheader, fun _ => HeapObject.next_congr hheader ?_,
      fun hunreadable => absurd trivial hunreadable⟩
    simp only [NewObject.object] at hlt ⊢
    rcases hshape with ⟨-, htotal⟩ | ⟨-, htotal⟩
    · rw [htotal]
      split_ifs
      · rw [hmask]
        omega
      · omega
    · rw [htotal]
  | basicNewMixedNative object format =>
    obtain ⟨h24, hle, slotCount, hslots, hslotCount, hpreheader⟩ := h
    obtain ⟨hparses, hheader, hshape⟩ := hpreheader.parseObject_total
    simp only [NewObject.object, Readable, not_or] at hlt ⊢
    rw [← hslots] at hlt hle
    rw [packed_eq hslotCount (hlt.trans (by decide)) hle] at hshape
    have htotal := (hshape.resolve_right fun h8 => by omega).2
    refine ⟨hparses, hheader, fun hreadable => HeapObject.next_congr hheader ?_, ?_⟩
    · rw [htotal]
      split_ifs with hmixed
      · rw [hmask]
        omega
      · have hnone := hreadable.resolve_left hmixed
        omega
    · rintro ⟨hmixed, hpointers⟩
      rw [if_neg hmixed] at htotal
      rw [HeapObject.next, hheader, htotal]
      omega

end NewObject

/-! ### Runs -/

/-- A state of a run, with the objects allocated so far, in order. -/
structure AllocationRun where
  memory : FlatMemory
  made : List NewObject

namespace AllocationRun

/-- The objects of a state. -/
def objects (s : AllocationRun) : List HeapObject := s.made.map NewObject.object

/-- One step of a run. -/
inductive Step [KernelImage] : AllocationRun → AllocationRun → Prop
  /-- `slvm_Behavior_basicNew`, with any format it takes. -/
  | basicNew {s : AllocationRun} {b v o : ℕ} {m : FlatMemory}
      (hbody : s.memory.HoldsBody (s.memory.basicNewObject b v))
      (h : s.memory.basicNew b v = some (o, m)) :
      Step s ⟨m, s.made ++ [.basicNew (s.memory.basicNewObject b v)]⟩
  /-- `slvm_Behavior_basicNewMixedNative`, with any format. -/
  | basicNewMixedNative {s : AllocationRun} {b v n o : ℕ} {m : FlatMemory}
      (hbody : s.memory.HoldsBody (s.memory.mixedNativeObject b v n))
      (h : s.memory.basicNewMixedNative b v n = some (o, m)) :
      Step s ⟨m, s.made ++ [.basicNewMixedNative (s.memory.mixedNativeObject b v n)
        (s.memory.mixedNativeFormat b v n)]⟩
  /-- A store into a slot or outside the heap. -/
  | setWord {s : AllocationRun} {a : ℕ} (v : ℕ) (ha : s.memory.MayStore s.objects a) :
      Step s ⟨s.memory.setWord a v, s.made⟩

/-- The start of a run: the heap `slvm_spur_create_compactingHeap` made, in any memory. -/
def start (word : ℕ → ℕ) (heapStart : ℕ) (h : heapStart % pageSize = 0) : AllocationRun where
  memory := (HeapRun.start word heapStart h).memory
  made := []

/-- The invariant of a run. -/
structure Valid (s : AllocationRun) : Prop where
  holds : s.memory.Holds s.objects
  intact : ∀ new ∈ s.made, new.Intact s.memory
  /-- The heap is used up to the end of the last object. -/
  finish : ∀ new, s.made.getLast? = some new →
    s.memory.compactingHeap.start + s.memory.compactingHeap.size =
      new.object.header + 8 + new.object.totalSlotCount * 8

theorem Valid.start (word : ℕ → ℕ) (heapStart : ℕ) (h : heapStart % pageSize = 0) :
    Valid (start word heapStart h) where
  holds := (HeapRun.Valid.start word heapStart h).holds
  intact _ hnew := absurd hnew List.not_mem_nil
  finish _ hlast := by cases hlast

/-- A store that does not reach the structure of the heap. -/
theorem Valid.setWord {s : AllocationRun} (h : s.Valid) {a : ℕ}
    (ha : s.memory.MayStore s.objects a) (v : ℕ) : Valid ⟨s.memory.setWord a v, s.made⟩ where
  holds := ⟨h.holds.capacity, h.holds.fits, h.holds.laid, h.holds.size_lt⟩
  intact new hnew := (h.intact new hnew).congr fun _ hb hb' =>
    h.holds.frame_of_mayStore ha v (List.mem_map_of_mem hnew) hb hb'
  finish := h.finish

/-- An allocation whose stores stay in the heap, whatever its kind. -/
theorem Valid.created {s : AllocationRun} (h : s.Valid) {new : NewObject} {m : FlatMemory}
    {format sizeWord : ℕ}
    (hcreated : FlatMemory.Created s.memory new.object format sizeWord m)
    (hbody : s.memory.HoldsBody new.object) (hintact : new.Intact m) :
    Valid ⟨m, s.made ++ [new]⟩ := by
  have hfinish := hcreated.finish
  have hfits : m.compactingHeap.size ≤ m.compactingHeap.capacity := by
    have hle := hbody.body_le
    rw [hcreated.start] at hfinish
    rw [hcreated.capacity]
    omega
  refine ⟨?_, fun p hp => ?_, fun p hp => ?_⟩
  · rw [objects, List.map_append]
    exact h.holds.created hcreated hfits
  · rcases List.mem_append.mp hp with hp | hp
    · exact (h.intact p hp).congr fun _ _ hb' =>
        h.holds.frame_of_created hcreated (List.mem_map_of_mem hp) hb'
    · obtain rfl := List.mem_singleton.mp hp
      exact hintact
  · obtain rfl : new = p := by simpa using hp
    exact hfinish

/-- The size of an object in the heap is far from wrapping. -/
theorem Valid.size_lt {s : AllocationRun} (h : s.Valid) {o : HeapObject}
    (hbody : s.memory.HoldsBody o)
    (hposition : s.memory.compactingHeap.start + s.memory.compactingHeap.nextOffset 16 ≤
      o.header) : s.memory.compactingHeap.size + 48 + o.totalSlotCount * 8 < 2 ^ 64 := by
  have hle := hbody.body_le
  have hfits := h.holds.fits
  rw [h.holds.capacity] at hle
  rw [defaultCompactingHeapCapacity_eq] at *
  omega

section

variable [KernelImage] {s s' : AllocationRun}

theorem lt_mixedObject_of_basicNew {m m' : FlatMemory} {b v o : ℕ}
    (h : m.basicNew b v = some (o, m')) : m.instanceFormat b < ObjectFormat.mixedObject := by
  by_contra hmixed
  have hnone : m.basicNew b v = none := if_pos (Or.inr (Nat.not_lt.mp hmixed))
  rw [hnone] at h
  cases h

theorem Valid.basicNew (h : s.Valid) {b v o : ℕ} {m : FlatMemory}
    (hbody : s.memory.HoldsBody (s.memory.basicNewObject b v))
    (hm : s.memory.basicNew b v = some (o, m)) :
    Valid ⟨m, s.made ++ [.basicNew (s.memory.basicNewObject b v)]⟩ := by
  have hslots : (s.memory.instanceFixedSize b +
      (FlatMemory.extraSlots (s.memory.instanceFormat b) v).1) % 2 ^ 64 =
    s.memory.basicNewSlots b v := rfl
  have hfit := h.size_lt hbody (Nat.le_add_right _ _)
  obtain ⟨m', hm', hcreated⟩ := s.memory.basicNew_wrapped
    (HeapRun.ne_nilOop_of_basicNew hm) (lt_mixedObject_of_basicNew hm) (Prod.eta _).symm rfl hslots
    hfit
  obtain ⟨rfl, rfl⟩ := Prod.mk.inj (Option.some.inj (hm'.symm.trans hm))
  exact @Valid.created s h (.basicNew _) m' _ _ hcreated hbody ⟨_, _, rfl, hcreated.preheader⟩

theorem Valid.basicNewMixedNative (h : s.Valid) {b v n o : ℕ} {m : FlatMemory}
    (hbody : s.memory.HoldsBody (s.memory.mixedNativeObject b v n))
    (hm : s.memory.basicNewMixedNative b v n = some (o, m)) :
    Valid ⟨m, s.made ++ [.basicNewMixedNative (s.memory.mixedNativeObject b v n)
      (s.memory.mixedNativeFormat b v n)]⟩ := by
  have hextra : ((v * 8 + n) % 2 ^ 64 + 8 - 1) % 2 ^ 64 / 8 =
    FlatMemory.mixedNativeExtraSlots v n := rfl
  have hslots : (s.memory.instanceFixedSize b + FlatMemory.mixedNativeExtraSlots v n) % 2 ^ 64 =
    s.memory.mixedNativeSlots b v n := rfl
  have hfit := h.size_lt hbody (Nat.le_add_right _ _)
  obtain ⟨m', hm', hcreated, -⟩ := s.memory.basicNewMixedNative_wrapped
    (HeapRun.ne_nilOop_of_basicNewMixedNative hm) hextra rfl rfl hslots rfl hbody.oopSlotCount_le
    hfit
  obtain ⟨rfl, rfl⟩ := Prod.mk.inj (Option.some.inj (hm'.symm.trans hm))
  exact @Valid.created s h (.basicNewMixedNative _ _) m' _ _ hcreated hbody
    ⟨rfl, hbody.oopSlotCount_le, _, rfl, s.memory.mixedNativeSlots_lt b v n, hcreated.preheader⟩

theorem Valid.step (h : s.Valid) (hs : Step s s') : s'.Valid := by
  cases hs with
  | basicNew hbody hm => exact h.basicNew hbody hm
  | basicNewMixedNative hbody hm => exact h.basicNewMixedNative hbody hm
  | setWord v ha => exact h.setWord ha v

/-- The invariant holds in every state of every run. -/
theorem valid_of_run {word : ℕ → ℕ} {heapStart : ℕ} {h : heapStart % pageSize = 0}
    (hs : ReflTransGen Step (start word heapStart h) s) : s.Valid := by
  induction hs with
  | refl => exact Valid.start word heapStart h
  | tail _ hstep ih => exact ih.step hstep

end

/-! ### The end of the walk -/

variable {s : AllocationRun} {new : NewObject}

/-- The walker finds the objects of a state where they are, but takes those that are not readable to
reach beyond the end of the heap. -/
theorem Valid.seen (h : s.Valid) (hnew : new ∈ s.made) :
    Parses s.memory (parseObject s.memory new.object.forwardingPointer) ∧
      (parseObject s.memory new.object.forwardingPointer).header = new.object.header ∧
      (new.Readable →
        (parseObject s.memory new.object.forwardingPointer).next = new.object.next) ∧
      (¬ new.Readable → s.memory.compactingHeap.start + s.memory.compactingHeap.size <
        (parseObject s.memory new.object.forwardingPointer).next) := by
  obtain ⟨last, hlaid, hle, hlt⟩ := h.holds.laid
  have hlast := (h.holds.last_eq hlaid hle hlt).2
  have hmem : new.object ∈ s.objects := List.mem_map_of_mem hnew
  have hbounds := hlaid.bounds hmem
  have hbody := HeapObject.body_le_next (h.holds.size_lt _ hmem)
  have hfits := h.holds.fits
  rw [defaultCompactingHeapCapacity_eq] at hlast hfits
  obtain ⟨hparses, hheader, hreadable, hunreadable⟩ := (h.intact new hnew).seen (by omega)
  refine ⟨hparses, hheader, hreadable, fun hnot => ?_⟩
  have hfar := hunreadable hnot
  omega

/-- Objects are before the end of the heap. -/
theorem Valid.forwardingPointer_lt (h : s.Valid) (hnew : new ∈ s.made) :
    new.object.forwardingPointer <
      s.memory.compactingHeap.start + s.memory.compactingHeap.size := by
  obtain ⟨last, hlaid, hle, hlt⟩ := h.holds.laid
  have hend := hlaid.add_sixteen_le s.memory.start_aligned (List.mem_map_of_mem hnew)
  omega

/-- The walker finds readable objects in the places where they are laid out. -/
theorem Valid.laid_seen (h : s.Valid) {made : List NewObject} (hmade : ∀ new ∈ made, new ∈ s.made)
    (hreadable : ∀ new ∈ made, new.Readable) {position last : ℕ}
    (hlaid : Laid position (made.map NewObject.object) last) :
    Laid position (made.map fun new => parseObject s.memory new.object.forwardingPointer) last := by
  have hwalked := hlaid.map_of_next (f := fun o => parseObject s.memory o.forwardingPointer)
    fun o ho => by
      obtain ⟨new, hnew, rfl⟩ := List.mem_map.mp ho
      obtain ⟨-, hheader, hnext, -⟩ := h.seen (hmade new hnew)
      exact ⟨parseObject_forwardingPointer _ _, hheader, hnext (hreadable new hnew)⟩
  rwa [List.map_map] at hwalked

/-- The layout of the objects ends where the heap does when the last has an even number of slots. -/
theorem Valid.last_eq_iff (h : s.Valid) (hnew : s.made.getLast? = some new) {last : ℕ}
    (hlaid : Laid s.memory.compactingHeap.start s.objects last) :
    last = s.memory.compactingHeap.start + s.memory.compactingHeap.size ↔
      new.object.totalSlotCount % 2 = 0 := by
  have hmem : new.object ∈ s.objects := List.mem_map_of_mem (List.mem_of_getLast? hnew)
  have haligned := hlaid.forwardingPointer_aligned s.memory.start_aligned hmem
  have hheader := (hlaid.bounds hmem).2.2
  obtain ⟨pre, hmade⟩ := List.getLast?_eq_some_iff.mp hnew
  rw [objects, hmade, List.map_append] at hlaid
  have hlast : last = new.object.next := hlaid.last_eq_next
  rw [HeapObject.next_eq (h.holds.size_lt _ hmem)] at hlast
  rw [h.finish new hnew, hlast]
  -- pre-header and header together take 16 or 32 bytes
  omega

section Walk

variable {iterator : FlatMemory → HeapObject → Option FlatMemory}

/-- A walk that finds the first objects of a state, up to the end of the heap or beyond. -/
theorem Valid.heapIterate_of_seen (h : s.Valid)
    (hiterator : ∀ m o, ∃ m', iterator m o = some m' ∧ ∀ p, Parses m p → Parses m' p)
    {made : List NewObject} (hmade : ∀ new ∈ made, new ∈ s.made) {last : ℕ}
    (hlaid : Laid s.memory.compactingHeap.start
      (made.map fun new => parseObject s.memory new.object.forwardingPointer) last)
    (hle : s.memory.compactingHeap.start + s.memory.compactingHeap.size ≤ last) :
    (heapIterate iterator s.memory.compactingHeap.start s.memory.compactingHeap.size
      s.memory).2.isSome ↔
        last = s.memory.compactingHeap.start + s.memory.compactingHeap.size := by
  refine heapIterate_isSome_of_laid hiterator hlaid (fun o ho => ?_) hle fun o ho => ?_
  · obtain ⟨new, hnew, rfl⟩ := List.mem_map.mp ho
    rw [parseObject_forwardingPointer]
    exact h.forwardingPointer_lt (hmade new hnew)
  · obtain ⟨new, hnew, rfl⟩ := List.mem_map.mp ho
    exact (h.seen (hmade new hnew)).1

/-- Where all objects are readable, the slots of the last decide. -/
theorem Valid.heapIterate_of_readable (h : s.Valid) (hnew : s.made.getLast? = some new)
    (hiterator : ∀ m o, ∃ m', iterator m o = some m' ∧ ∀ p, Parses m p → Parses m' p)
    (hreadable : ∀ new ∈ s.made, new.Readable) :
    (heapIterate iterator s.memory.compactingHeap.start s.memory.compactingHeap.size
      s.memory).2.isSome ↔ new.object.totalSlotCount % 2 = 0 := by
  obtain ⟨last, hlaid, hle, -⟩ := h.holds.laid
  have hwalked := h.laid_seen (fun _ hp => hp) hreadable hlaid
  exact (h.heapIterate_of_seen hiterator (fun _ hp => hp) hwalked hle).trans
    (h.last_eq_iff hnew hlaid)

/-- A walk goes beyond the end of the heap at the first object that is not readable. -/
theorem Valid.heapIterate_of_not_readable (h : s.Valid)
    (hiterator : ∀ m o, ∃ m', iterator m o = some m' ∧ ∀ p, Parses m p → Parses m' p)
    {pre post : List NewObject} (hmade : s.made = pre ++ new :: post)
    (hreadable : ∀ p ∈ pre, p.Readable) (hnot : ¬ new.Readable) :
    ¬ (heapIterate iterator s.memory.compactingHeap.start s.memory.compactingHeap.size
      s.memory).2.isSome := by
  have hmem : ∀ p ∈ pre ++ [new], p ∈ s.made := by
    intro p hp
    rw [hmade, List.append_cons]
    exact List.mem_append_left _ hp
  obtain ⟨last, hlaid, -⟩ := h.holds.laid
  rw [objects, hmade, List.map_append, List.map_cons] at hlaid
  have hbefore := h.laid_seen (fun p hp => hmem p (List.mem_append_left _ hp)) hreadable
    hlaid.split.1
  have hwalked := hbefore.append
    (laid_parseObject s.memory new.object.forwardingPointer (Laid.nil _))
  have hfar := (h.seen (hmem new List.mem_concat_self)).2.2.2 hnot
  rw [h.heapIterate_of_seen hiterator hmem (by rw [List.map_append]; exact hwalked) hfar.le]
  exact hfar.ne'

/-- **When the closing assertion holds**: all objects are readable, and the last has an even number
of slots. -/
theorem Valid.heapIterate_isSome_iff (h : s.Valid) (hnew : s.made.getLast? = some new)
    (hiterator : ∀ m o, ∃ m', iterator m o = some m' ∧ ∀ p, Parses m p → Parses m' p) :
    (heapIterate iterator s.memory.compactingHeap.start s.memory.compactingHeap.size
      s.memory).2.isSome ↔
        (∀ p ∈ s.made, p.Readable) ∧ new.object.totalSlotCount % 2 = 0 := by
  by_cases hreadable : ∀ p ∈ s.made, p.Readable
  · rw [h.heapIterate_of_readable hnew hiterator hreadable]
    exact (and_iff_right hreadable).symm
  · have hfound : (s.made.find? fun p => ¬ p.Readable).isSome := by
      simpa using hreadable
    obtain ⟨bad, hbad⟩ := Option.isSome_iff_exists.mp hfound
    obtain ⟨hnot, pre, post, hmade, hpre⟩ := List.find?_eq_some_iff_append.mp hbad
    exact iff_of_false (h.heapIterate_of_not_readable hiterator hmade
      (fun p hp => by simpa using hpre p hp) (by simpa using hnot)) fun hall => hreadable hall.1

section Examples

open HeapRun (ExampleMemory)

variable {used : ℕ}

/-- An object lies in the address space of the heap where there is room for 48 bytes and
its slots. -/
theorem holdsBody_of_room {m : FlatMemory} (h : ExampleMemory m used) {o : HeapObject}
    (hheader : o.header ≤ m.compactingHeap.start + m.compactingHeap.nextOffset 16 + 24)
    (hle : o.oopSlotCount ≤ o.totalSlotCount)
    (hroom : used + 48 + o.totalSlotCount * 8 ≤ 10737418240) : m.HoldsBody o := by
  refine ⟨?_, hle⟩
  have hnext := m.compactingHeap.nextOffset_le 16
  have hsize := h.size_le
  rw [h.capacity, defaultCompactingHeapCapacity_eq]
  omega

/-- One more object with two named slots. -/
theorem exists_basicNew [KernelImage] (h : ExampleMemory s.memory used) (hb : 1000 ≠ nilOop)
    {v slots : ℕ}
    (hslots : 2 + v = slots) (hroom : used + 48 + slots * 8 ≤ 10737418240) :
    ∃ s' o, Step s s' ∧ s'.made = s.made ++ [.basicNew o] ∧ o.totalSlotCount = slots ∧
      ExampleMemory s'.memory (used + 48 + slots * 8) := by
  obtain ⟨hformat, hfixed⟩ := h.pointers
  obtain ⟨m, hm, hcreated⟩ := HeapRun.basicNew_pointers s.memory (v := v)
    (o := s.memory.objectOf slots) hb (by rw [hformat]; decide) (by omega)
    (h.size_le_default (by omega)) (by rw [hfixed, hslots])
  have hobject : s.memory.basicNewObject 1000 v = s.memory.objectOf slots := by
    rw [FlatMemory.basicNewObject, FlatMemory.basicNewSlots, hformat, hfixed,
      FlatMemory.extraSlots_of_not_mem (by decide), hslots, Nat.mod_eq_of_lt (by omega),
      s.memory.wrappedObjectOf_eq (by omega)]
  have hbody : s.memory.HoldsBody (s.memory.basicNewObject 1000 v) := by
    rw [hobject]
    refine holdsBody_of_room h ?_ (Nat.le_refl _) hroom
    exact Nat.add_le_add_left (by split_ifs <;> decide) _
  exact ⟨_, _, Step.basicNew hbody hm, rfl, congrArg HeapObject.totalSlotCount hobject,
    h.created hcreated⟩

/-- One more mixed object. -/
theorem exists_basicNewMixedNative [KernelImage] (h : ExampleMemory s.memory used)
    (hb : 3000 ≠ nilOop)
    {v n slots : ℕ} (hslots : 2 + (v * 8 + n + 7) / 8 = slots)
    (hroom : used + 48 + slots * 8 ≤ 10737418240) :
    ∃ s' o format, Step s s' ∧ s'.made = s.made ++ [.basicNewMixedNative o format] ∧
      ObjectFormat.mixedObject ≤ format ∧ ExampleMemory s'.memory (used + 48 + slots * 8) := by
  obtain ⟨hformat, hfixed⟩ := h.mixed
  obtain ⟨m, _, _, hm, -, -, hcreated, -⟩ := HeapRun.basicNewMixedNative_mixed s.memory
    (v := v) (n := n) (o := s.memory.mixedObjectOf (2 + v) slots) hb hformat (by omega)
    (h.size_le_default (by omega)) (by rw [hfixed, hslots])
  have hextra : FlatMemory.mixedNativeExtraSlots v n = (v * 8 + n + 7) / 8 := by
    rw [FlatMemory.mixedNativeExtraSlots]
    omega
  have hobject : s.memory.mixedNativeObject 3000 v n = s.memory.mixedObjectOf (2 + v) slots := by
    rw [FlatMemory.mixedNativeObject, FlatMemory.mixedNativeSlots, hfixed, hextra, hslots,
      Nat.mod_eq_of_lt (by omega), Nat.mod_eq_of_lt (by omega), Nat.mod_eq_of_lt (by omega)]
  have hbody : s.memory.HoldsBody (s.memory.mixedNativeObject 3000 v n) := by
    rw [hobject]
    exact holdsBody_of_room h (Nat.le_refl _) (by show 2 + v ≤ slots; omega) hroom
  have hstep := Step.basicNewMixedNative hbody hm
  refine ⟨_, _, _, hstep, rfl, ?_, h.created hcreated⟩
  -- the padding is less than 8
  rw [FlatMemory.mixedNativeFormat, hformat, hextra, unsignedSub_mod (by omega) (by omega)]
  simp only [ObjectFormat.mixedObject]
  omega

end Examples

/-- **Where the walk of the compacting heap ends**, in every state of every run with an object: with
an iterator that never fails and leaves what the walker reads alone it comes to the end of the heap,
and the closing assertion of `slvm_spur_heap_iterate` holds, exactly when every object is readable
and the last one has an even number of slots. -/
theorem heapIterate_isSome_of_run [KernelImage] {word : ℕ → ℕ} {heapStart : ℕ}
    {h : heapStart % pageSize = 0} (hs : ReflTransGen Step (start word heapStart h) s)
    (hnew : s.made.getLast? = some new)
    (hiterator : ∀ m o, ∃ m', iterator m o = some m' ∧ ∀ p, Parses m p → Parses m' p) :
    (heapIterate iterator s.memory.compactingHeap.start s.memory.compactingHeap.size
      s.memory).2.isSome ↔
        (∀ p ∈ s.made, p.Readable) ∧ new.object.totalSlotCount % 2 = 0 :=
  (valid_of_run hs).heapIterate_isSome_iff hnew hiterator

/-- The walk over objects of five, four and four slots, the second a mixed one, ends where the heap
does. -/
theorem heapIterate_isSome_of_run_mixed :
    letI := sequentialImage
    ∃ s, ReflTransGen Step (start HeapRun.exampleWord 65536 rfl) s ∧ s.made.length = 3 ∧
      (heapIterate (fun m _ => some m) s.memory.compactingHeap.start s.memory.compactingHeap.size
        s.memory).2.isSome := by
  let := sequentialImage
  obtain ⟨s₁, o₁, hstep₁, hmade₁, -, h₁⟩ := exists_basicNew (v := 3)
    (s := start HeapRun.exampleWord 65536 rfl) HeapRun.ExampleMemory.initial (by decide) rfl
    (by decide)
  obtain ⟨s₂, o₂, format, hstep₂, hmade₂, hformat, h₂⟩ :=
    exists_basicNewMixedNative (v := 1) (n := 5)
    h₁ (by decide) rfl (by decide)
  obtain ⟨s₃, o₃, hstep₃, hmade₃, htotal, -⟩ := exists_basicNew (v := 2) h₂ (by decide) rfl
    (by decide)
  have hmade : s₃.made = [.basicNew o₁, .basicNewMixedNative o₂ format, .basicNew o₃] := by
    rw [hmade₃, hmade₂, hmade₁]
    rfl
  have hrun := ((ReflTransGen.single hstep₁).tail hstep₂).tail hstep₃
  have hwalk := @heapIterate_isSome_of_run _ _ (fun m _ => some m) _ _ _ _ hrun
    (congrArg List.getLast? hmade) fun m _ => ⟨m, rfl, fun _ hp => hp⟩
  refine ⟨_, hrun, congrArg List.length hmade, hwalk.mpr ⟨?_, ?_⟩⟩
  · rw [hmade]
    simp only [List.forall_mem_cons, List.not_mem_nil, false_imp_iff]
    exact ⟨trivial, Or.inl hformat, trivial, fun _ => trivial⟩
  · show o₃.totalSlotCount % 2 = 0
    rw [htotal]

/-- The walk over one object of five slots ends 8 bytes behind the heap. -/
theorem heapIterate_fails_five :
    letI := sequentialImage
    ∃ s, ReflTransGen Step (start HeapRun.exampleWord 65536 rfl) s ∧ s.made.length = 1 ∧
      ¬ (heapIterate (fun m _ => some m) s.memory.compactingHeap.start s.memory.compactingHeap.size
        s.memory).2.isSome := by
  let := sequentialImage
  obtain ⟨s, o, hstep, hmade, htotal, -⟩ := exists_basicNew (v := 3)
    (s := start HeapRun.exampleWord 65536 rfl) HeapRun.ExampleMemory.initial (by decide) rfl
    (by decide)
  have hrun := ReflTransGen.single hstep
  have hwalk := @Valid.heapIterate_isSome_iff _ _ (fun m _ => some m) (valid_of_run hrun)
    (congrArg List.getLast? hmade) fun m _ => ⟨m, rfl, fun _ hp => hp⟩
  refine ⟨_, hrun, congrArg List.length hmade, fun hsome => ?_⟩
  have hparity : o.totalSlotCount % 2 = 0 := (hwalk.mp hsome).2
  rw [htotal] at hparity
  cases hparity

end Walk

end AllocationRun

end SlvmNative
