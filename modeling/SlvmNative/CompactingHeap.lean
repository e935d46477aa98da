import SlvmNative.FlatMemory
import Mathlib.Logic.Relation

/-!
# The compacting heap

Runs of allocations on the compacting heap with stores into the objects in between. The two
instantiators, the walker and `slvm_basicSize` each encode or decode pre-headers on their own; the
invariant of a run is that the objects lie one after another and that the pre-header of each is
still what its instantiator wrote.

## Main definitions

* `FlatMemory.Holds` — the objects the compacting heap consists of
* `HeapRun`, `HeapRun.Step` — allocations and stores in any order
* `Allocation` — what is remembered of an allocated object

## Main results

* `HeapRun.valid_of_run` — the invariant holds in every state of a run
* `HeapRun.heapIterate_of_run` — the walk finds exactly the allocated objects
* `FlatMemory.basicSize_basicNew_iff` — for which formats and sizes wide elements are counted right
-/

namespace SlvmNative

open Relation

/-- `SLVM_SPUR_DEFAULT_COMPACTING_HEAP_CAPACITY` -/
def defaultCompactingHeapCapacity : ℕ := 10 * 2 ^ 30

theorem defaultCompactingHeapCapacity_eq : defaultCompactingHeapCapacity = 10737418240 := rfl

namespace FlatMemory

/-- The compacting heap consists of given objects: they lie one after another, and the last ends
where the used part of the heap does. -/
structure Holds (m : FlatMemory) (objects : List HeapObject) : Prop where
  capacity : m.compactingHeap.capacity = defaultCompactingHeapCapacity
  fits : m.compactingHeap.size ≤ defaultCompactingHeapCapacity
  laid : ∃ last, Laid m.compactingHeap.start objects last ∧
    m.compactingHeap.start + m.compactingHeap.size ≤ last ∧
    last < m.compactingHeap.start + m.compactingHeap.size + 16
  size_lt : ∀ o ∈ objects, 8 + o.totalSlotCount * 8 < 2 ^ 64

/-- An address at which a store leaves the structure of the heap alone: a slot of an object, or a
place outside the heap. -/
def MayStore (m : FlatMemory) (objects : List HeapObject) (address : ℕ) : Prop :=
  (∃ o ∈ objects, o.header + 8 ≤ address ∧ address < o.header + 8 + o.totalSlotCount * 8) ∨
    address < m.compactingHeap.start ∨
    m.compactingHeap.start + m.compactingHeap.capacity ≤ address

namespace Holds

variable {m m' : FlatMemory} {objects : List HeapObject} {o p : HeapObject} {a b : ℕ}

/-- The last object ends within the capacity, and where the next one will be allocated. -/
theorem last_eq (h : m.Holds objects) {last : ℕ} (hlaid : Laid m.compactingHeap.start objects last)
    (hle : m.compactingHeap.start + m.compactingHeap.size ≤ last)
    (hlt : last < m.compactingHeap.start + m.compactingHeap.size + 16) :
    last = m.compactingHeap.start + m.compactingHeap.nextOffset 16 ∧
      last ≤ m.compactingHeap.start + defaultCompactingHeapCapacity := by
  have hstart := m.start_aligned
  have halign := hlaid.aligned hstart
  have hfits := h.fits
  rw [defaultCompactingHeapCapacity_eq] at *
  rw [StackHeap.nextOffset]
  exact ⟨by omega, by omega⟩

/-- A store that does not reach the structure of the heap keeps the pre-headers and headers. -/
theorem frame_of_mayStore (h : m.Holds objects) (ha : m.MayStore objects a) (v : ℕ)
    (hp : p ∈ objects) (hb : p.forwardingPointer ≤ b) (hb' : b < p.header + 8) :
    (m.setWord a v).word b = m.word b := by
  obtain ⟨last, hlaid, hle, hlt⟩ := h.laid
  have hlast := (h.last_eq hlaid hle hlt).2
  have hcap := h.capacity
  have hbounds := hlaid.bounds hp
  refine setWord_word_of_ne _ ?_ v
  rintro rfl
  rcases ha with ⟨q, hq, hlo, hhi⟩ | hout | hout
  · exact hlaid.body_not_meta m.start_aligned hq hp (h.size_lt q hq) hlo hhi ⟨hb, hb'⟩
  · omega
  · have hbody := HeapObject.body_le_next (h.size_lt p hp)
    omega

/-- So does an allocation. -/
theorem frame_of_created (h : m.Holds objects) {format sizeWord : ℕ}
    (hcreated : Created m o format sizeWord m') (hp : p ∈ objects) (hb' : b < p.header + 8) :
    m'.word b = m.word b := by
  obtain ⟨last, hlaid, hle, hlt⟩ := h.laid
  have hlast := (h.last_eq hlaid hle hlt).1
  have hposition := hcreated.position
  have hbounds := hlaid.bounds hp
  have hbody := HeapObject.body_le_next (h.size_lt p hp)
  exact hcreated.frame b (by omega)

/-- An allocation that fits the heap adds its object behind the others. -/
theorem created (h : m.Holds objects) {format sizeWord : ℕ}
    (hcreated : Created m o format sizeWord m')
    (hfits : m'.compactingHeap.size ≤ m'.compactingHeap.capacity) : m'.Holds (objects ++ [o]) := by
  obtain ⟨last, hlaid, hle, hlt⟩ := h.laid
  have hlast := (h.last_eq hlaid hle hlt).1
  have hnew : Laid last [o] o.next := by
    rw [hlast, ← hcreated.position]
    exact Laid.cons hcreated.preheader.header_eq (Laid.nil _)
  rw [hcreated.capacity, h.capacity] at hfits
  have hfinish := hcreated.finish
  have hposition := hcreated.position
  have hheader := hcreated.preheader.header_eq
  have hsize : 8 + o.totalSlotCount * 8 < 2 ^ 64 := by
    have hstart := hcreated.start
    rw [defaultCompactingHeapCapacity_eq] at hfits
    omega
  have hnext := HeapObject.next_eq hsize
  refine ⟨hcreated.capacity.trans h.capacity, hfits, ⟨o.next, ?_, by omega, by omega⟩,
    fun p hp => ?_⟩
  · rw [hcreated.start]
    exact hlaid.append hnew
  · rcases List.mem_append.mp hp with hp | hp
    · exact h.size_lt p hp
    · obtain rfl := List.mem_singleton.mp hp
      exact hsize

end Holds

end FlatMemory

/-- An object that has been allocated: its address, and the slot counts and size it was
allocated for. -/
structure Allocation where
  header : ℕ
  oopSlotCount : ℕ
  totalSlotCount : ℕ
  basicSize : ℕ

/-- The call of the iterator the walk should make for an object. -/
def Allocation.call (a : Allocation) (m : FlatMemory) : HeapObject where
  forwardingPointer := m.getForwardingPointerForObject a.header
  header := a.header
  oopSlotCount := a.oopSlotCount
  totalSlotCount := a.totalSlotCount

/-- The pre-header of an allocated object is what its instantiator wrote. -/
structure Allocation.Intact (a : Allocation) (m : FlatMemory) (format sizeWord : ℕ) : Prop where
  preheader : FlatMemory.Preheader m (a.call m) format sizeWord
  slotCounts : FlatMemory.Preheader.SlotCounts (a.call m) format sizeWord
  extraSize_le : spurFormatExtraSize format ≤ a.totalSlotCount * spurFormatMultiplier format
  basicSize : a.totalSlotCount * spurFormatMultiplier format - spurFormatExtraSize format =
    a.basicSize
  totalSlotCount_lt : a.totalSlotCount < 2 ^ 32

/-- As long as the words of the pre-header and of the header are untouched it stays so, and the
object is found at the same place. -/
theorem Allocation.Intact.congr {a : Allocation} {m m' : FlatMemory} {format sizeWord : ℕ}
    (h : a.Intact m format sizeWord)
    (hw : ∀ b, (a.call m).forwardingPointer ≤ b → b < a.header + 8 → m'.word b = m.word b) :
    a.call m' = a.call m ∧ a.Intact m' format sizeWord := by
  have hheader := h.preheader.header_eq
  have hword : m'.header a.header = m.header a.header := by
    refine congrArg FlatMemory.decodeHeader (hw _ ?_ (by omega))
    rcases hheader with h8 | h24
    · exact (show a.header = _ from h8) ▸ Nat.le_add_right _ _
    · exact (show a.header = _ from h24) ▸ Nat.le_add_right _ _
  have hcall : a.call m' = a.call m := by
    rw [Allocation.call, Allocation.call, FlatMemory.getForwardingPointerForObject,
      FlatMemory.getForwardingPointerForObject, hword]
  refine ⟨hcall, ?_, ?_, h.extraSize_le, h.basicSize, h.totalSlotCount_lt⟩
  · rw [hcall]
    exact h.preheader.congr hw
  · rw [hcall]
    exact h.slotCounts

/-- A state of a run on the compacting heap, with the objects allocated so far, in order. -/
structure HeapRun where
  memory : FlatMemory
  allocations : List Allocation

namespace HeapRun

/-- An address at which a store leaves the structure of the heap alone: a slot of an allocated
object, or a place outside the heap. -/
def MayStore (s : HeapRun) (address : ℕ) : Prop :=
  (∃ a ∈ s.allocations, a.header + 8 ≤ address ∧ address < a.header + 8 + a.totalSlotCount * 8) ∨
    address < s.memory.compactingHeap.start ∨
    s.memory.compactingHeap.start + s.memory.compactingHeap.capacity ≤ address

/-- One step of a run. Each allocation has fewer than 2^32 slots and fits the heap. -/
inductive Step [KernelImage] : HeapRun → HeapRun → Prop
  /-- `slvm_Behavior_basicNew` with a pointer format. -/
  | basicNewPointers {s : HeapRun} {b v o : ℕ} {m : FlatMemory}
      (hformat : s.memory.instanceFormat b < ObjectFormat.indexable64)
      (hslots : s.memory.instanceFixedSize b + v < 2 ^ 32)
      (h : s.memory.basicNew b v = some (o, m))
      (hfits : m.compactingHeap.size ≤ m.compactingHeap.capacity) :
      Step s ⟨m, s.allocations ++ [⟨o, s.memory.instanceFixedSize b + v,
        s.memory.instanceFixedSize b + v, s.memory.instanceFixedSize b + v⟩]⟩
  /-- `slvm_Behavior_basicNew` with a byte format. -/
  | basicNewBytes {s : HeapRun} {b v o : ℕ} {m : FlatMemory}
      (hformat : s.memory.instanceFormat b = ObjectFormat.indexable8)
      (hslots : s.memory.instanceFixedSize b + (v + 7) / 8 < 2 ^ 32)
      (h : s.memory.basicNew b v = some (o, m))
      (hfits : m.compactingHeap.size ≤ m.compactingHeap.capacity) :
      Step s ⟨m, s.allocations ++ [⟨o, s.memory.instanceFixedSize b + (v + 7) / 8,
        s.memory.instanceFixedSize b + (v + 7) / 8, 8 * s.memory.instanceFixedSize b + v⟩]⟩
  /-- `slvm_Behavior_basicNewMixedNative` with the mixed format. -/
  | basicNewMixedNative {s : HeapRun} {b v n o : ℕ} {m : FlatMemory}
      (hformat : s.memory.instanceFormat b = ObjectFormat.mixedObject)
      (hslots : s.memory.instanceFixedSize b + (v * 8 + n + 7) / 8 < 2 ^ 32)
      (h : s.memory.basicNewMixedNative b v n = some (o, m))
      (hfits : m.compactingHeap.size ≤ m.compactingHeap.capacity) :
      Step s ⟨m, s.allocations ++ [⟨o, s.memory.instanceFixedSize b + v,
        s.memory.instanceFixedSize b + (v * 8 + n + 7) / 8,
        8 * (s.memory.instanceFixedSize b + v) + n⟩]⟩
  /-- A store into a slot or outside the heap. -/
  | setWord {s : HeapRun} {a : ℕ} (v : ℕ) (ha : s.MayStore a) :
      Step s ⟨s.memory.setWord a v, s.allocations⟩

/-- The start of a run: the heap `slvm_spur_create_compactingHeap` made, in any memory. -/
def start (word : ℕ → ℕ) (heapStart : ℕ) (h : heapStart % pageSize = 0) : HeapRun where
  memory := ⟨word, StackHeap.create heapStart defaultCompactingHeapCapacity h⟩
  allocations := []

/-- The invariant of a run. -/
structure Valid (s : HeapRun) : Prop where
  capacity : s.memory.compactingHeap.capacity = defaultCompactingHeapCapacity
  fits : s.memory.compactingHeap.size ≤ defaultCompactingHeapCapacity
  /-- The objects lie one after another; the last ends where the used part of the heap does. -/
  laid : ∃ last, Laid s.memory.compactingHeap.start (s.allocations.map (·.call s.memory)) last ∧
    s.memory.compactingHeap.start + s.memory.compactingHeap.size ≤ last ∧
    last < s.memory.compactingHeap.start + s.memory.compactingHeap.size + 16
  intact : ∀ a ∈ s.allocations, ∃ format sizeWord, a.Intact s.memory format sizeWord

theorem Valid.start (word : ℕ → ℕ) (heapStart : ℕ) (h : heapStart % pageSize = 0) :
    Valid (start word heapStart h) where
  capacity := rfl
  fits := Nat.zero_le _
  laid := ⟨heapStart, Laid.nil _, Nat.le_refl _, Nat.lt_add_of_pos_right (by decide)⟩
  intact a ha := absurd ha List.not_mem_nil

/-- Changes that leave the pre-headers of all objects alone keep them where they are. -/
theorem Valid.map_call {s : HeapRun} (h : s.Valid) {m : FlatMemory}
    (hw : ∀ a ∈ s.allocations, ∀ b, (a.call s.memory).forwardingPointer ≤ b → b < a.header + 8 →
      m.word b = s.memory.word b) :
    s.allocations.map (·.call m) = s.allocations.map (·.call s.memory) ∧
      ∀ a ∈ s.allocations, ∃ format sizeWord, a.Intact m format sizeWord := by
  refine ⟨List.map_congr_left fun a ha => ?_, fun a ha => ?_⟩
  · obtain ⟨format, sizeWord, hintact⟩ := h.intact a ha
    exact (hintact.congr (hw a ha)).1
  · obtain ⟨format, sizeWord, hintact⟩ := h.intact a ha
    exact ⟨format, sizeWord, (hintact.congr (hw a ha)).2⟩

theorem Valid.holds {s : HeapRun} (h : s.Valid) :
    s.memory.Holds (s.allocations.map (·.call s.memory)) := by
  refine ⟨h.capacity, h.fits, h.laid, fun o ho => ?_⟩
  obtain ⟨a, ha, rfl⟩ := List.mem_map.mp ho
  obtain ⟨format, sizeWord, hintact⟩ := h.intact a ha
  have hlt : (a.call s.memory).totalSlotCount < 2 ^ 32 := hintact.totalSlotCount_lt
  omega

/-- A store that does not reach the structure of the heap. -/
theorem Valid.setWord {s : HeapRun} (h : s.Valid) {a : ℕ} (ha : s.MayStore a) (v : ℕ) :
    Valid ⟨s.memory.setWord a v, s.allocations⟩ := by
  have hstore : s.memory.MayStore (s.allocations.map (·.call s.memory)) a := by
    refine ha.imp_left ?_
    rintro ⟨q, hq, hlo, hhi⟩
    exact ⟨_, List.mem_map_of_mem hq, hlo, hhi⟩
  obtain ⟨hmap, hintact⟩ := @Valid.map_call s h (s.memory.setWord a v) fun p hp b hb hb' =>
    h.holds.frame_of_mayStore hstore v (List.mem_map_of_mem hp) hb hb'
  exact ⟨h.capacity, h.fits, by rw [hmap]; exact h.laid, hintact⟩

/-- An allocation that fits the heap, whatever its kind. -/
theorem Valid.created {s : HeapRun} (h : s.Valid) {o : HeapObject} {m : FlatMemory}
    {format sizeWord size : ℕ} (hcreated : FlatMemory.Created s.memory o format sizeWord m)
    (hcounts : FlatMemory.Preheader.SlotCounts o format sizeWord)
    (hextra : spurFormatExtraSize format ≤ o.totalSlotCount * spurFormatMultiplier format)
    (hsize : o.totalSlotCount * spurFormatMultiplier format - spurFormatExtraSize format = size)
    (hslots : o.totalSlotCount < 2 ^ 32)
    (hfits : m.compactingHeap.size ≤ m.compactingHeap.capacity) :
    Valid ⟨m, s.allocations ++ [⟨o.header, o.oopSlotCount, o.totalSlotCount, size⟩]⟩ := by
  obtain ⟨hmap, hintact⟩ := @Valid.map_call s h m fun p hp b hb hb' =>
    h.holds.frame_of_created hcreated (List.mem_map_of_mem hp) hb'
  have hcall : (⟨o.header, o.oopSlotCount, o.totalSlotCount, size⟩ : Allocation).call m = o := by
    rw [Allocation.call, hcreated.preheader.getForwardingPointerForObject]
  have hholds := h.holds.created hcreated hfits
  refine ⟨hholds.capacity, hholds.fits, ?_, fun a ha => ?_⟩
  · simp only [List.map_append, List.map_cons, List.map_nil, hcall, hmap]
    exact hholds.laid
  · rcases List.mem_append.mp ha with ha | ha
    · exact hintact a ha
    · obtain rfl := List.mem_singleton.mp ha
      exact ⟨format, sizeWord, by rw [hcall]; exact hcreated.preheader,
        by rw [hcall]; exact hcounts, hextra, hsize, hslots⟩

/-- The word that packs both slot counts of a mixed object gives both back. -/
theorem packed_slotCounts {oops total : ℕ} (hoops : oops < 2 ^ 32) (htotal : total < 2 ^ 32) :
    ((total ||| oops <<< 32) % 2 ^ 64) >>> 32 = oops ∧
      (total ||| oops <<< 32) % 2 ^ 64 &&& 0xFFFFFFFF = total := by
  have hword : (total ||| oops <<< 32) % 2 ^ 64 = 2 ^ 32 * oops + total := by
    rw [Nat.or_comm, Words.shiftLeft_or htotal]
    exact Nat.mod_eq_of_lt (by omega)
  rw [hword, Nat.shiftRight_eq_div_pow, show (0xFFFFFFFF : ℕ) = 2 ^ 32 - 1 from rfl,
    Nat.and_two_pow_sub_one_eq_mod]
  omega

section

variable [KernelImage]

theorem ne_nilOop_of_basicNew {m m' : FlatMemory} {b v o : ℕ} (h : m.basicNew b v = some (o, m')) :
    b ≠ nilOop := by
  rintro rfl
  simp [FlatMemory.basicNew] at h

theorem ne_nilOop_of_basicNewMixedNative {m m' : FlatMemory} {b v n o : ℕ}
    (h : m.basicNewMixedNative b v n = some (o, m')) : b ≠ nilOop := by
  rintro rfl
  simp [FlatMemory.basicNewMixedNative] at h

/-- An allocation with a pointer format: there is no padding. -/
theorem basicNew_pointers (m : FlatMemory) {b v : ℕ} {o : HeapObject} (hb : b ≠ nilOop)
    (hformat : m.instanceFormat b < ObjectFormat.indexable64)
    (hslots : m.instanceFixedSize b + v < 2 ^ 32)
    (hsize : m.compactingHeap.size ≤ defaultCompactingHeapCapacity)
    (ho : o = m.objectOf (m.instanceFixedSize b + v)) :
    ∃ m', m.basicNew b v = some (o.header, m') ∧
      FlatMemory.Created m o (m.instanceFormat b) (m.instanceFixedSize b + v) m' := by
  subst ho
  rw [defaultCompactingHeapCapacity_eq] at hsize
  have hextra : FlatMemory.extraSlots (m.instanceFormat b) v = (v, 8) := by
    refine FlatMemory.extraSlots_of_not_mem (fun hmem => ?_) v
    simp only [ObjectFormat.indexable64, ObjectFormat.indexable32, ObjectFormat.indexable16,
      ObjectFormat.indexable8, List.mem_cons, List.not_mem_nil, or_false] at hformat hmem
    omega
  have hpadding : unsignedSub 64 (v * 8 % 2 ^ 64) (v * 8 % 2 ^ 64) = 0 := by
    rw [unsignedSub_of_le _ (Nat.le_refl _), Nat.sub_self]
  have hmod : (m.instanceFormat b + 0) % 2 ^ 5 = m.instanceFormat b :=
    Nat.mod_eq_of_lt (hformat.trans (by decide))
  obtain ⟨m', hm', hcreated⟩ := m.basicNew_created hb (hformat.trans (by decide)) hextra hpadding
    (by omega)
  exact ⟨m', hm', hmod ▸ hcreated⟩

/-- An allocation with the byte format: its padding is that of the last slot. -/
theorem basicNew_bytes (m : FlatMemory) {b v : ℕ} {o : HeapObject} (hb : b ≠ nilOop)
    (hformat : m.instanceFormat b = ObjectFormat.indexable8)
    (hslots : m.instanceFixedSize b + (v + 7) / 8 < 2 ^ 32)
    (hsize : m.compactingHeap.size ≤ defaultCompactingHeapCapacity)
    (ho : o = m.objectOf (m.instanceFixedSize b + (v + 7) / 8)) :
    ∃ m' pad, m.basicNew b v = some (o.header, m') ∧ pad < 8 ∧ (v + 7) / 8 * 8 - v = pad ∧
      FlatMemory.Created m o (ObjectFormat.indexable8 + pad)
        (m.instanceFixedSize b + (v + 7) / 8) m' := by
  subst ho
  rw [defaultCompactingHeapCapacity_eq] at hsize
  have hextra : FlatMemory.extraSlots (m.instanceFormat b) v = ((v + 7) / 8, 1) := by
    rw [hformat, FlatMemory.extraSlots_indexable8 (by omega)]
  generalize hpad : (v + 7) / 8 * 8 - v = pad
  have hpad8 : pad < 8 := by omega
  have hpadding : unsignedSub 64 ((v + 7) / 8 * 8 % 2 ^ 64) (v * 1 % 2 ^ 64) = pad := by
    rw [unsignedSub_mod (by omega) (by omega), Nat.mul_one, hpad]
  have hmod : (m.instanceFormat b + pad) % 2 ^ 5 = ObjectFormat.indexable8 + pad := by
    rw [hformat]
    exact Nat.mod_eq_of_lt (by simp only [ObjectFormat.indexable8]; omega)
  obtain ⟨m', hm', hcreated⟩ := m.basicNew_created hb (by rw [hformat]; decide) hextra hpadding
    (by omega)
  exact ⟨m', pad, hm', hpad8, rfl, hmod ▸ hcreated⟩

theorem Valid.basicNewPointers {s : HeapRun} (h : s.Valid) {b v o : ℕ} {m : FlatMemory}
    (hformat : s.memory.instanceFormat b < ObjectFormat.indexable64)
    (hslots : s.memory.instanceFixedSize b + v < 2 ^ 32)
    (hm : s.memory.basicNew b v = some (o, m))
    (hfits : m.compactingHeap.size ≤ m.compactingHeap.capacity) :
    Valid ⟨m, s.allocations ++ [⟨o, s.memory.instanceFixedSize b + v,
      s.memory.instanceFixedSize b + v, s.memory.instanceFixedSize b + v⟩]⟩ := by
  obtain ⟨m', hm', hcreated⟩ := basicNew_pointers s.memory (ne_nilOop_of_basicNew hm) hformat hslots
    h.fits rfl
  obtain ⟨rfl, rfl⟩ := Prod.mk.inj (Option.some.inj (hm'.symm.trans hm))
  refine h.created hcreated ?_ ?_ ?_ hslots hfits
  · rw [FlatMemory.Preheader.SlotCounts, if_neg (Nat.not_le.mpr (hformat.trans (by decide)))]
    exact ⟨rfl, rfl⟩
  · rw [spurFormatExtraSize_pointers hformat]
    exact Nat.zero_le _
  · rw [spurFormatExtraSize_pointers hformat, spurFormatMultiplier_pointers hformat]
    exact Nat.mul_one _

theorem Valid.basicNewBytes {s : HeapRun} (h : s.Valid) {b v o : ℕ} {m : FlatMemory}
    (hformat : s.memory.instanceFormat b = ObjectFormat.indexable8)
    (hslots : s.memory.instanceFixedSize b + (v + 7) / 8 < 2 ^ 32)
    (hm : s.memory.basicNew b v = some (o, m))
    (hfits : m.compactingHeap.size ≤ m.compactingHeap.capacity) :
    Valid ⟨m, s.allocations ++ [⟨o, s.memory.instanceFixedSize b + (v + 7) / 8,
      s.memory.instanceFixedSize b + (v + 7) / 8, 8 * s.memory.instanceFixedSize b + v⟩]⟩ := by
  obtain ⟨m', pad, hm', hpad8, hpad, hcreated⟩ := basicNew_bytes s.memory (ne_nilOop_of_basicNew hm)
    hformat hslots h.fits rfl
  obtain ⟨rfl, rfl⟩ := Prod.mk.inj (Option.some.inj (hm'.symm.trans hm))
  refine h.created hcreated ?_ ?_ ?_ hslots hfits
  · rw [FlatMemory.Preheader.SlotCounts, if_neg]
    · exact ⟨rfl, rfl⟩
    · simp only [ObjectFormat.indexable8, ObjectFormat.mixedObject]
      omega
  · rw [spurFormatExtraSize_bytes hpad8, spurFormatMultiplier_bytes hpad8]
    show pad ≤ (s.memory.instanceFixedSize b + (v + 7) / 8) * 8
    omega
  · rw [spurFormatExtraSize_bytes hpad8, spurFormatMultiplier_bytes hpad8]
    show (s.memory.instanceFixedSize b + (v + 7) / 8) * 8 - pad = _
    omega

/-- An allocation with the mixed format: its padding is that of the last slot, both slot counts can
be read back, and so can the size in bytes. -/
theorem basicNewMixedNative_mixed (m : FlatMemory) {b v n : ℕ} {o : HeapObject} (hb : b ≠ nilOop)
    (hformat : m.instanceFormat b = ObjectFormat.mixedObject)
    (hslots : m.instanceFixedSize b + (v * 8 + n + 7) / 8 < 2 ^ 32)
    (hsize : m.compactingHeap.size ≤ defaultCompactingHeapCapacity)
    (ho : o = m.mixedObjectOf (m.instanceFixedSize b + v)
      (m.instanceFixedSize b + (v * 8 + n + 7) / 8)) :
    ∃ m' pad sizeWord, m.basicNewMixedNative b v n = some (o.header, m') ∧ pad < 8 ∧
      sizeWord < 2 ^ 64 ∧ FlatMemory.Created m o (ObjectFormat.mixedObject + pad) sizeWord m' ∧
      FlatMemory.Preheader.SlotCounts o (ObjectFormat.mixedObject + pad) sizeWord ∧
      FlatMemory.MixedContent m o b m' ∧ pad ≤ o.totalSlotCount * 8 ∧
      o.totalSlotCount * 8 - pad = 8 * (m.instanceFixedSize b + v) + n := by
  subst ho
  rw [defaultCompactingHeapCapacity_eq] at hsize
  have hcontent : (v * 8 + n) % 2 ^ 64 = v * 8 + n := Nat.mod_eq_of_lt (by omega)
  have hextra : ((v * 8 + n) % 2 ^ 64 + 8 - 1) % 2 ^ 64 / 8 = (v * 8 + n + 7) / 8 := by
    rw [hcontent, show v * 8 + n + 8 - 1 = v * 8 + n + 7 from rfl, Nat.mod_eq_of_lt (by omega)]
  generalize hpad : (v * 8 + n + 7) / 8 * 8 - (v * 8 + n) = pad
  have hpad8 : pad < 8 := by omega
  have hpadding : unsignedSub 64 ((v * 8 + n + 7) / 8 * 8 % 2 ^ 64) ((v * 8 + n) % 2 ^ 64)
      = pad := by
    rw [hcontent, Nat.mod_eq_of_lt (by omega), unsignedSub_of_le _ (by omega), hpad]
  obtain ⟨m', hm', hcreated, hbody⟩ := m.basicNewMixedNative_created hb hextra hpadding (by omega)
    (by omega)
  have hmod : (m.instanceFormat b + pad) % 2 ^ 5 = ObjectFormat.mixedObject + pad := by
    rw [hformat]
    exact Nat.mod_eq_of_lt (by simp only [ObjectFormat.mixedObject]; omega)
  rw [hmod] at hcreated
  refine ⟨m', pad, _, hm', hpad8, Nat.mod_lt _ (by decide), hcreated, ?_, hbody, ?_, ?_⟩
  · rw [FlatMemory.Preheader.SlotCounts, if_pos (Nat.le_add_right _ _)]
    exact packed_slotCounts (by omega) hslots
  · show pad ≤ (m.instanceFixedSize b + (v * 8 + n + 7) / 8) * 8
    omega
  · show (m.instanceFixedSize b + (v * 8 + n + 7) / 8) * 8 - pad = _
    omega

theorem Valid.basicNewMixedNative {s : HeapRun} (h : s.Valid) {b v n o : ℕ} {m : FlatMemory}
    (hformat : s.memory.instanceFormat b = ObjectFormat.mixedObject)
    (hslots : s.memory.instanceFixedSize b + (v * 8 + n + 7) / 8 < 2 ^ 32)
    (hm : s.memory.basicNewMixedNative b v n = some (o, m))
    (hfits : m.compactingHeap.size ≤ m.compactingHeap.capacity) :
    Valid ⟨m, s.allocations ++ [⟨o, s.memory.instanceFixedSize b + v,
      s.memory.instanceFixedSize b + (v * 8 + n + 7) / 8,
      8 * (s.memory.instanceFixedSize b + v) + n⟩]⟩ := by
  obtain ⟨m', pad, sizeWord, hm', hpad8, -, hcreated, hcounts, -, hle, hcount⟩ :=
    basicNewMixedNative_mixed s.memory (ne_nilOop_of_basicNewMixedNative hm) hformat
      hslots h.fits rfl
  obtain ⟨rfl, rfl⟩ := Prod.mk.inj (Option.some.inj (hm'.symm.trans hm))
  refine h.created hcreated hcounts ?_ ?_ hslots hfits
  · rwa [spurFormatExtraSize_mixed hpad8, spurFormatMultiplier_mixed hpad8]
  · rwa [spurFormatExtraSize_mixed hpad8, spurFormatMultiplier_mixed hpad8]

theorem Valid.step {s s' : HeapRun} (h : s.Valid) (hs : Step s s') : s'.Valid := by
  cases hs with
  | basicNewPointers hformat hslots hm hfits => exact h.basicNewPointers hformat hslots hm hfits
  | basicNewBytes hformat hslots hm hfits => exact h.basicNewBytes hformat hslots hm hfits
  | basicNewMixedNative hformat hslots hm hfits =>
    exact h.basicNewMixedNative hformat hslots hm hfits
  | setWord v ha => exact h.setWord ha v

/-- The invariant holds in every state of every run. -/
theorem valid_of_run {word : ℕ → ℕ} {heapStart : ℕ} {h : heapStart % pageSize = 0} {s : HeapRun}
    (hs : ReflTransGen Step (start word heapStart h) s) : s.Valid := by
  induction hs with
  | refl => exact Valid.start word heapStart h
  | tail _ hstep ih => exact ih.step hstep

/-- **The walk finds exactly the allocated objects**, in allocation order, in every state of every
run: the loop of `slvm_spur_heap_iterate` calls its iterator once for each of them with its header,
its forwarding pointer and its slot counts, and `slvm_basicSize` is the size it was allocated
for. -/
theorem heapIterate_of_run {word : ℕ → ℕ} {heapStart : ℕ} {h : heapStart % pageSize = 0}
    {s : HeapRun} (hs : ReflTransGen Step (start word heapStart h) s) :
    (heapIterateLoop (fun m _ => some m)
        (s.memory.compactingHeap.start + s.memory.compactingHeap.size) s.memory
        s.memory.compactingHeap.start).1 = s.allocations.map (·.call s.memory) ∧
      (∃ last, (heapIterateLoop (fun m _ => some m)
        (s.memory.compactingHeap.start + s.memory.compactingHeap.size) s.memory
        s.memory.compactingHeap.start).2 = some (s.memory, last)) ∧
      ∀ a ∈ s.allocations, s.memory.basicSize a.header = a.basicSize := by
  have hvalid := valid_of_run hs
  obtain ⟨last, hlaid, hle, hlt⟩ := hvalid.laid
  have halign := s.memory.start_aligned
  have hparses : ∀ o ∈ s.allocations.map (·.call s.memory), Parses s.memory o := by
    intro o ho
    obtain ⟨a, ha, rfl⟩ := List.mem_map.mp ho
    obtain ⟨format, sizeWord, hintact⟩ := hvalid.intact a ha
    exact hintact.preheader.parses hintact.slotCounts
  have hfold : ∀ objects : List HeapObject,
      objects.foldlM (fun (m : FlatMemory) (_ : HeapObject) => some m) s.memory =
        some s.memory := by
    intro objects
    induction objects with
    | nil => rfl
    | cons o objects ih => rw [List.foldlM_cons]; exact ih
  have hloop := @heapIterateLoop_of_laid FlatMemory _ (fun m _ => some m)
    (fun m objects => m = s.memory ∧ ∀ o ∈ objects, Parses s.memory o)
    (fun m o objects hP => hP.1 ▸ hP.2 o List.mem_cons_self)
    (fun m o objects m' hP hm => ⟨(Option.some.inj hm).symm.trans hP.1,
      fun p hp => hP.2 p (List.mem_cons_of_mem _ hp)⟩)
    _ _ _ _ hlaid halign hle hlt s.memory ⟨rfl, hparses⟩
  have hcalls := @callEach_fst FlatMemory _ (s.allocations.map (·.call s.memory)) s.memory
    (Option.isSome_iff_exists.mpr ⟨_, hfold _⟩)
  refine ⟨(congrArg Prod.fst hloop).trans hcalls, ⟨last, ?_⟩, fun a ha => ?_⟩
  · rw [hloop, callEach_snd, hfold]
    rfl
  obtain ⟨format, sizeWord, hintact⟩ := hvalid.intact a ha
  have hheader : a.header = _ ∨ a.header = _ := hintact.preheader.header_eq
  have hfp := hlaid.forwardingPointer_aligned halign (List.mem_map_of_mem ha)
  have hsmall : a.totalSlotCount * 8 < 2 ^ 64 := by
    have := hintact.totalSlotCount_lt
    omega
  exact (hintact.preheader.basicSize hintact.slotCounts (by
    show a.header % 8 = 0
    omega) hintact.extraSize_le hsmall).trans hintact.basicSize

end

/-- Where the heaps of examples start. -/
theorem exampleStart_aligned : 65536 % pageSize = 0 := rfl

/-- Three behaviors and nothing else: at 1000 one with two named and any number of indexed slots, at
2000 one of bytes, at 3000 a mixed one with two named slots. -/
def exampleWord (a : ℕ) : ℕ :=
  if a = 1024 then encodeFormatAndFixedSize 3 2
  else if a = 2024 then encodeFormatAndFixedSize ObjectFormat.indexable8 0
  else if a = 3024 then encodeFormatAndFixedSize ObjectFormat.mixedObject 2
  else 0

/-- The three behaviors are still there, and less than `used` bytes of the heap are used. -/
structure ExampleMemory (m : FlatMemory) (used : ℕ) : Prop where
  start : m.compactingHeap.start = 65536
  capacity : m.compactingHeap.capacity = defaultCompactingHeapCapacity
  size_le : m.compactingHeap.size ≤ used
  words : ∀ a < 65536, m.word a = exampleWord a

namespace ExampleMemory

variable {m m' : FlatMemory} {used : ℕ}

theorem initial : ExampleMemory (HeapRun.start exampleWord 65536 rfl).memory 0 :=
  ⟨rfl, rfl, Nat.le_refl _, fun _ _ => rfl⟩

theorem behavior (h : ExampleMemory m used) {b format fixedSlot : ℕ}
    (hword : exampleWord (b + 24) = encodeFormatAndFixedSize format fixedSlot)
    (hb : b + 24 < 65536) (hformat : format < 2 ^ 32) (hfixed : fixedSlot < 2 ^ 16) :
    m.instanceFormat b = format ∧ m.instanceFixedSize b = fixedSlot := by
  have hread : m.word (b + 8 + Field.format * 8) = encodeFormatAndFixedSize format fixedSlot :=
    (h.words (b + 24) hb).trans hword
  exact ⟨(congrArg decodeFormat hread).trans (decodeFormat_encode hformat hfixed),
    (congrArg decodeFixedSize hread).trans (decodeFixedSize_encode hfixed)⟩

theorem pointers (h : ExampleMemory m used) :
    m.instanceFormat 1000 = 3 ∧ m.instanceFixedSize 1000 = 2 :=
  h.behavior rfl (by decide) (by decide) (by decide)

theorem bytes (h : ExampleMemory m used) :
    m.instanceFormat 2000 = ObjectFormat.indexable8 ∧ m.instanceFixedSize 2000 = 0 :=
  h.behavior rfl (by decide) (by decide) (by decide)

theorem mixed (h : ExampleMemory m used) :
    m.instanceFormat 3000 = ObjectFormat.mixedObject ∧ m.instanceFixedSize 3000 = 2 :=
  h.behavior rfl (by decide) (by decide) (by decide)

/-- An allocation keeps the behaviors. -/
theorem created (h : ExampleMemory m used) {o : HeapObject} {format sizeWord : ℕ}
    (hcreated : FlatMemory.Created m o format sizeWord m') :
    ExampleMemory m' (used + 48 + o.totalSlotCount * 8) := by
  refine ⟨hcreated.start.trans h.start, hcreated.capacity.trans h.capacity, ?_, fun a ha => ?_⟩
  · exact hcreated.size_lt.le.trans (by have := h.size_le; omega)
  · exact (hcreated.frame_below (by rwa [h.start])).trans (h.words a ha)

theorem size_le_default (h : ExampleMemory m used) (hused : used ≤ 10737418240) :
    m.compactingHeap.size ≤ defaultCompactingHeapCapacity := by
  rw [defaultCompactingHeapCapacity_eq]
  exact h.size_le.trans hused

theorem fits (h : ExampleMemory m used) (hused : used ≤ 10737418240) :
    m.compactingHeap.size ≤ m.compactingHeap.capacity :=
  h.capacity ▸ h.size_le_default hused

variable [KernelImage] {s : HeapRun}

theorem step_pointers (h : ExampleMemory s.memory used) (hb : 1000 ≠ nilOop) {v slots : ℕ}
    (hslots : 2 + v = slots) (hroom : used + 48 + slots * 8 ≤ 10737418240) :
    ∃ s' o, Step s s' ∧ s'.allocations = s.allocations ++ [⟨o, slots, slots, slots⟩] ∧
      ExampleMemory s'.memory (used + 48 + slots * 8) := by
  obtain ⟨hformat, hfixed⟩ := h.pointers
  rw [← hfixed] at hslots
  obtain ⟨m, hm, hcreated⟩ := basicNew_pointers s.memory (v := v) (o := s.memory.objectOf slots)
    hb (by rw [hformat]; decide) (by omega) (h.size_le_default (by omega)) (by rw [← hslots])
  have hgrown := h.created hcreated
  have hstep := Step.basicNewPointers (by rw [hformat]; decide) (by omega) hm (hgrown.fits hroom)
  rw [hslots] at hstep
  exact ⟨_, _, hstep, rfl, hgrown⟩

theorem step_bytes (h : ExampleMemory s.memory used) (hb : 2000 ≠ nilOop) {v slots : ℕ}
    (hslots : (v + 7) / 8 = slots) (hroom : used + 48 + slots * 8 ≤ 10737418240) :
    ∃ s' o, Step s s' ∧ s'.allocations = s.allocations ++ [⟨o, slots, slots, v⟩] ∧
      ExampleMemory s'.memory (used + 48 + slots * 8) := by
  obtain ⟨hformat, hfixed⟩ := h.bytes
  have htotal : s.memory.instanceFixedSize 2000 + (v + 7) / 8 = slots := by omega
  obtain ⟨m, _, hm, -, -, hcreated⟩ := basicNew_bytes s.memory (v := v)
    (o := s.memory.objectOf slots) hb hformat (by omega) (h.size_le_default (by omega))
    (by rw [← htotal])
  have hgrown := h.created hcreated
  have hstep := Step.basicNewBytes hformat (by omega) hm (hgrown.fits hroom)
  rw [htotal, hfixed, Nat.mul_zero, Nat.zero_add] at hstep
  exact ⟨_, _, hstep, rfl, hgrown⟩

theorem step_mixed (h : ExampleMemory s.memory used) (hb : 3000 ≠ nilOop) {v n slots : ℕ}
    (hslots : 2 + (v * 8 + n + 7) / 8 = slots) (hroom : used + 48 + slots * 8 ≤ 10737418240) :
    ∃ s' o, Step s s' ∧ s'.allocations = s.allocations ++ [⟨o, 2 + v, slots, 8 * (2 + v) + n⟩] ∧
      ExampleMemory s'.memory (used + 48 + slots * 8) := by
  obtain ⟨hformat, hfixed⟩ := h.mixed
  have htotal : s.memory.instanceFixedSize 3000 + (v * 8 + n + 7) / 8 = slots := by omega
  obtain ⟨m, _, _, hm, -, -, hcreated, -⟩ := basicNewMixedNative_mixed s.memory
    (v := v) (n := n) (o := s.memory.mixedObjectOf (2 + v) slots) hb hformat (by omega)
    (h.size_le_default (by omega)) (by rw [← htotal, hfixed])
  have hgrown := h.created hcreated
  have hstep := Step.basicNewMixedNative hformat (by omega) hm (hgrown.fits hroom)
  rw [htotal, hfixed] at hstep
  exact ⟨_, _, hstep, rfl, hgrown⟩

end ExampleMemory

/-- The walk over a heap with a pointer object of five slots, a byte object whose 255 slots need the
size pre-header, and a mixed object finds all three, after a store into the second. -/
theorem heapIterate_of_run_three :
    letI := sequentialImage
    ∃ s, ReflTransGen Step (start exampleWord 65536 rfl) s ∧
      s.allocations.map (fun a => (a.oopSlotCount, a.totalSlotCount, a.basicSize)) =
        [(5, 5, 5), (255, 255, 2037), (3, 4, 29)] ∧
      (heapIterateLoop (fun m _ => some m)
        (s.memory.compactingHeap.start + s.memory.compactingHeap.size) s.memory
        s.memory.compactingHeap.start).1 = s.allocations.map (·.call s.memory) := by
  let := sequentialImage
  have h₀ : ExampleMemory (start exampleWord 65536 rfl).memory 0 := ExampleMemory.initial
  obtain ⟨s₁, o₁, hstep₁, hmade₁, h₁⟩ := h₀.step_pointers (v := 3) (by decide) rfl (by decide)
  obtain ⟨s₂, o₂, hstep₂, hmade₂, h₂⟩ := h₁.step_bytes (v := 2037) (by decide) rfl (by decide)
  obtain ⟨s₃, o₃, hstep₃, hmade₃, -⟩ := h₂.step_mixed (v := 1) (n := 5) (by decide) rfl (by decide)
  rw [hmade₂, hmade₁] at hmade₃
  have hstore : s₃.MayStore (o₂ + 8) := by
    refine Or.inl ⟨⟨o₂, 255, 255, 2037⟩, ?_, Nat.le_refl _,
      Nat.lt_add_of_pos_right (by decide : 0 < 255 * 8)⟩
    rw [hmade₃]
    exact List.mem_append_left _ List.mem_concat_self
  have hrun := (((ReflTransGen.single hstep₁).tail hstep₂).tail hstep₃).tail
    (Step.setWord 7 hstore)
  refine ⟨_, hrun, ?_, (heapIterate_of_run hrun).1⟩
  rw [hmade₃]
  rfl

end HeapRun

/-! ### Wide elements -/

namespace FlatMemory

/-- The size in bytes of an element of an indexable format. -/
def elementSize (format : ℕ) : ℕ :=
  if format = ObjectFormat.indexable64 then 8
  else if format = ObjectFormat.indexable32 then 4
  else 2

/-- The formats an object of an indexable class can have: those that encode its unused elements. -/
def formatFamily (format : ℕ) : List ℕ :=
  if format = ObjectFormat.indexable64 then [9]
  else if format = ObjectFormat.indexable32 then [10, 11]
  else [12, 13, 14, 15]

/-- A new object of `n` elements has that size, a format of its class, and room for them. -/
structure SizeKept (m : FlatMemory) (o format n : ℕ) : Prop where
  basicSize : m.basicSize o = n
  family : (m.header o).objectFormat ∈ formatFamily format
  room : n * elementSize format ≤ m.compactingHeap.start + m.compactingHeap.size - (o + 8)

/-- The size of a new object whose padding left a format that is not mixed. -/
theorem Created.basicSize {m m' : FlatMemory} {slotCount format : ℕ}
    (h : Created m (m.objectOf slotCount) format slotCount m')
    (hformat : format < ObjectFormat.mixedObject)
    (hextra : spurFormatExtraSize format ≤ slotCount * spurFormatMultiplier format)
    (hlt : slotCount * 8 < 2 ^ 64) :
    m'.basicSize (m.objectOf slotCount).header =
      slotCount * spurFormatMultiplier format - spurFormatExtraSize format := by
  have haligned := h.aligned
  have hheader := h.preheader.header_eq
  refine h.preheader.basicSize ?_ (by omega) hextra hlt
  rw [Preheader.SlotCounts, if_neg (Nat.not_le.mpr hformat)]
  exact ⟨rfl, rfl⟩

/-- The room the slots of a new object take. -/
theorem Created.room {m m' : FlatMemory} {slotCount format : ℕ}
    (h : Created m (m.objectOf slotCount) format slotCount m') :
    m'.compactingHeap.start + m'.compactingHeap.size - ((m.objectOf slotCount).header + 8) =
      slotCount * 8 := by
  rw [h.finish, Nat.add_sub_cancel_left]
  rfl

variable [KernelImage] {m : FlatMemory} {b n : ℕ}

theorem basicNew_indexable64 (hb : b ≠ nilOop) (hformat : m.instanceFormat b = 9)
    (hfixed : m.instanceFixedSize b = 0) (hn : n < 2 ^ 56)
    (hsize : m.compactingHeap.size ≤ defaultCompactingHeapCapacity) :
    ∃ o m', m.basicNew b n = some (o, m') ∧ SizeKept m' o 9 n := by
  rw [defaultCompactingHeapCapacity_eq] at hsize
  have hpadding : unsignedSub 64 (n * 8 % 2 ^ 64) (n * 8 % 2 ^ 64) = 0 := by
    rw [unsignedSub_of_le _ (Nat.le_refl _), Nat.sub_self]
  obtain ⟨m', hm', hcreated⟩ := @basicNew_created _ m b n n 8 0 hb (by rw [hformat]; decide)
    (by rw [hformat]; rfl) hpadding (by rw [hfixed]; omega)
  rw [hformat, hfixed, Nat.zero_add] at hcreated
  rw [hfixed, Nat.zero_add] at hm'
  refine ⟨_, m', hm', ?_, ?_, ?_⟩
  · rw [hcreated.basicSize (by decide) (Nat.zero_le _) (by omega)]
    exact Nat.mul_one n
  · rw [show (m'.header _).objectFormat = _ from hcreated.preheader.objectFormat]
    decide
  · rw [hcreated.room]
    exact Nat.le_refl _

/-- The padding of 32-bit elements is counted in bytes, and too much of it. -/
theorem basicNew_indexable32 (hb : b ≠ nilOop) (hformat : m.instanceFormat b = 10)
    (hfixed : m.instanceFixedSize b = 0) (hn : n < 2 ^ 56)
    (hsize : m.compactingHeap.size ≤ defaultCompactingHeapCapacity) :
    ∃ o m', m.basicNew b n = some (o, m') ∧ ¬ SizeKept m' o 10 n := by
  rw [defaultCompactingHeapCapacity_eq] at hsize
  have hextra : extraSlots (m.instanceFormat b) n = (n + 1, 4) := by
    rw [hformat]
    exact extraSlots_indexable32 (by omega)
  have hpadding : unsignedSub 64 ((n + 1) * 8 % 2 ^ 64) (n * 4 % 2 ^ 64) = n * 4 + 8 := by
    rw [unsignedSub_mod (by omega) (by omega)]
    omega
  obtain ⟨m', hm', hcreated⟩ := basicNew_created m hb (by rw [hformat]; decide) hextra hpadding
    (by rw [hfixed]; omega)
  rw [hformat, hfixed, Nat.zero_add] at hcreated
  rw [hfixed, Nat.zero_add] at hm'
  refine ⟨_, m', hm', fun h => ?_⟩
  have hfield := h.family
  rw [show (m'.header _).objectFormat = _ from hcreated.preheader.objectFormat] at hfield
  have hcases : (10 + (n * 4 + 8)) % 2 ^ 5 = 10 ∨ (10 + (n * 4 + 8)) % 2 ^ 5 = 11 := by
    simpa [formatFamily] using hfield
  -- the format comes out as 10 for some sizes, but then the object counts double
  obtain h10 : (10 + (n * 4 + 8)) % 2 ^ 5 = 10 := by omega
  rw [h10] at hcreated
  have hcount := hcreated.basicSize (by decide) (Nat.zero_le _) (by omega)
  rw [h.basicSize] at hcount
  have : n = (n + 1) * 2 - 0 := hcount
  omega

/-- The padding of 16-bit elements is counted in bytes where the format counts elements. -/
theorem basicNew_indexable16 (hb : b ≠ nilOop) (hformat : m.instanceFormat b = 12)
    (hfixed : m.instanceFixedSize b = 0) (hn : n < 2 ^ 56)
    (hsize : m.compactingHeap.size ≤ defaultCompactingHeapCapacity) :
    ∃ o m', m.basicNew b n = some (o, m') ∧ (SizeKept m' o 12 n ↔ n % 4 = 0) := by
  rw [defaultCompactingHeapCapacity_eq] at hsize
  generalize hslots : (n * 2 + 7) / 8 = slots
  have hextra : extraSlots (m.instanceFormat b) n = (slots, 2) := by
    rw [hformat, ← hslots]
    exact extraSlots_indexable16 (by omega)
  generalize hpad : slots * 8 - n * 2 = pad
  have hpadding : unsignedSub 64 (slots * 8 % 2 ^ 64) (n * 2 % 2 ^ 64) = pad := by
    rw [unsignedSub_mod (by omega) (by omega), hpad]
  obtain ⟨m', hm', hcreated⟩ := basicNew_created m hb (by rw [hformat]; decide) hextra hpadding
    (by rw [hfixed]; omega)
  rw [hformat, hfixed, Nat.zero_add, Nat.mod_eq_of_lt (by omega)] at hcreated
  rw [hfixed, Nat.zero_add] at hm'
  have hfield : (m'.header (m.objectOf slots).header).objectFormat = 12 + pad :=
    hcreated.preheader.objectFormat
  refine ⟨_, m', hm', fun h => ?_, fun h4 => ?_⟩
  · have hfamily := h.family
    rw [hfield] at hfamily
    have hcases : 12 + pad = 12 ∨ 12 + pad = 13 ∨ 12 + pad = 14 ∨ 12 + pad = 15 :=
      List.mem_cons.mp hfamily |>.imp_right fun h' => by simpa using h'
    by_contra hne
    obtain rfl : pad = 2 := by omega
    have hcount := hcreated.basicSize (by decide) (by
      show 2 ≤ slots * 4
      omega) (by omega)
    rw [h.basicSize] at hcount
    have : n = slots * 4 - 2 := hcount
    omega
  · obtain rfl : pad = 0 := by omega
    refine ⟨?_, ?_, ?_⟩
    · rw [hcreated.basicSize (by decide) (Nat.zero_le _) (by omega)]
      show slots * 4 - 0 = n
      omega
    · rw [hfield]
      decide
    · rw [hcreated.room]
      show n * 2 ≤ slots * 8
      omega

/-- **Which sizes of wide elements are kept**: all sizes of 64-bit elements, the sizes of 16-bit
elements that fill their slots, and no size of 32-bit elements. -/
theorem basicSize_basicNew_iff {format : ℕ} (hb : b ≠ nilOop)
    (hformat : m.instanceFormat b = format) (hwide : format ∈ [9, 10, 12])
    (hfixed : m.instanceFixedSize b = 0) (hn : n < 2 ^ 56)
    (hsize : m.compactingHeap.size ≤ defaultCompactingHeapCapacity) :
    ∃ o m', m.basicNew b n = some (o, m') ∧
      (SizeKept m' o format n ↔ format = 9 ∨ (format = 12 ∧ n % 4 = 0)) := by
  simp only [List.mem_cons, List.not_mem_nil, or_false] at hwide
  rcases hwide with rfl | rfl | rfl
  · obtain ⟨o, m', hm', h⟩ := basicNew_indexable64 hb hformat hfixed hn hsize
    exact ⟨o, m', hm', iff_of_true h (Or.inl rfl)⟩
  · obtain ⟨o, m', hm', h⟩ := basicNew_indexable32 hb hformat hfixed hn hsize
    exact ⟨o, m', hm', iff_of_false h (by omega)⟩
  · obtain ⟨o, m', hm', h⟩ := basicNew_indexable16 hb hformat hfixed hn hsize
    refine ⟨o, m', hm', h.trans ⟨fun h4 => Or.inr ⟨rfl, h4⟩, ?_⟩⟩
    rintro (h9 | ⟨-, h4⟩)
    · exact absurd h9 (by decide)
    · exact h4

omit [KernelImage]

/-- An empty heap at 65536, and a behavior at 1000 whose instances have a given format. -/
def exampleMemory (format : ℕ) : FlatMemory where
  word a := if a = 1024 then encodeFormatAndFixedSize format 0 else 0
  compactingHeap :=
    StackHeap.create 65536 defaultCompactingHeapCapacity HeapRun.exampleStart_aligned

/-- Four 16-bit elements keep their size. -/
theorem basicSize_basicNew_iff_four :
    letI := sequentialImage
    ∃ o m', (exampleMemory 12).basicNew 1000 4 = some (o, m') ∧ SizeKept m' o 12 4 := by
  let := sequentialImage
  obtain ⟨o, m', hm', h⟩ := @basicSize_basicNew_iff _ (exampleMemory 12) 1000 4 12 (by decide)
    (decodeFormat_encode (by decide) (by decide)) (by decide)
    (decodeFixedSize_encode (by decide)) (by decide) (Nat.zero_le _)
  exact ⟨o, m', hm', h.mpr (Or.inr ⟨rfl, rfl⟩)⟩

/-- An object of one 32-bit element comes out with size 10 and a byte format. -/
theorem basicSize_basicNew_bitmap :
    letI := sequentialImage
    ((exampleMemory 10).basicNew 1000 1).map (fun r =>
      (r.2.basicSize r.1, (r.2.header r.1).objectFormat))
      = some (10, 22) := by
  decide +kernel

end FlatMemory

end SlvmNative
