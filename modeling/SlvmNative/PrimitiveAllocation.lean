import SlvmNative.CompactingHeap
import SlvmNative.SmallIntegers

/-!
# Allocation from Smalltalk

The primitive `basicNew:` of behaviors (`classes/kernel.c`). The argument is a signed integer; it
becomes an unsigned size without a check, and the instantiator rounds it to slots in the way of its
format.

## Main definitions

* `primitiveBasicNewWithSize` — the primitive
* `FlatMemory.Allocated` — the extent of a new object, and a size its slots have room for
* `FlatMemory.KeepsExtent` — the formats and sizes whose slots are right

## Main results

* `FlatMemory.basicNewWithSize_answers_iff` — which arguments get what they ask for
-/

namespace SlvmNative

/-- `SLVM_PrimitiveError_Success` -/
def primitiveErrorSuccess : ℕ := 0

/-- `SLVM_PrimitiveError_InvalidArgument` -/
def primitiveErrorInvalidArgument : ℕ := 3

/-- `slvm_primitiveFailWithError` -/
def PrimitiveContext.failWithError [KernelImage] (context : PrimitiveContext) (errorCode : ℕ) :
    ℕ × PrimitiveContext :=
  (nilOop, { context with errorCode := errorCode })

/-- The context the sender makes for one argument: `errorCode` is success to begin with. -/
def PrimitiveContext.sent (receiver argument : ℕ) : PrimitiveContext where
  errorCode := primitiveErrorSuccess
  receiver := receiver
  oopArguments := [argument]

/-- `slvm_Behavior_primitive_basicNewWithSize`: what it returns, the context and the memory. -/
def primitiveBasicNewWithSize [KernelImage] (m : FlatMemory) (context : PrimitiveContext) :
    Option ((ℕ × PrimitiveContext) × FlatMemory) :=
  match context.oopArguments with
  | argument :: _ =>
    if ¬ oopIsSmallInteger argument then
      some (context.failWithError primitiveErrorInvalidArgument, m)
    else
      -- `size_t variableSize`, assigned from a signed integer
      let variableSize := (decodeSignedSmallInteger argument).toNat
      (m.basicNew context.receiver variableSize).map fun result => ((result.1, context), result.2)
  -- `oopArguments[0]` is not an argument
  | [] => none

namespace FlatMemory

/-- The size in bytes of an element of a format. -/
def formatElementSize (format : ℕ) : ℕ := 8 / spurFormatMultiplier format

/-- The slots of an object with named slots and `n` elements. -/
def slotsFor (fixedSize elementSize n : ℕ) : ℕ := fixedSize + (n * elementSize + 7) / 8

/-- A new object `o` of a number of slots is the next block of the heap, and its size is one the
slots have room for. -/
structure Allocated (m : FlatMemory) (slots elementSize o : ℕ) (m' : FlatMemory) : Prop where
  position : o = m.compactingHeap.start + m.compactingHeap.nextOffset 16 +
    (if slots ≥ 255 then 24 else 8)
  extent : m'.compactingHeap.start + m'.compactingHeap.size = o + 8 + slots * 8
  inHeap : o + 8 + slots * 8 ≤ m.compactingHeap.start + m.compactingHeap.capacity
  basicSize_le : m'.basicSize o * elementSize ≤ slots * 8

/-- A new object of so many slots fits what is left of the heap. -/
def HasRoom (m : FlatMemory) (slots : ℕ) : Prop :=
  m.compactingHeap.nextOffset 16 + (if slots ≥ 255 then 24 else 8) + 8 + slots * 8 ≤
    m.compactingHeap.capacity

/-- The formats and sizes whose slots are right and hold the size. The padding of 16-bit elements is
counted in bytes, so more than one missing element makes it a format of bytes; behaviors whose
format is one of a padded object get a slot for each element. -/
def KeepsExtent (format fixedSize n : ℕ) : Prop :=
  format ≤ ObjectFormat.indexable64 ∨ format = ObjectFormat.indexable8 ∨
    (format = ObjectFormat.indexable16 ∧ (n % 4 = 0 ∨ n % 4 = 3)) ∨
    (format ∉ [ObjectFormat.indexable32, ObjectFormat.indexable16] ∧ n ≤ 1 ∧ 0 < fixedSize + n)

instance (format fixedSize n : ℕ) : Decidable (KeepsExtent format fixedSize n) :=
  inferInstanceAs (Decidable (_ ∨ _ ∨ _ ∨ _))

section

variable [KernelImage]

/-- The primitive fails and allocates nothing, or the argument is a size and the result is an object
of that size. -/
def Answers (m : FlatMemory) (b : ℕ) (k : SmallInteger) : Prop :=
  ∃ o context m', primitiveBasicNewWithSize m (PrimitiveContext.sent b k.oop) =
      some ((o, context), m') ∧
    ((context.errorCode ≠ primitiveErrorSuccess ∧ m'.compactingHeap = m.compactingHeap) ∨
      ∃ n : ℕ, k.val = n ∧
        Allocated m (slotsFor (m.instanceFixedSize b) (formatElementSize (m.instanceFormat b)) n)
          (formatElementSize (m.instanceFormat b)) o m')

/-- An argument that is not a small integer makes the primitive fail and nothing else. -/
theorem primitiveBasicNewWithSize_of_not_smallInteger {m : FlatMemory} {context : PrimitiveContext}
    {argument : ℕ} {rest : List ℕ} (h : context.oopArguments = argument :: rest)
    (hargument : ¬ oopIsSmallInteger argument) :
    primitiveBasicNewWithSize m context =
      some (context.failWithError primitiveErrorInvalidArgument, m) := by
  rw [primitiveBasicNewWithSize, h]
  exact if_pos hargument

/-- A small integer never makes it fail. -/
theorem primitiveBasicNewWithSize_sent (m : FlatMemory) (b : ℕ) (k : SmallInteger) :
    primitiveBasicNewWithSize m (PrimitiveContext.sent b k.oop) =
      (m.basicNew b (decodeSignedSmallInteger k.oop).toNat).map fun result =>
        ((result.1, PrimitiveContext.sent b k.oop), result.2) :=
  if_neg (not_not_intro k.oop_isSmallInteger)

omit [KernelImage] in
theorem toNat_decode_oop {k : SmallInteger} {n : ℕ} (h : k.val = n) :
    (decodeSignedSmallInteger k.oop).toNat = n := by
  have hvalue := k.decode_oop
  have hlt := (decodeSignedSmallInteger k.oop).isLt
  rw [h, BitVec.toInt_eq_toNat_cond] at hvalue
  split_ifs at hvalue <;> omega

variable {m : FlatMemory} {b : ℕ} {k : SmallInteger}

/-- Only an argument that is a size is answered. -/
theorem Answers.exists_size (h : Answers m b k) :
    ∃ n : ℕ, k.val = n ∧ ∃ o m', m.basicNew b n = some (o, m') ∧
      Allocated m (slotsFor (m.instanceFixedSize b) (formatElementSize (m.instanceFormat b)) n)
        (formatElementSize (m.instanceFormat b)) o m' := by
  obtain ⟨o, context, m', hresult, hanswer⟩ := h
  rw [primitiveBasicNewWithSize_sent, Option.map_eq_some_iff] at hresult
  obtain ⟨⟨o₁, m₁⟩, hnew, heq⟩ := hresult
  obtain ⟨hpair, rfl⟩ := Prod.mk.inj heq
  obtain ⟨rfl, rfl⟩ := Prod.mk.inj hpair
  rcases hanswer with ⟨herror, -⟩ | ⟨n, hn, hallocated⟩
  · exact absurd rfl herror
  · rw [toNat_decode_oop hn] at hnew
    exact ⟨n, hn, o₁, m₁, hnew, hallocated⟩

theorem Answers.of_size {n : ℕ} (hn : k.val = n) {o : ℕ} {m' : FlatMemory}
    (hnew : m.basicNew b n = some (o, m'))
    (h : Allocated m (slotsFor (m.instanceFixedSize b) (formatElementSize (m.instanceFormat b)) n)
      (formatElementSize (m.instanceFormat b)) o m') : Answers m b k := by
  refine ⟨o, PrimitiveContext.sent b k.oop, m', ?_, Or.inr ⟨n, hn, h⟩⟩
  rw [primitiveBasicNewWithSize_sent, toNat_decode_oop hn, hnew]
  rfl

/-! ### The rounding of each format -/

omit [KernelImage] in
/-- An object without slots whose format says that some are unused. -/
theorem Created.basicSize_of_empty {m' : FlatMemory} {format : ℕ}
    (h : Created m (m.objectOf 0) format 0 m') :
    m'.basicSize (m.objectOf 0).header = unsignedSub 32 0 (spurFormatExtraSize format) := by
  have haligned := h.aligned
  have hheader := h.preheader.header_eq
  have hptr : ¬ oopIsImmediate (m.objectOf 0).header :=
    not_oopIsImmediate.mpr (oopIsPointers_iff.mpr (by omega))
  have hslots : (m'.header (m.objectOf 0).header).slotCount = 0 := by
    rcases h.preheader.shape with ⟨h24, -⟩ | ⟨-, -, hslots, -⟩
    · exact absurd h24 (by simp [objectOf])
    · exact hslots
  rw [FlatMemory.basicSize, if_neg hptr]
  simp only [h.preheader.objectFormat, hslots, Nat.zero_mul, Nat.reduceEqDiff, if_false]

/-- What the primitive answers for a size, once the rounding is known. -/
theorem answers_iff_of_extraSlots {n extra elementSize padding : ℕ} (hb : b ≠ nilOop)
    (hformat : m.instanceFormat b < ObjectFormat.mixedObject) (hn : k.val = n)
    (hextra : extraSlots (m.instanceFormat b) n = (extra, elementSize))
    (hpadding : unsignedSub 64 (extra * 8 % 2 ^ 64) (n * elementSize % 2 ^ 64) = padding)
    (hfit : m.compactingHeap.size + 48 + (m.instanceFixedSize b + extra) * 8 < 2 ^ 64) :
    ∃ m', Created m (m.objectOf (m.instanceFixedSize b + extra))
        ((m.instanceFormat b + padding) % 2 ^ 5) (m.instanceFixedSize b + extra) m' ∧
      (Answers m b k ↔
        extra = (n * formatElementSize (m.instanceFormat b) + 7) / 8 ∧
        HasRoom m (m.instanceFixedSize b + extra) ∧
        m'.basicSize (m.objectOf (m.instanceFixedSize b + extra)).header *
            formatElementSize (m.instanceFormat b) ≤ (m.instanceFixedSize b + extra) * 8) := by
  obtain ⟨m', hnew, hcreated⟩ := basicNew_created m hb hformat hextra hpadding hfit
  have hfinish := hcreated.finish
  refine ⟨m', hcreated, fun h => ?_, fun ⟨hright, hroom, hsize⟩ => ?_⟩
  · obtain ⟨n₁, hn₁, o, m₁, hnew₁, hallocated⟩ := h.exists_size
    obtain rfl : n₁ = n := by omega
    obtain ⟨rfl, rfl⟩ := Prod.mk.inj (Option.some.inj (hnew.symm.trans hnew₁))
    have hextent := hallocated.extent
    have hright : extra = (n₁ * formatElementSize (m.instanceFormat b) + 7) / 8 := by
      rw [hfinish, slotsFor] at hextent
      have htotal : (m.objectOf (m.instanceFixedSize b + extra)).totalSlotCount =
        m.instanceFixedSize b + extra := rfl
      omega
    rw [slotsFor, ← hright] at hallocated
    refine ⟨hright, ?_, hallocated.basicSize_le⟩
    have hinHeap := hallocated.inHeap
    simp only [objectOf] at hinHeap
    rw [HasRoom]
    omega
  · refine Answers.of_size hn hnew ?_
    rw [slotsFor, ← hright]
    refine ⟨rfl, hfinish, ?_, hsize⟩
    rw [HasRoom] at hroom
    simp only [objectOf]
    omega

/-- What the primitive answers where each element gets a slot. -/
theorem answers_iff_of_not_mem {n : ℕ} (hb : b ≠ nilOop)
    (hformat : m.instanceFormat b < ObjectFormat.mixedObject) (hn : k.val = n) (hlt : n < 2 ^ 60)
    (hheap : m.compactingHeap.size ≤ defaultCompactingHeapCapacity)
    (hmem : m.instanceFormat b ∉ [ObjectFormat.indexable32, ObjectFormat.indexable16,
      ObjectFormat.indexable8]) :
    ∃ m', Created m (m.objectOf (m.instanceFixedSize b + n)) (m.instanceFormat b)
        (m.instanceFixedSize b + n) m' ∧
      (Answers m b k ↔
        n = (n * formatElementSize (m.instanceFormat b) + 7) / 8 ∧
        HasRoom m (m.instanceFixedSize b + n) ∧
        m'.basicSize (m.objectOf (m.instanceFixedSize b + n)).header *
            formatElementSize (m.instanceFormat b) ≤ (m.instanceFixedSize b + n) * 8) := by
  have hfixed : m.instanceFixedSize b < 2 ^ 16 := decodeFixedSize_lt _
  rw [defaultCompactingHeapCapacity_eq] at hheap
  have hpadding : unsignedSub 64 (n * 8 % 2 ^ 64) (n * 8 % 2 ^ 64) = 0 := by
    rw [unsignedSub_of_le _ (Nat.le_refl _), Nat.sub_self]
  have hkeep : (m.instanceFormat b + 0) % 2 ^ 5 = m.instanceFormat b := by
    rw [Nat.add_zero]
    exact Nat.mod_eq_of_lt (Nat.lt_trans hformat (by decide))
  have h := answers_iff_of_extraSlots hb hformat hn (extraSlots_of_not_mem hmem n) hpadding
    (by omega)
  rwa [hkeep] at h

/-- Elements of a whole slot each. -/
theorem answers_iff_of_slots {n : ℕ} (hb : b ≠ nilOop) (hn : k.val = n) (hlt : n < 2 ^ 60)
    (hheap : m.compactingHeap.size ≤ defaultCompactingHeapCapacity)
    (hformat : m.instanceFormat b ≤ ObjectFormat.indexable64) :
    Answers m b k ↔
      HasRoom m (slotsFor (m.instanceFixedSize b) (formatElementSize (m.instanceFormat b)) n) := by
  have hfixed : m.instanceFixedSize b < 2 ^ 16 := decodeFixedSize_lt _
  obtain ⟨m', hcreated, hiff⟩ := answers_iff_of_not_mem hb
    (Nat.lt_of_le_of_lt hformat (by decide)) hn hlt hheap (by
      simp only [ObjectFormat.indexable64] at hformat
      simp only [ObjectFormat.indexable32, ObjectFormat.indexable16, ObjectFormat.indexable8,
        List.mem_cons, List.not_mem_nil, or_false, not_or]
      exact ⟨by omega, by omega, by omega⟩)
  generalize m.instanceFormat b = format at *
  have hone : spurFormatMultiplier format = 1 := by
    rcases Nat.lt_or_eq_of_le hformat with hpointers | rfl
    · exact spurFormatMultiplier_pointers hpointers
    · rfl
  have hnone : spurFormatExtraSize format = 0 := by
    rcases Nat.lt_or_eq_of_le hformat with hpointers | rfl
    · exact spurFormatExtraSize_pointers hpointers
    · rfl
  have hsize : formatElementSize format = 8 := by rw [formatElementSize, hone]
  have hbasic := hcreated.basicSize (Nat.lt_of_le_of_lt hformat (by decide))
    (by rw [hnone]; exact Nat.zero_le _) (by omega)
  rw [hone, hnone, Nat.mul_one, Nat.sub_zero] at hbasic
  rw [hiff, hbasic, hsize, slotsFor, show (n * 8 + 7) / 8 = n by omega]
  exact ⟨fun h => h.2.1, fun h => ⟨rfl, h, Nat.le_refl _⟩⟩

omit [KernelImage] in
/-- The formats of padded objects: an element takes at most half a slot, and some elements of the
last slot are unused but not all. -/
theorem padded_of_not_mem : ∀ format < ObjectFormat.mixedObject,
    ObjectFormat.indexable64 < format →
    format ∉ [ObjectFormat.indexable32, ObjectFormat.indexable16, ObjectFormat.indexable8] →
    formatElementSize format ∈ [1, 2, 4] ∧
      spurFormatMultiplier format * formatElementSize format = 8 ∧
      0 < spurFormatExtraSize format ∧
        spurFormatExtraSize format < spurFormatMultiplier format := by
  decide

/-- A behavior whose format is one of a padded object: a slot for each element is right for one
element at most, and there has to be a slot with the unused elements. -/
theorem answers_iff_of_padded {n : ℕ} (hb : b ≠ nilOop) (hn : k.val = n) (hlt : n < 2 ^ 60)
    (hheap : m.compactingHeap.size ≤ defaultCompactingHeapCapacity)
    (hformat : m.instanceFormat b < ObjectFormat.mixedObject)
    (hwide : ObjectFormat.indexable64 < m.instanceFormat b)
    (hmem : m.instanceFormat b ∉ [ObjectFormat.indexable32, ObjectFormat.indexable16,
      ObjectFormat.indexable8]) :
    Answers m b k ↔
      HasRoom m (slotsFor (m.instanceFixedSize b) (formatElementSize (m.instanceFormat b)) n) ∧
        n ≤ 1 ∧ 0 < m.instanceFixedSize b + n := by
  have hfixed : m.instanceFixedSize b < 2 ^ 16 := decodeFixedSize_lt _
  obtain ⟨hsizes, hfull, hpos, hextra⟩ := padded_of_not_mem _ hformat hwide hmem
  obtain ⟨m', hcreated, hiff⟩ := answers_iff_of_not_mem hb hformat hn hlt hheap hmem
  generalize m.instanceFormat b = format at *
  have hright : n = (n * formatElementSize format + 7) / 8 ↔ n ≤ 1 := by
    simp only [List.mem_cons, List.not_mem_nil, or_false] at hsizes
    rcases hsizes with h | h | h <;> rw [h] <;> omega
  have hcount : m'.basicSize (m.objectOf (m.instanceFixedSize b + n)).header *
      formatElementSize format ≤ (m.instanceFixedSize b + n) * 8 ↔
      0 < m.instanceFixedSize b + n := by
    have hlt : m.instanceFixedSize b + n < 2 ^ 61 := by omega
    generalize m.instanceFixedSize b + n = slots at *
    rcases Nat.eq_zero_or_pos slots with rfl | hslots
    · refine iff_of_false (Nat.not_le.mpr ?_) (Nat.lt_irrefl 0)
      rw [hcreated.basicSize_of_empty, unsignedSub, if_neg (Nat.not_le.mpr hpos), Nat.zero_mul]
      have hmultiplier := spurFormatMultiplier_le format
      refine Nat.mul_pos (by omega) (Nat.pos_of_ne_zero fun h => ?_)
      rw [h, Nat.mul_zero] at hfull
      exact absurd hfull (by decide)
    · refine iff_of_true ?_ hslots
      have hmultiplier : spurFormatMultiplier format ≤ slots * spurFormatMultiplier format :=
        Nat.le_mul_of_pos_left _ hslots
      rw [hcreated.basicSize hformat (by omega) (by omega)]
      calc (slots * spurFormatMultiplier format - spurFormatExtraSize format) *
              formatElementSize format
          ≤ slots * spurFormatMultiplier format * formatElementSize format :=
            Nat.mul_le_mul_right _ (Nat.sub_le _ _)
        _ = slots * 8 := by rw [Nat.mul_assoc, hfull]
  rw [hiff, hcount, hright, slotsFor]
  constructor
  · rintro ⟨hone, hroom, hslots⟩
    rw [← hright.mpr hone]
    exact ⟨hroom, hone, hslots⟩
  · rintro ⟨hroom, hone, hslots⟩
    rw [← hright.mpr hone] at hroom
    exact ⟨hone, hroom, hslots⟩

/-- Bytes are rounded to slots and the missing ones are counted in bytes. -/
theorem answers_iff_of_bytes {n : ℕ} (hb : b ≠ nilOop) (hn : k.val = n) (hlt : n < 2 ^ 60)
    (hheap : m.compactingHeap.size ≤ defaultCompactingHeapCapacity)
    (hformat : m.instanceFormat b = ObjectFormat.indexable8) :
    Answers m b k ↔
      HasRoom m (slotsFor (m.instanceFixedSize b) (formatElementSize (m.instanceFormat b)) n) := by
  have hfixed : m.instanceFixedSize b < 2 ^ 16 := decodeFixedSize_lt _
  rw [defaultCompactingHeapCapacity_eq] at hheap
  generalize hslots : (n + 7) / 8 = slots
  have hextra : extraSlots (m.instanceFormat b) n = (slots, 1) := by
    rw [hformat, extraSlots_indexable8 (by omega), hslots]
  generalize hpad : slots * 8 - n = pad
  have hpadding : unsignedSub 64 (slots * 8 % 2 ^ 64) (n * 1 % 2 ^ 64) = pad := by
    rw [Nat.mul_one, unsignedSub_mod (by omega) (by omega), hpad]
  obtain ⟨m', hcreated, hiff⟩ := answers_iff_of_extraSlots hb (by rw [hformat]; decide) hn hextra
    hpadding (by omega)
  have hsize : formatElementSize ObjectFormat.indexable8 = 1 := rfl
  have hpad8 : pad < 8 := by omega
  have hmod : (m.instanceFormat b + pad) % 2 ^ 5 = ObjectFormat.indexable8 + pad := by
    rw [hformat]
    exact Nat.mod_eq_of_lt (by simp only [ObjectFormat.indexable8]; omega)
  rw [hmod] at hcreated
  have hbasic := hcreated.basicSize
    (by simp only [ObjectFormat.indexable8, ObjectFormat.mixedObject]; omega)
    (by rw [spurFormatExtraSize_bytes hpad8, spurFormatMultiplier_bytes hpad8]; omega) (by omega)
  rw [spurFormatExtraSize_bytes hpad8, spurFormatMultiplier_bytes hpad8] at hbasic
  rw [hiff, hbasic, hformat, hsize, slotsFor, Nat.mul_one, hslots]
  exact ⟨fun h => h.2.1, fun h => ⟨rfl, h, by omega⟩⟩

/-- 16-bit elements are rounded to slots, but the missing ones are counted in bytes. -/
theorem answers_iff_of_shorts {n : ℕ} (hb : b ≠ nilOop) (hn : k.val = n) (hlt : n < 2 ^ 60)
    (hheap : m.compactingHeap.size ≤ defaultCompactingHeapCapacity)
    (hformat : m.instanceFormat b = ObjectFormat.indexable16) :
    Answers m b k ↔
      HasRoom m (slotsFor (m.instanceFixedSize b) (formatElementSize (m.instanceFormat b)) n) ∧
        (n % 4 = 0 ∨ n % 4 = 3) := by
  have hfixed : m.instanceFixedSize b < 2 ^ 16 := decodeFixedSize_lt _
  rw [defaultCompactingHeapCapacity_eq] at hheap
  generalize hslots : (n * 2 + 7) / 8 = slots
  have hextra : extraSlots (m.instanceFormat b) n = (slots, 2) := by
    rw [hformat, extraSlots_indexable16 (by omega), hslots]
  generalize hpad : slots * 8 - n * 2 = pad
  have hpadding : unsignedSub 64 (slots * 8 % 2 ^ 64) (n * 2 % 2 ^ 64) = pad := by
    rw [unsignedSub_mod (by omega) (by omega), hpad]
  obtain ⟨m', hcreated, hiff⟩ := answers_iff_of_extraSlots hb (by rw [hformat]; decide) hn hextra
    hpadding (by omega)
  have hsize : formatElementSize ObjectFormat.indexable16 = 2 := rfl
  rw [hformat] at hcreated
  rw [hiff, hformat, hsize, slotsFor, hslots]
  have hcases : pad = 0 ∨ pad = 2 ∨ pad = 4 ∨ pad = 6 := by omega
  rcases hcases with rfl | rfl | rfl | rfl
  · have hbasic := hcreated.basicSize (by decide) (Nat.zero_le _) (by omega)
    rw [hbasic]
    refine ⟨fun h => ⟨h.2.1, by omega⟩, fun h => ⟨rfl, h.1, ?_⟩⟩
    show ((m.instanceFixedSize b + slots) * 4 - 0) * 2 ≤ _
    omega
  · have hbasic := hcreated.basicSize (by decide) (by
      show 2 ≤ (m.instanceFixedSize b + slots) * 4
      omega) (by omega)
    rw [hbasic]
    refine ⟨fun h => ⟨h.2.1, by omega⟩, fun h => ⟨rfl, h.1, ?_⟩⟩
    show ((m.instanceFixedSize b + slots) * 4 - 2) * 2 ≤ _
    omega
  -- the format has become one of bytes
  · have hbasic := hcreated.basicSize (by decide) (Nat.zero_le _) (by omega)
    rw [hbasic]
    refine ⟨fun h => absurd h.2.2 ?_, fun h => by omega⟩
    show ¬ ((m.instanceFixedSize b + slots) * 8 - 0) * 2 ≤ _
    omega
  · have hbasic := hcreated.basicSize (by decide) (by
      show 2 ≤ (m.instanceFixedSize b + slots) * 8
      omega) (by omega)
    rw [hbasic]
    refine ⟨fun h => absurd h.2.2 ?_, fun h => by omega⟩
    show ¬ ((m.instanceFixedSize b + slots) * 8 - 2) * 2 ≤ _
    omega

/-- 32-bit elements get a slot each and one more. -/
theorem not_answers_of_words {n : ℕ} (hb : b ≠ nilOop) (hn : k.val = n) (hlt : n < 2 ^ 60)
    (hheap : m.compactingHeap.size ≤ defaultCompactingHeapCapacity)
    (hformat : m.instanceFormat b = ObjectFormat.indexable32) : ¬ Answers m b k := by
  have hfixed : m.instanceFixedSize b < 2 ^ 16 := decodeFixedSize_lt _
  rw [defaultCompactingHeapCapacity_eq] at hheap
  have hextra : extraSlots (m.instanceFormat b) n = (n + 1, 4) := by
    rw [hformat, extraSlots_indexable32 (by omega)]
  obtain ⟨m', -, hiff⟩ := answers_iff_of_extraSlots hb (by rw [hformat]; decide) hn hextra rfl
    (by omega)
  have hsize : formatElementSize ObjectFormat.indexable32 = 4 := rfl
  rw [hiff, hformat, hsize]
  rintro ⟨hright, -, -⟩
  omega

omit [KernelImage] in
/-- What fits the heap leaves it within its capacity. -/
theorem HasRoom.size_le {slots : ℕ} (h : HasRoom m slots)
    (hcapacity : m.compactingHeap.capacity = defaultCompactingHeapCapacity) :
    m.compactingHeap.size ≤ defaultCompactingHeapCapacity := by
  have hle := @StackHeap.size_le_nextOffset m.compactingHeap 16 (by decide)
  rw [HasRoom, hcapacity] at h
  omega

omit [KernelImage] in
theorem Allocated.hasRoom {slots elementSize o : ℕ} {m' : FlatMemory}
    (h : Allocated m slots elementSize o m') : HasRoom m slots := by
  have hinHeap := h.inHeap
  rw [h.position] at hinHeap
  rw [HasRoom]
  omega

/-- **Which arguments of `basicNew:` get what they ask for**: those that are not negative, have room
on the heap and are of a format whose rounding is right for them. No argument is rejected. -/
theorem basicNewWithSize_answers_iff (hb : b ≠ nilOop)
    (hformat : m.instanceFormat b < ObjectFormat.mixedObject)
    (hcapacity : m.compactingHeap.capacity = defaultCompactingHeapCapacity) :
    Answers m b k ↔ ∃ n : ℕ, k.val = n ∧
      HasRoom m (slotsFor (m.instanceFixedSize b) (formatElementSize (m.instanceFormat b)) n) ∧
      KeepsExtent (m.instanceFormat b) (m.instanceFixedSize b) n := by
  have hroom_of : Answers m b k → ∃ n : ℕ, k.val = n ∧
      HasRoom m (slotsFor (m.instanceFixedSize b) (formatElementSize (m.instanceFormat b)) n) := by
    intro h
    obtain ⟨n, hn, _, _, -, hallocated⟩ := h.exists_size
    exact ⟨n, hn, hallocated.hasRoom⟩
  have hof_room : ∀ n : ℕ, k.val = n →
      HasRoom m (slotsFor (m.instanceFixedSize b) (formatElementSize (m.instanceFormat b)) n) →
      (Answers m b k ↔ KeepsExtent (m.instanceFormat b) (m.instanceFixedSize b) n) := by
    intro n hn hroom
    have hheap := hroom.size_le hcapacity
    have hlt : n < 2 ^ 60 := by
      have hbound := k.property.2
      rw [hn] at hbound
      exact_mod_cast hbound
    rcases Nat.lt_or_ge ObjectFormat.indexable64 (m.instanceFormat b) with hwide | hslots
    · by_cases h32 : m.instanceFormat b = ObjectFormat.indexable32
      · refine iff_of_false (not_answers_of_words hb hn hlt hheap h32) ?_
        rw [h32]
        simp [KeepsExtent]
      by_cases h16 : m.instanceFormat b = ObjectFormat.indexable16
      · rw [answers_iff_of_shorts hb hn hlt hheap h16, and_iff_right hroom, h16]
        have hwide : ¬ ObjectFormat.indexable16 ≤ ObjectFormat.indexable64 := by decide
        simp [KeepsExtent, hwide]
      by_cases h8 : m.instanceFormat b = ObjectFormat.indexable8
      · rw [answers_iff_of_bytes hb hn hlt hheap h8]
        exact iff_of_true hroom (Or.inr (Or.inl h8))
      · rw [answers_iff_of_padded hb hn hlt hheap hformat hwide
          (by simp [h32, h16, h8]), and_iff_right hroom]
        simp [KeepsExtent, h32, h16, h8, Nat.not_le.mpr hwide]
    · rw [answers_iff_of_slots hb hn hlt hheap hslots]
      exact iff_of_true hroom (Or.inl hslots)
  constructor
  · intro h
    obtain ⟨n, hn, hroom⟩ := hroom_of h
    exact ⟨n, hn, hroom, (hof_room n hn hroom).mp h⟩
  · rintro ⟨n, hn, hroom, hkeeps⟩
    exact (hof_room n hn hroom).mpr hkeeps

end

/-- Five bytes. -/
theorem basicNewWithSize_answers_iff_five :
    letI := sequentialImage
    Answers (exampleMemory ObjectFormat.indexable8) 1000 ⟨5, by decide⟩ := by
  let := sequentialImage
  have hformat : (exampleMemory ObjectFormat.indexable8).instanceFormat 1000 = 16 :=
    decodeFormat_encode (by decide) (by decide)
  have hfixed : (exampleMemory ObjectFormat.indexable8).instanceFixedSize 1000 = 0 :=
    decodeFixedSize_encode (by decide)
  refine (basicNewWithSize_answers_iff (by decide) (by rw [hformat]; decide) rfl).mpr
    ⟨5, rfl, ?_, Or.inr (Or.inl hformat)⟩
  rw [hformat, hfixed]
  show _ ≤ 10737418240
  decide

/-- A behavior with two named slots answers `-1` with an object of one slot. -/
theorem basicNewWithSize_negative :
    letI := sequentialImage
    let m := (HeapRun.start HeapRun.exampleWord 65536 rfl).memory
    (primitiveBasicNewWithSize m
        (PrimitiveContext.sent 1000 (SmallInteger.oop ⟨-1, by decide⟩))).map
          (fun r => (r.1.2.errorCode, r.2.basicSize r.1.1)) = some (primitiveErrorSuccess, 1) ∧
      ¬ Answers m 1000 ⟨-1, by decide⟩ := by
  let := sequentialImage
  refine ⟨by decide +kernel, fun h => ?_⟩
  obtain ⟨n, hn, -⟩ := h.exists_size
  have hnegative : (-1 : ℤ) = n := hn
  omega

end FlatMemory

end SlvmNative
