import SlvmNative.KernelClasses
import SlvmNative.HeapWalk
import SlvmNative.StackHeap
import Mathlib.Logic.Function.Basic

/-!
# Flat memory

The allocator of `spur/objectmodel.c` on one array of 64-bit words, with the size arithmetic of
the 64-bit build: the two instantiators, `slvm_Behavior_basicNew`,
`slvm_Behavior_basicNewMixedNative` and `slvm_basicSize`. Headers are bit-fields of a word, slots
are the words behind it.

## Main definitions

* `FlatMemory` — the words, and the compacting heap
* `FlatMemory.basicNew`, `FlatMemory.basicNewMixedNative`, `FlatMemory.basicSize`

## Main results

* `FlatMemory.Created` — what the instantiators leave behind
* `FlatMemory.basicNew_wrapped`, `FlatMemory.basicNewMixedNative_wrapped` — allocations of any size
* `FlatMemory.Preheader.parses` — the walker reads an object back
-/

namespace SlvmNative

/-- Memory as 64-bit words, by their byte address. -/
structure FlatMemory where
  word : ℕ → ℕ
  compactingHeap : StackHeap

namespace FlatMemory

/-! ### Words and headers -/

/-- Store a word. -/
def setWord (m : FlatMemory) (a v : ℕ) : FlatMemory :=
  { m with word := Function.update m.word a (v % 2 ^ 64) }

/-- Store one value into `n` words. -/
def fillWords (m : FlatMemory) (a n v : ℕ) : FlatMemory :=
  { m with word := fun b => if a ≤ b ∧ b < a + n * 8 then v else m.word b }

/-- The bit-fields of `SLVM_ObjectHeader` in a word. -/
def decodeHeader (word : ℕ) : ObjectHeader :=
  ObjectHeader.ofFields (Words.field word 0 22) (Words.field word 24 5) (Words.field word 32 22)
    (Words.field word 56 8)

/-- Only 64 bits of a word matter. -/
theorem decodeHeader_mod (word : ℕ) : decodeHeader (word % 2 ^ 64) = decodeHeader word := by
  rw [decodeHeader, decodeHeader, Words.field_mod (by decide), Words.field_mod (by decide),
    Words.field_mod (by decide), Words.field_mod (by decide)]

/-- The header at an address. -/
def header (m : FlatMemory) (a : ℕ) : ObjectHeader := decodeHeader (m.word a)

/-- Assignment to a bit-field of the header at an address. -/
def setHeaderField (m : FlatMemory) (a offset width v : ℕ) : FlatMemory :=
  { m with word := Function.update m.word a (Words.setField (m.word a) offset width v) }

/-- `header->classIndex = v` -/
def setClassIndex (m : FlatMemory) (a v : ℕ) : FlatMemory := m.setHeaderField a 0 22 v

/-- `header->objectFormat = v` -/
def setObjectFormat (m : FlatMemory) (a v : ℕ) : FlatMemory := m.setHeaderField a 24 5 v

/-- `header->identityHash = v` -/
def setIdentityHash (m : FlatMemory) (a v : ℕ) : FlatMemory := m.setHeaderField a 32 22 v

/-- `header->slotCount = v` -/
def setSlotCount (m : FlatMemory) (a v : ℕ) : FlatMemory := m.setHeaderField a 56 8 v

instance : HeapReader FlatMemory where
  forwardingWord m a := m.word a
  sizeWord m a := m.word a
  header m a := m.header a

/-! ### Allocation -/

/-- How both instantiators initialize the header of a new object. -/
def initializeHeader (m : FlatMemory) (result slotCount : ℕ) : FlatMemory :=
  let m := m.setWord result 0
  let m := m.setSlotCount result slotCount
  m.setIdentityHash result (result >>> 4)

/-- `slvm_spur_instantiate_object` -/
def instantiateObject (m : FlatMemory) (slotCount : ℕ) : ℕ × FlatMemory :=
  let preheaderSize := if slotCount ≥ 255 then 24 else 8
  let totalSize := (preheaderSize + 8 + slotCount * 8) % 2 ^ 64
  let (rawResult, heap) := m.compactingHeap.allocate 16 totalSize
  let m : FlatMemory := { m with compactingHeap := heap }
  let m :=
    if slotCount ≥ 255 then (m.setWord rawResult 1).setWord (rawResult + 16) slotCount
    else m.setWord rawResult 0
  let result := rawResult + preheaderSize
  (result, m.initializeHeader result (if slotCount ≥ 255 then 255 else slotCount))

/-- `slvm_spur_instantiate_mixed_object` -/
def instantiateMixedObject (m : FlatMemory) (oopSlotCount slotCount : ℕ) : ℕ × FlatMemory :=
  let totalSize := (24 + 8 + slotCount * 8) % 2 ^ 64
  let (rawResult, heap) := m.compactingHeap.allocate 16 totalSize
  let m : FlatMemory := { m with compactingHeap := heap }
  let m := (m.setWord rawResult 1).setWord (rawResult + 16) (slotCount ||| oopSlotCount <<< 32)
  let result := rawResult + 24
  -- Always big object header here.
  (result, m.initializeHeader result 255)

/-- `slvm_basicSize` -/
def basicSize (m : FlatMemory) (object : ℕ) : ℕ :=
  if oopIsImmediate object then 0
  else
    let header := m.header object
    let format := header.objectFormat
    if header.slotCount = 255 then
      if format ≥ ObjectFormat.mixedObject then
        unsignedSub 64 ((m.word (object - 8) &&& 0xFFFFFFFF) * 8) (spurFormatExtraSize format)
      else
        unsignedSub 64 (m.word (object - 8) * spurFormatMultiplier format % 2 ^ 64)
          (spurFormatExtraSize format)
    else
      unsignedSub 32 (header.slotCount * spurFormatMultiplier format) (spurFormatExtraSize format)

/-- `slvm_spur_heap_getForwardingPointerForObject` -/
def getForwardingPointerForObject (m : FlatMemory) (oop : ℕ) : ℕ :=
  if (m.header oop).slotCount = 255 then oop - 24 else oop - 8

/-- The number of slots `slvm_Behavior_basicNew` adds for `variableSize` elements of a format,
and the size of an element. -/
def extraSlots (format variableSize : ℕ) : ℕ × ℕ :=
  if format = ObjectFormat.indexable64 then (variableSize, 8)
  else if format = ObjectFormat.indexable32 then ((variableSize * 4 + 7) % 2 ^ 64 / 4, 4)
  else if format = ObjectFormat.indexable16 then ((variableSize * 2 + 8 - 1) % 2 ^ 64 / 8, 2)
  else if format = ObjectFormat.indexable8 then ((variableSize + 8 - 1) % 2 ^ 64 / 8, 1)
  else (variableSize, 8)

/-- The formats the rounding does not name get a slot for each element. -/
theorem extraSlots_of_not_mem {format : ℕ} (h : format ∉ [ObjectFormat.indexable32,
    ObjectFormat.indexable16, ObjectFormat.indexable8]) (v : ℕ) : extraSlots format v = (v, 8) := by
  simp only [List.mem_cons, List.not_mem_nil, or_false, not_or] at h
  rw [extraSlots, if_neg h.1, if_neg h.2.1, if_neg h.2.2, ite_self]

theorem extraSlots_indexable32 {v : ℕ} (h : v * 4 + 7 < 2 ^ 64) :
    extraSlots ObjectFormat.indexable32 v = (v + 1, 4) := by
  show ((v * 4 + 7) % 2 ^ 64 / 4, 4) = _
  rw [Nat.mod_eq_of_lt h, show (v * 4 + 7) / 4 = v + 1 by omega]

theorem extraSlots_indexable16 {v : ℕ} (h : v * 2 + 7 < 2 ^ 64) :
    extraSlots ObjectFormat.indexable16 v = ((v * 2 + 7) / 8, 2) := by
  show ((v * 2 + 7) % 2 ^ 64 / 8, 2) = _
  rw [Nat.mod_eq_of_lt h]

theorem extraSlots_indexable8 {v : ℕ} (h : v + 7 < 2 ^ 64) :
    extraSlots ObjectFormat.indexable8 v = ((v + 7) / 8, 1) := by
  show ((v + 7) % 2 ^ 64 / 8, 1) = _
  rw [Nat.mod_eq_of_lt h]

section

variable [KernelImage]

/-- `slvm_Behavior_basicNew`. The format of a behavior is its third slot. -/
def basicNew (m : FlatMemory) (behavior variableSize : ℕ) : Option (ℕ × FlatMemory) :=
  let formatAndSize := m.word (behavior + 8 + Field.format * 8)
  let format := decodeFormat formatAndSize
  let fixedSlotCount := decodeFixedSize formatAndSize
  if behavior = nilOop ∨ ObjectFormat.mixedObject ≤ format then none
  else
    let (extraSlotCount, elementSize) := extraSlots format variableSize
    -- Extra padding elements are encoded in the object format.
    let remainingSize := unsignedSub 64 (extraSlotCount * 8 % 2 ^ 64)
      (variableSize * elementSize % 2 ^ 64)
    let slotCount := (fixedSlotCount + extraSlotCount) % 2 ^ 64
    let (result, m') := m.instantiateObject slotCount
    let m' := m'.setClassIndex result (m'.header behavior).identityHash
    let m' := m'.setObjectFormat result (format + remainingSize)
    if format < ObjectFormat.indexable64 then
      some (result, m'.fillWords (result + 8) slotCount nilOop)
    else some (result, m'.fillWords (result + 8) (slotCount * 8 % 2 ^ 64 / 8) 0)

/-- `slvm_Behavior_basicNewMixedNative` -/
def basicNewMixedNative (m : FlatMemory) (behavior variableSize nativeVariableSize : ℕ) :
    Option (ℕ × FlatMemory) :=
  let formatAndSize := m.word (behavior + 8 + Field.format * 8)
  let format := decodeFormat formatAndSize
  let fixedSlotCount := decodeFixedSize formatAndSize
  if behavior = nilOop then none
  else
    let oopSlotCount := (fixedSlotCount + variableSize) % 2 ^ 64
    let variableContentSize := (variableSize * 8 + nativeVariableSize) % 2 ^ 64
    let extraSlotCount := (variableContentSize + 8 - 1) % 2 ^ 64 / 8
    -- Extra padding elements are encoded in the object format.
    let remainingSize := unsignedSub 64 (extraSlotCount * 8 % 2 ^ 64) variableContentSize
    let slotCount := (fixedSlotCount + extraSlotCount) % 2 ^ 64
    let (result, m') := m.instantiateMixedObject oopSlotCount slotCount
    let m' := m'.setClassIndex result (m'.header behavior).identityHash
    let m' := m'.setObjectFormat result (format + remainingSize)
    let m' := m'.fillWords (result + 8) oopSlotCount nilOop
    let remainingSlots := unsignedSub 64 slotCount oopSlotCount * 8 % 2 ^ 64 / 8
    some (result, m'.fillWords (result + 8 + oopSlotCount * 8) remainingSlots 0)

end

/-! ### The pre-header and the header of an object -/

section Header

variable (m : FlatMemory) (a b : ℕ)

theorem header_classIndex : (m.header a).classIndex = Words.field (m.word a) 0 22 :=
  Nat.mod_eq_of_lt (Words.field_lt _ _ _)

theorem header_objectFormat : (m.header a).objectFormat = Words.field (m.word a) 24 5 :=
  Nat.mod_eq_of_lt (Words.field_lt _ _ _)

theorem header_slotCount : (m.header a).slotCount = Words.field (m.word a) 56 8 :=
  Nat.mod_eq_of_lt (Words.field_lt _ _ _)

theorem setWord_word_self (v : ℕ) : (m.setWord a v).word a = v % 2 ^ 64 :=
  Function.update_self ..

theorem setWord_word_of_ne {a b : ℕ} (h : b ≠ a) (v : ℕ) : (m.setWord a v).word b = m.word b :=
  Function.update_of_ne h _ _

theorem setHeaderField_word_self (offset width v : ℕ) :
    (m.setHeaderField a offset width v).word a = Words.setField (m.word a) offset width v :=
  Function.update_self ..

theorem setHeaderField_word_of_ne {a b : ℕ} (h : b ≠ a) (offset width v : ℕ) :
    (m.setHeaderField a offset width v).word b = m.word b :=
  Function.update_of_ne h _ _

theorem fillWords_word_of_lt {a b : ℕ} (h : b < a) (n v : ℕ) :
    (m.fillWords a n v).word b = m.word b :=
  if_neg (by omega)

theorem fillWords_word_of_ge {a b n : ℕ} (h : a + n * 8 ≤ b) (v : ℕ) :
    (m.fillWords a n v).word b = m.word b :=
  if_neg (by omega)

theorem fillWords_word_of_mem {a b n : ℕ} (h : a ≤ b) (h' : b < a + n * 8) (v : ℕ) :
    (m.fillWords a n v).word b = v :=
  if_pos ⟨h, h'⟩

end Header

/-- The pre-header and header of the object `o` are those of an object of a given format, with
`sizeWord` before the header if that is big. -/
structure Preheader (m : FlatMemory) (o : HeapObject) (format sizeWord : ℕ) : Prop where
  objectFormat : (m.header o.header).objectFormat = format
  shape : (o.header = o.forwardingPointer + 24 ∧ m.word o.forwardingPointer = 1 ∧
      (m.header o.header).slotCount = 255 ∧ m.word (o.forwardingPointer + 16) = sizeWord) ∨
    (o.header = o.forwardingPointer + 8 ∧ m.word o.forwardingPointer = 0 ∧
      (m.header o.header).slotCount = o.totalSlotCount ∧ o.totalSlotCount < 255 ∧
      o.oopSlotCount = o.totalSlotCount)

namespace Preheader

variable {m m' : FlatMemory} {o : HeapObject} {format sizeWord : ℕ}

theorem header_eq (h : Preheader m o format sizeWord) :
    o.header = o.forwardingPointer + 8 ∨ o.header = o.forwardingPointer + 24 := by
  rcases h.shape with ⟨hheader, -⟩ | ⟨hheader, -⟩
  · exact Or.inr hheader
  · exact Or.inl hheader

/-- Only three words matter: the two of the pre-header and the header. -/
theorem congr_words (h : Preheader m o format sizeWord)
    (hf : m'.word o.forwardingPointer = m.word o.forwardingPointer)
    (hw : m'.word (o.header - 8) = m.word (o.header - 8))
    (hh : m'.header o.header = m.header o.header) : Preheader m' o format sizeWord := by
  refine ⟨by rw [hh]; exact h.objectFormat, ?_⟩
  rcases h.shape with ⟨h24, hfw, hslot, hsize⟩ | ⟨h8, hfw, hslot, hlt, hoop⟩
  · rw [h24, show o.forwardingPointer + 24 - 8 = o.forwardingPointer + 16 from rfl] at hw
    exact Or.inl ⟨h24, by rw [hf, hfw], by rw [hh, hslot], by rw [hw, hsize]⟩
  · exact Or.inr ⟨h8, by rw [hf, hfw], by rw [hh, hslot], hlt, hoop⟩

/-- Only the words from the pre-header to the header matter. -/
theorem congr (h : Preheader m o format sizeWord)
    (hw : ∀ a, o.forwardingPointer ≤ a → a < o.header + 8 → m'.word a = m.word a) :
    Preheader m' o format sizeWord := by
  have hheader := h.header_eq
  refine h.congr_words (hw _ (by omega) (by omega)) (hw _ (by omega) (by omega)) ?_
  exact congrArg decodeHeader (hw _ (by omega) (by omega))

theorem fillWords (h : Preheader m o format sizeWord) {a : ℕ} (ha : o.header + 8 ≤ a) (n v : ℕ) :
    Preheader (m.fillWords a n v) o format sizeWord :=
  h.congr fun _ _ hb => fillWords_word_of_lt m (by omega) n v

/-- Assigning a bit-field other than the slot count. -/
theorem setHeaderField (h : Preheader m o format sizeWord) {offset width v format' : ℕ}
    (hoff : offset + width ≤ 56)
    (hformat : Words.field (Words.setField (m.word o.header) offset width v) 24 5 = format') :
    Preheader (m.setHeaderField o.header offset width v) o format' sizeWord := by
  have hslot : ((m.setHeaderField o.header offset width v).header o.header).slotCount =
      (m.header o.header).slotCount := by
    rw [header_slotCount, header_slotCount, setHeaderField_word_self,
      Words.field_setField_of_ge hoff]
  have hheader := h.header_eq
  have hf : (m.setHeaderField o.header offset width v).word o.forwardingPointer =
      m.word o.forwardingPointer := setHeaderField_word_of_ne m (by omega) _ _ _
  refine ⟨by rw [header_objectFormat, setHeaderField_word_self, hformat], ?_⟩
  rcases h.shape with ⟨h24, hfw, hs, hsize⟩ | ⟨h8, hfw, hs, hlt, hoop⟩
  · refine Or.inl ⟨h24, by rw [hf, hfw], by rw [hslot, hs], ?_⟩
    rw [setHeaderField_word_of_ne m (by omega), hsize]
  · exact Or.inr ⟨h8, by rw [hf, hfw], by rw [hslot, hs], hlt, hoop⟩

theorem setClassIndex (h : Preheader m o format sizeWord) (v : ℕ) :
    Preheader (m.setClassIndex o.header v) o format sizeWord := by
  refine h.setHeaderField (by decide) ?_
  rw [Words.field_setField_of_ge (by decide), ← header_objectFormat, h.objectFormat]

theorem setIdentityHash (h : Preheader m o format sizeWord) (v : ℕ) :
    Preheader (m.setIdentityHash o.header v) o format sizeWord := by
  refine h.setHeaderField (by decide) ?_
  rw [Words.field_setField_of_le (by decide), ← header_objectFormat, h.objectFormat]

theorem setObjectFormat (h : Preheader m o format sizeWord) (v : ℕ) :
    Preheader (m.setObjectFormat o.header v) o (v % 2 ^ 5) sizeWord :=
  h.setHeaderField (by decide) (Words.field_setField_self _ _ _ _)

/-- The word before the header holds the slot count of an object that is not mixed, and both slot
counts of one that is. -/
def SlotCounts (o : HeapObject) (format sizeWord : ℕ) : Prop :=
  if ObjectFormat.mixedObject ≤ format then
    sizeWord >>> 32 = o.oopSlotCount ∧ sizeWord &&& 0xFFFFFFFF = o.totalSlotCount
  else sizeWord = o.totalSlotCount ∧ o.oopSlotCount = o.totalSlotCount

/-- What the walker takes the object to be, from the word before the header if that is big. -/
theorem parseObject_eq (h : Preheader m o format sizeWord) :
    slotCountAsserted m o.forwardingPointer ∧
      (o.header = o.forwardingPointer + 24 ∧ parseObject m o.forwardingPointer =
          (if ObjectFormat.mixedObject ≤ format then
            ⟨o.forwardingPointer, o.header, sizeWord >>> 32, sizeWord &&& 0xFFFFFFFF⟩
          else ⟨o.forwardingPointer, o.header, sizeWord, sizeWord⟩) ∨
        o.header = o.forwardingPointer + 8 ∧ o.oopSlotCount = o.totalSlotCount ∧
          parseObject m o.forwardingPointer =
            ⟨o.forwardingPointer, o.header, o.totalSlotCount, o.totalSlotCount⟩) := by
  rcases h.shape with ⟨h24, hfw, hslot, hsize⟩ | ⟨h8, hfw, hslot, hlt, hoop⟩
  · have hbig : isBig m o.forwardingPointer := by
      show m.word o.forwardingPointer &&& 1 ≠ 0
      rw [hfw]
      decide
    have hparse : parseObject m o.forwardingPointer =
        if ObjectFormat.mixedObject ≤ format then
          ⟨o.forwardingPointer, o.header, sizeWord >>> 32, sizeWord &&& 0xFFFFFFFF⟩
        else ⟨o.forwardingPointer, o.header, sizeWord, sizeWord⟩ := by
      rw [parseObject, if_pos hbig, ← h24, ← h.objectFormat, ← hsize]
      rfl
    have hheader : (parseObject m o.forwardingPointer).header = o.header := by
      rw [parseObject_header, if_pos hbig, h24]
    exact ⟨iff_of_true (by rw [hheader]; exact hslot) hbig, Or.inl ⟨h24, hparse⟩⟩
  · have hsmall : ¬ isBig m o.forwardingPointer := by
      show ¬ (m.word o.forwardingPointer &&& 1 ≠ 0)
      rw [hfw]
      decide
    have hparse : parseObject m o.forwardingPointer =
        ⟨o.forwardingPointer, o.header, o.totalSlotCount, o.totalSlotCount⟩ := by
      rw [parseObject, if_neg hsmall, ← h8, ← hslot]
      rfl
    refine ⟨iff_of_false ?_ hsmall, Or.inr ⟨h8, hoop, hparse⟩⟩
    rw [hparse]
    show (m.header o.header).slotCount ≠ 255
    omega

/-- The walker reads the object back. -/
theorem parses (h : Preheader m o format sizeWord) (hcounts : SlotCounts o format sizeWord) :
    Parses m o := by
  obtain ⟨hassert, ⟨-, hparse⟩ | ⟨-, hoop, hparse⟩⟩ := h.parseObject_eq
  · refine ⟨hparse.trans ?_, hassert⟩
    simp only [SlotCounts] at hcounts
    split_ifs at hcounts ⊢ with hmixed
    · rw [hcounts.1, hcounts.2]
    · rw [hcounts.1, ← hcounts.2, HeapObject.mk.injEq]
      exact ⟨rfl, rfl, rfl, hcounts.2⟩
  · refine ⟨hparse.trans ?_, hassert⟩
    rw [HeapObject.mk.injEq]
    exact ⟨rfl, rfl, hoop.symm, rfl⟩

/-- Where the walker finds the object, and the total slot count it takes from the word before the
header if that is big. -/
theorem parseObject_total (h : Preheader m o format sizeWord) :
    Parses m (parseObject m o.forwardingPointer) ∧
      (parseObject m o.forwardingPointer).header = o.header ∧
      (o.header = o.forwardingPointer + 24 ∧ (parseObject m o.forwardingPointer).totalSlotCount =
          (if ObjectFormat.mixedObject ≤ format then sizeWord &&& 0xFFFFFFFF else sizeWord) ∨
        o.header = o.forwardingPointer + 8 ∧
          (parseObject m o.forwardingPointer).totalSlotCount = o.totalSlotCount) := by
  obtain ⟨hassert, hshape⟩ := h.parseObject_eq
  refine ⟨⟨?_, ?_⟩, ?_⟩
  · rw [parseObject_forwardingPointer]
  · rw [parseObject_forwardingPointer]
    exact hassert
  · rcases hshape with ⟨h24, hparse⟩ | ⟨h8, -, hparse⟩
    · rw [hparse]
      split_ifs
      · exact ⟨rfl, Or.inl ⟨h24, rfl⟩⟩
      · exact ⟨rfl, Or.inl ⟨h24, rfl⟩⟩
    · rw [hparse]
      exact ⟨rfl, Or.inr ⟨h8, rfl⟩⟩

theorem getForwardingPointerForObject (h : Preheader m o format sizeWord) :
    m.getForwardingPointerForObject o.header = o.forwardingPointer := by
  rw [FlatMemory.getForwardingPointerForObject]
  rcases h.shape with ⟨h24, -, hslot, -⟩ | ⟨h8, -, hslot, hlt, -⟩
  · rw [if_pos hslot]
    omega
  · rw [if_neg (by omega)]
    omega

/-- The size of the object in elements, or in bytes when it is mixed. -/
theorem basicSize (h : Preheader m o format sizeWord) (hcounts : SlotCounts o format sizeWord)
    (halign : o.header % 8 = 0)
    (hextra : spurFormatExtraSize format ≤ o.totalSlotCount * spurFormatMultiplier format)
    (hlt : o.totalSlotCount * 8 < 2 ^ 64) :
    m.basicSize o.header =
      o.totalSlotCount * spurFormatMultiplier format - spurFormatExtraSize format := by
  have hptr : ¬ oopIsImmediate o.header := not_oopIsImmediate.mpr (oopIsPointers_iff.mpr halign)
  have hmul := spurFormatMultiplier_le format
  have hprod : o.totalSlotCount * spurFormatMultiplier format ≤ o.totalSlotCount * 8 :=
    Nat.mul_le_mul_left _ hmul
  rw [FlatMemory.basicSize, if_neg hptr]
  simp only [h.objectFormat]
  rcases h.shape with ⟨h24, -, hslot, hsize⟩ | ⟨h8, -, hslot, hlt255, -⟩
  · have hword : m.word (o.header - 8) = sizeWord := by
      rw [show o.header - 8 = o.forwardingPointer + 16 by omega, hsize]
    rw [if_pos hslot, hword]
    simp only [SlotCounts] at hcounts
    split_ifs at hcounts ⊢ with hm
    · have hformat : format = ObjectFormat.mixedObject + (format - 24) := by
        simp only [ObjectFormat.mixedObject] at hm ⊢
        omega
      have hpad : format - 24 < 8 := by
        have := (m.header o.header).objectFormat_lt
        rw [h.objectFormat] at this
        omega
      have h8 : spurFormatMultiplier format = 8 := by
        rw [hformat, spurFormatMultiplier_mixed hpad]
      rw [hcounts.2, ← h8, unsignedSub_of_le _ hextra]
    · rw [hcounts.1, Nat.mod_eq_of_lt (by omega), unsignedSub_of_le _ hextra]
  · rw [if_neg (by omega), hslot, unsignedSub_of_le _ hextra]

end Preheader

/-! ### What the instantiators leave behind -/

/-- The compacting heap starts on a 16-byte boundary. -/
theorem start_aligned (m : FlatMemory) : m.compactingHeap.start % 16 = 0 := by
  have hstart := m.compactingHeap.start_aligned
  simp only [pageSize] at hstart
  omega

/-- An object has been created at the next 16-byte boundary, and nothing below it has changed. -/
structure Created (m : FlatMemory) (o : HeapObject) (format sizeWord : ℕ) (m' : FlatMemory) :
    Prop where
  position : o.forwardingPointer = m.compactingHeap.start + m.compactingHeap.nextOffset 16
  start : m'.compactingHeap.start = m.compactingHeap.start
  capacity : m'.compactingHeap.capacity = m.compactingHeap.capacity
  finish : m'.compactingHeap.start + m'.compactingHeap.size = o.header + 8 + o.totalSlotCount * 8
  frame : ∀ a < o.forwardingPointer, m'.word a = m.word a
  preheader : Preheader m' o format sizeWord

namespace Created

variable {m m' : FlatMemory} {o : HeapObject} {format sizeWord : ℕ}

theorem aligned (h : Created m o format sizeWord m') : o.forwardingPointer % 16 = 0 := by
  have hstart := m.start_aligned
  have hposition := h.position
  rw [StackHeap.nextOffset] at hposition
  omega

/-- A new object makes the heap larger by less than its slots and 48 bytes. -/
theorem size_lt (h : Created m o format sizeWord m') :
    m'.compactingHeap.size < m.compactingHeap.size + 48 + o.totalSlotCount * 8 := by
  have hposition := h.position
  have hnext := m.compactingHeap.nextOffset_le 16
  have hheader := h.preheader.header_eq
  have hfinish := h.finish
  rw [h.start] at hfinish
  omega

/-- The words below the heap stay. -/
theorem frame_below (h : Created m o format sizeWord m') {a : ℕ} (ha : a < m.compactingHeap.start) :
    m'.word a = m.word a :=
  h.frame a (ha.trans_le (h.position ▸ Nat.le_add_right _ _))

theorem setClassIndex (h : Created m o format sizeWord m') (v : ℕ) :
    Created m o format sizeWord (m'.setClassIndex o.header v) := by
  have hheader := h.preheader.header_eq
  refine ⟨h.position, h.start, h.capacity, h.finish, fun a ha => ?_, h.preheader.setClassIndex v⟩
  exact (setHeaderField_word_of_ne m' (by omega) _ _ _).trans (h.frame a ha)

theorem setObjectFormat (h : Created m o format sizeWord m') (v : ℕ) :
    Created m o (v % 2 ^ 5) sizeWord (m'.setObjectFormat o.header v) := by
  have hheader := h.preheader.header_eq
  refine ⟨h.position, h.start, h.capacity, h.finish, fun a ha => ?_,
    h.preheader.setObjectFormat v⟩
  exact (setHeaderField_word_of_ne m' (by omega) _ _ _).trans (h.frame a ha)

theorem fillWords (h : Created m o format sizeWord m') {a : ℕ} (ha : o.header + 8 ≤ a) (n v : ℕ) :
    Created m o format sizeWord (m'.fillWords a n v) := by
  have hheader := h.preheader.header_eq
  refine ⟨h.position, h.start, h.capacity, h.finish, fun b hb => ?_, h.preheader.fillWords ha n v⟩
  exact (fillWords_word_of_lt m' (by omega) n v).trans (h.frame b hb)

end Created

/-- The object `slvm_spur_instantiate_object` makes of `slotCount` slots. -/
def objectOf (m : FlatMemory) (slotCount : ℕ) : HeapObject where
  forwardingPointer := m.compactingHeap.start + m.compactingHeap.nextOffset 16
  header := m.compactingHeap.start + m.compactingHeap.nextOffset 16 +
    (if slotCount ≥ 255 then 24 else 8)
  oopSlotCount := slotCount
  totalSlotCount := slotCount

/-- The same object with the slots there is memory for: their size is a 64-bit number. -/
def wrappedObjectOf (m : FlatMemory) (slotCount : ℕ) : HeapObject :=
  { m.objectOf slotCount with
    oopSlotCount := slotCount % 2 ^ 61
    totalSlotCount := slotCount % 2 ^ 61 }

theorem wrappedObjectOf_eq (m : FlatMemory) {slotCount : ℕ} (h : slotCount < 2 ^ 61) :
    m.wrappedObjectOf slotCount = m.objectOf slotCount := by
  rw [wrappedObjectOf, Nat.mod_eq_of_lt h]
  rfl

/-- The object `slvm_spur_instantiate_mixed_object` makes. -/
def mixedObjectOf (m : FlatMemory) (oopSlotCount slotCount : ℕ) : HeapObject where
  forwardingPointer := m.compactingHeap.start + m.compactingHeap.nextOffset 16
  header := m.compactingHeap.start + m.compactingHeap.nextOffset 16 + 24
  oopSlotCount := oopSlotCount
  totalSlotCount := slotCount

theorem initializeHeader_word_of_ne (m : FlatMemory) {a b : ℕ} (h : b ≠ a) (slotCount : ℕ) :
    (m.initializeHeader a slotCount).word b = m.word b := by
  simp only [initializeHeader, setIdentityHash, setSlotCount]
  rw [setHeaderField_word_of_ne _ h, setHeaderField_word_of_ne _ h, setWord_word_of_ne _ h]

/-- The word of a header after its initialization. -/
theorem initializeHeader_word_self (m : FlatMemory) (a slotCount : ℕ) :
    (m.initializeHeader a slotCount).word a =
      Words.setField (Words.setField 0 56 8 slotCount) 32 22 (a >>> 4) := by
  simp only [initializeHeader, setIdentityHash, setSlotCount]
  rw [setHeaderField_word_self, setHeaderField_word_self, setWord_word_self, Nat.zero_mod]

/-- A header after its initialization: the slot count is set and the format is still 0. -/
theorem initializeHeader_header (m : FlatMemory) (a slotCount : ℕ) :
    ((m.initializeHeader a slotCount).header a).slotCount = slotCount % 2 ^ 8 ∧
      ((m.initializeHeader a slotCount).header a).objectFormat = 0 := by
  rw [header_slotCount, header_objectFormat, initializeHeader_word_self,
    Words.field_setField_of_ge (by decide),
    Words.field_setField_self, Words.field_setField_of_le (by decide),
    Words.field_setField_of_le (by decide), Words.field_zero]
  exact ⟨rfl, rfl⟩

/-- Initializing the header behind a pre-header that is already in place. -/
theorem Preheader.initializeHeader {m : FlatMemory} {o : HeapObject} {slotCount sizeWord : ℕ}
    (h : (o.header = o.forwardingPointer + 24 ∧ m.word o.forwardingPointer = 1 ∧
        slotCount = 255 ∧ m.word (o.forwardingPointer + 16) = sizeWord) ∨
      (o.header = o.forwardingPointer + 8 ∧ m.word o.forwardingPointer = 0 ∧
        slotCount = o.totalSlotCount ∧ o.totalSlotCount < 255 ∧
        o.oopSlotCount = o.totalSlotCount)) :
    Preheader (m.initializeHeader o.header slotCount) o 0 sizeWord := by
  obtain ⟨hslot, hformat⟩ := initializeHeader_header m o.header slotCount
  have hkeep := fun {b} hb => @initializeHeader_word_of_ne m o.header b hb slotCount
  refine ⟨hformat, ?_⟩
  rcases h with ⟨h24, hfw, h255, hsize⟩ | ⟨h8, hfw, htotal, hlt, hoop⟩
  · refine Or.inl ⟨h24, ?_, ?_, ?_⟩
    · rw [hkeep (by omega), hfw]
    · rw [hslot, h255]
      rfl
    · rw [hkeep (by omega), hsize]
  · refine Or.inr ⟨h8, ?_, ?_, hlt, hoop⟩
    · rw [hkeep (by omega), hfw]
    · rw [hslot, htotal]
      exact Nat.mod_eq_of_lt (by omega)

/-- The stores of both instantiators into a big pre-header and into the header behind it. -/
theorem initialize_big (m : FlatMemory) {o : HeapObject} (h24 : o.header = o.forwardingPointer + 24)
    (word : ℕ) :
    Preheader (((m.setWord o.forwardingPointer 1).setWord (o.forwardingPointer + 16)
        word).initializeHeader o.header 255) o 0 (word % 2 ^ 64) ∧
      ∀ a, a < o.forwardingPointer ∨ o.header + 8 ≤ a →
        (((m.setWord o.forwardingPointer 1).setWord (o.forwardingPointer + 16)
          word).initializeHeader o.header 255).word a = m.word a := by
  refine ⟨Preheader.initializeHeader (Or.inl ⟨h24, ?_, rfl, ?_⟩), fun a ha => ?_⟩
  · rw [setWord_word_of_ne _ (by omega), setWord_word_self]
    rfl
  · rw [setWord_word_self]
  · rw [initializeHeader_word_of_ne _ (by omega), setWord_word_of_ne _ (by omega),
      setWord_word_of_ne _ (by omega)]

/-- What the allocation of an object does to the heap, whose size is computed in 64 bits. -/
theorem allocate_object (m : FlatMemory) {preheaderSize slotCount : ℕ}
    (hfit : m.compactingHeap.size + 16 + (preheaderSize + 8 + slotCount % 2 ^ 61 * 8) < 2 ^ 64) :
    ∃ heap : StackHeap,
      m.compactingHeap.allocate 16 ((preheaderSize + 8 + slotCount * 8) % 2 ^ 64) =
        (m.compactingHeap.start + m.compactingHeap.nextOffset 16, heap) ∧
      heap.start = m.compactingHeap.start ∧ heap.capacity = m.compactingHeap.capacity ∧
      heap.start + heap.size = m.compactingHeap.start + m.compactingHeap.nextOffset 16 +
        (preheaderSize + 8 + slotCount % 2 ^ 61 * 8) := by
  have htotal : (preheaderSize + 8 + slotCount * 8) % 2 ^ 64 =
      preheaderSize + 8 + slotCount % 2 ^ 61 * 8 := by omega
  rw [htotal]
  obtain ⟨hraw, hsize⟩ := m.compactingHeap.allocate_sixteen hfit
  have hstart := m.compactingHeap.allocate_start 16 (preheaderSize + 8 + slotCount % 2 ^ 61 * 8)
  refine ⟨_, Prod.ext hraw rfl, hstart, m.compactingHeap.allocate_capacity 16 _, ?_⟩
  rw [hstart, hsize, Nat.add_assoc m.compactingHeap.start]

/-- What the instantiator of objects does, for any slot count. -/
theorem instantiateObject_wrapped (m : FlatMemory) {slotCount : ℕ} (hslots : slotCount < 2 ^ 64)
    (hfit : m.compactingHeap.size + 48 + slotCount % 2 ^ 61 * 8 < 2 ^ 64) :
    (m.instantiateObject slotCount).1 = (m.wrappedObjectOf slotCount).header ∧
      Created m (m.wrappedObjectOf slotCount) 0 slotCount (m.instantiateObject slotCount).2 := by
  set o := m.wrappedObjectOf slotCount with ho
  rcases Nat.lt_or_ge slotCount 255 with hlt | hge
  · have hheader : o.header = o.forwardingPointer + 8 := by
      simp only [ho, wrappedObjectOf, objectOf, ge_iff_le, Nat.not_le.mpr hlt, if_false]
    have htotal : o.totalSlotCount = slotCount := Nat.mod_eq_of_lt (by omega)
    obtain ⟨heap, halloc, hstart, hcapacity, hfinish⟩ := @allocate_object m 8 slotCount (by omega)
    have heq : m.instantiateObject slotCount = (o.header,
        ((({ m with compactingHeap := heap } : FlatMemory).setWord
          o.forwardingPointer 0).initializeHeader o.header slotCount)) := by
      simp only [instantiateObject, ho, wrappedObjectOf, objectOf, ge_iff_le, Nat.not_le.mpr hlt,
        if_false, halloc]
    rw [heq]
    refine ⟨rfl, rfl, hstart, hcapacity, ?_, fun a ha => ?_, Preheader.initializeHeader ?_⟩
    · show heap.start + heap.size = _
      rw [hfinish, hheader]
      simp only [ho, wrappedObjectOf, objectOf]
      omega
    · simp only
      rw [initializeHeader_word_of_ne _ (by omega), setWord_word_of_ne _ (by omega)]
    · exact Or.inr ⟨hheader, setWord_word_self _ _ _, htotal.symm, htotal ▸ hlt, rfl⟩
  · have hheader : o.header = o.forwardingPointer + 24 := by
      simp only [ho, wrappedObjectOf, objectOf, ge_iff_le, hge, if_true]
    obtain ⟨heap, halloc, hstart, hcapacity, hfinish⟩ := @allocate_object m 24 slotCount (by omega)
    have heq : m.instantiateObject slotCount = (o.header,
        (((({ m with compactingHeap := heap } : FlatMemory).setWord o.forwardingPointer 1).setWord
          (o.forwardingPointer + 16) slotCount).initializeHeader o.header 255)) := by
      simp only [instantiateObject, ho, wrappedObjectOf, objectOf, ge_iff_le, hge, if_true, halloc]
    obtain ⟨hpreheader, hframe⟩ :=
      ({ m with compactingHeap := heap } : FlatMemory).initialize_big hheader slotCount
    rw [Nat.mod_eq_of_lt hslots] at hpreheader
    rw [heq]
    refine ⟨rfl, rfl, hstart, hcapacity, ?_, fun a ha => hframe a (Or.inl ha), hpreheader⟩
    show heap.start + heap.size = _
    rw [hfinish, hheader]
    simp only [ho, wrappedObjectOf, objectOf]
    omega

/-- What the instantiator of mixed objects does, for any slot counts; it leaves the words behind the
header alone. -/
theorem instantiateMixedObject_wrapped (m : FlatMemory) {oopSlotCount slotCount : ℕ}
    {o : HeapObject} (ho : o = m.mixedObjectOf oopSlotCount (slotCount % 2 ^ 61))
    (hfit : m.compactingHeap.size + 48 + slotCount % 2 ^ 61 * 8 < 2 ^ 64) :
    (m.instantiateMixedObject oopSlotCount slotCount).1 = o.header ∧
      Created m o 0 ((slotCount ||| oopSlotCount <<< 32) % 2 ^ 64)
        (m.instantiateMixedObject oopSlotCount slotCount).2 ∧
      ∀ a, o.header + 8 ≤ a →
        (m.instantiateMixedObject oopSlotCount slotCount).2.word a = m.word a := by
  obtain ⟨heap, halloc, hstart, hcapacity, hfinish⟩ := @allocate_object m 24 slotCount (by omega)
  have hheader : o.header = o.forwardingPointer + 24 := ho ▸ rfl
  have heq : m.instantiateMixedObject oopSlotCount slotCount = (o.header,
      (((({ m with compactingHeap := heap } : FlatMemory).setWord o.forwardingPointer 1).setWord
        (o.forwardingPointer + 16) (slotCount ||| oopSlotCount <<< 32)).initializeHeader
        o.header 255)) := by
    simp only [instantiateMixedObject, ho, mixedObjectOf, halloc]
  obtain ⟨hpreheader, hframe⟩ := ({ m with compactingHeap := heap } : FlatMemory).initialize_big
    hheader (slotCount ||| oopSlotCount <<< 32)
  rw [heq]
  refine ⟨rfl, ⟨ho ▸ rfl, hstart, hcapacity, ?_, fun a ha => hframe a (Or.inl ha), hpreheader⟩,
    fun a ha => hframe a (Or.inr ha)⟩
  show heap.start + heap.size = _
  rw [hfinish, ho]
  simp only [mixedObjectOf]
  omega

/-! ### What allocation returns -/

section

variable [KernelImage]

/-- The format a behavior gives its instances. -/
def instanceFormat (m : FlatMemory) (b : ℕ) : ℕ :=
  decodeFormat (m.word (b + 8 + Field.format * 8))

/-- The number of named slots a behavior gives its instances. -/
def instanceFixedSize (m : FlatMemory) (b : ℕ) : ℕ :=
  decodeFixedSize (m.word (b + 8 + Field.format * 8))

/-- The body of a new mixed object `o` of the behavior `b`, and all other memory: the pointers are
nil, what follows them is zero and nothing behind the object has changed. -/
structure MixedContent (m : FlatMemory) (o : HeapObject) (b : ℕ) (m' : FlatMemory) : Prop where
  classIndex : (b + 8 ≤ o.forwardingPointer ∨ o.header + 8 ≤ b) →
    (m'.header o.header).classIndex = (m.header b).identityHash
  nil : ∀ i < o.oopSlotCount, m'.word (o.header + 8 + i * 8) = nilOop
  zero : ∀ i, o.oopSlotCount ≤ i → i < o.totalSlotCount → m'.word (o.header + 8 + i * 8) = 0
  behind : ∀ a, o.header + 8 + o.totalSlotCount * 8 ≤ a → m'.word a = m.word a

theorem MixedContent.of_instantiated {m m₁ : FlatMemory} {o : HeapObject} {format sizeWord b : ℕ}
    (hcreated : Created m o format sizeWord m₁)
    (hword : ∀ a, o.header + 8 ≤ a → m₁.word a = m.word a) (newFormat : ℕ)
    (hle : o.oopSlotCount ≤ o.totalSlotCount) :
    MixedContent m o b ((((m₁.setClassIndex o.header (m₁.header b).identityHash).setObjectFormat
      o.header newFormat).fillWords (o.header + 8) o.oopSlotCount nilOop).fillWords
      (o.header + 8 + o.oopSlotCount * 8) (o.totalSlotCount - o.oopSlotCount) 0) := by
  have hheader := hcreated.preheader.header_eq
  constructor
  · intro hb
    have hbehavior : m₁.word b = m.word b := by
      rcases hb with hb | hb
      · exact hcreated.frame b (by omega)
      · exact hword b hb
    rw [header_classIndex, fillWords_word_of_lt _ (by omega), fillWords_word_of_lt _ (by omega),
      setObjectFormat, setHeaderField_word_self, Words.field_setField_of_le (by decide),
      setClassIndex, setHeaderField_word_self, Words.field_setField_self,
      Nat.mod_eq_of_lt (m₁.header b).identityHash_lt, header, hbehavior, header]
  · intro i hi
    rw [fillWords_word_of_lt _ (by omega), fillWords_word_of_mem _ (by omega) (by omega)]
  · intro i hi hi'
    rw [fillWords_word_of_mem _ (by omega) (by omega)]
  · intro a ha
    rw [fillWords_word_of_ge _ (by omega), fillWords_word_of_ge _ (by omega), setObjectFormat,
      setHeaderField_word_of_ne _ (by omega), setClassIndex,
      setHeaderField_word_of_ne _ (by omega), hword a (by omega)]

/-- Allocation of objects that are not mixed, for any slot count the 64-bit sum comes out as. -/
theorem basicNew_wrapped (m : FlatMemory) {b v extra elementSize padding slots : ℕ}
    (hb : b ≠ nilOop) (hformat : m.instanceFormat b < ObjectFormat.mixedObject)
    (hextra : extraSlots (m.instanceFormat b) v = (extra, elementSize))
    (hpadding : unsignedSub 64 (extra * 8 % 2 ^ 64) (v * elementSize % 2 ^ 64) = padding)
    (hslots : (m.instanceFixedSize b + extra) % 2 ^ 64 = slots)
    (hfit : m.compactingHeap.size + 48 + slots % 2 ^ 61 * 8 < 2 ^ 64) :
    ∃ m', m.basicNew b v = some ((m.wrappedObjectOf slots).header, m') ∧
      Created m (m.wrappedObjectOf slots) ((m.instanceFormat b + padding) % 2 ^ 5) slots m' := by
  obtain ⟨hresult, hcreated⟩ :=
    m.instantiateObject_wrapped (hslots ▸ Nat.mod_lt _ (by decide)) hfit
  generalize hr : m.instantiateObject slots = r at hresult hcreated
  obtain ⟨result, m₁⟩ := r
  obtain rfl : result = _ := hresult
  have hset := (hcreated.setClassIndex (m₁.header b).identityHash).setObjectFormat
    (m.instanceFormat b + padding)
  have hcond : ¬ (b = nilOop ∨ ObjectFormat.mixedObject ≤ m.instanceFormat b) := by
    simp only [hb, false_or, Nat.not_le]
    exact hformat
  simp only [instanceFormat, instanceFixedSize] at *
  simp only [basicNew, hcond, if_false, hextra, hpadding, hslots, hr]
  split_ifs
  · exact ⟨_, rfl, hset.fillWords (Nat.le_refl _) _ _⟩
  · exact ⟨_, rfl, hset.fillWords (Nat.le_refl _) _ _⟩

/-- **Allocation of objects that are not mixed**, whatever the format makes of the padding. -/
theorem basicNew_created (m : FlatMemory) {b v extra elementSize padding : ℕ} (hb : b ≠ nilOop)
    (hformat : m.instanceFormat b < ObjectFormat.mixedObject)
    (hextra : extraSlots (m.instanceFormat b) v = (extra, elementSize))
    (hpadding : unsignedSub 64 (extra * 8 % 2 ^ 64) (v * elementSize % 2 ^ 64) = padding)
    (hfit : m.compactingHeap.size + 48 + (m.instanceFixedSize b + extra) * 8 < 2 ^ 64) :
    ∃ m', m.basicNew b v = some ((m.objectOf (m.instanceFixedSize b + extra)).header, m') ∧
      Created m (m.objectOf (m.instanceFixedSize b + extra))
        ((m.instanceFormat b + padding) % 2 ^ 5) (m.instanceFixedSize b + extra) m' := by
  have hslots : (m.instanceFixedSize b + extra) % 2 ^ 64 = m.instanceFixedSize b + extra :=
    Nat.mod_eq_of_lt (by omega)
  rw [← m.wrappedObjectOf_eq (by omega)]
  exact m.basicNew_wrapped hb hformat hextra hpadding hslots (by omega)

/-- Allocation of mixed objects, for any slot counts the 64-bit sums come out as, as long as the
pointers lie in the object. -/
theorem basicNewMixedNative_wrapped (m : FlatMemory) {b v n extra padding oops slots : ℕ}
    {o : HeapObject} (hb : b ≠ nilOop)
    (hextra : ((v * 8 + n) % 2 ^ 64 + 8 - 1) % 2 ^ 64 / 8 = extra)
    (hpadding : unsignedSub 64 (extra * 8 % 2 ^ 64) ((v * 8 + n) % 2 ^ 64) = padding)
    (hoops : (m.instanceFixedSize b + v) % 2 ^ 64 = oops)
    (hslots : (m.instanceFixedSize b + extra) % 2 ^ 64 = slots)
    (ho : o = m.mixedObjectOf oops (slots % 2 ^ 61)) (hle : oops ≤ slots % 2 ^ 61)
    (hfit : m.compactingHeap.size + 48 + slots % 2 ^ 61 * 8 < 2 ^ 64) :
    ∃ m', m.basicNewMixedNative b v n = some (o.header, m') ∧
      Created m o ((m.instanceFormat b + padding) % 2 ^ 5) ((slots ||| oops <<< 32) % 2 ^ 64) m' ∧
      MixedContent m o b m' := by
  obtain ⟨hresult, hcreated, hword⟩ := m.instantiateMixedObject_wrapped ho hfit
  generalize hr : m.instantiateMixedObject oops slots = r at hresult hcreated hword
  obtain ⟨result, m₁⟩ := r
  obtain rfl : result = _ := hresult
  have hoopSlotCount : o.oopSlotCount = oops := ho ▸ rfl
  have htotalSlotCount : o.totalSlotCount = slots % 2 ^ 61 := ho ▸ rfl
  have hset := (hcreated.setClassIndex (m₁.header b).identityHash).setObjectFormat
    (m.instanceFormat b + padding)
  have hcontent := MixedContent.of_instantiated hcreated hword (b := b)
    (m.instanceFormat b + padding) (by omega)
  have hremaining : unsignedSub 64 slots oops * 8 % 2 ^ 64 / 8 =
      o.totalSlotCount - o.oopSlotCount := by
    rw [unsignedSub_of_le _ (hle.trans (Nat.mod_le _ _))]
    omega
  rw [← hremaining, hoopSlotCount] at hcontent
  simp only [instanceFormat, instanceFixedSize] at *
  simp only [basicNewMixedNative, hb, if_false, hextra, hpadding, hslots, hoops, hr]
  exact ⟨_, rfl, (hset.fillWords (Nat.le_refl _) _ _).fillWords (Nat.le_add_right _ _) _ _,
    hcontent⟩

/-- **Allocation of mixed objects**, and the words of the new object. -/
theorem basicNewMixedNative_created (m : FlatMemory) {b v n extra padding : ℕ} (hb : b ≠ nilOop)
    (hextra : ((v * 8 + n) % 2 ^ 64 + 8 - 1) % 2 ^ 64 / 8 = extra)
    (hpadding : unsignedSub 64 (extra * 8 % 2 ^ 64) ((v * 8 + n) % 2 ^ 64) = padding)
    (hv : v ≤ extra)
    (hfit : m.compactingHeap.size + 48 + (m.instanceFixedSize b + extra) * 8 < 2 ^ 64) :
    ∃ m', m.basicNewMixedNative b v n =
        some ((m.mixedObjectOf (m.instanceFixedSize b + v)
          (m.instanceFixedSize b + extra)).header, m') ∧
      Created m (m.mixedObjectOf (m.instanceFixedSize b + v) (m.instanceFixedSize b + extra))
        ((m.instanceFormat b + padding) % 2 ^ 5)
        ((m.instanceFixedSize b + extra ||| (m.instanceFixedSize b + v) <<< 32) % 2 ^ 64) m' ∧
      MixedContent m (m.mixedObjectOf (m.instanceFixedSize b + v)
        (m.instanceFixedSize b + extra)) b m' := by
  have hsmall : (m.instanceFixedSize b + extra) % 2 ^ 61 = m.instanceFixedSize b + extra :=
    Nat.mod_eq_of_lt (by omega)
  refine m.basicNewMixedNative_wrapped hb hextra hpadding (Nat.mod_eq_of_lt (by omega))
    (Nat.mod_eq_of_lt (by omega)) ?_ ?_ ?_
  · rw [hsmall]
  · rw [hsmall]
    exact Nat.add_le_add_left hv _
  · rw [hsmall]
    exact hfit

end

end FlatMemory

end SlvmNative
