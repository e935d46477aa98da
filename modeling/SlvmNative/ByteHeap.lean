import SlvmNative.CompactingHeap
import SlvmNative.Library.ByteMemory

/-!
# The heap in byte-addressed memory

Objects are aligned to words and the allocator reads and writes aligned words, so on bytes it does
what it does on words. What lies on both sides, an execution stack and the objects made from it, is
one array of bytes.

## Main definitions

* `ByteHeap`, `ByteHeap.flat`, `ByteHeap.ofFlat` — the memory as bytes, as words, and back
* `ByteHeap.basicNewMixedNative` — the allocator on bytes
* `ByteHeap.firstNativeDataPointer` — where the bytes of a mixed object are
* `ByteHeap.MixedObject` — a new mixed object

## Main results

* `ByteHeap.ofFlat_flat` — bytes are determined by the aligned words
* `ByteHeap.basicNewMixedNative_mixed` — what an allocation does to the bytes
-/

namespace SlvmNative

/-- Memory as bytes, and the compacting heap in it. -/
structure ByteHeap where
  memory : ByteMemory
  compactingHeap : StackHeap

namespace ByteHeap

/-- The memory as words. -/
def flat (s : ByteHeap) : FlatMemory where
  word a := (s.memory.load64 a).toNat
  compactingHeap := s.compactingHeap

/-- The bytes of the aligned words. -/
def ofFlat (m : FlatMemory) : ByteHeap where
  memory a := UInt8.ofNat (m.word (a / 8 * 8) / 256 ^ (a % 8))
  compactingHeap := m.compactingHeap

/-! ### Bytes and words -/

/-- **Bytes are determined by the aligned words.** -/
theorem ofFlat_flat (s : ByteHeap) : (ofFlat s.flat).memory = s.memory := by
  funext a
  have hbyte := s.memory.byte_eq (a / 8 * 8) (Nat.mod_lt a (Nat.succ_pos 7))
  rw [show a / 8 * 8 + a % 8 = a by omega] at hbyte
  exact hbyte.symm

theorem load64_ofFlat (m : FlatMemory) {a : ℕ} (ha : a % 8 = 0) :
    (ofFlat m).memory.load64 a = UInt64.ofNat (m.word a) := by
  have hload : (ofFlat m).memory.loadBytes a 8 = m.word a % 256 ^ 8 := by
    refine ByteMemory.loadBytes_eq fun i hi => ?_
    show UInt8.ofNat (m.word ((a + i) / 8 * 8) / 256 ^ ((a + i) % 8)) = _
    rw [show (a + i) / 8 * 8 = a by omega, show (a + i) % 8 = i by omega]
  rw [← UInt64.toNat_inj, ByteMemory.load64_toNat, hload]
  exact UInt64.toNat_ofNat'.symm

theorem flat_ofFlat_word (m : FlatMemory) {a : ℕ} (ha : a % 8 = 0) :
    (ofFlat m).flat.word a = m.word a % 2 ^ 64 := by
  show ((ofFlat m).memory.load64 a).toNat = _
  rw [load64_ofFlat m ha]
  exact UInt64.toNat_ofNat'

/-- Bytes agree where the aligned words do. -/
theorem sameOn_ofFlat {m m' : FlatMemory} {lo hi : ℕ}
    (h : ∀ a, a % 8 = 0 → lo < a + 8 → a < hi → m'.word a = m.word a) :
    (ofFlat m).memory.SameOn (ofFlat m').memory lo hi := by
  intro a hlo hhi
  show UInt8.ofNat (m'.word (a / 8 * 8) / _) = UInt8.ofNat (m.word (a / 8 * 8) / _)
  rw [h (a / 8 * 8) (by omega) (by omega) (by omega)]

/-- A word of a memory that agrees with the bytes of some words. -/
theorem flat_word_of_sameOn {m : FlatMemory} {s : ByteHeap} {lo hi a : ℕ}
    (h : (ofFlat m).memory.SameOn s.memory lo hi) (ha : a % 8 = 0) (hlo : lo ≤ a)
    (hhi : a + 8 ≤ hi) : s.flat.word a = m.word a % 2 ^ 64 := by
  rw [← flat_ofFlat_word m ha]
  exact congrArg UInt64.toNat (h.mono hlo hhi).load64

/-- The pre-header of an object, from words to bytes. -/
theorem preheader_of_sameOn {m : FlatMemory} {s : ByteHeap} {o : HeapObject}
    {format sizeWord : ℕ} (h : FlatMemory.Preheader m o format sizeWord)
    (haligned : o.forwardingPointer % 8 = 0) (hsize : sizeWord < 2 ^ 64)
    (hsame : (ofFlat m).memory.SameOn s.memory o.forwardingPointer (o.header + 8)) :
    FlatMemory.Preheader s.flat o format sizeWord := by
  have hheader := h.header_eq
  have hword := fun {a} => @flat_word_of_sameOn m s _ _ a hsame
  have hh : s.flat.header o.header = m.header o.header := by
    rw [FlatMemory.header, hword (by omega) (by omega) (by omega), FlatMemory.decodeHeader_mod,
      FlatMemory.header]
  refine h.congr_words ?_ ?_ hh
  · rw [hword haligned (Nat.le_refl _) (by omega)]
    rcases h.shape with ⟨-, hfw, -⟩ | ⟨-, hfw, -⟩
    · rw [hfw]
      rfl
    · rw [hfw, Nat.zero_mod]
  · rw [hword (by omega) (by omega) (by omega)]
    rcases h.shape with ⟨h24, -, -, hsizeWord⟩ | ⟨h8, hfw, -⟩
    · rw [h24, show o.forwardingPointer + 24 - 8 = o.forwardingPointer + 16 from rfl, hsizeWord]
      exact Nat.mod_eq_of_lt hsize
    · rw [h8, Nat.add_sub_cancel, hfw, Nat.zero_mod]

/-- `slvm_firstNativeDataPointer`, where its assertions hold. The count of pointers is the upper
half of the word before the header. -/
def firstNativeDataPointer (s : ByteHeap) (value : ℕ) : Option ℕ :=
  if oopIsPointers value ∧ ObjectFormat.mixedObject ≤ (s.flat.header value).objectFormat then
    some (value + 8 + (s.memory.load32 (value - 4)).toNat * 8)
  else none

/-- **The native area** starts behind the pointers. -/
theorem firstNativeDataPointer_eq {s : ByteHeap} {o : HeapObject} {format sizeWord : ℕ}
    (h : FlatMemory.Preheader s.flat o format sizeWord)
    (hmixed : ObjectFormat.mixedObject ≤ format)
    (hcounts : FlatMemory.Preheader.SlotCounts o format sizeWord)
    (haligned : o.forwardingPointer % 8 = 0) (hheader : o.header = o.forwardingPointer + 24) :
    s.firstNativeDataPointer o.header = some (o.header + 8 + o.oopSlotCount * 8) := by
  have hasserted : oopIsPointers o.header ∧
      ObjectFormat.mixedObject ≤ (s.flat.header o.header).objectFormat :=
    ⟨oopIsPointers_iff.mpr (by omega), by rwa [h.objectFormat]⟩
  have hword : (s.memory.load64 (o.header - 8)).toNat = sizeWord := by
    rcases h.shape with ⟨-, -, -, hsize⟩ | ⟨h8, -⟩
    · rw [show o.header - 8 = o.forwardingPointer + 16 by omega]
      exact hsize
    · omega
  have hlt := (s.memory.load64 (o.header - 8)).toNat_lt
  have hhalf := s.memory.load32_toNat (o.header - 8) (k := 4) (by decide)
  rw [FlatMemory.Preheader.SlotCounts, if_pos hmixed] at hcounts
  have hoops := hcounts.1
  rw [Nat.shiftRight_eq_div_pow] at hoops
  rw [show o.header - 8 + 4 = o.header - 4 by omega, hword, show 256 ^ 4 = 2 ^ 32 from rfl, hoops,
    Nat.mod_eq_of_lt (by omega)] at hhalf
  rw [firstNativeDataPointer, if_pos hasserted, hhalf]

/-! ### Allocation -/

section

variable [KernelImage]

/-- `slvm_Behavior_basicNewMixedNative` -/
def basicNewMixedNative (s : ByteHeap) (behavior variableSize nativeVariableSize : ℕ) :
    Option (ℕ × ByteHeap) :=
  (s.flat.basicNewMixedNative behavior variableSize nativeVariableSize).map fun result =>
    (result.1, ofFlat result.2)

/-- A mixed object `o` of a behavior `b` has been allocated: its pointers are nil, its native area
is zero, and nothing but its block has been written. -/
structure MixedObject (s : ByteHeap) (o : HeapObject) (b format sizeWord : ℕ) (s' : ByteHeap) :
    Prop where
  position : o.forwardingPointer = s.compactingHeap.start + s.compactingHeap.nextOffset 16
  start : s'.compactingHeap.start = s.compactingHeap.start
  capacity : s'.compactingHeap.capacity = s.compactingHeap.capacity
  finish : s'.compactingHeap.start + s'.compactingHeap.size = o.header + 8 + o.totalSlotCount * 8
  preheader : FlatMemory.Preheader s'.flat o format sizeWord
  classIndex : (b + 8 ≤ o.forwardingPointer ∨ o.header + 8 ≤ b) →
    (s'.flat.header o.header).classIndex = (s.flat.header b).identityHash
  nil : ∀ i < o.oopSlotCount, s'.memory.load64 (o.header + 8 + i * 8) = UInt64.ofNat nilOop
  zero : ∀ a, o.header + 8 + o.oopSlotCount * 8 ≤ a → a < o.header + 8 + o.totalSlotCount * 8 →
    s'.memory a = 0
  frame : ∀ lo hi, hi ≤ o.forwardingPointer ∨ o.header + 8 + o.totalSlotCount * 8 ≤ lo →
    s.memory.SameOn s'.memory lo hi

/-- From words to bytes. -/
theorem MixedObject.of_created {s : ByteHeap} {o : HeapObject} {b format sizeWord : ℕ}
    {m' : FlatMemory} (h : FlatMemory.Created s.flat o format sizeWord m')
    (hbody : FlatMemory.MixedContent s.flat o b m') (hsize : sizeWord < 2 ^ 64)
    (hheader : o.header = o.forwardingPointer + 24) :
    MixedObject s o b format sizeWord (ofFlat m') := by
  have haligned := h.aligned
  constructor
  · exact h.position
  · exact h.start
  · exact h.capacity
  · exact h.finish
  · exact preheader_of_sameOn h.preheader (by omega) hsize (ByteMemory.SameOn.refl _ _ _)
  · intro hb
    rw [← hbody.classIndex hb, FlatMemory.header, flat_ofFlat_word m' (by omega),
      FlatMemory.decodeHeader_mod, FlatMemory.header]
  · intro i hi
    rw [load64_ofFlat m' (by omega), hbody.nil i hi]
  · intro a hlo hhi
    have hzero := hbody.zero ((a - (o.header + 8)) / 8) (by omega) (by omega)
    rw [show o.header + 8 + (a - (o.header + 8)) / 8 * 8 = a / 8 * 8 by omega] at hzero
    show UInt8.ofNat (m'.word (a / 8 * 8) / _) = 0
    rw [hzero, Nat.zero_div]
    rfl
  · intro lo hi hout
    have hsame : (ofFlat s.flat).memory.SameOn (ofFlat m').memory lo hi := by
      refine sameOn_ofFlat fun a ha hlo hhi => ?_
      rcases hout with hbelow | habove
      · exact h.frame a (by omega)
      · exact hbody.behind a (by omega)
    rwa [ofFlat_flat] at hsame

/-- **An allocation with the mixed format**, on bytes. -/
theorem basicNewMixedNative_mixed (s : ByteHeap) {b v n : ℕ} {o : HeapObject} (hb : b ≠ nilOop)
    (hformat : s.flat.instanceFormat b = ObjectFormat.mixedObject)
    (hslots : s.flat.instanceFixedSize b + (v * 8 + n + 7) / 8 < 2 ^ 32)
    (hsize : s.compactingHeap.size ≤ defaultCompactingHeapCapacity)
    (ho : o = s.flat.mixedObjectOf (s.flat.instanceFixedSize b + v)
      (s.flat.instanceFixedSize b + (v * 8 + n + 7) / 8)) :
    ∃ s' pad sizeWord, s.basicNewMixedNative b v n = some (o.header, s') ∧ pad < 8 ∧
      MixedObject s o b (ObjectFormat.mixedObject + pad) sizeWord s' ∧
      FlatMemory.Preheader.SlotCounts o (ObjectFormat.mixedObject + pad) sizeWord ∧
      pad ≤ o.totalSlotCount * 8 ∧
      o.totalSlotCount * 8 - pad = 8 * (s.flat.instanceFixedSize b + v) + n := by
  obtain ⟨m', pad, sizeWord, hm', hpad, hsizeWord, hcreated, hcounts, hbody, hle, hcount⟩ :=
    HeapRun.basicNewMixedNative_mixed s.flat hb hformat hslots hsize ho
  refine ⟨ofFlat m', pad, sizeWord, ?_, hpad, ?_, hcounts, hle, hcount⟩
  · rw [basicNewMixedNative, hm']
    rfl
  · exact MixedObject.of_created hcreated hbody hsizeWord (ho ▸ rfl)

end

end ByteHeap

end SlvmNative
