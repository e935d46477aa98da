import SlvmNative.PrimitiveAllocation
import SlvmNative.Primitives

/-!
# Objects in flat memory

Objects are modelled on two layouts. `FlatMemory` is the array of 64-bit words the allocator works
on, with sizes that wrap. `ObjectMemory` has headers, slots and bytes apart and sizes that are
numbers, which is what the collections and the primitives are modelled on. Here a flat memory is
related to an object memory, and allocation keeps the relation as long as no size wraps.

## Main definitions

* `ObjectMemory.LaidOut` — the objects of an object memory, as they are in flat memory

## Main results

* `ObjectMemory.LaidOut.basicNew` — allocation is the same on both layouts
* `ObjectMemory.LaidOut.exists_laidOut` — an object has a layout
* `ObjectMemory.LaidOut.basicSize` — and so is the size of an object
* `ObjectMemory.LaidOut.agree_iff` — which calls of `basicNew:` are the same on both
-/

namespace SlvmNative

/-! ### Words of new objects -/

namespace FlatMemory

variable {m : FlatMemory}

theorem ofFields_mod (c f i s : ℕ) :
    ObjectHeader.ofFields (c % 2 ^ 22) (f % 2 ^ 5) (i % 2 ^ 22) (s % 2 ^ 8) =
      ObjectHeader.ofFields c f i s := by
  simp only [ObjectHeader.ofFields, Nat.mod_mod]

/-- The four bit-fields of a header, stored one after another. -/
theorem decodeHeader_setField (c f i s : ℕ) :
    decodeHeader (Words.setField (Words.setField (Words.setField (Words.setField 0 56 8 s) 32 22 i)
      0 22 c) 24 5 f) = ObjectHeader.ofFields c f i s := by
  rw [decodeHeader, ← ofFields_mod c f i s]
  congr 1
  · rw [Words.field_setField_of_le (by decide), Words.field_setField_self]
  · rw [Words.field_setField_self]
  · rw [Words.field_setField_of_ge (by decide), Words.field_setField_of_ge (by decide),
      Words.field_setField_self]
  · rw [Words.field_setField_of_ge (by decide), Words.field_setField_of_ge (by decide),
      Words.field_setField_of_ge (by decide), Words.field_setField_self]

/-- The padding of the last slot is the same number with and without wrapping. -/
theorem extraSlots_eq (format : ℕ) {v : ℕ} (hv : v < 2 ^ 60) :
    extraSlots format v = ObjectMemory.extraSlots format v ∧
      (extraSlots format v).1 ≤ v + 1 ∧
      v * (extraSlots format v).2 ≤ (extraSlots format v).1 * 8 := by
  rw [extraSlots, ObjectMemory.extraSlots]
  have h32 : (v * 4 + 7) % 2 ^ 64 = v * 4 + 7 := Nat.mod_eq_of_lt (by omega)
  have h16 : (v * 2 + 8 - 1) % 2 ^ 64 = v * 2 + 8 - 1 := Nat.mod_eq_of_lt (by omega)
  have h8 : (v + 8 - 1) % 2 ^ 64 = v + 8 - 1 := Nat.mod_eq_of_lt (by omega)
  rw [h32, h16, h8]
  split_ifs
  all_goals refine ⟨rfl, ?_, ?_⟩
  all_goals simp only
  all_goals omega

/-- The word of a header that `slvm_spur_instantiate_object` leaves behind. -/
theorem instantiateObject_word (m : FlatMemory) (slotCount : ℕ) :
    (m.instantiateObject slotCount).2.word (m.instantiateObject slotCount).1 =
      Words.setField (Words.setField 0 56 8 (if slotCount ≥ 255 then 255 else slotCount)) 32 22
        ((m.instantiateObject slotCount).1 >>> 4) :=
  initializeHeader_word_self _ _ _

variable [KernelImage]

/-- What allocation leaves behind in flat memory: a header with all its bit-fields, and words that
are nil or zero. -/
structure NewWords (m : FlatMemory) (b padding slots : ℕ) (m' : FlatMemory) : Prop where
  created : Created m (m.objectOf slots) ((m.instanceFormat b + padding) % 2 ^ 5) slots m'
  header : m'.header (m.objectOf slots).header =
    ObjectHeader.ofFields (m.header b).identityHash (m.instanceFormat b + padding)
      ((m.objectOf slots).header >>> 4) (if slots ≥ 255 then 255 else slots)
  body : ∀ i < slots, m'.word ((m.objectOf slots).header + 8 + i * 8) =
    if m.instanceFormat b < ObjectFormat.indexable64 then nilOop else 0

/-- Only nil and the behaviors of mixed objects make no objects. -/
theorem basicNew_eq_none_iff (m : FlatMemory) (b v : ℕ) :
    m.basicNew b v = none ↔ b = nilOop ∨ ObjectFormat.mixedObject ≤ m.instanceFormat b := by
  refine ⟨fun hnone => ?_, fun hbad => if_pos hbad⟩
  by_contra hbad
  simp only [instanceFormat] at hbad
  simp only [basicNew, hbad, if_false] at hnone
  split_ifs at hnone

/-- **Allocation in words.** -/
theorem basicNew_words (m : FlatMemory) {b v extra elementSize : ℕ} (hb : b ≠ nilOop)
    (hformat : m.instanceFormat b < ObjectFormat.mixedObject) (hv : v < 2 ^ 60)
    (hextra : ObjectMemory.extraSlots (m.instanceFormat b) v = (extra, elementSize))
    (hsize : m.compactingHeap.size < 2 ^ 62)
    (hbelow : b < m.compactingHeap.start + m.compactingHeap.size) :
    ∃ m', m.basicNew b v = some ((m.objectOf (m.instanceFixedSize b + extra)).header, m') ∧
      NewWords m b (extra * 8 - v * elementSize) (m.instanceFixedSize b + extra) m' := by
  obtain ⟨heq, hle, hpadding⟩ := extraSlots_eq (m.instanceFormat b) hv
  rw [hextra] at heq
  rw [heq] at hle hpadding
  simp only at hle hpadding
  have hfixed : m.instanceFixedSize b < 2 ^ 16 := decodeFixedSize_lt _
  have hremaining : unsignedSub 64 (extra * 8 % 2 ^ 64) (v * elementSize % 2 ^ 64) =
      extra * 8 - v * elementSize := unsignedSub_mod hpadding (by omega)
  generalize hslots : m.instanceFixedSize b + extra = slots
  have hmod : (m.instanceFixedSize b + extra) % 2 ^ 64 = slots := by omega
  have hbytes : slots * 8 % 2 ^ 64 / 8 = slots := by omega
  obtain ⟨hresult, hcreated⟩ :=
    @FlatMemory.instantiateObject_wrapped m slots (by omega) (by omega)
  have hword := m.instantiateObject_word slots
  rw [m.wrappedObjectOf_eq (by omega)] at hresult hcreated
  generalize hr : m.instantiateObject slots = r at hresult hcreated hword
  obtain ⟨result, m₁⟩ := r
  obtain rfl : result = _ := hresult
  have hheader := hcreated.preheader.header_eq
  have hposition := hcreated.position
  have hnext := @StackHeap.size_le_nextOffset m.compactingHeap 16 (by decide)
  have hbehavior : m₁.header b = m.header b :=
    congrArg decodeHeader (hcreated.frame b (by omega))
  -- the header has its last fields, and then the body is filled
  have hset := (hcreated.setClassIndex (m₁.header b).identityHash).setObjectFormat
    (m.instanceFormat b + (extra * 8 - v * elementSize))
  have hfilled : ∀ value, (if m.instanceFormat b < ObjectFormat.indexable64 then nilOop else 0) =
      value → NewWords m b (extra * 8 - v * elementSize) slots
        (((m₁.setClassIndex (m.objectOf slots).header (m₁.header b).identityHash).setObjectFormat
          (m.objectOf slots).header (m.instanceFormat b + (extra * 8 - v * elementSize))).fillWords
            ((m.objectOf slots).header + 8) slots value) := by
    intro value hvalue
    refine ⟨hset.fillWords (Nat.le_refl _) _ _, ?_, fun i hi => ?_⟩
    · rw [header, fillWords_word_of_lt _ (by omega), setObjectFormat, setHeaderField_word_self,
        setClassIndex, setHeaderField_word_self, hword, decodeHeader_setField, hbehavior]
    · rw [fillWords_word_of_mem _ (by omega) (by omega), hvalue]
  have hcond : ¬ (b = nilOop ∨ ObjectFormat.mixedObject ≤ m.instanceFormat b) := by
    simp only [hb, false_or, Nat.not_le]
    exact hformat
  simp only [instanceFormat, instanceFixedSize] at *
  simp only [basicNew, hcond, if_false, heq, hremaining, hmod, hr, hbytes]
  split_ifs with hpointers
  · exact ⟨_, rfl, hfilled nilOop (if_pos hpointers)⟩
  · exact ⟨_, rfl, hfilled 0 (if_neg hpointers)⟩

end FlatMemory

namespace ObjectMemory

variable {a a' : ObjectMemory}

section NewObjects

variable [KernelImage]

/-- The address of a new object of a number of slots. -/
def newAddress (a : ObjectMemory) (slots : ℕ) : ℕ :=
  a.heapStart + (a.heapSize + 15) / 16 * 16 + (if slots ≥ 255 then 24 else 8)

/-- What allocation leaves behind on object memory. -/
structure NewObject (a : ObjectMemory) (b padding slots : ℕ) (a' : ObjectMemory) : Prop where
  frame : Frame a.limit ∅ a a'
  heapSize : a'.heapStart + a'.heapSize = a.newAddress slots + 8 + slots * 8
  forwardingWord : a'.forwardingWord (a.heapStart + (a.heapSize + 15) / 16 * 16) =
    if slots ≥ 255 then 1 else 0
  sizeWord : 255 ≤ slots → a'.sizeWord (a.newAddress slots - 8) = slots
  header : a'.header (a.newAddress slots) =
    ObjectHeader.ofFields (a.header b).identityHash
      (decodeFormat (a.slot b Field.format) + padding) (a.newAddress slots >>> 4)
        (if slots ≥ 255 then 255 else slots)
  nil : decodeFormat (a.slot b Field.format) < ObjectFormat.indexable64 → ∀ i < slots,
    a'.slot (a.newAddress slots) i = nilOop
  zero : ObjectFormat.indexable64 ≤ decodeFormat (a.slot b Field.format) → ∀ i < slots * 8,
    a'.byte (a.newAddress slots) i = 0

omit [KernelImage] in
theorem instantiateObject_newAddress (a : ObjectMemory) (slots : ℕ) :
    (a.instantiateObject slots).1 = a.newAddress slots ∧
      (a.instantiateObject slots).2.limit = a.newAddress slots + 8 + slots * 8 ∧
      (a.instantiateObject slots).2.forwardingWord (a.heapStart + (a.heapSize + 15) / 16 * 16) =
        if slots ≥ 255 then 1 else 0 := by
  rcases Nat.lt_or_ge slots 255 with hlt | hge
  · rw [instantiateObject_of_lt a hlt, newAddress]
    simp only [ge_iff_le, Nat.not_le.mpr hlt, if_false, limit, Function.update_self, true_and,
      and_true]
    omega
  · rw [instantiateObject_of_ge a hge, newAddress]
    simp only [ge_iff_le, hge, if_true, limit, Function.update_self, true_and, and_true]
    omega

/-- **Allocation on object memory.** -/
theorem basicNew_newObject (a : ObjectMemory) {b v extra elementSize : ℕ} (hb : b ≠ nilOop)
    (hformat : decodeFormat (a.slot b Field.format) < ObjectFormat.mixedObject)
    (hextra : extraSlots (decodeFormat (a.slot b Field.format)) v = (extra, elementSize)) :
    ∃ a', a.basicNew b v =
        some (a.newAddress (decodeFixedSize (a.slot b Field.format) + extra), a') ∧
      NewObject a b (extra * 8 - v * elementSize)
        (decodeFixedSize (a.slot b Field.format) + extra) a' := by
  generalize hslots : decodeFixedSize (a.slot b Field.format) + extra = slots
  obtain ⟨haddress, hlimit, hforwarding⟩ := a.instantiateObject_newAddress slots
  have hinst := instantiateObject_spec a slots
  generalize hr : a.instantiateObject slots = r at haddress hlimit hforwarding hinst
  obtain ⟨o, a₁⟩ := r
  obtain rfl : o = _ := haddress
  have hlow := hinst.limit_lt.le
  have hcreated : a₁.header (a.newAddress slots) =
    ObjectHeader.ofFields 0 0 (a.newAddress slots >>> 4) (if slots ≥ 255 then 255 else slots) :=
    hinst.header
  have hheader : ObjectHeader.ofFields (a.header b).identityHash
      (decodeFormat (a.slot b Field.format) + (extra * 8 - v * elementSize))
      (a₁.header (a.newAddress slots)).identityHash (a₁.header (a.newAddress slots)).slotCount =
    ObjectHeader.ofFields (a.header b).identityHash
      (decodeFormat (a.slot b Field.format) + (extra * 8 - v * elementSize))
      (a.newAddress slots >>> 4) (if slots ≥ 255 then 255 else slots) := by
    rw [hcreated]
    simp only [ObjectHeader.ofFields, Nat.mod_mod]
  have hcond : ¬ (b = nilOop ∨
      ObjectFormat.mixedObject ≤ decodeFormat (a.slot b Field.format)) := by
    simp only [hb, false_or, Nat.not_le]
    exact hformat
  simp only [basicNew, hcond, if_false, hextra, hslots, hr, hheader]
  by_cases hpointers : decodeFormat (a.slot b Field.format) < ObjectFormat.indexable64
  · rw [if_pos hpointers]
    refine ⟨_, rfl, ?_, hlimit, hforwarding, hinst.sizeWord, setHeader_header_self _ _ _,
      fun _ i hi => fillSlots_slot_of_lt _ _ _ _ hi, fun h => absurd hpointers (Nat.not_lt.mpr h)⟩
    exact hinst.frame.trans ((Frame.setHeader _ _ hlow _).trans (Frame.fillSlots _ _ hlow _ _))
  · rw [if_neg hpointers]
    refine ⟨_, rfl, ?_, hlimit, hforwarding, hinst.sizeWord, setHeader_header_self _ _ _,
      fun h => absurd h hpointers, fun _ i hi => clearBytes_byte_of_lt _ _ _ hi⟩
    exact hinst.frame.trans ((Frame.setHeader _ _ hlow _).trans (Frame.clearBytes _ _ hlow _))

end NewObjects

/-! ### Layouts -/

/-- The number of slots of an object. -/
def slotCount (a : ObjectMemory) (o : ℕ) : ℕ :=
  if (a.header o).slotCount = 255 then a.sizeWord (o - 8) else (a.header o).slotCount

/-- The pre-header and the header of an object, as they are in flat memory. -/
structure ObjectLaidOut (a : ObjectMemory) (m : FlatMemory) (o : ℕ) : Prop where
  inside : o + 8 + a.slotCount o * 8 ≤ a.limit
  header : m.header o = a.header o
  sizeWord : (a.header o).slotCount = 255 → m.word (o - 8) = a.sizeWord (o - 8)
  forwardingWord : m.word (m.getForwardingPointerForObject o) =
    a.forwardingWord (m.getForwardingPointerForObject o)

/-- The objects of the object memory `a`, as they are in the flat memory `m`: objects with pointers
and objects with bytes. -/
structure LaidOut (pointers bytes : Set ℕ) (a : ObjectMemory) (m : FlatMemory) : Prop where
  start : m.compactingHeap.start = a.heapStart
  size : m.compactingHeap.size = a.heapSize
  object : ∀ o ∈ pointers ∪ bytes, ObjectLaidOut a m o
  slot : ∀ o ∈ pointers, ∀ i < a.slotCount o, m.word (o + 8 + i * 8) = a.slot o i
  byte : ∀ o ∈ bytes, ∀ i < a.slotCount o * 8,
    a.byte o i = UInt8.ofNat (m.word (o + 8 + i / 8 * 8) / 256 ^ (i % 8))

theorem Frame.slotCount {L : ℕ} {F : Set (ℕ × ℕ)} (h : Frame L F a a') {o : ℕ} (ho : o < L) :
    a'.slotCount o = a.slotCount o := by
  rw [ObjectMemory.slotCount, ObjectMemory.slotCount, h.header o ho, h.sizeWord (o - 8) (by omega)]

namespace LaidOut

variable {pointers bytes : Set ℕ} {m m' : FlatMemory} {o : ℕ}

/-- The size of an object is the same on both layouts. -/
theorem basicSize (h : LaidOut pointers bytes a m) (ho : o ∈ pointers ∪ bytes)
    (hlimit : a.limit < 2 ^ 64) : m.basicSize o = a.basicSize o := by
  obtain ⟨hinside, hheader, hsizeWord, -⟩ := h.object o ho
  rw [FlatMemory.basicSize, ObjectMemory.basicSize, hheader]
  by_cases hbig : (a.header o).slotCount = 255
  · rw [slotCount, if_pos hbig] at hinside
    have hmul := spurFormatMultiplier_le (a.header o).objectFormat
    have hproduct : a.sizeWord (o - 8) * spurFormatMultiplier (a.header o).objectFormat ≤
      a.sizeWord (o - 8) * 8 := Nat.mul_le_mul_left _ hmul
    have hmod : a.sizeWord (o - 8) * spurFormatMultiplier (a.header o).objectFormat % 2 ^ 64 =
      a.sizeWord (o - 8) * spurFormatMultiplier (a.header o).objectFormat :=
      Nat.mod_eq_of_lt (by omega)
    rw [hsizeWord hbig]
    simp only [hmod]
  · simp only [hbig, if_false]

/-- A small object with pointers can be laid out. -/
theorem exists_laidOut (a : ObjectMemory) {o : ℕ} (hsmall : (a.header o).slotCount < 255)
    (hpreheader : 8 ≤ o) (hinside : o + 8 + a.slotCount o * 8 ≤ a.limit) :
    ∃ m, LaidOut {o} ∅ a m := by
  let header := a.header o
  let word := Words.setField (Words.setField (Words.setField (Words.setField 0 56 8
    header.slotCount) 32 22 header.identityHash) 0 22 header.classIndex) 24 5 header.objectFormat
  let m : FlatMemory :=
    { word := fun w =>
        if w = o then word
        else if w < o then a.forwardingWord w
        else a.slot o ((w - (o + 8)) / 8)
      compactingHeap := ⟨a.heapStart, a.heapSize, 0, 0, a.heapStart_aligned⟩ }
  have hheader : m.header o = a.header o := by
    have hword : m.word o = word := if_pos rfl
    rw [FlatMemory.header, hword, FlatMemory.decodeHeader_setField]
    exact ObjectHeader.ext (Nat.mod_eq_of_lt header.classIndex_lt)
      (Nat.mod_eq_of_lt header.objectFormat_lt) (Nat.mod_eq_of_lt header.identityHash_lt)
      (Nat.mod_eq_of_lt header.slotCount_lt)
  refine ⟨m, rfl, rfl, fun p hp => ?_, fun p hp i hi => ?_, fun p hp =>
    absurd hp (Set.notMem_empty p)⟩
  · obtain rfl : p = o := by simpa using hp
    refine ⟨hinside, hheader, fun hbig => absurd hsmall (by omega), ?_⟩
    rw [FlatMemory.getForwardingPointerForObject, hheader, if_neg (by omega)]
    have hne : p - 8 ≠ p := by omega
    have hlt : p - 8 < p := by omega
    simp only [m, hne, hlt, if_false, if_true]
  · obtain rfl : p = o := hp
    have hne : p + 8 + i * 8 ≠ p := by omega
    have hge : ¬ p + 8 + i * 8 < p := by omega
    simp only [m, hne, hge, if_false, Nat.add_sub_cancel_left,
      Nat.mul_div_cancel i (Nat.succ_pos 7)]

/-- A step that leaves the objects alone, on both layouts. -/
theorem frame (h : LaidOut pointers bytes a m) (hframe : Frame a.limit ∅ a a')
    (hwords : ∀ w < a.limit, m'.word w = m.word w)
    (hstart : m'.compactingHeap.start = m.compactingHeap.start)
    (hsize : m'.compactingHeap.size = a'.heapSize) : LaidOut pointers bytes a' m' := by
  have hcount : ∀ o ∈ pointers ∪ bytes, a'.slotCount o = a.slotCount o := fun o ho =>
    hframe.slotCount (by have := (h.object o ho).inside; omega)
  refine ⟨(hstart.trans h.start).trans hframe.heapStart.symm, hsize, fun o ho => ?_,
    fun o ho i hi => ?_, fun o ho i hi => ?_⟩
  · obtain ⟨hinside, hheader, hsizeWord, hforwarding⟩ := h.object o ho
    have hbelow : o < a.limit := by omega
    have hheader' : m'.header o = m.header o := congrArg FlatMemory.decodeHeader (hwords o hbelow)
    have hpointer : m'.getForwardingPointerForObject o = m.getForwardingPointerForObject o := by
      rw [FlatMemory.getForwardingPointerForObject, hheader',
        ← FlatMemory.getForwardingPointerForObject]
    have hpreheader : m.getForwardingPointerForObject o < a.limit := by
      rw [FlatMemory.getForwardingPointerForObject]
      split_ifs
      all_goals omega
    refine ⟨?_, ?_, fun hbig => ?_, ?_⟩
    · rw [hcount o ho]
      exact hinside.trans hframe.limit_le
    · rw [hheader', hheader, hframe.header o hbelow]
    · rw [hframe.header o hbelow] at hbig
      rw [hwords _ (by omega), hsizeWord hbig, hframe.sizeWord _ (by omega)]
    · rw [hpointer, hwords _ hpreheader, hforwarding, hframe.forwardingWord _ hpreheader]
  · rw [hcount o (Or.inl ho)] at hi
    have hinside := (h.object o (Or.inl ho)).inside
    rw [hwords _ (by omega), h.slot o ho i hi,
      hframe.slot o (by omega) i (Set.notMem_empty _)]
  · rw [hcount o (Or.inr ho)] at hi
    have hinside := (h.object o (Or.inr ho)).inside
    rw [hframe.byte o (by omega), h.byte o ho i hi, hwords _ (by omega)]

end LaidOut

/-! ### Allocation -/

section

variable [KernelImage]

theorem NewObject.slotCount {b padding slots : ℕ} (h : NewObject a b padding slots a') :
    a'.slotCount (a.newAddress slots) = slots := by
  rw [ObjectMemory.slotCount, h.header, ObjectHeader.ofFields_slotCount]
  rcases Nat.lt_or_ge slots 255 with hlt | hge
  · rw [if_neg (Nat.not_le.mpr hlt), Nat.mod_eq_of_lt (by omega), if_neg (by omega)]
  · rw [if_pos hge, if_pos (by decide), h.sizeWord hge]

namespace LaidOut

variable {pointers bytes : Set ℕ} {m m' : FlatMemory} {b padding slots v : ℕ}

omit [KernelImage] in
/-- New objects are at the same place. -/
theorem objectOf_eq (h : LaidOut pointers bytes a m) (slots : ℕ) :
    (m.objectOf slots).forwardingPointer = a.heapStart + (a.heapSize + 15) / 16 * 16 ∧
      (m.objectOf slots).header = a.newAddress slots := by
  rw [FlatMemory.objectOf, newAddress, h.start, StackHeap.nextOffset, h.size]
  exact ⟨rfl, rfl⟩

/-- The pre-header and the header of a new object. -/
theorem objectLaidOut_new (h : LaidOut pointers bytes a m)
    (hformat : m.instanceFormat b = decodeFormat (a.slot b Field.format))
    (hheader : m.header b = a.header b) (hwords : FlatMemory.NewWords m b padding slots m')
    (hobject : NewObject a b padding slots a') : ObjectLaidOut a' m' (a.newAddress slots) := by
  obtain ⟨hpointer, haddress⟩ := h.objectOf_eq slots
  have hpreheader := hwords.created.preheader
  refine ⟨?_, ?_, fun hbig => ?_, ?_⟩
  · rw [hobject.slotCount]
    exact hobject.heapSize.ge
  · rw [← haddress, hwords.header, haddress, hobject.header, hformat, hheader]
  · rcases Nat.lt_or_ge slots 255 with hlt | hge
    · rw [hobject.header, ObjectHeader.ofFields_slotCount, if_neg (Nat.not_le.mpr hlt)] at hbig
      omega
    · rw [hobject.sizeWord hge]
      rcases hpreheader.shape with ⟨h24, -, -, hsize⟩ | ⟨-, -, -, hsmall, -⟩
      · rw [← haddress, h24]
        exact hsize
      · exact absurd hsmall (Nat.not_lt.mpr hge)
  · rw [← haddress, hpreheader.getForwardingPointerForObject, hpointer, hobject.forwardingWord]
    have hgap : (m.objectOf slots).header =
      (m.objectOf slots).forwardingPointer + (if slots ≥ 255 then 24 else 8) := rfl
    rw [← hpointer]
    rcases hpreheader.shape with ⟨h24, hone, -⟩ | ⟨h8, hzero, -⟩
    · split_ifs at hgap ⊢
      · exact hone
      · omega
    · split_ifs at hgap ⊢
      · omega
      · exact hzero

/-- **Allocation is the same on both layouts**, as long as no size wraps: it fails on both, or it
returns the same object, which is laid out again. -/
theorem basicNew (h : LaidOut pointers bytes a m) (hb : b ∈ pointers)
    (hfield : Field.format < a.slotCount b) (hv : v < 2 ^ 60) (hsize : a.heapSize < 2 ^ 62) :
    (a.basicNew b v = none ∧ m.basicNew b v = none) ∨
      ∃ o a' m' pointers' bytes', a.basicNew b v = some (o, a') ∧ m.basicNew b v = some (o, m') ∧
        pointers ⊆ pointers' ∧ bytes ⊆ bytes' ∧ o ∈ pointers' ∪ bytes' ∧
        LaidOut pointers' bytes' a' m' := by
  have hinside := (h.object b (Or.inl hb)).inside
  have hword : m.word (b + 8 + Field.format * 8) = a.slot b Field.format :=
    h.slot b hb Field.format hfield
  have hformat : m.instanceFormat b = decodeFormat (a.slot b Field.format) := by
    rw [FlatMemory.instanceFormat, hword]
  have hfixed : m.instanceFixedSize b = decodeFixedSize (a.slot b Field.format) := by
    rw [FlatMemory.instanceFixedSize, hword]
  by_cases hbad : b = nilOop ∨
      ObjectFormat.mixedObject ≤ decodeFormat (a.slot b Field.format)
  · left
    rw [ObjectMemory.basicNew, FlatMemory.basicNew, hword]
    exact ⟨if_pos hbad, if_pos hbad⟩
  right
  obtain ⟨hnil, hmixed⟩ := not_or.mp hbad
  generalize hextra : extraSlots (decodeFormat (a.slot b Field.format)) v = sizes
  obtain ⟨extra, elementSize⟩ := sizes
  have hbelow : b < m.compactingHeap.start + m.compactingHeap.size := by
    rw [h.start, h.size]
    rw [limit] at hinside
    omega
  have hextra' : extraSlots (m.instanceFormat b) v = (extra, elementSize) := hformat ▸ hextra
  obtain ⟨m', hnew', hwords⟩ := m.basicNew_words hnil (hformat ▸ Nat.not_le.mp hmixed) hv hextra'
    (h.size ▸ hsize) hbelow
  obtain ⟨a', hnew, hobject⟩ := a.basicNew_newObject hnil (Nat.not_le.mp hmixed) hextra
  rw [hfixed] at hnew' hwords
  generalize decodeFixedSize (a.slot b Field.format) + extra = slots at hnew hnew' hwords hobject
  obtain ⟨hpointer, haddress⟩ := h.objectOf_eq slots
  rw [haddress] at hnew'
  have hnewObject := h.objectLaidOut_new hformat (h.object b (Or.inl hb)).header hwords hobject
  have hkept : LaidOut pointers bytes a' m' := by
    refine h.frame hobject.frame (fun w hw => hwords.created.frame w ?_) hwords.created.start ?_
    · rw [hpointer]
      rw [limit] at hw
      omega
    · have hfinish := hwords.created.finish
      have hend := hobject.heapSize
      rw [hwords.created.start, h.start, haddress] at hfinish
      rw [hobject.frame.heapStart] at hend
      exact Nat.add_left_cancel (hfinish.trans hend.symm)
  by_cases hpointers : decodeFormat (a.slot b Field.format) < ObjectFormat.indexable64
  · refine ⟨_, a', m', insert (a.newAddress slots) pointers, bytes, hnew, hnew',
      Set.subset_insert _ _, Set.Subset.rfl, Or.inl (Set.mem_insert _ _), hkept.start, hkept.size,
      fun o ho => ?_, fun o ho i hi => ?_, hkept.byte⟩
    · rcases ho with (rfl | ho) | ho
      · exact hnewObject
      · exact hkept.object o (Or.inl ho)
      · exact hkept.object o (Or.inr ho)
    · rcases ho with rfl | ho
      · rw [hobject.slotCount] at hi
        rw [hobject.nil hpointers i hi, ← haddress, hwords.body i hi, hformat, if_pos hpointers]
      · exact hkept.slot o ho i hi
  · refine ⟨_, a', m', pointers, insert (a.newAddress slots) bytes, hnew, hnew',
      Set.Subset.rfl, Set.subset_insert _ _, Or.inr (Set.mem_insert _ _), hkept.start, hkept.size,
      fun o ho => ?_, hkept.slot, fun o ho i hi => ?_⟩
    · rcases ho with ho | rfl | ho
      · exact hkept.object o (Or.inl ho)
      · exact hnewObject
      · exact hkept.object o (Or.inr ho)
    · rcases ho with rfl | ho
      · rw [hobject.slotCount] at hi
        rw [hobject.zero (Nat.not_lt.mp hpointers) i hi, ← haddress, hwords.body (i / 8) (by omega),
          hformat, if_neg hpointers, Nat.zero_div]
        rfl
      · exact hkept.byte o ho i hi

/-- A call of `basicNew:` comes to the same on both layouts. -/
def Agree (pointers bytes : Set ℕ) (call : PrimitiveCall) (w : World) (m : FlatMemory) : Prop :=
  match primitiveBasicNewWithSize m call.toPrimitiveContext with
  | none => behaviorBasicNewWithSize call w = none
  | some ((result, context), m') => ∃ a' pointers' bytes',
      behaviorBasicNewWithSize call w =
        some (.returns result context.errorCode (w.withMemory a') []) ∧
      pointers ⊆ pointers' ∧ bytes ⊆ bytes' ∧ LaidOut pointers' bytes' a' m'

omit [KernelImage] in
/-- The sizes that wrap are those of negative arguments. -/
theorem two_pow_le_decode_iff (oop : ℕ) :
    2 ^ 60 ≤ (decodeSignedSmallInteger oop).toNat ↔ (decodeSignedSmallInteger oop).toInt < 0 := by
  have hshift : (decodeSignedSmallInteger oop).toInt = (BitVec.ofNat 64 oop).toInt / 2 ^ 3 := by
    rw [decodeSignedSmallInteger, BitVec.toInt_sshiftRight, Int.shiftRight_eq_div_pow]
    rfl
  have hlow := (BitVec.ofNat 64 oop).le_toInt
  have hhigh := (BitVec.ofNat 64 oop).toInt_lt
  have hlt := (decodeSignedSmallInteger oop).isLt
  rw [BitVec.toInt_eq_toNat_cond] at hshift ⊢
  split_ifs at hshift ⊢
  all_goals omega

/-- **A call of `basicNew:` is the same on both layouts** unless its argument is a negative integer
and its receiver can make objects. -/
theorem agree_iff {call : PrimitiveCall} {w : World} (h : LaidOut pointers bytes w.memory m)
    (hreceiver : call.receiver ∈ pointers)
    (hfield : Field.format < w.memory.slotCount call.receiver)
    (hsize : w.memory.heapSize < 2 ^ 62) :
    Agree pointers bytes call w m ↔ ∀ argument ∈ call.oopArguments.head?,
      oopIsSmallInteger argument → (decodeSignedSmallInteger argument).toInt < 0 →
      call.receiver = nilOop ∨ ObjectFormat.mixedObject ≤ m.instanceFormat call.receiver := by
  rw [Agree, primitiveBasicNewWithSize, behaviorBasicNewWithSize]
  cases call.oopArguments with
  | nil => simp
  | cons argument rest =>
    simp only [List.head?_cons, Option.mem_some_iff, forall_eq', ← two_pow_le_decode_iff]
    by_cases hinteger : oopIsSmallInteger argument
    · simp only [hinteger, not_true, if_false, forall_true_left]
      rcases Nat.lt_or_ge (decodeSignedSmallInteger argument).toNat (2 ^ 60) with hv | hv
      · -- no size wraps
        refine iff_of_true ?_ fun hwraps => absurd hwraps (Nat.not_le.mpr hv)
        simp only [Nat.not_le.mpr hv, if_false]
        rcases h.basicNew hreceiver hfield hv hsize with ⟨hnone, hnone'⟩ |
          ⟨o, a', m', pointers', bytes', hnew, hnew', hpointers, hbytes, -, hlaid⟩
        · rw [hnone, hnone']
          rfl
        · rw [hnew, hnew']
          exact ⟨a', pointers', bytes', rfl, hpointers, hbytes, hlaid⟩
      · simp only [hv, if_true, forall_true_left]
        have hnone := m.basicNew_eq_none_iff call.receiver (decodeSignedSmallInteger argument).toNat
        cases hnew : m.basicNew call.receiver (decodeSignedSmallInteger argument).toNat with
        | none => exact iff_of_true trivial (hnone.mp hnew)
        | some created =>
          refine iff_of_false ?_ fun hbad => ?_
          · rintro ⟨_, _, _, hfault, -⟩
            cases hfault
          · rw [hnone.mpr hbad] at hnew
            cases hnew
    · simp only [hinteger, not_false_eq_true, if_true, false_implies, iff_true]
      exact ⟨w.memory, pointers, bytes, rfl, Set.Subset.rfl, Set.Subset.rfl, h⟩

end LaidOut

end

end ObjectMemory

end SlvmNative
