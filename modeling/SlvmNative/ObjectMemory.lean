import SlvmNative.KernelClasses
import Mathlib.Data.Set.Basic
import Mathlib.Logic.Function.Basic

/-!
# Object memory

The memory the runtime's C code works on, one component for each way it is accessed: the words of
the pre-headers, the headers, the slots of pointer objects and the bytes of byte objects. Objects
are named by the address of their header. Allocation hands out the next 16-aligned block of the
compacting heap and sizes are unbounded natural numbers; `FlatMemory` has the same allocation on
one array of 64-bit words with wrapping arithmetic, and `ObjectLayout` relates the two.

## Frames

Every operation on object memory comes with a `Frame`: up to a limit `L` below which the objects
of its caller live, it changed no header, no byte and no pre-header, and no slot outside a given
set of cells, pairs of an object and a slot index. Frames compose, and everything the collections
read survives one.

## Main definitions

* `ObjectMemory`, `ObjectMemory.basicNew`, `ObjectMemory.basicSize`
* `ObjectMemory.Frame` — what an operation left alone
* `ObjectMemory.KernelLoaded`, `KernelIntact` — the static objects, at the start and ever after

## Main results

* `ObjectMemory.basicNew_pointers`, `basicNew_bytes` — what allocation returns
-/

namespace SlvmNative

/-- The state of object memory. -/
structure ObjectMemory where
  /-- The first word of a pre-header, by its address: forwarding pointer and big-object flag. -/
  forwardingWord : ℕ → ℕ
  /-- The last word of a big pre-header, by its address. -/
  sizeWord : ℕ → ℕ
  /-- The header at an address. -/
  header : ℕ → ObjectHeader
  /-- The slots of an object. -/
  slot : ℕ → ℕ → ℕ
  /-- The bytes of an object. -/
  byte : ℕ → ℕ → UInt8
  /-- Where the compacting heap starts. -/
  heapStart : ℕ
  /-- How many bytes of the compacting heap are in use. -/
  heapSize : ℕ
  /-- The heap is mapped, so it starts at a page. -/
  heapStart_aligned : heapStart % 4096 = 0

namespace ObjectMemory

/-! ### Accessors -/

/-- Store into a slot. -/
def setSlot (m : ObjectMemory) (o i v : ℕ) : ObjectMemory :=
  { m with slot := Function.update m.slot o (Function.update (m.slot o) i v) }

/-- Replace a header. -/
def setHeader (m : ObjectMemory) (o : ℕ) (header : ObjectHeader) : ObjectMemory :=
  { m with header := Function.update m.header o header }

/-- Store the first word of a pre-header. -/
def setForwardingWord (m : ObjectMemory) (a v : ℕ) : ObjectMemory :=
  { m with forwardingWord := Function.update m.forwardingWord a v }

/-- Store a byte. -/
def setByte (m : ObjectMemory) (o i : ℕ) (v : UInt8) : ObjectMemory :=
  { m with byte := Function.update m.byte o (Function.update (m.byte o) i v) }

/-- The loop that stores one value into the first `n` slots. -/
def fillSlots (m : ObjectMemory) (o n v : ℕ) : ObjectMemory :=
  { m with slot := Function.update m.slot o fun i => if i < n then v else m.slot o i }

/-- `memset` of the first `n` bytes to zero. -/
def clearBytes (m : ObjectMemory) (o n : ℕ) : ObjectMemory :=
  { m with byte := Function.update m.byte o fun i => if i < n then 0 else m.byte o i }

/-- The end of the used part of the compacting heap. -/
def limit (m : ObjectMemory) : ℕ := m.heapStart + m.heapSize

section Accessors

variable (m : ObjectMemory) (o i v : ℕ)

@[simp] theorem setSlot_header : (m.setSlot o i v).header = m.header := rfl
@[simp] theorem setSlot_byte : (m.setSlot o i v).byte = m.byte := rfl
@[simp] theorem setSlot_sizeWord : (m.setSlot o i v).sizeWord = m.sizeWord := rfl
@[simp] theorem setSlot_forwardingWord : (m.setSlot o i v).forwardingWord = m.forwardingWord := rfl
@[simp] theorem setSlot_limit : (m.setSlot o i v).limit = m.limit := rfl
@[simp] theorem setSlot_heapStart : (m.setSlot o i v).heapStart = m.heapStart := rfl

@[simp] theorem setSlot_slot_self : (m.setSlot o i v).slot o i = v := by
  simp [setSlot]

theorem setSlot_slot_of_ne {p : ℕ} (h : p ≠ o) : (m.setSlot o i v).slot p = m.slot p :=
  Function.update_of_ne h _ _

theorem setSlot_slot_of_ne_cell {p j : ℕ} (h : (p, j) ≠ (o, i)) :
    (m.setSlot o i v).slot p j = m.slot p j := by
  by_cases hp : p = o
  · subst hp
    have hj : j ≠ i := fun hj => h (by rw [hj])
    simp [setSlot, Function.update_of_ne hj]
  · rw [setSlot_slot_of_ne _ _ _ _ hp]

theorem setSlot_slot_of_ne_index {j : ℕ} (h : j ≠ i) (p : ℕ) :
    (m.setSlot o i v).slot p j = m.slot p j :=
  m.setSlot_slot_of_ne_cell _ _ _ fun hc => h (Prod.mk.inj hc).2

@[simp] theorem setHeader_header_self (header : ObjectHeader) :
    (m.setHeader o header).header o = header :=
  Function.update_self ..

theorem setHeader_header_of_ne {p : ℕ} (h : p ≠ o) (header : ObjectHeader) :
    (m.setHeader o header).header p = m.header p :=
  Function.update_of_ne h _ _

@[simp] theorem fillSlots_header (n : ℕ) : (m.fillSlots o n v).header = m.header := rfl

@[simp] theorem clearBytes_header (n : ℕ) : (m.clearBytes o n).header = m.header := rfl

theorem fillSlots_slot_of_lt {n : ℕ} (h : i < n) : (m.fillSlots o n v).slot o i = v := by
  simp [fillSlots, h]

theorem clearBytes_byte_of_lt {n : ℕ} (h : i < n) : (m.clearBytes o n).byte o i = 0 := by
  simp [clearBytes, h]

/-- The slots of one object after a store into it. -/
theorem setSlot_slot_same : (m.setSlot o i v).slot o = Function.update (m.slot o) i v :=
  Function.update_self ..

end Accessors

/-! ### Sizes and hashes -/

/-- `slvm_basicSize`. The size of a small object is computed with `unsigned int`. -/
def basicSize (m : ObjectMemory) (object : ℕ) : ℕ :=
  if oopIsImmediate object then 0
  else
    let header := m.header object
    let format := header.objectFormat
    if header.slotCount = 255 then
      if format ≥ ObjectFormat.mixedObject then
        unsignedSub 64 ((m.sizeWord (object - 8) &&& 0xFFFFFFFF) * 8) (spurFormatExtraSize format)
      else
        unsignedSub 64 (m.sizeWord (object - 8) * spurFormatMultiplier format)
          (spurFormatExtraSize format)
    else
      unsignedSub 32 (header.slotCount * spurFormatMultiplier format) (spurFormatExtraSize format)

/-- `slvm_identityHash` -/
def identityHash (m : ObjectMemory) (oop : ℕ) : ℕ :=
  if oopIsImmediate oop then oop >>> 3 else (m.header oop).identityHash

/-- `slvm_getClassIndexFromOop` -/
def getClassIndexFromOop (m : ObjectMemory) (oop : ℕ) : ℕ :=
  if oopIsPointers oop then (m.header oop).classIndex else oop &&& 7

/-! ### Allocation -/

/-- `slvm_StackHeap_allocate` on the compacting heap, for the alignment of objects. -/
def allocate (m : ObjectMemory) (size : ℕ) : ℕ × ObjectMemory :=
  let offset := (m.heapSize + 15) / 16 * 16
  (m.heapStart + offset, { m with heapSize := offset + size })

/-- `slvm_spur_instantiate_object` -/
def instantiateObject (m : ObjectMemory) (slotCount : ℕ) : ℕ × ObjectMemory :=
  let preheaderSize := if slotCount ≥ 255 then 24 else 8
  let (rawResult, m) := m.allocate (preheaderSize + 8 + slotCount * 8)
  let m : ObjectMemory :=
    if slotCount ≥ 255 then
      { m with
        forwardingWord := Function.update m.forwardingWord rawResult 1
        sizeWord := Function.update m.sizeWord (rawResult + 16) slotCount }
    else { m with forwardingWord := Function.update m.forwardingWord rawResult 0 }
  let result := rawResult + preheaderSize
  (result, m.setHeader result
    (ObjectHeader.ofFields 0 0 (result >>> 4) (if slotCount ≥ 255 then 255 else slotCount)))

/-- The number of slots `slvm_Behavior_basicNew` adds for `variableSize` elements of a format,
and the size of an element. -/
def extraSlots (format variableSize : ℕ) : ℕ × ℕ :=
  if format = ObjectFormat.indexable64 then (variableSize, 8)
  else if format = ObjectFormat.indexable32 then ((variableSize * 4 + 7) / 4, 4)
  else if format = ObjectFormat.indexable16 then ((variableSize * 2 + 8 - 1) / 8, 2)
  else if format = ObjectFormat.indexable8 then ((variableSize + 8 - 1) / 8, 1)
  else (variableSize, 8)

/-- `slvm_Behavior_basicNew` -/
def basicNew [KernelImage] (m : ObjectMemory) (behavior variableSize : ℕ) :
    Option (ℕ × ObjectMemory) :=
  let format := decodeFormat (m.slot behavior Field.format)
  let fixedSlotCount := decodeFixedSize (m.slot behavior Field.format)
  if behavior = nilOop ∨ ObjectFormat.mixedObject ≤ format then none
  else
    let (extraSlotCount, elementSize) := extraSlots format variableSize
    -- Extra padding elements are encoded in the object format.
    let remainingSize := extraSlotCount * 8 - variableSize * elementSize
    let slotCount := fixedSlotCount + extraSlotCount
    let (result, m') := m.instantiateObject slotCount
    let created := m'.header result
    let m' := m'.setHeader result (ObjectHeader.ofFields (m.header behavior).identityHash
      (format + remainingSize) created.identityHash created.slotCount)
    if format < ObjectFormat.indexable64 then some (result, m'.fillSlots result slotCount nilOop)
    else some (result, m'.clearBytes result (slotCount * 8))

/-- `SLVM_KNEW(className, extraSize)` -/
def kernelNew [KernelImage] (m : ObjectMemory) (c : KernelClass) (extraSize : ℕ) :
    Option (ℕ × ObjectMemory) :=
  m.basicNew (kernelClass c) extraSize

/-! ### Frames -/

/-- Below `L`, the step from `m` to `m'` changed no header, no byte and no pre-header, and no slot
outside the cells `F`. -/
structure Frame (L : ℕ) (F : Set (ℕ × ℕ)) (m m' : ObjectMemory) : Prop where
  heapStart : m'.heapStart = m.heapStart
  limit_le : m.limit ≤ m'.limit
  header : ∀ o < L, m'.header o = m.header o
  byte : ∀ o < L, m'.byte o = m.byte o
  sizeWord : ∀ a < L, m'.sizeWord a = m.sizeWord a
  forwardingWord : ∀ a < L, m'.forwardingWord a = m.forwardingWord a
  slot : ∀ o < L, ∀ i, (o, i) ∉ F → m'.slot o i = m.slot o i

/-- An oop that no allocation can collide with: an immediate, or the address of an object below
the end of the heap. -/
def Live (m : ObjectMemory) (oop : ℕ) : Prop := oopIsImmediate oop ∨ oop < m.limit

namespace Frame

variable {L : ℕ} {F G : Set (ℕ × ℕ)} {m m₁ m₂ : ObjectMemory}

theorem refl (L : ℕ) (F : Set (ℕ × ℕ)) (m : ObjectMemory) : Frame L F m m :=
  ⟨rfl, Nat.le_refl _, fun _ _ => rfl, fun _ _ => rfl, fun _ _ => rfl, fun _ _ => rfl,
    fun _ _ _ _ => rfl⟩

theorem trans (h₁ : Frame L F m m₁) (h₂ : Frame L F m₁ m₂) : Frame L F m m₂ where
  heapStart := h₂.heapStart.trans h₁.heapStart
  limit_le := h₁.limit_le.trans h₂.limit_le
  header o ho := (h₂.header o ho).trans (h₁.header o ho)
  byte o ho := (h₂.byte o ho).trans (h₁.byte o ho)
  sizeWord a ha := (h₂.sizeWord a ha).trans (h₁.sizeWord a ha)
  forwardingWord a ha := (h₂.forwardingWord a ha).trans (h₁.forwardingWord a ha)
  slot o ho i hF := (h₂.slot o ho i hF).trans (h₁.slot o ho i hF)

/-- A frame holds for a smaller limit, and for any set that has the changed cells below it. -/
theorem mono {L' : ℕ} (h : Frame L' F m m₁) (hL : L ≤ L')
    (hF : ∀ o < L, ∀ i, (o, i) ∈ F → (o, i) ∈ G) : Frame L G m m₁ where
  heapStart := h.heapStart
  limit_le := h.limit_le
  header o ho := h.header o (by omega)
  byte o ho := h.byte o (by omega)
  sizeWord a ha := h.sizeWord a (by omega)
  forwardingWord a ha := h.forwardingWord a (by omega)
  slot o ho i hG := h.slot o (by omega) i fun hoF => hG (hF o ho i hoF)

theorem setSlot (L : ℕ) (m : ObjectMemory) {o i : ℕ} (ho : (o, i) ∈ F ∨ L ≤ o) (v : ℕ) :
    Frame L F m (m.setSlot o i v) where
  heapStart := rfl
  limit_le := Nat.le_refl _
  header _ _ := rfl
  byte _ _ := rfl
  sizeWord _ _ := rfl
  forwardingWord _ _ := rfl
  slot p hp j hF := by
    refine setSlot_slot_of_ne_cell _ _ _ _ fun hcell => ?_
    rcases ho with h | h
    · exact hF (hcell ▸ h)
    · obtain ⟨rfl, -⟩ := Prod.mk.inj hcell
      omega

/-- A store changes its cell only. -/
theorem setSlot_cell (L : ℕ) (m : ObjectMemory) (o i v : ℕ) :
    Frame L {(o, i)} m (m.setSlot o i v) := by
  have hmem : (o, i) ∈ ({(o, i)} : Set (ℕ × ℕ)) := rfl
  exact Frame.setSlot L m (Or.inl hmem) v

/-- A store into an object changes its cells only. -/
theorem setSlot_object (L : ℕ) (m : ObjectMemory) (o i v : ℕ) :
    Frame L {p | p.1 = o} m (m.setSlot o i v) := by
  have hmem : (o, i) ∈ {p : ℕ × ℕ | p.1 = o} := rfl
  exact Frame.setSlot L m (Or.inl hmem) v

theorem setHeader (L : ℕ) (m : ObjectMemory) {o : ℕ} (ho : L ≤ o) (header : ObjectHeader) :
    Frame L F m (m.setHeader o header) :=
  ⟨rfl, Nat.le_refl _, fun _ _ => Function.update_of_ne (by omega) _ _, fun _ _ => rfl,
    fun _ _ => rfl, fun _ _ => rfl, fun _ _ _ _ => rfl⟩

theorem fillSlots (L : ℕ) (m : ObjectMemory) {o : ℕ} (ho : L ≤ o) (n v : ℕ) :
    Frame L F m (m.fillSlots o n v) :=
  ⟨rfl, Nat.le_refl _, fun _ _ => rfl, fun _ _ => rfl, fun _ _ => rfl, fun _ _ => rfl,
    fun p hp _ _ => congrFun (@Function.update_of_ne _ _ _ p o (by omega) _ _) _⟩

theorem clearBytes (L : ℕ) (m : ObjectMemory) {o : ℕ} (ho : L ≤ o) (n : ℕ) :
    Frame L F m (m.clearBytes o n) :=
  ⟨rfl, Nat.le_refl _, fun _ _ => rfl, fun _ _ => Function.update_of_ne (by omega) _ _,
    fun _ _ => rfl, fun _ _ => rfl, fun _ _ _ _ => rfl⟩

theorem setByte (L : ℕ) (m : ObjectMemory) {o : ℕ} (ho : L ≤ o) (i : ℕ) (v : UInt8) :
    Frame L F m (m.setByte o i v) :=
  ⟨rfl, Nat.le_refl _, fun _ _ => rfl, fun _ _ => Function.update_of_ne (by omega) _ _,
    fun _ _ => rfl, fun _ _ => rfl, fun _ _ _ _ => rfl⟩

theorem basicSize (h : Frame L F m m₁) {o : ℕ} (ho : o < L) : m₁.basicSize o = m.basicSize o := by
  simp only [ObjectMemory.basicSize, h.header o ho, h.sizeWord (o - 8) (by omega)]

theorem identityHash (h : Frame L F m m₁) {k : ℕ} (hk : oopIsImmediate k ∨ k < L) :
    m₁.identityHash k = m.identityHash k := by
  simp only [ObjectMemory.identityHash]
  split_ifs with hi
  · rfl
  · rw [h.header k (hk.resolve_left hi)]

theorem live (h : Frame L F m m₁) {k : ℕ} (hk : m.Live k) : m₁.Live k :=
  hk.imp_right fun hlt => hlt.trans_le h.limit_le

end Frame

/-! ### What allocation returns -/

/-- The outcome of `instantiateObject`. -/
structure Instantiated (m : ObjectMemory) (slotCount o : ℕ) (m' : ObjectMemory) : Prop where
  frame : Frame m.limit ∅ m m'
  limit_lt : m.limit < o
  lt_limit : o < m'.limit
  aligned : o % 16 = 8
  header : m'.header o =
    ObjectHeader.ofFields 0 0 (o >>> 4) (if slotCount ≥ 255 then 255 else slotCount)
  sizeWord : 255 ≤ slotCount → m'.sizeWord (o - 8) = slotCount
  slot : m'.slot = m.slot
  byte : m'.byte = m.byte

theorem instantiateObject_of_ge (m : ObjectMemory) {slotCount : ℕ} (h : 255 ≤ slotCount) :
    m.instantiateObject slotCount =
      (m.heapStart + (m.heapSize + 15) / 16 * 16 + 24,
        { m with
          heapSize := (m.heapSize + 15) / 16 * 16 + (24 + 8 + slotCount * 8)
          forwardingWord :=
            Function.update m.forwardingWord (m.heapStart + (m.heapSize + 15) / 16 * 16) 1
          sizeWord := Function.update m.sizeWord
            (m.heapStart + (m.heapSize + 15) / 16 * 16 + 16) slotCount
          header := Function.update m.header (m.heapStart + (m.heapSize + 15) / 16 * 16 + 24)
            (ObjectHeader.ofFields 0 0
              ((m.heapStart + (m.heapSize + 15) / 16 * 16 + 24) >>> 4) 255) }) := by
  simp only [instantiateObject, allocate, setHeader, ge_iff_le, h, if_true]

theorem instantiateObject_of_lt (m : ObjectMemory) {slotCount : ℕ} (h : slotCount < 255) :
    m.instantiateObject slotCount =
      (m.heapStart + (m.heapSize + 15) / 16 * 16 + 8,
        { m with
          heapSize := (m.heapSize + 15) / 16 * 16 + (8 + 8 + slotCount * 8)
          forwardingWord :=
            Function.update m.forwardingWord (m.heapStart + (m.heapSize + 15) / 16 * 16) 0
          header := Function.update m.header (m.heapStart + (m.heapSize + 15) / 16 * 16 + 8)
            (ObjectHeader.ofFields 0 0
              ((m.heapStart + (m.heapSize + 15) / 16 * 16 + 8) >>> 4) slotCount) }) := by
  simp only [instantiateObject, allocate, setHeader, ge_iff_le, Nat.not_le.mpr h, if_false]

theorem instantiateObject_spec (m : ObjectMemory) (slotCount : ℕ) :
    Instantiated m slotCount (m.instantiateObject slotCount).1
      (m.instantiateObject slotCount).2 := by
  have hstart := m.heapStart_aligned
  have hlim : m.limit = m.heapStart + m.heapSize := rfl
  rcases Nat.lt_or_ge slotCount 255 with h | h
  · rw [instantiateObject_of_lt m h]
    refine ⟨⟨rfl, ?_, fun o ho => ?_, fun _ _ => rfl, fun _ _ => rfl, fun a ha => ?_,
      fun _ _ _ _ => rfl⟩, ?_, ?_, ?_, ?_, fun h' => ?_, rfl, rfl⟩
    · simp only [limit]; omega
    · exact Function.update_of_ne (by omega) _ _
    · exact Function.update_of_ne (by omega) _ _
    · simp only; omega
    · simp only [limit]; omega
    · simp only; omega
    · simp [Nat.not_le.mpr h]
    · omega
  · rw [instantiateObject_of_ge m h]
    refine ⟨⟨rfl, ?_, fun o ho => ?_, fun _ _ => rfl, fun a ha => ?_, fun a ha => ?_,
      fun _ _ _ _ => rfl⟩, ?_, ?_, ?_, ?_, fun _ => ?_, rfl, rfl⟩
    · simp only [limit]; omega
    · exact Function.update_of_ne (by omega) _ _
    · exact Function.update_of_ne (by omega) _ _
    · exact Function.update_of_ne (by omega) _ _
    · simp only; omega
    · simp only [limit]; omega
    · simp only; omega
    · simp [h]
    · simp only
      rw [show m.heapStart + (m.heapSize + 15) / 16 * 16 + 24 - 8
        = m.heapStart + (m.heapSize + 15) / 16 * 16 + 16 by omega, Function.update_self]

/-- What every successful allocation establishes about the new object. -/
structure Allocated (m : ObjectMemory) (classIndex size o : ℕ) (m' : ObjectMemory) : Prop where
  frame : Frame m.limit ∅ m m'
  limit_lt : m.limit < o
  lt_limit : o < m'.limit
  aligned : o % 16 = 8
  classIndex : (m'.header o).classIndex = classIndex
  identityHash : (m'.header o).identityHash = (o >>> 4) % 2 ^ 22
  basicSize : m'.basicSize o = size

theorem Allocated.pointers {m m' : ObjectMemory} {c s o : ℕ} (h : Allocated m c s o m') :
    oopIsPointers o :=
  oopIsPointers_iff.mpr (by have := h.aligned; omega)

theorem Allocated.not_immediate {m m' : ObjectMemory} {c s o : ℕ} (h : Allocated m c s o m') :
    ¬ oopIsImmediate o :=
  not_oopIsImmediate.mpr h.pointers

theorem Allocated.fillSlots {m m' : ObjectMemory} {classIndex size o : ℕ}
    (h : Allocated m classIndex size o m') (n v : ℕ) :
    Allocated m classIndex size o (m'.fillSlots o n v) :=
  ⟨h.frame.trans (Frame.fillSlots m.limit m' h.limit_lt.le n v), h.limit_lt, h.lt_limit, h.aligned,
    h.classIndex, h.identityHash, h.basicSize⟩

/-- The size recorded for a new object of `n` slots whose format field is `format`. -/
theorem Instantiated.basicSize {m m' m'' : ObjectMemory} {n o format : ℕ}
    (h : Instantiated m n o m') (hsize : m''.sizeWord = m'.sizeWord) {c i : ℕ}
    (hheader : m''.header o = ObjectHeader.ofFields c format i (m'.header o).slotCount)
    (hformat : format < ObjectFormat.mixedObject)
    (hextra : spurFormatExtraSize format ≤ n * spurFormatMultiplier format) :
    m''.basicSize o = n * spurFormatMultiplier format - spurFormatExtraSize format := by
  have hptr : ¬ oopIsImmediate o :=
    not_oopIsImmediate.mpr (oopIsPointers_iff.mpr (by have := h.aligned; omega))
  have hfmod : format % 2 ^ 5 = format := Nat.mod_eq_of_lt (by
    simp only [ObjectFormat.mixedObject] at hformat; omega)
  rw [ObjectMemory.basicSize, if_neg hptr]
  simp only [hheader, h.header, ObjectHeader.ofFields_slotCount, ObjectHeader.ofFields_objectFormat,
    hfmod]
  rcases Nat.lt_or_ge n 255 with hn | hn
  · rw [if_neg (Nat.not_le.mpr hn), if_neg (by omega), Nat.mod_mod, Nat.mod_eq_of_lt (by omega),
      unsignedSub_of_le _ hextra]
  · rw [if_pos hn, if_pos (by decide), if_neg (Nat.not_le.mpr hformat), hsize, h.sizeWord hn,
      unsignedSub_of_le _ hextra]

theorem extraSlots_pointers {format : ℕ} (h : format < ObjectFormat.indexable64) (v : ℕ) :
    extraSlots format v = (v, 8) := by
  simp only [ObjectFormat.indexable64] at h
  simp only [extraSlots, ObjectFormat.indexable64, ObjectFormat.indexable32,
    ObjectFormat.indexable16, ObjectFormat.indexable8]
  split_ifs <;> first | rfl | omega

variable [KernelImage]

/-- Whatever the format, a successful allocation returns a new object of the behavior's index. -/
theorem basicNew_allocated {m m' : ObjectMemory} {b v o : ℕ} (h : m.basicNew b v = some (o, m')) :
    Allocated m (m.header b).identityHash (m'.basicSize o) o m' := by
  simp only [basicNew] at h
  generalize decodeFixedSize (m.slot b Field.format) +
    (extraSlots (decodeFormat (m.slot b Field.format)) v).1 = slotCount at h
  have hinst := instantiateObject_spec m slotCount
  generalize m.instantiateObject slotCount = created at h hinst
  obtain ⟨o₁, m₁⟩ := created
  have hlim : m.limit ≤ o₁ := hinst.limit_lt.le
  have hclass : (m.header b).identityHash % 2 ^ 22 = (m.header b).identityHash :=
    Nat.mod_eq_of_lt (m.header b).identityHash_lt
  have hhash : (m₁.header o₁).identityHash % 2 ^ 22 = (o₁ >>> 4) % 2 ^ 22 := by
    rw [hinst.header]
    exact Nat.mod_mod _ _
  split_ifs at h with hbad hformat
  all_goals obtain ⟨rfl, rfl⟩ := Prod.mk.inj (Option.some.inj h)
  · refine ⟨?_, hinst.limit_lt, hinst.lt_limit, hinst.aligned, ?_, ?_, rfl⟩
    · exact hinst.frame.trans ((Frame.setHeader _ _ hlim _).trans (Frame.fillSlots _ _ hlim _ _))
    · rw [fillSlots_header, setHeader_header_self]
      exact hclass
    · rw [fillSlots_header, setHeader_header_self]
      exact hhash
  · refine ⟨?_, hinst.limit_lt, hinst.lt_limit, hinst.aligned, ?_, ?_, rfl⟩
    · exact hinst.frame.trans ((Frame.setHeader _ _ hlim _).trans (Frame.clearBytes _ _ hlim _))
    · rw [clearBytes_header, setHeader_header_self]
      exact hclass
    · rw [clearBytes_header, setHeader_header_self]
      exact hhash

/-- The slot count in the header of a new object. -/
theorem basicNew_slotCount {m m' : ObjectMemory} {b v o : ℕ} (h : m.basicNew b v = some (o, m')) :
    (m'.header o).slotCount = min 255 (decodeFixedSize (m.slot b Field.format) +
      (extraSlots (decodeFormat (m.slot b Field.format)) v).1) := by
  simp only [basicNew] at h
  generalize decodeFixedSize (m.slot b Field.format) +
    (extraSlots (decodeFormat (m.slot b Field.format)) v).1 = slotCount at h ⊢
  have hinst := instantiateObject_spec m slotCount
  generalize m.instantiateObject slotCount = created at h hinst
  obtain ⟨o₁, m₁⟩ := created
  have hcount : (if slotCount ≥ 255 then 255 else slotCount) % 2 ^ 8 = min 255 slotCount := by
    split <;> omega
  have hheader : (m₁.header o₁).slotCount % 2 ^ 8 = min 255 slotCount := by
    rw [hinst.header, ObjectHeader.ofFields_slotCount, Nat.mod_mod, hcount]
  split_ifs at h with hbad hformat
  all_goals obtain ⟨rfl, rfl⟩ := Prod.mk.inj (Option.some.inj h)
  · rw [fillSlots_header, setHeader_header_self, ObjectHeader.ofFields_slotCount, hheader]
  · rw [clearBytes_header, setHeader_header_self, ObjectHeader.ofFields_slotCount, hheader]

/-- **Allocation of pointer objects.** The object has all its named and indexed slots, each nil. -/
theorem basicNew_pointers (m : ObjectMemory) {b : ℕ} (hb : b ≠ nilOop)
    (hformat : decodeFormat (m.slot b Field.format) < ObjectFormat.indexable64) (v : ℕ) :
    ∃ o m', m.basicNew b v = some (o, m') ∧
      Allocated m (m.header b).identityHash (decodeFixedSize (m.slot b Field.format) + v) o m' ∧
      (m'.header o).objectFormat = decodeFormat (m.slot b Field.format) ∧
      ∀ i < decodeFixedSize (m.slot b Field.format) + v, m'.slot o i = nilOop := by
  have hextra := extraSlots_pointers hformat v
  generalize hfmt : decodeFormat (m.slot b Field.format) = format at *
  generalize hfix : decodeFixedSize (m.slot b Field.format) = fixed
  have hinst := instantiateObject_spec m (fixed + v)
  generalize hr : m.instantiateObject (fixed + v) = r at hinst
  obtain ⟨o, m₁⟩ := r
  have hlim : m.limit ≤ o := hinst.limit_lt.le
  have hmixed : format < ObjectFormat.mixedObject := lt_trans hformat (by decide)
  have hf32 : format % 2 ^ 5 = format := Nat.mod_eq_of_lt (lt_trans hformat (by decide))
  have hnew : m.basicNew b v = some (o, (m₁.setHeader o
      (ObjectHeader.ofFields (m.header b).identityHash format (m₁.header o).identityHash
        (m₁.header o).slotCount)).fillSlots o (fixed + v) nilOop) := by
    simp only [basicNew, hfmt, hfix, hextra, hr, hb, Nat.not_le.mpr hmixed, or_self, if_false,
      Nat.sub_self, Nat.add_zero, hformat, if_true]
  refine ⟨o, _, hnew, ⟨?_, hinst.limit_lt, hinst.lt_limit, hinst.aligned, ?_, ?_, ?_⟩, ?_,
    fun i hi => ?_⟩
  · exact hinst.frame.trans ((Frame.setHeader _ _ hlim _).trans (Frame.fillSlots _ _ hlim _ _))
  · rw [fillSlots_header, setHeader_header_self]
    exact Nat.mod_eq_of_lt (m.header b).identityHash_lt
  · rw [fillSlots_header, setHeader_header_self, hinst.header]
    exact Nat.mod_mod _ _
  · refine (hinst.basicSize ?_ (setHeader_header_self ..) hmixed ?_).trans ?_
    · rfl
    · rw [spurFormatExtraSize_pointers hformat]
      exact Nat.zero_le _
    · rw [spurFormatMultiplier_pointers hformat, spurFormatExtraSize_pointers hformat]
      omega
  · rw [fillSlots_header, setHeader_header_self]
    exact hf32
  · exact fillSlots_slot_of_lt _ _ _ _ hi

/-- **Allocation of byte objects.** The object has the requested number of bytes, each zero. -/
theorem basicNew_bytes (m : ObjectMemory) {b : ℕ} (hb : b ≠ nilOop)
    (hformat : decodeFormat (m.slot b Field.format) = ObjectFormat.indexable8)
    (hfixed : decodeFixedSize (m.slot b Field.format) = 0) (v : ℕ) :
    ∃ o m', m.basicNew b v = some (o, m') ∧ Allocated m (m.header b).identityHash v o m' ∧
      m'.slot = m.slot ∧ ∀ i < v, m'.byte o i = 0 := by
  have hextra : extraSlots ObjectFormat.indexable8 v = ((v + 8 - 1) / 8, 1) := rfl
  generalize hn : (v + 8 - 1) / 8 = n at hextra
  have hpad8 : n * 8 - v * 1 < 8 := by omega
  have hinst := instantiateObject_spec m n
  generalize hr : m.instantiateObject n = r at hinst
  obtain ⟨o, m₁⟩ := r
  have hlim : m.limit ≤ o := hinst.limit_lt.le
  generalize hpad : n * 8 - v * 1 = pad at *
  have hmixed : ObjectFormat.indexable8 + pad < ObjectFormat.mixedObject := by
    simp only [ObjectFormat.indexable8, ObjectFormat.mixedObject]; omega
  have hnew : m.basicNew b v = some (o, (m₁.setHeader o
      (ObjectHeader.ofFields (m.header b).identityHash (ObjectFormat.indexable8 + pad)
        (m₁.header o).identityHash (m₁.header o).slotCount)).clearBytes o (n * 8)) := by
    simp only [basicNew, hformat, hfixed, hextra, Nat.zero_add, hr, hb, hpad]
    rfl
  refine ⟨o, _, hnew, ⟨?_, hinst.limit_lt, hinst.lt_limit, hinst.aligned, ?_, ?_, ?_⟩, ?_,
    fun i hi => ?_⟩
  · exact hinst.frame.trans ((Frame.setHeader _ _ hlim _).trans (Frame.clearBytes _ _ hlim _))
  · rw [clearBytes_header, setHeader_header_self]
    exact Nat.mod_eq_of_lt (m.header b).identityHash_lt
  · rw [clearBytes_header, setHeader_header_self, hinst.header]
    exact Nat.mod_mod _ _
  · refine (hinst.basicSize ?_ (setHeader_header_self ..) hmixed ?_).trans ?_
    · rfl
    · rw [spurFormatMultiplier_bytes hpad8, spurFormatExtraSize_bytes hpad8]
      omega
    · rw [spurFormatMultiplier_bytes hpad8, spurFormatExtraSize_bytes hpad8]
      omega
  · exact hinst.slot
  · exact clearBytes_byte_of_lt _ _ _ (by omega)

/-! ### The static objects -/

/-- The headers the static objects are compiled with. -/
def staticHeader : StaticObject → ObjectHeader
  | .nil => ObjectHeader.ofFields KernelClass.UndefinedObject.index ObjectFormat.empty 0 0
  | .false => ObjectHeader.ofFields KernelClass.False.index ObjectFormat.empty 1 0
  | .true => ObjectHeader.ofFields KernelClass.True.index ObjectFormat.empty 2 0
  | .kernelClass c => ObjectHeader.ofFields c.metaIndex ObjectFormat.fixedSize c.index 14
  | .kernelMetaclass c =>
    ObjectHeader.ofFields KernelClass.Metaclass.index ObjectFormat.fixedSize c.metaIndex 9

/-- The slots the static objects are compiled with. -/
def staticSlot : StaticObject → ℕ → ℕ
  | .kernelClass c, i =>
    if i = Field.superclass then (c.info.superclass.map kernelClass).getD nilOop
    else if i = Field.format then encodeFormatAndFixedSize c.info.format c.info.fixedSize
    else nilOop
  | .kernelMetaclass c, i =>
    if i = Field.superclass then
      -- the metaclass hierarchy of `ProtoObject` goes on in `Class`
      (c.info.superclass.map kernelMetaclass).getD (kernelClass .Class)
    else if i = Field.format then encodeFormatAndFixedSize ObjectFormat.fixedSize 14
    else if i = Field.thisClass then kernelClass c
    else nilOop
  | _, _ => nilOop

/-- The runtime has just been loaded: the static objects are as compiled, and nothing of them is
in the range the heap grows into. -/
structure KernelLoaded (m : ObjectMemory) : Prop where
  header : ∀ o, m.header (KernelImage.address o) = staticHeader o
  slot : ∀ o, m.slot (KernelImage.address o) = staticSlot o
  lt_heapStart : ∀ o, KernelImage.address o < m.heapStart

/-- Memory with the static objects at their addresses, and nothing else. -/
def loadKernel (heapStart : ℕ) (h : heapStart % 4096 = 0) : ObjectMemory where
  forwardingWord _ := 0
  sizeWord _ := 0
  header a := ((KernelImage.objectAt a).map staticHeader).getD (ObjectHeader.ofFields 0 0 0 0)
  slot a := ((KernelImage.objectAt a).map staticSlot).getD fun _ => 0
  byte _ _ := 0
  heapStart := heapStart
  heapSize := 0
  heapStart_aligned := h

theorem loadKernel_loaded {heapStart : ℕ} (h : heapStart % 4096 = 0)
    (hlt : ∀ o, KernelImage.address o < heapStart) : KernelLoaded (loadKernel heapStart h) where
  header o := by simp [loadKernel]
  slot o := by simp [loadKernel]
  lt_heapStart := hlt

/-- What every allocation relies on: the headers of the static objects and the instance formats
of the kernel classes are as compiled, and the static objects are out of the way of the heap. -/
structure KernelIntact (m : ObjectMemory) : Prop where
  header : ∀ o, m.header (KernelImage.address o) = staticHeader o
  format : ∀ c, m.slot (kernelClass c) Field.format =
    encodeFormatAndFixedSize c.info.format c.info.fixedSize
  lt_limit : ∀ o, KernelImage.address o < m.limit

/-- What an allocation succeeds with, whatever class indices the kernel classes have. -/
structure KernelFormats (m : ObjectMemory) : Prop where
  format : ∀ c, m.slot (kernelClass c) Field.format =
    encodeFormatAndFixedSize c.info.format c.info.fixedSize
  lt_limit : ∀ o, KernelImage.address o < m.limit

theorem KernelIntact.formats {m : ObjectMemory} (h : KernelIntact m) : KernelFormats m :=
  ⟨h.format, h.lt_limit⟩

namespace KernelFormats

variable {m m' : ObjectMemory}

/-- The formats survive a step that stores into none of them. -/
theorem frame (h : KernelFormats m) {L : ℕ} {F : Set (ℕ × ℕ)} (hf : Frame L F m m')
    (hL : ∀ o, KernelImage.address o < L) (hF : ∀ c, (kernelClass c, Field.format) ∉ F) :
    KernelFormats m' where
  format c :=
    (hf.slot (kernelClass c) (hL (.kernelClass c)) Field.format (hF c)).trans (h.format c)
  lt_limit o := (h.lt_limit o).trans_le hf.limit_le

/-- The formats survive a store into a slot that is not a class format. -/
theorem setSlot (h : KernelFormats m) {o i v : ℕ} (hi : i ≠ Field.format) :
    KernelFormats (m.setSlot o i v) where
  format c := by rw [setSlot_slot_of_ne_index _ _ _ _ (Ne.symm hi)]; exact h.format c
  lt_limit := h.lt_limit

theorem decodeFormat_kernelClass (h : KernelFormats m) (c : KernelClass) :
    decodeFormat (m.slot (kernelClass c) Field.format) = c.info.format := by
  rw [h.format]
  exact decodeFormat_encode (c.format_lt.trans (by decide)) c.fixedSize_lt

theorem decodeFixedSize_kernelClass (h : KernelFormats m) (c : KernelClass) :
    decodeFixedSize (m.slot (kernelClass c) Field.format) = c.info.fixedSize := by
  rw [h.format]
  exact decodeFixedSize_encode c.fixedSize_lt

/-- `SLVM_KNEW` of a class with pointer instances, which get the class index it has now. -/
theorem kernelNew_pointers (h : KernelFormats m) {c : KernelClass}
    (hc : c.info.format < ObjectFormat.indexable64) (v : ℕ) :
    ∃ o m', m.kernelNew c v = some (o, m') ∧
      Allocated m (m.header (kernelClass c)).identityHash (c.info.fixedSize + v) o m' ∧
      (m'.header o).objectFormat = c.info.format ∧
      ∀ i < c.info.fixedSize + v, m'.slot o i = nilOop := by
  have hnew := basicNew_pointers m (kernelClass_ne_nilOop c)
    (by rw [h.decodeFormat_kernelClass]; exact hc) v
  rwa [h.decodeFormat_kernelClass, h.decodeFixedSize_kernelClass] at hnew

end KernelFormats

theorem KernelLoaded.intact {m : ObjectMemory} (h : KernelLoaded m) : KernelIntact m where
  header := h.header
  format c := by
    have hslot := h.slot (.kernelClass c)
    rw [kernelClass, hslot]
    rfl
  lt_limit o := (h.lt_heapStart o).trans_le (Nat.le_add_right _ _)

namespace KernelIntact

variable {m m' : ObjectMemory}

/-- The kernel survives a step that stores into no kernel class. -/
theorem frame (h : KernelIntact m) {L : ℕ} {F : Set (ℕ × ℕ)} (hf : Frame L F m m')
    (hL : ∀ o, KernelImage.address o < L) (hF : ∀ c, (kernelClass c, Field.format) ∉ F) :
    KernelIntact m' where
  header o := (hf.header _ (hL o)).trans (h.header o)
  format c :=
    (hf.slot (kernelClass c) (hL (.kernelClass c)) Field.format (hF c)).trans (h.format c)
  lt_limit o := (h.lt_limit o).trans_le hf.limit_le

/-- The kernel survives a store into a slot that is not a class format. -/
theorem setSlot (h : KernelIntact m) {o i v : ℕ} (hi : i ≠ Field.format) :
    KernelIntact (m.setSlot o i v) where
  header := h.header
  format c := by rw [setSlot_slot_of_ne_index _ _ _ _ (Ne.symm hi)]; exact h.format c
  lt_limit := h.lt_limit

theorem identityHash_kernelClass (h : KernelIntact m) (c : KernelClass) :
    (m.header (kernelClass c)).identityHash = c.index := by
  rw [kernelClass, h.header]
  exact Nat.mod_eq_of_lt (c.index_lt.trans (by decide))

theorem classIndex_kernelClass (h : KernelIntact m) (c : KernelClass) :
    (m.header (kernelClass c)).classIndex = c.metaIndex := by
  rw [kernelClass, h.header]
  exact Nat.mod_eq_of_lt (c.metaIndex_lt.trans (by decide))

theorem identityHash_kernelMetaclass (h : KernelIntact m) (c : KernelClass) :
    (m.header (kernelMetaclass c)).identityHash = c.metaIndex := by
  rw [kernelMetaclass, h.header]
  exact Nat.mod_eq_of_lt (c.metaIndex_lt.trans (by decide))

theorem classIndex_kernelMetaclass (h : KernelIntact m) (c : KernelClass) :
    (m.header (kernelMetaclass c)).classIndex = KernelClass.Metaclass.index := by
  rw [kernelMetaclass, h.header]
  rfl

theorem decodeFormat_kernelClass (h : KernelIntact m) (c : KernelClass) :
    decodeFormat (m.slot (kernelClass c) Field.format) = c.info.format :=
  h.formats.decodeFormat_kernelClass c

theorem decodeFixedSize_kernelClass (h : KernelIntact m) (c : KernelClass) :
    decodeFixedSize (m.slot (kernelClass c) Field.format) = c.info.fixedSize :=
  h.formats.decodeFixedSize_kernelClass c

/-- `SLVM_KNEW` of a class with pointer instances. -/
theorem kernelNew_pointers (h : KernelIntact m) {c : KernelClass}
    (hc : c.info.format < ObjectFormat.indexable64) (v : ℕ) :
    ∃ o m', m.kernelNew c v = some (o, m') ∧ Allocated m c.index (c.info.fixedSize + v) o m' ∧
      (m'.header o).objectFormat = c.info.format ∧
      ∀ i < c.info.fixedSize + v, m'.slot o i = nilOop := by
  have hnew := h.formats.kernelNew_pointers hc v
  rwa [h.identityHash_kernelClass] at hnew

/-- `SLVM_KNEW` of a class with byte instances. -/
theorem kernelNew_bytes (h : KernelIntact m) {c : KernelClass}
    (hc : c.info.format = ObjectFormat.indexable8) (hfix : c.info.fixedSize = 0) (v : ℕ) :
    ∃ o m', m.kernelNew c v = some (o, m') ∧ Allocated m c.index v o m' ∧ m'.slot = m.slot ∧
      ∀ i < v, m'.byte o i = 0 := by
  have hnew := basicNew_bytes m (kernelClass_ne_nilOop c)
    (by rw [h.decodeFormat_kernelClass, hc]) (by rw [h.decodeFixedSize_kernelClass, hfix]) v
  rwa [h.identityHash_kernelClass] at hnew

end KernelIntact

end ObjectMemory

end SlvmNative
