import SlvmNative.Library.StructLayout
import SlvmNative.HashedCollections
import Mathlib.Logic.Relation

/-!
# The layout of dictionaries

Where the fields of a dictionary are, and how many slots it gets, on the 32-bit and on the 64-bit
build. The class of a dictionary allocates the slots that `SLVM_SLOT_COUNT_OF_STRUCTURE` computes
from the structure of the class; the functions on dictionaries access all of them through
`SLVM_HashedCollection` and `SLVM_MethodDictionary`.

A run is a dictionary from its creation on, the calls on it in progress and any allocations in
between. It records each extent the heap handed out after the dictionary and each store to a field.
What a scan finds is left open, so a run stands for dictionaries with any contents and any keys;
sizes are unbounded, as nothing returns from filling an array that does not fit the address space.

## Main definitions

* `Build`, `DictionaryClass.slotCount` — the slots `slvm_Behavior_basicNew` allocates
* `DictionaryRun`, `DictionaryRun.Step` — the functions on a dictionary, store by store
* `DictionaryRun.InsideSlots`, `DictionaryRun.Separate` — what the stores should respect

## Main results

* `DictionaryClass.field_inside_slots` — structures that start with the base structure have room
* `DictionaryRun.insideSlots_and_separate_iff_of_run` — all but system dictionaries do
* `DictionaryRun.separate_iff_of_run` — on the 64-bit build padding hides the difference
-/

namespace SlvmNative

open Relation

/-! ### Structures -/

/-- `SLVM_SPUR_32` or `SLVM_SPUR_64` -/
inductive Build
  | spur32
  | spur64
  deriving DecidableEq

namespace Build

/-- `sizeof(SLVM_Oop)`, and of any pointer. -/
def wordSize : Build → ℕ
  | spur32 => 4
  | spur64 => 8

theorem wordSize_pos (b : Build) : 0 < b.wordSize := by
  cases b <;> decide

/-- An oop or a pointer. -/
def word (b : Build) : CType := ⟨b.wordSize, b.wordSize, b.wordSize_pos⟩

/-- `SLVM_ObjectHeader`: its bit-fields fill two `unsigned int`s. `SLVM_Object` adds nothing. -/
def objectHeader (_ : Build) : CType := ⟨8, 4, by decide⟩

/-- The members of `SLVM_HashedCollection_`: the base, `tally` and `array`. -/
def hashedCollectionMembers (b : Build) : List CType := [b.objectHeader, b.word, b.word]

/-- `SLVM_HashedCollection`, of which `SLVM_Dictionary` is another name. -/
def hashedCollection (b : Build) : CType := CType.ofMembers b.hashedCollectionMembers

/-- The members of `SLVM_MethodDictionary_`: the base and `keys`. -/
def methodDictionaryMembers (b : Build) : List CType := [b.hashedCollection, b.word]

/-- The members of `SLVM_SystemDictionary_`: `cachedClassNames` and `cachedNonClassNames`. There is
no base. -/
def systemDictionaryMembers (b : Build) : List CType := [b.word, b.word]

/-- The members of `SLVM_LookupKey`: the base and `key`. -/
def lookupKeyMembers (b : Build) : List CType := [b.objectHeader, b.word]

/-- The members of `SLVM_Association`: the base and `value`. -/
def associationMembers (b : Build) : List CType := [CType.ofMembers b.lookupKeyMembers, b.word]

/-- `SLVM_SLOT_COUNT_OF_STRUCTURE` -/
def slotCountOfStructure (b : Build) (layout : CType) : ℕ :=
  (layout.size - b.objectHeader.size + b.wordSize - 1) / b.wordSize

/-- The slots counted for a structure cover it. -/
theorem size_le_slotCountOfStructure (b : Build) (layout : CType) :
    layout.size ≤
      b.objectHeader.size + b.slotCountOfStructure layout * b.wordSize := by
  have hpos : 1 ≤ b.wordSize := b.wordSize_pos
  have hle := CType.le_alignUp (layout.size - b.objectHeader.size) hpos
  rw [CType.alignUp, ← Nat.add_sub_assoc hpos] at hle
  rw [slotCountOfStructure]
  omega

end Build

/-- The fields of a dictionary the runtime stores to. -/
inductive DictionaryField
  | tally
  | array
  | keys
  deriving DecidableEq

namespace DictionaryField

/-- The offset of a field, as the functions on dictionaries access it. -/
def offset (b : Build) : DictionaryField → ℕ
  | tally => CType.memberOffset 0 b.hashedCollectionMembers 1
  | array => CType.memberOffset 0 b.hashedCollectionMembers 2
  | keys => CType.memberOffset 0 b.methodDictionaryMembers 1

end DictionaryField

/-- The classes the runtime makes dictionaries of. -/
inductive DictionaryClass
  | Dictionary
  | SystemDictionary
  | MethodDictionary
  deriving DecidableEq

namespace DictionaryClass

/-- The structure that `SLVM_IMPLEMENT_KERNEL_CLASS` counts the slots of. -/
def layout (b : Build) : DictionaryClass → CType
  | Dictionary => b.hashedCollection
  | SystemDictionary => CType.ofMembers b.systemDictionaryMembers
  | MethodDictionary => CType.ofMembers b.methodDictionaryMembers

/-- The fixed size of a class, so the slots `slvm_Behavior_basicNew` allocates for an instance. -/
def slotCount (b : Build) (c : DictionaryClass) : ℕ := b.slotCountOfStructure (c.layout b)

/-- The fields the functions on dictionaries of a class store to. -/
def fields : DictionaryClass → List DictionaryField
  | Dictionary | SystemDictionary => [.tally, .array]
  | MethodDictionary => [.tally, .array, .keys]

/-- Members after the header of a structure that starts with a header are in the slots. -/
theorem inside_slots_of_member {b : Build} {members : List CType} {i : ℕ}
    (hheader : members[0]? = some b.objectHeader) (hi : members[i]? = some b.word) (hpos : 0 < i) :
    b.objectHeader.size ≤ CType.memberOffset 0 members i ∧
      CType.memberOffset 0 members i + b.wordSize ≤ (CType.ofMembers members).size := by
  have hfirst := CType.memberOffset_add_size_le_memberOffset hheader hpos 0
  have hlast := CType.memberOffset_add_size_le hi
  exact ⟨(Nat.le_add_left _ _).trans hfirst, hlast⟩

/-- The base structure is a part of the structure of a method dictionary. -/
theorem hashedCollection_size_le (b : Build) :
    b.hashedCollection.size ≤ (layout b MethodDictionary).size := by
  have hbase : b.methodDictionaryMembers[0]? = some b.hashedCollection := rfl
  exact (Nat.le_add_left _ _).trans (CType.memberOffset_add_size_le hbase)

/-- **Structures that start with the base structure have room** for the fields. -/
theorem field_inside_slots (b : Build) {c : DictionaryClass} (hc : c ≠ SystemDictionary)
    {f : DictionaryField} (hf : f ∈ c.fields) :
    b.objectHeader.size ≤ f.offset b ∧
      f.offset b + b.wordSize ≤ b.objectHeader.size + c.slotCount b * b.wordSize := by
  have hcover := b.size_le_slotCountOfStructure (c.layout b)
  have htally := @inside_slots_of_member b b.hashedCollectionMembers 1 rfl rfl (by decide)
  have harray := @inside_slots_of_member b b.hashedCollectionMembers 2 rfl rfl (by decide)
  have hbase : b.hashedCollection.size ≤ (c.layout b).size := by
    cases c with
    | Dictionary => exact Nat.le_refl _
    | SystemDictionary => exact absurd rfl hc
    | MethodDictionary => exact hashedCollection_size_le b
  cases f with
  | tally => exact ⟨htally.1, (htally.2.trans hbase).trans hcover⟩
  | array => exact ⟨harray.1, (harray.2.trans hbase).trans hcover⟩
  | keys =>
    obtain rfl : c = MethodDictionary := by
      cases c with
      | Dictionary => simp [fields] at hf
      | SystemDictionary => simp [fields] at hf
      | MethodDictionary => rfl
    have hmember : b.methodDictionaryMembers[1]? = some b.word := rfl
    have hafter := CType.memberOffset_add_size_le_memberOffset
      (show b.methodDictionaryMembers[0]? = some b.hashedCollection from rfl) Nat.one_pos 0
    have hlast := CType.memberOffset_add_size_le hmember
    exact ⟨(htally.1.trans ((Nat.le_add_right _ _).trans htally.2)).trans
      ((Nat.le_add_left _ _).trans hafter), hlast.trans hcover⟩

/-- The structure of a system dictionary lacks the base structure, so it is too short. -/
theorem array_not_inside_slots (b : Build) :
    b.objectHeader.size + SystemDictionary.slotCount b * b.wordSize <
      DictionaryField.array.offset b + b.wordSize := by
  cases b <;> decide

end DictionaryClass

/-! ### The 64-bit object model

`KernelClass.info` and `Field` hold the slot counts and the slot indices of the 64-bit build. -/

/-- The class object of a class of dictionaries. -/
def DictionaryClass.kernelClass : DictionaryClass → KernelClass
  | Dictionary => .Dictionary
  | SystemDictionary => .SystemDictionary
  | MethodDictionary => .MethodDictionary

/-- The slot of a field in the object model. -/
def DictionaryField.slot : DictionaryField → ℕ
  | tally => Field.tally
  | array => Field.array
  | keys => Field.keys

theorem DictionaryClass.slotCount_spur64 (c : DictionaryClass) :
    c.slotCount .spur64 = c.kernelClass.info.fixedSize := by
  cases c <;> rfl

theorem DictionaryField.offset_spur64 (f : DictionaryField) :
    f.offset .spur64 = Build.spur64.objectHeader.size + f.slot * Build.spur64.wordSize := by
  cases f <;> rfl

/-! ### Runs -/

/-- Some bytes of memory. -/
structure Extent where
  start : ℕ
  size : ℕ

/-- Two extents have a byte in common. -/
def Extent.Overlaps (e f : Extent) : Prop :=
  e.start < f.start + f.size ∧ f.start < e.start + e.size

/-- The functions on dictionaries. -/
inductive DictionaryCall
  /-- `slvm_Dictionary_associationAt`, `slvm_IdentityDictionary_associationAt` and `atOrNil`,
  `slvm_MethodDictionary_atOrNil` -/
  | lookup
  /-- `slvm_Dictionary_addAssociation`, `slvm_IdentityDictionary_addAssociation` and
  `addAssociationIfNotExistent` -/
  | addAssociation
  /-- `slvm_IdentityDictionary_atPutWithAssociationClass`, so `atPut` and
  `slvm_SystemDictionary_atPut` -/
  | atPutWithAssociationClass
  /-- `slvm_Dictionary_grow`, `slvm_IdentityDictionary_grow` -/
  | grow
  /-- The loop of `grow`, with the number of elements left. -/
  | reinsert (remaining : ℕ)
  /-- `slvm_MethodDictionary_atPut` -/
  | methodAtPut
  /-- `slvm_MethodDictionary_grow` -/
  | methodGrow
  /-- The loop of `slvm_MethodDictionary_grow`, with the number of elements left. -/
  | methodReinsert (remaining : ℕ)
  deriving DecidableEq

namespace DictionaryCall

/-- The functions that are called on dictionaries of a class from outside. -/
def operations : DictionaryClass → List DictionaryCall
  | .Dictionary | .SystemDictionary => [lookup, addAssociation, atPutWithAssociationClass]
  | .MethodDictionary => [lookup, methodAtPut]

/-- A function is one of those on dictionaries of a class. -/
def On (c : DictionaryClass) : DictionaryCall → Prop
  | lookup => True
  | addAssociation | atPutWithAssociationClass | grow | reinsert _ => c ≠ .MethodDictionary
  | methodAtPut | methodGrow | methodReinsert _ => c = .MethodDictionary

end DictionaryCall

/-- A dictionary, and what has happened since its creation. -/
structure DictionaryRun where
  heapStart : ℕ
  heapSize : ℕ
  /-- The address of the header of the dictionary. -/
  dictionary : ℕ
  /-- The decoded tally. -/
  tally : ℕ
  /-- `slvm_basicSize` of the array. -/
  arraySize : ℕ
  /-- `slvm_basicSize` of the keys. -/
  keysSize : ℕ
  /-- The calls in progress, the innermost first. -/
  pending : List DictionaryCall
  /-- What the heap handed out after the dictionary, the last first. -/
  allocated : List Extent
  /-- The stores to fields of the dictionary, the last first. -/
  stores : List Extent

namespace DictionaryRun

/-- `slvm_StackHeap_allocate` -/
def allocate (s : DictionaryRun) (size : ℕ) : DictionaryRun :=
  let offset := CType.alignUp s.heapSize 16
  { s with heapSize := offset + size, allocated := ⟨s.heapStart + offset, size⟩ :: s.allocated }

/-- The size of the pre-header of an object. -/
def preheaderSize (slotCount : ℕ) : ℕ := if slotCount ≥ 255 then 24 else 8

/-- What `slvm_spur_instantiate_object` allocates. -/
def totalSize (b : Build) (slotCount : ℕ) : ℕ :=
  preheaderSize slotCount + b.objectHeader.size + slotCount * b.wordSize

/-- A store to a field. -/
def storeField (b : Build) (s : DictionaryRun) (f : DictionaryField) : DictionaryRun :=
  { s with stores := ⟨s.dictionary + f.offset b, b.wordSize⟩ :: s.stores }

/-- `dictionary->tally = slvm_encodeSmallInteger(n)` -/
def storeTally (b : Build) (s : DictionaryRun) (n : ℕ) : DictionaryRun :=
  { s.storeField b .tally with tally := n }

/-- `dictionary->array = SLVM_KNEW(Array, n)` -/
def newArray (b : Build) (s : DictionaryRun) (n : ℕ) : DictionaryRun :=
  { (s.allocate (totalSize b n)).storeField b .array with arraySize := n }

/-- `dictionary->keys = SLVM_KNEW(Array, n)` -/
def newKeys (b : Build) (s : DictionaryRun) (n : ℕ) : DictionaryRun :=
  { (s.allocate (totalSize b n)).storeField b .keys with keysSize := n }

/-- `slvm_Behavior_basicNew` of a dictionary, with `heapSize` bytes of the heap in use. -/
def basicNew (b : Build) (c : DictionaryClass) (heapStart heapSize : ℕ) : DictionaryRun :=
  let offset := CType.alignUp heapSize 16
  { heapStart := heapStart
    heapSize := offset + totalSize b (c.slotCount b)
    dictionary := heapStart + offset + preheaderSize (c.slotCount b)
    tally := 0, arraySize := 0, keysSize := 0, pending := [], allocated := [], stores := [] }

/-- `slvm_Dictionary_newWithCapacity` -/
def newWithCapacity (b : Build) (c : DictionaryClass) (n heapStart heapSize : ℕ) : DictionaryRun :=
  ((basicNew b c heapStart heapSize).newArray b n).storeTally b 0

/-- The creation of a dictionary: `slvm_Dictionary_newWithCapacity`, which
`slvm_MethodDictionary_newWithCapacity` lets follow the keys. -/
def new (b : Build) (c : DictionaryClass) (n heapStart heapSize : ℕ) : DictionaryRun :=
  match c with
  | .MethodDictionary => (newWithCapacity b c n heapStart heapSize).newKeys b n
  | _ => newWithCapacity b c n heapStart heapSize

/-- `slvm_HashedCollection_fullCondition` -/
def fullCondition (b : Build) (s : DictionaryRun) : Bool :=
  s.arraySize < 4 || unsignedSub (8 * b.wordSize) s.arraySize s.tally < s.arraySize / 4

/-- What follows when an element was put into a free slot. -/
def inserted (b : Build) (s : DictionaryRun) (growth : DictionaryCall) : DictionaryRun :=
  let s := s.storeTally b (s.tally + 1)
  if s.fullCondition b then { s with pending := growth :: s.pending } else s

/-- The stores and allocations of `slvm_Dictionary_grow`. -/
def grown (b : Build) (s : DictionaryRun) : DictionaryRun :=
  (s.storeTally b 0).newArray b (ObjectMemory.doubledArraySize s.arraySize)

/-- The stores and allocations of `slvm_MethodDictionary_grow`. -/
def methodGrown (b : Build) (s : DictionaryRun) : DictionaryRun :=
  let n := ObjectMemory.doubledArraySize s.keysSize
  ((s.storeTally b 0).newArray b n).newKeys b n

/-- The innermost call returns, or is replaced by others. -/
def continue_ (s : DictionaryRun) (calls : List DictionaryCall) : DictionaryRun :=
  { s with pending := calls }

open DictionaryCall in
/-- One step of a run. A call in which an assertion fails has no step. -/
inductive Step (b : Build) (c : DictionaryClass) : DictionaryRun → DictionaryRun → Prop
  /-- A function is called on the dictionary. -/
  | call {s : DictionaryRun} {operation : DictionaryCall} (h : s.pending = [])
      (hop : operation ∈ operations c) : Step b c s (s.continue_ [operation])
  /-- Another object, of any kind, is allocated. -/
  | allocate {s : DictionaryRun} (size : ℕ) : Step b c s (s.allocate size)
  | lookup {s : DictionaryRun} {k : List DictionaryCall} (h : s.pending = .lookup :: k) :
      Step b c s (s.continue_ k)
  /-- The slot the scan finds is taken: the element or its value is replaced. -/
  | taken {s : DictionaryRun} {operation : DictionaryCall} {k : List DictionaryCall}
      (h : s.pending = operation :: k)
      (hop : operation ∈ [addAssociation, atPutWithAssociationClass, methodAtPut]) :
      Step b c s (s.continue_ k)
  /-- The slot is free. -/
  | addAssociation {s : DictionaryRun} {k : List DictionaryCall}
      (h : s.pending = .addAssociation :: k) (hindex : 0 < s.arraySize) :
      Step b c s ((s.continue_ k).inserted b .grow)
  /-- The slot is free, so there is a new association. -/
  | atPutWithAssociationClass {s : DictionaryRun} {k : List DictionaryCall}
      (h : s.pending = .atPutWithAssociationClass :: k) (hindex : 0 < s.arraySize) :
      Step b c s (((s.continue_ k).allocate (totalSize b
        (b.slotCountOfStructure (CType.ofMembers b.associationMembers)))).inserted b .grow)
  | grow {s : DictionaryRun} {k : List DictionaryCall} (h : s.pending = .grow :: k) :
      Step b c s ((s.grown b).continue_ (.reinsert s.arraySize :: k))
  | reinsertDone {s : DictionaryRun} {k : List DictionaryCall} (h : s.pending = .reinsert 0 :: k) :
      Step b c s (s.continue_ k)
  /-- The next slot of the old array is nil. -/
  | reinsertNil {s : DictionaryRun} {i : ℕ} {k : List DictionaryCall}
      (h : s.pending = .reinsert (i + 1) :: k) : Step b c s (s.continue_ (.reinsert i :: k))
  | reinsertElement {s : DictionaryRun} {i : ℕ} {k : List DictionaryCall}
      (h : s.pending = .reinsert (i + 1) :: k) :
      Step b c s (s.continue_ (.addAssociation :: .reinsert i :: k))
  /-- The scan finds no slot: the dictionary grows and the call is made again. -/
  | methodNoSlot {s : DictionaryRun} {k : List DictionaryCall} (h : s.pending = .methodAtPut :: k) :
      Step b c s (s.continue_ (.methodGrow :: .methodAtPut :: k))
  /-- The slot is free. -/
  | methodAtPut {s : DictionaryRun} {k : List DictionaryCall} (h : s.pending = .methodAtPut :: k)
      (hindex : 0 < s.keysSize) : Step b c s ((s.continue_ k).inserted b .methodGrow)
  | methodGrow {s : DictionaryRun} {k : List DictionaryCall} (h : s.pending = .methodGrow :: k) :
      Step b c s ((s.methodGrown b).continue_ (.methodReinsert s.keysSize :: k))
  | methodReinsertDone {s : DictionaryRun} {k : List DictionaryCall}
      (h : s.pending = .methodReinsert 0 :: k) : Step b c s (s.continue_ k)
  | methodReinsertNil {s : DictionaryRun} {i : ℕ} {k : List DictionaryCall}
      (h : s.pending = .methodReinsert (i + 1) :: k) :
      Step b c s (s.continue_ (.methodReinsert i :: k))
  | methodReinsertElement {s : DictionaryRun} {i : ℕ} {k : List DictionaryCall}
      (h : s.pending = .methodReinsert (i + 1) :: k) :
      Step b c s (s.continue_ (.methodAtPut :: .methodReinsert i :: k))

/-- Every store falls inside the slots of the dictionary. -/
def InsideSlots (b : Build) (c : DictionaryClass) (s : DictionaryRun) : Prop :=
  ∀ e ∈ s.stores, s.dictionary + b.objectHeader.size ≤ e.start ∧
    e.start + e.size ≤ s.dictionary + b.objectHeader.size + c.slotCount b * b.wordSize

/-- No store overlaps an extent that was handed out after the dictionary. -/
def Separate (s : DictionaryRun) : Prop :=
  ∀ e ∈ s.stores, ∀ a ∈ s.allocated, ¬ e.Overlaps a

/-! ### The invariant of a run -/

/-- The block of the heap that the dictionary takes, padding included, is where later extents
start. -/
def blockSize (b : Build) (c : DictionaryClass) : ℕ :=
  CType.alignUp (totalSize b (c.slotCount b)) 16

theorem blockSize_eq (b : Build) (c : DictionaryClass) :
    b.objectHeader.size + b.objectHeader.size + c.slotCount b * b.wordSize ≤ blockSize b c ∧
      blockSize b c % 16 = 0 ∧ preheaderSize (c.slotCount b) = b.objectHeader.size := by
  cases b <;> cases c <;> decide

/-- The invariant of a run. -/
structure Valid (b : Build) (c : DictionaryClass) (s : DictionaryRun) : Prop where
  /-- Where the dictionary lies: at a 16-aligned offset of the heap, all of it in use. -/
  placed : ∃ offset, offset % 16 = 0 ∧
    s.dictionary = s.heapStart + offset + b.objectHeader.size ∧
    offset + totalSize b (c.slotCount b) ≤ s.heapSize ∧
    ∀ a ∈ s.allocated, s.heapStart + offset + blockSize b c ≤ a.start
  pending : ∀ call ∈ s.pending, call.On c
  stores : ∀ e ∈ s.stores, ∃ f ∈ c.fields, e = ⟨s.dictionary + f.offset b, b.wordSize⟩

/-- The start of the first extent after the dictionary, and that the array was stored. -/
structure Created (b : Build) (c : DictionaryClass) (s : DictionaryRun) : Prop where
  array : (⟨s.dictionary + DictionaryField.array.offset b, b.wordSize⟩ : Extent) ∈ s.stores
  next : ∃ a ∈ s.allocated, a.start + b.objectHeader.size = s.dictionary + blockSize b c ∧
    2 * b.objectHeader.size ≤ a.size

variable {b : Build} {c : DictionaryClass} {s s' : DictionaryRun}

theorem Valid.allocate (h : Valid b c s) (size : ℕ) : Valid b c (s.allocate size) := by
  obtain ⟨offset, haligned, hdictionary, hfits, hlater⟩ := h.placed
  have hnext := @CType.le_alignUp s.heapSize 16 (by decide)
  have hblock : offset + blockSize b c ≤ CType.alignUp s.heapSize 16 := by
    simp only [blockSize, CType.alignUp]
    omega
  refine ⟨⟨offset, haligned, hdictionary, ?_, fun a ha => ?_⟩, h.pending, h.stores⟩
  · exact (hfits.trans hnext).trans (Nat.le_add_right _ _)
  · rcases List.mem_cons.1 ha with rfl | ha
    · show s.heapStart + offset + blockSize b c ≤ s.heapStart + CType.alignUp s.heapSize 16
      omega
    · exact hlater a ha

theorem Valid.storeField (h : Valid b c s) {f : DictionaryField} (hf : f ∈ c.fields) :
    Valid b c (s.storeField b f) := by
  refine ⟨h.placed, h.pending, fun e he => ?_⟩
  rcases List.mem_cons.1 he with rfl | he
  · exact ⟨f, hf, rfl⟩
  · exact h.stores e he

theorem Valid.storeTally (h : Valid b c s) (n : ℕ) : Valid b c (s.storeTally b n) := by
  have hf : .tally ∈ c.fields := by cases c <;> decide
  have hstore := h.storeField hf
  exact ⟨hstore.placed, hstore.pending, hstore.stores⟩

theorem Valid.newArray (h : Valid b c s) (n : ℕ) : Valid b c (s.newArray b n) := by
  have hf : .array ∈ c.fields := by cases c <;> decide
  have hstore := (h.allocate (totalSize b n)).storeField hf
  exact ⟨hstore.placed, hstore.pending, hstore.stores⟩

theorem Valid.newKeys (h : Valid b c s) (hc : c = .MethodDictionary) (n : ℕ) :
    Valid b c (s.newKeys b n) := by
  have hf : .keys ∈ c.fields := by
    subst hc
    decide
  have hstore := (h.allocate (totalSize b n)).storeField hf
  exact ⟨hstore.placed, hstore.pending, hstore.stores⟩

theorem Valid.continue_ (h : Valid b c s) {calls : List DictionaryCall}
    (hcalls : ∀ call ∈ calls, call.On c) : Valid b c (s.continue_ calls) :=
  ⟨h.placed, hcalls, h.stores⟩

/-- The innermost call is replaced by calls on the same dictionary. -/
theorem Valid.replace (h : Valid b c s) {call : DictionaryCall} {k : List DictionaryCall}
    (hpending : s.pending = call :: k) {calls : List DictionaryCall}
    (hcalls : call.On c → ∀ call ∈ calls, call.On c) : Valid b c (s.continue_ (calls ++ k)) := by
  have hon := h.pending
  rw [hpending] at hon
  refine h.continue_ fun other hother => ?_
  rcases List.mem_append.1 hother with hnew | hold
  · exact hcalls (hon call List.mem_cons_self) other hnew
  · exact hon other (List.mem_cons_of_mem _ hold)

theorem Valid.inserted (h : Valid b c s) {growth : DictionaryCall} (hgrowth : growth.On c) :
    Valid b c (s.inserted b growth) := by
  have htally := h.storeTally (s.tally + 1)
  rw [DictionaryRun.inserted]
  split_ifs
  · refine htally.continue_ fun call hcall => ?_
    rcases List.mem_cons.1 hcall with rfl | hcall
    · exact hgrowth
    · exact htally.pending call hcall
  · exact htally

theorem Valid.basicNew (b : Build) (c : DictionaryClass) (heapStart heapSize : ℕ) :
    Valid b c (basicNew b c heapStart heapSize) := by
  have hpreheader := (blockSize_eq b c).2.2
  refine ⟨⟨CType.alignUp heapSize 16, ?_, ?_, Nat.le_refl _, fun a ha => ?_⟩, ?_, ?_⟩
  · rw [CType.alignUp, Nat.mul_mod_left]
  · rw [DictionaryRun.basicNew, hpreheader]
  · cases ha
  · intro call hcall
    cases hcall
  · intro e he
    cases he

/-- **The creation of a dictionary** establishes the invariant. -/
theorem Valid.new (b : Build) (c : DictionaryClass) (n heapStart heapSize : ℕ) :
    Valid b c (new b c n heapStart heapSize) := by
  have hnew := ((Valid.basicNew b c heapStart heapSize).newArray n).storeTally 0
  cases c with
  | Dictionary => exact hnew
  | SystemDictionary => exact hnew
  | MethodDictionary => exact hnew.newKeys rfl n

theorem On_of_mem_operations {call : DictionaryCall} (h : call ∈ DictionaryCall.operations c) :
    call.On c := by
  cases c <;> simp only [DictionaryCall.operations, List.mem_cons, List.not_mem_nil, or_false] at h
    <;> rcases h with rfl | rfl | rfl <;> simp [DictionaryCall.On]

/-- **A step keeps the invariant.** -/
theorem Valid.step (h : Valid b c s) (hstep : Step b c s s') : Valid b c s' := by
  cases hstep with
  | call hpending hop =>
    refine h.continue_ fun call hcall => ?_
    rw [List.mem_singleton] at hcall
    exact hcall ▸ On_of_mem_operations hop
  | allocate size => exact h.allocate size
  | lookup hpending => exact @Valid.replace b c s h _ _ hpending [] fun _ _ hnil => (by cases hnil)
  | taken hpending hop =>
    exact @Valid.replace b c s h _ _ hpending [] fun _ _ hnil => (by cases hnil)
  | addAssociation hpending hindex =>
    have hon := h.pending .addAssociation (by simp [hpending])
    have hreturn := @Valid.replace b c s h _ _ hpending [] fun _ _ hnil => (by cases hnil)
    exact hreturn.inserted hon
  | atPutWithAssociationClass hpending hindex =>
    have hon := h.pending .atPutWithAssociationClass (by simp [hpending])
    have hreturn := @Valid.replace b c s h _ _ hpending [] fun _ _ hnil => (by cases hnil)
    exact (hreturn.allocate _).inserted hon
  | grow hpending =>
    have hgrown := (h.storeTally 0).newArray (ObjectMemory.doubledArraySize s.arraySize)
    refine @Valid.replace b c (s.grown b) hgrown _ _ hpending [_] fun hon call hcall => ?_
    rw [List.mem_singleton] at hcall
    exact hcall ▸ hon
  | reinsertDone hpending =>
    exact @Valid.replace b c s h _ _ hpending [] fun _ _ hnil => (by cases hnil)
  | reinsertNil hpending =>
    refine @Valid.replace b c s h _ _ hpending [_] fun hon call hcall => ?_
    rw [List.mem_singleton] at hcall
    exact hcall ▸ hon
  | reinsertElement hpending =>
    refine @Valid.replace b c s h _ _ hpending [_, _] fun hon call hcall => ?_
    rcases List.mem_cons.1 hcall with rfl | hcall
    · exact hon
    · rw [List.mem_singleton] at hcall
      exact hcall ▸ hon
  | methodNoSlot hpending =>
    refine @Valid.replace b c s h _ _ hpending [_, _] fun hon call hcall => ?_
    rcases List.mem_cons.1 hcall with rfl | hcall
    · exact hon
    · rw [List.mem_singleton] at hcall
      exact hcall ▸ hon
  | methodAtPut hpending hindex =>
    have hon := h.pending .methodAtPut (by simp [hpending])
    have hreturn := @Valid.replace b c s h _ _ hpending [] fun _ _ hnil => (by cases hnil)
    exact hreturn.inserted hon
  | methodGrow hpending =>
    have hon : c = .MethodDictionary := h.pending .methodGrow (by simp [hpending])
    have hgrown := ((h.storeTally 0).newArray (ObjectMemory.doubledArraySize s.keysSize)).newKeys
      hon (ObjectMemory.doubledArraySize s.keysSize)
    refine @Valid.replace b c (s.methodGrown b) hgrown _ _ hpending [_] fun hon call hcall => ?_
    rw [List.mem_singleton] at hcall
    exact hcall ▸ hon
  | methodReinsertDone hpending =>
    exact @Valid.replace b c s h _ _ hpending [] fun _ _ hnil => (by cases hnil)
  | methodReinsertNil hpending =>
    refine @Valid.replace b c s h _ _ hpending [_] fun hon call hcall => ?_
    rw [List.mem_singleton] at hcall
    exact hcall ▸ hon
  | methodReinsertElement hpending =>
    refine @Valid.replace b c s h _ _ hpending [_, _] fun hon call hcall => ?_
    rcases List.mem_cons.1 hcall with rfl | hcall
    · exact hon
    · rw [List.mem_singleton] at hcall
      exact hcall ▸ hon

/-! ### What a run never takes back -/

/-- The dictionary stays where it is, and nothing that happened is forgotten. -/
structure Extends (s s' : DictionaryRun) : Prop where
  dictionary : s'.dictionary = s.dictionary
  stores : ∀ e ∈ s.stores, e ∈ s'.stores
  allocated : ∀ a ∈ s.allocated, a ∈ s'.allocated

theorem Extends.refl (s : DictionaryRun) : Extends s s := ⟨rfl, fun _ he => he, fun _ ha => ha⟩

theorem Extends.trans {s₁ s₂ s₃ : DictionaryRun} (h₁ : Extends s₁ s₂) (h₂ : Extends s₂ s₃) :
    Extends s₁ s₃ :=
  ⟨h₂.dictionary.trans h₁.dictionary, fun e he => h₂.stores e (h₁.stores e he),
    fun a ha => h₂.allocated a (h₁.allocated a ha)⟩

theorem extends_allocate (s : DictionaryRun) (size : ℕ) : Extends s (s.allocate size) :=
  ⟨rfl, fun _ he => he, fun _ ha => List.mem_cons_of_mem _ ha⟩

theorem extends_storeTally (b : Build) (s : DictionaryRun) (n : ℕ) :
    Extends s (s.storeTally b n) :=
  ⟨rfl, fun _ he => List.mem_cons_of_mem _ he, fun _ ha => ha⟩

theorem extends_newArray (b : Build) (s : DictionaryRun) (n : ℕ) : Extends s (s.newArray b n) :=
  ⟨rfl, fun _ he => List.mem_cons_of_mem _ he, fun _ ha => List.mem_cons_of_mem _ ha⟩

theorem extends_newKeys (b : Build) (s : DictionaryRun) (n : ℕ) : Extends s (s.newKeys b n) :=
  ⟨rfl, fun _ he => List.mem_cons_of_mem _ he, fun _ ha => List.mem_cons_of_mem _ ha⟩

theorem extends_inserted (b : Build) (s : DictionaryRun) (growth : DictionaryCall) :
    Extends s (s.inserted b growth) := by
  rw [inserted]
  split_ifs
  · exact ⟨rfl, (extends_storeTally b s (s.tally + 1)).stores, fun _ ha => ha⟩
  · exact extends_storeTally b s (s.tally + 1)

theorem extends_continue (s : DictionaryRun) (calls : List DictionaryCall) :
    Extends s (s.continue_ calls) :=
  ⟨rfl, fun _ he => he, fun _ ha => ha⟩

theorem Step.extends (hstep : Step b c s s') : Extends s s' := by
  cases hstep with
  | call | lookup | taken | reinsertDone | reinsertNil | reinsertElement | methodNoSlot
  | methodReinsertDone | methodReinsertNil | methodReinsertElement => exact extends_continue _ _
  | allocate size => exact extends_allocate s size
  | addAssociation | methodAtPut => exact (extends_continue s _).trans (extends_inserted b _ _)
  | atPutWithAssociationClass =>
    exact ((extends_continue s _).trans (extends_allocate _ _)).trans (extends_inserted b _ _)
  | grow =>
    exact ((extends_storeTally b s 0).trans (extends_newArray b _ _)).trans (extends_continue _ _)
  | methodGrow =>
    exact (((extends_storeTally b s 0).trans (extends_newArray b _ _)).trans
      (extends_newKeys b _ _)).trans (extends_continue _ _)

theorem Created.extends (h : Created b c s) (he : Extends s s') : Created b c s' := by
  obtain ⟨a, ha, hstart, hsize⟩ := h.next
  refine ⟨?_, a, he.allocated a ha, ?_, hsize⟩
  · rw [he.dictionary]
    exact he.stores _ h.array
  · rw [he.dictionary]
    exact hstart

theorem Created.new (b : Build) (c : DictionaryClass) (n heapStart heapSize : ℕ) :
    Created b c (new b c n heapStart heapSize) := by
  have hnew : Created b c (newWithCapacity b c n heapStart heapSize) := by
    refine ⟨List.mem_cons_of_mem _ List.mem_cons_self, _, List.mem_cons_self, ?_, ?_⟩
    · have hpreheader := (blockSize_eq b c).2.2
      show heapStart + CType.alignUp (CType.alignUp heapSize 16 + totalSize b (c.slotCount b)) 16 +
        b.objectHeader.size = heapStart + CType.alignUp heapSize 16 +
          preheaderSize (c.slotCount b) + blockSize b c
      rw [hpreheader, blockSize]
      simp only [CType.alignUp]
      omega
    · show 2 * b.objectHeader.size ≤ totalSize b n
      rw [totalSize, preheaderSize]
      simp only [Build.objectHeader]
      split_ifs <;> omega
  cases c with
  | Dictionary => exact hnew
  | SystemDictionary => exact hnew
  | MethodDictionary => exact hnew.extends (extends_newKeys b _ n)

/-- Both invariants hold in every state of a run. -/
theorem valid_of_run {n heapStart heapSize : ℕ}
    (hrun : ReflTransGen (Step b c) (new b c n heapStart heapSize) s) :
    Valid b c s ∧ Created b c s := by
  induction hrun with
  | refl => exact ⟨Valid.new b c n heapStart heapSize, Created.new b c n heapStart heapSize⟩
  | tail _ hstep ih => exact ⟨ih.1.step hstep, ih.2.extends hstep.extends⟩

/-! ### Where the stores fall -/

theorem Valid.insideSlots (h : Valid b c s) (hc : c ≠ .SystemDictionary) : InsideSlots b c s := by
  intro e he
  obtain ⟨f, hf, rfl⟩ := h.stores e he
  have hfield := DictionaryClass.field_inside_slots b hc hf
  show s.dictionary + b.objectHeader.size ≤ s.dictionary + f.offset b ∧
    s.dictionary + f.offset b + b.wordSize ≤
      s.dictionary + b.objectHeader.size + c.slotCount b * b.wordSize
  omega

/-- Stores that end within the block of the dictionary keep clear of later extents. -/
theorem Valid.separate (h : Valid b c s)
    (hfields : ∀ f ∈ c.fields, b.objectHeader.size + f.offset b + b.wordSize ≤ blockSize b c) :
    Separate s := by
  obtain ⟨offset, -, hdictionary, -, hlater⟩ := h.placed
  intro e he a ha hoverlap
  obtain ⟨f, hf, rfl⟩ := h.stores e he
  have hend := hfields f hf
  have hstart := hlater a ha
  have hoverlap' : a.start < s.dictionary + f.offset b + b.wordSize := hoverlap.2
  omega

/-- **The stores to a dictionary** are inside its slots and clear of all later objects in every
run, unless it is a system dictionary; then they never are. -/
theorem insideSlots_and_separate_iff_of_run {n heapStart heapSize : ℕ}
    (hrun : ReflTransGen (Step b c) (new b c n heapStart heapSize) s) :
    InsideSlots b c s ∧ Separate s ↔ c ≠ .SystemDictionary := by
  obtain ⟨hvalid, hcreated⟩ := valid_of_run hrun
  constructor
  · rintro ⟨hinside, -⟩ rfl
    have hstore : s.dictionary + DictionaryField.array.offset b + b.wordSize ≤
        s.dictionary + b.objectHeader.size +
          DictionaryClass.SystemDictionary.slotCount b * b.wordSize :=
      (hinside _ hcreated.array).2
    have hshort := DictionaryClass.array_not_inside_slots b
    omega
  · intro hc
    refine ⟨hvalid.insideSlots hc, hvalid.separate fun f hf => ?_⟩
    have hfield := (DictionaryClass.field_inside_slots b hc hf).2
    have hblock := (blockSize_eq b c).1
    omega

theorem insideSlots_and_separate_iff_of_run_method :
    let s := (((new .spur32 .MethodDictionary 0 4096 20).continue_
      [.methodGrow, .methodAtPut]).methodGrown .spur32).continue_ [.methodReinsert 0, .methodAtPut]
    InsideSlots .spur32 .MethodDictionary s ∧ Separate s :=
  (insideSlots_and_separate_iff_of_run (((ReflTransGen.single (Step.call rfl
    (show .methodAtPut ∈ DictionaryCall.operations .MethodDictionary by decide))).tail
      (Step.methodNoSlot rfl)).tail (Step.methodGrow rfl))).2 (by decide)

/-- A new system dictionary on the 32-bit build: both stores fall on the pre-header of its array.
On the 64-bit build the array is stored behind the slots. -/
theorem insideSlots_and_separate_counterexample :
    ¬ InsideSlots .spur32 .SystemDictionary (new .spur32 .SystemDictionary 5 4096 0) ∧
      ¬ Separate (new .spur32 .SystemDictionary 5 4096 0) ∧
      ¬ InsideSlots .spur64 .SystemDictionary (new .spur64 .SystemDictionary 5 4096 0) := by
  simp only [InsideSlots, Separate, Extent.Overlaps]
  decide

/-- **Later objects are hit** by the stores to a system dictionary on the 32-bit build. On the
64-bit build they fall into the padding in front of the next object. -/
theorem separate_iff_of_run {n heapStart heapSize : ℕ}
    (hrun : ReflTransGen (Step b c) (new b c n heapStart heapSize) s) :
    Separate s ↔ c ≠ .SystemDictionary ∨ b = .spur64 := by
  obtain ⟨hvalid, hcreated⟩ := valid_of_run hrun
  constructor
  · intro hseparate
    by_contra hnot
    obtain ⟨rfl, hb⟩ : c = .SystemDictionary ∧ b ≠ .spur64 := by tauto
    obtain rfl : b = .spur32 := by
      cases b with
      | spur32 => rfl
      | spur64 => exact absurd rfl hb
    -- the next extent starts right behind the header, 8 bytes before the end of the array field
    obtain ⟨a, ha, hstart, hsize⟩ := hcreated.next
    have hblock : blockSize .spur32 .SystemDictionary = 16 := rfl
    have hoffset : DictionaryField.array.offset .spur32 = 12 := rfl
    have hheader : Build.spur32.objectHeader.size = 8 := rfl
    rw [hblock, hheader] at hstart
    rw [hheader] at hsize
    refine hseparate _ hcreated.array a ha ⟨?_, ?_⟩
    · show s.dictionary + DictionaryField.array.offset .spur32 < a.start + a.size
      omega
    · show a.start < s.dictionary + DictionaryField.array.offset .spur32 + 4
      omega
  · intro h
    refine hvalid.separate fun f hf => ?_
    by_cases hc : c = .SystemDictionary
    · obtain rfl : b = .spur64 := h.resolve_left fun hne => hne hc
      subst hc
      cases f with
      | tally => decide
      | array => decide
      | keys => simp [DictionaryClass.fields] at hf
    · have hfield := (DictionaryClass.field_inside_slots b hc hf).2
      have hblock := (blockSize_eq b c).1
      omega

end DictionaryRun

end SlvmNative
