import SlvmNative.Library.Words

/-!
# The Spur object model

Oops, tags, object formats and object headers, as `spur/objectmodel.h` lays them out on the
64-bit build, and the encodings of `classes/kernel.h` that sit on top of them.

An oop (`SLVM_Oop`) is a natural number: an 8-aligned address of an object header, or an immediate
whose low three bits are a tag. `SmallInteger`s appear here only as tallies and class formats, which
are never negative, so the arithmetic shifts of the source are shifts of natural numbers.

## Main definitions

* `oopIsPointers`, `encodeSmallInteger` — tagged words
* `ObjectFormat`, `spurFormatMultiplier`, `spurFormatExtraSize` — the format field
* `ObjectHeader` — the bit-fields of a header, each within its width
-/

namespace SlvmNative

/-! ### Object formats -/

namespace ObjectFormat

/-- `OF_EMPTY` -/
abbrev empty : ℕ := 0
/-- `OF_FIXED_SIZE` -/
abbrev fixedSize : ℕ := 1
/-- `OF_VARIABLE_SIZE_NO_IVARS` -/
abbrev variableSizeNoIvars : ℕ := 2
/-- `OF_VARIABLE_SIZE_IVARS` -/
abbrev variableSizeIvars : ℕ := 3
/-- `OF_WEAK_VARIABLE_SIZE` -/
abbrev weakVariableSize : ℕ := 4
/-- `OF_INDEXABLE_64` -/
abbrev indexable64 : ℕ := 9
/-- `OF_INDEXABLE_32`; the format after it encodes one unused element. -/
abbrev indexable32 : ℕ := 10
/-- `OF_INDEXABLE_16`; the three formats after it encode the unused elements. -/
abbrev indexable16 : ℕ := 12
/-- `OF_INDEXABLE_8`; the seven formats after it encode the unused elements. -/
abbrev indexable8 : ℕ := 16
/-- `OF_MIXED_OBJECT`; the seven formats after it encode the unused bytes. -/
abbrev mixedObject : ℕ := 24

end ObjectFormat

/-- `slvm_spur_format_multiplier`: the elements a slot holds. -/
def spurFormatMultiplier (format : ℕ) : ℕ :=
  if format = 9 then 1
  else if format = 10 ∨ format = 11 then 2
  else if 12 ≤ format ∧ format ≤ 15 then 4
  else if 16 ≤ format ∧ format ≤ 23 then 8
  else if 24 ≤ format ∧ format ≤ 31 then 8
  else 1

/-- `slvm_spur_formatExtraSize`: the unused elements at the end of the last slot. -/
def spurFormatExtraSize (format : ℕ) : ℕ :=
  if format = 11 then 1
  else if 13 ≤ format ∧ format ≤ 15 then format - 12
  else if 17 ≤ format ∧ format ≤ 23 then format - 16
  else if 25 ≤ format ∧ format ≤ 31 then format - 24
  else 0

theorem spurFormatMultiplier_pointers {format : ℕ} (h : format < ObjectFormat.indexable64) :
    spurFormatMultiplier format = 1 := by
  simp only [spurFormatMultiplier, ObjectFormat.indexable64] at *
  split_ifs <;> omega

theorem spurFormatExtraSize_pointers {format : ℕ} (h : format < ObjectFormat.indexable64) :
    spurFormatExtraSize format = 0 := by
  simp only [spurFormatExtraSize, ObjectFormat.indexable64] at *
  split_ifs <;> omega

theorem spurFormatMultiplier_bytes {extra : ℕ} (h : extra < 8) :
    spurFormatMultiplier (ObjectFormat.indexable8 + extra) = 8 := by
  simp only [spurFormatMultiplier, ObjectFormat.indexable8]
  split_ifs <;> omega

theorem spurFormatExtraSize_bytes {extra : ℕ} (h : extra < 8) :
    spurFormatExtraSize (ObjectFormat.indexable8 + extra) = extra := by
  simp only [spurFormatExtraSize, ObjectFormat.indexable8]
  split_ifs <;> omega

theorem spurFormatMultiplier_mixed {extra : ℕ} (h : extra < 8) :
    spurFormatMultiplier (ObjectFormat.mixedObject + extra) = 8 := by
  simp only [spurFormatMultiplier, ObjectFormat.mixedObject]
  split_ifs <;> omega

theorem spurFormatMultiplier_le (format : ℕ) : spurFormatMultiplier format ≤ 8 := by
  simp only [spurFormatMultiplier]
  split_ifs <;> omega

theorem spurFormatExtraSize_mixed {extra : ℕ} (h : extra < 8) :
    spurFormatExtraSize (ObjectFormat.mixedObject + extra) = extra := by
  simp only [spurFormatExtraSize, ObjectFormat.mixedObject]
  split_ifs <;> omega

/-- Subtraction of unsigned integers of `width` bits. -/
def unsignedSub (width x y : ℕ) : ℕ := if y ≤ x then x - y else 2 ^ width + x - y

theorem unsignedSub_of_le (width : ℕ) {x y : ℕ} (h : y ≤ x) : unsignedSub width x y = x - y :=
  if_pos h

/-- Nothing is lost where the larger number is one of the word. -/
theorem unsignedSub_mod {width x y : ℕ} (h : y ≤ x) (hx : x < 2 ^ width) :
    unsignedSub width (x % 2 ^ width) (y % 2 ^ width) = x - y := by
  rw [Nat.mod_eq_of_lt hx, Nat.mod_eq_of_lt (h.trans_lt hx), unsignedSub_of_le _ h]

/-! ### Headers -/

/-- The fields of `SLVM_ObjectHeader` the runtime reads. Each is a bit-field, so it comes with
its bound. -/
@[ext] structure ObjectHeader where
  /-- The index of the class in the class table. -/
  classIndex : ℕ
  /-- The object format, with the unused elements folded in. -/
  objectFormat : ℕ
  /-- The identity hash; for a behavior, its index in the class table. -/
  identityHash : ℕ
  /-- The number of slots, or 255 when the pre-header holds it. -/
  slotCount : ℕ
  classIndex_lt : classIndex < 2 ^ 22
  objectFormat_lt : objectFormat < 2 ^ 5
  identityHash_lt : identityHash < 2 ^ 22
  slotCount_lt : slotCount < 2 ^ 8
  deriving DecidableEq

/-- A header from the values stored into its bit-fields, each cut to the width of its field. -/
def ObjectHeader.ofFields (classIndex objectFormat identityHash slotCount : ℕ) : ObjectHeader where
  classIndex := classIndex % 2 ^ 22
  objectFormat := objectFormat % 2 ^ 5
  identityHash := identityHash % 2 ^ 22
  slotCount := slotCount % 2 ^ 8
  classIndex_lt := Nat.mod_lt _ (by decide)
  objectFormat_lt := Nat.mod_lt _ (by decide)
  identityHash_lt := Nat.mod_lt _ (by decide)
  slotCount_lt := Nat.mod_lt _ (by decide)

section OfFields

variable (c f i s : ℕ)

@[simp] theorem ObjectHeader.ofFields_classIndex :
    (ofFields c f i s).classIndex = c % 2 ^ 22 := rfl

@[simp] theorem ObjectHeader.ofFields_objectFormat :
    (ofFields c f i s).objectFormat = f % 2 ^ 5 := rfl

@[simp] theorem ObjectHeader.ofFields_identityHash :
    (ofFields c f i s).identityHash = i % 2 ^ 22 := rfl

@[simp] theorem ObjectHeader.ofFields_slotCount :
    (ofFields c f i s).slotCount = s % 2 ^ 8 := rfl

end OfFields

/-- Assignment to the `identityHash` bit-field. -/
def ObjectHeader.withIdentityHash (header : ObjectHeader) (value : ℕ) : ObjectHeader :=
  ObjectHeader.ofFields header.classIndex header.objectFormat value header.slotCount

@[simp] theorem ObjectHeader.withIdentityHash_identityHash (header : ObjectHeader) (value : ℕ) :
    (header.withIdentityHash value).identityHash = value % 2 ^ 22 := rfl

@[simp] theorem ObjectHeader.withIdentityHash_classIndex (header : ObjectHeader) (value : ℕ) :
    (header.withIdentityHash value).classIndex = header.classIndex :=
  Nat.mod_eq_of_lt header.classIndex_lt

@[simp] theorem ObjectHeader.withIdentityHash_objectFormat (header : ObjectHeader) (value : ℕ) :
    (header.withIdentityHash value).objectFormat = header.objectFormat :=
  Nat.mod_eq_of_lt header.objectFormat_lt

@[simp] theorem ObjectHeader.withIdentityHash_slotCount (header : ObjectHeader) (value : ℕ) :
    (header.withIdentityHash value).slotCount = header.slotCount :=
  Nat.mod_eq_of_lt header.slotCount_lt

/-! ### Tags -/

/-- `slvm_oopIsPointers` -/
def oopIsPointers (oop : ℕ) : Prop := oop &&& 7 = 0

/-- `slvm_oopIsImmediate` -/
def oopIsImmediate (oop : ℕ) : Prop := oop &&& 7 ≠ 0

instance (oop : ℕ) : Decidable (oopIsPointers oop) := inferInstanceAs (Decidable (_ = _))

instance (oop : ℕ) : Decidable (oopIsImmediate oop) := inferInstanceAs (Decidable (_ ≠ _))

theorem oopIsPointers_iff {oop : ℕ} : oopIsPointers oop ↔ oop % 8 = 0 := by
  rw [oopIsPointers, show (7 : ℕ) = 2 ^ 3 - 1 from rfl, Nat.and_two_pow_sub_one_eq_mod]

theorem not_oopIsImmediate {oop : ℕ} : ¬ oopIsImmediate oop ↔ oopIsPointers oop :=
  not_not

/-- `slvm_encodeSmallInteger` -/
def encodeSmallInteger (value : ℕ) : ℕ := (value <<< 3) ||| 1

/-- `slvm_decodeSmallInteger` -/
def decodeSmallInteger (oop : ℕ) : ℕ := oop >>> 3

/-- `slvm_encodeSmallIntegerOffset`: what to add to an encoded integer to add `value` to it. -/
def encodeSmallIntegerOffset (value : ℕ) : ℕ := value <<< 3

theorem encodeSmallInteger_eq (value : ℕ) : encodeSmallInteger value = value * 8 + 1 := by
  rw [encodeSmallInteger, Words.shiftLeft_or (by decide)]
  omega

@[simp] theorem decodeSmallInteger_encodeSmallInteger (value : ℕ) :
    decodeSmallInteger (encodeSmallInteger value) = value := by
  rw [decodeSmallInteger, encodeSmallInteger_eq, Nat.shiftRight_eq_div_pow]
  omega

@[simp] theorem encodeSmallInteger_add_offset (value : ℕ) :
    encodeSmallInteger value + encodeSmallIntegerOffset 1 = encodeSmallInteger (value + 1) := by
  rw [encodeSmallInteger_eq, encodeSmallInteger_eq, encodeSmallIntegerOffset]
  omega

/-! ### Class formats -/

/-- `slvm_Behavior_encodeFormatAndFixedSize` -/
def encodeFormatAndFixedSize (format fixedSlot : ℕ) : ℕ :=
  encodeSmallInteger ((format <<< 16) ||| fixedSlot)

/-- `slvm_Behavior_decodeFormat`, as stored into an `unsigned int`. -/
def decodeFormat (formatAndSize : ℕ) : ℕ := (decodeSmallInteger formatAndSize >>> 16) % 2 ^ 32

/-- `slvm_Behavior_decodeFixedSize` -/
def decodeFixedSize (formatAndSize : ℕ) : ℕ := decodeSmallInteger formatAndSize &&& 0xFFFF

theorem decodeFixedSize_lt (formatAndSize : ℕ) : decodeFixedSize formatAndSize < 2 ^ 16 :=
  Nat.and_lt_two_pow _ (by decide)

theorem decodeFormat_encode {format fixedSlot : ℕ} (hf : format < 2 ^ 32)
    (hs : fixedSlot < 2 ^ 16) : decodeFormat (encodeFormatAndFixedSize format fixedSlot) =
      format := by
  rw [decodeFormat, encodeFormatAndFixedSize, decodeSmallInteger_encodeSmallInteger,
    Words.shiftLeft_or hs, Nat.shiftRight_eq_div_pow]
  omega

theorem decodeFixedSize_encode {format fixedSlot : ℕ} (hs : fixedSlot < 2 ^ 16) :
    decodeFixedSize (encodeFormatAndFixedSize format fixedSlot) = fixedSlot := by
  rw [decodeFixedSize, encodeFormatAndFixedSize, decodeSmallInteger_encodeSmallInteger,
    Words.shiftLeft_or hs, show (0xFFFF : ℕ) = 2 ^ 16 - 1 from rfl, Nat.and_two_pow_sub_one_eq_mod]
  omega

/-! ### Bodies of the structures the runtime overlays on objects

The slot index of every field the runtime reads or writes by name. -/

namespace Field

/-- `SLVM_Behavior.superclass` -/
abbrev superclass : ℕ := 0
/-- `SLVM_Behavior.methodDict` -/
abbrev methodDict : ℕ := 1
/-- `SLVM_Behavior.format` -/
abbrev format : ℕ := 2
/-- `SLVM_ClassDescription.instanceVariables` -/
abbrev instanceVariables : ℕ := 4
/-- `SLVM_Class.name` -/
abbrev name : ℕ := 7
/-- `SLVM_Class.classPool` -/
abbrev classPool : ℕ := 8
/-- `SLVM_Class.sharedPools` -/
abbrev sharedPools : ℕ := 9
/-- `SLVM_Class.environment` -/
abbrev environment : ℕ := 10
/-- `SLVM_Class.category` -/
abbrev category : ℕ := 11
/-- `SLVM_Metaclass.thisClass` -/
abbrev thisClass : ℕ := 6
/-- `SLVM_HashedCollection.tally` -/
abbrev tally : ℕ := 0
/-- `SLVM_HashedCollection.array` -/
abbrev array : ℕ := 1
/-- `SLVM_MethodDictionary.keys` -/
abbrev keys : ℕ := 2
/-- `SLVM_WeakSet.flag` -/
abbrev flag : ℕ := 2
/-- `SLVM_LookupKey.key` -/
abbrev key : ℕ := 0
/-- `SLVM_Association.value` -/
abbrev value : ℕ := 1
/-- `SLVM_PrimitiveMethod.entryPoint` -/
abbrev entryPoint : ℕ := 0

end Field

end SlvmNative
