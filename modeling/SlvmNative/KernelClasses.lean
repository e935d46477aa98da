import SlvmNative.ObjectModel

/-!
# Kernel classes

The classes the runtime is compiled with: their indices in the class table
(`compactIndices.inc`), their place in the hierarchy and their instance formats
(`SLVM_IMPLEMENT_KERNEL_CLASS` and its variants), and the static objects they are.

Where the linker puts the static objects is not fixed: a `KernelImage` is any placement at
8-aligned addresses, and everything about the runtime is stated over an arbitrary one.

## Main definitions

* `KernelClass`, `KernelClass.info` — the compact class indices and what each macro defines
* `StaticObject`, `KernelImage` — the static objects and their addresses
-/

namespace SlvmNative

/-- The kernel classes, in the order of `compactIndices.inc`. -/
inductive KernelClass where
  | SmallInteger | Character | SmallFloat | LargeNegativeInteger | LargePositiveInteger | Float
  | Message | MethodContext | BlockClosure | Semaphore | Mutex | ByteArray | Array | String
  | Bitmap | Point | ExternalAddress | ExternalData | ExternalFunction | ExternalLibrary
  | ExternalStructure | Alien | UnsafeAlien | ProtoObject | Object | Behavior | ClassDescription
  | Class | Metaclass | UndefinedObject | Boolean | True | False | Collection | HashedCollection
  | Dictionary | IdentityDictionary | MethodDictionary | SequenceableCollection
  | ArrayedCollection | FloatArray | IntegerArray | WordArray | ByteString | WideString | Symbol
  | ByteSymbol | WideSymbol | OrderedCollection | Magnitude | Number | Fraction | Integer
  | LargeInteger | LookupKey | Association | BoxedFloat64 | ExternalObject | Set | IdentitySet
  | WeakSet | WeakArray | SystemDictionary | CompiledMethod | PrimitiveMethod | LiteralVariable
  | ClassVariable | GlobalVariable | WorkspaceVariable | FullBlockClosure | InstructionStream
  deriving DecidableEq, Repr

/-- What the source says about one kernel class. -/
structure KernelClassInfo where
  /-- The name of the class. -/
  name : String
  /-- `SLVM_KCI_*`, its compact class index. -/
  index : ℕ
  /-- Its superclass; `ProtoObject` has none. -/
  superclass : Option KernelClass
  /-- The format of its instances. -/
  format : ℕ
  /-- The number of named slots of its instances. -/
  fixedSize : ℕ

/-- `SLVM_IMPLEMENT_KERNEL_CLASS`: the instances are fixed-size, or empty when their structure
has no slots. -/
def implementKernelClass (name : String) (index : ℕ) (superclass : KernelClass)
    (slotCount : ℕ) : KernelClassInfo where
  name := name
  index := index
  superclass := some superclass
  format := if slotCount > 0 then ObjectFormat.fixedSize else ObjectFormat.empty
  fixedSize := slotCount

namespace KernelClass

/-- The implementation of every kernel class. The slot count of a structure that is implemented
with `SLVM_IMPLEMENT_KERNEL_CLASS` is `SLVM_SLOT_COUNT_OF_STRUCTURE` of it; the structures of
`Point` and `SystemDictionary` lack the object header, so one slot less is counted. -/
def info : KernelClass → KernelClassInfo
  | .SmallInteger => implementKernelClass "SmallInteger" 1 .Integer 0
  | .Character => implementKernelClass "Character" 2 .Magnitude 0
  | .SmallFloat => implementKernelClass "SmallFloat" 4 .Float 0
  | .LargeNegativeInteger =>
    ⟨"LargeNegativeInteger", 32, some .LargeInteger, ObjectFormat.indexable8, 0⟩
  | .LargePositiveInteger =>
    ⟨"LargePositiveInteger", 33, some .LargeInteger, ObjectFormat.indexable8, 0⟩
  | .Float => implementKernelClass "Float" 34 .Number 0
  | .Message => implementKernelClass "Message" 35 .Object 0
  | .MethodContext => ⟨"MethodContext", 36, some .InstructionStream, ObjectFormat.mixedObject, 8⟩
  | .BlockClosure => ⟨"BlockClosure", 37, some .Object, ObjectFormat.variableSizeIvars, 3⟩
  | .Semaphore => implementKernelClass "Semaphore" 48 .Object 0
  | .Mutex => implementKernelClass "Mutex" 49 .Object 0
  | .ByteArray => ⟨"ByteArray", 50, some .ArrayedCollection, ObjectFormat.indexable8, 0⟩
  | .Array => ⟨"Array", 51, some .ArrayedCollection, ObjectFormat.variableSizeNoIvars, 0⟩
  | .String => implementKernelClass "String" 52 .ArrayedCollection 0
  | .Bitmap => ⟨"Bitmap", 53, some .ArrayedCollection, ObjectFormat.indexable32, 0⟩
  | .Point => implementKernelClass "Point" 54 .Object 1
  | .ExternalAddress => implementKernelClass "ExternalAddress" 128 .ByteArray 0
  | .ExternalData => implementKernelClass "ExternalData" 129 .ExternalStructure 0
  | .ExternalFunction => implementKernelClass "ExternalFunction" 130 .ExternalObject 0
  | .ExternalLibrary => implementKernelClass "ExternalLibrary" 131 .ExternalObject 0
  | .ExternalStructure => implementKernelClass "ExternalStructure" 132 .ExternalObject 0
  | .Alien => implementKernelClass "Alien" 133 .ByteArray 0
  | .UnsafeAlien => implementKernelClass "UnsafeAlien" 134 .Alien 0
  | .ProtoObject => ⟨"ProtoObject", 150, none, ObjectFormat.empty, 0⟩
  | .Object => implementKernelClass "Object" 151 .ProtoObject 0
  | .Behavior => implementKernelClass "Behavior" 152 .Object 4
  | .ClassDescription => implementKernelClass "ClassDescription" 153 .Behavior 6
  | .Class => implementKernelClass "Class" 154 .ClassDescription 14
  | .Metaclass => implementKernelClass "Metaclass" 155 .ClassDescription 9
  | .UndefinedObject => implementKernelClass "UndefinedObject" 156 .Object 0
  | .Boolean => implementKernelClass "Boolean" 157 .Object 0
  | .True => implementKernelClass "True" 158 .Boolean 0
  | .False => implementKernelClass "False" 159 .Boolean 0
  | .Collection => implementKernelClass "Collection" 160 .Object 0
  | .HashedCollection => implementKernelClass "HashedCollection" 161 .Collection 2
  | .Dictionary => implementKernelClass "Dictionary" 162 .HashedCollection 2
  | .IdentityDictionary => implementKernelClass "IdentityDictionary" 163 .Dictionary 2
  | .MethodDictionary => implementKernelClass "MethodDictionary" 164 .Dictionary 3
  | .SequenceableCollection => implementKernelClass "SequenceableCollection" 165 .Collection 0
  | .ArrayedCollection => implementKernelClass "ArrayedCollection" 166 .SequenceableCollection 0
  | .FloatArray => ⟨"FloatArray", 167, some .ArrayedCollection, ObjectFormat.indexable32, 0⟩
  | .IntegerArray => ⟨"IntegerArray", 168, some .ArrayedCollection, ObjectFormat.indexable32, 0⟩
  | .WordArray => ⟨"WordArray", 169, some .ArrayedCollection, ObjectFormat.indexable32, 0⟩
  | .ByteString => ⟨"ByteString", 170, some .String, ObjectFormat.indexable8, 0⟩
  | .WideString => ⟨"WideString", 171, some .String, ObjectFormat.indexable32, 0⟩
  | .Symbol => implementKernelClass "Symbol" 172 .String 0
  | .ByteSymbol => ⟨"ByteSymbol", 173, some .Symbol, ObjectFormat.indexable8, 0⟩
  | .WideSymbol => ⟨"WideSymbol", 174, some .Symbol, ObjectFormat.indexable32, 0⟩
  | .OrderedCollection => implementKernelClass "OrderedCollection" 175 .SequenceableCollection 3
  | .Magnitude => implementKernelClass "Magnitude" 176 .Object 0
  | .Number => implementKernelClass "Number" 177 .Magnitude 0
  | .Fraction => implementKernelClass "Fraction" 178 .Number 2
  | .Integer => implementKernelClass "Integer" 179 .Number 0
  | .LargeInteger => ⟨"LargeInteger", 180, some .Integer, ObjectFormat.indexable8, 0⟩
  | .LookupKey => implementKernelClass "LookupKey" 181 .Magnitude 1
  | .Association => implementKernelClass "Association" 182 .LookupKey 2
  | .BoxedFloat64 => implementKernelClass "BoxedFloat64" 183 .Float 1
  | .ExternalObject => implementKernelClass "ExternalObject" 184 .Object 0
  | .Set => implementKernelClass "Set" 185 .HashedCollection 2
  | .IdentitySet => implementKernelClass "IdentitySet" 186 .HashedCollection 2
  | .WeakSet => implementKernelClass "WeakSet" 187 .HashedCollection 3
  | .WeakArray => ⟨"WeakArray", 188, some .Array, ObjectFormat.weakVariableSize, 0⟩
  | .SystemDictionary => implementKernelClass "SystemDictionary" 189 .IdentityDictionary 1
  | .CompiledMethod => implementKernelClass "CompiledMethod" 190 .Object 4
  | .PrimitiveMethod => ⟨"PrimitiveMethod", 191, some .Object, ObjectFormat.indexable8, 0⟩
  | .LiteralVariable => implementKernelClass "LiteralVariable" 192 .Association 2
  | .ClassVariable => implementKernelClass "ClassVariable" 193 .LiteralVariable 2
  | .GlobalVariable => implementKernelClass "GlobalVariable" 194 .LiteralVariable 2
  | .WorkspaceVariable => implementKernelClass "WorkspaceVariable" 195 .LiteralVariable 2
  | .FullBlockClosure =>
    ⟨"FullBlockClosure", 196, some .BlockClosure, ObjectFormat.variableSizeIvars, 4⟩
  | .InstructionStream => implementKernelClass "InstructionStream" 197 .Object 2

/-- `SLVM_KCI_*` -/
def index (c : KernelClass) : ℕ := c.info.index

/-- `SLVM_KMCI_*`: the index of the metaclass. -/
def metaIndex (c : KernelClass) : ℕ := 256 + c.index

/-- Every kernel class, in the order of `compactIndices.inc`. -/
def all : List KernelClass :=
  [.SmallInteger, .Character, .SmallFloat, .LargeNegativeInteger, .LargePositiveInteger, .Float,
   .Message, .MethodContext, .BlockClosure, .Semaphore, .Mutex, .ByteArray, .Array, .String,
   .Bitmap, .Point, .ExternalAddress, .ExternalData, .ExternalFunction, .ExternalLibrary,
   .ExternalStructure, .Alien, .UnsafeAlien, .ProtoObject, .Object, .Behavior, .ClassDescription,
   .Class, .Metaclass, .UndefinedObject, .Boolean, .True, .False, .Collection, .HashedCollection,
   .Dictionary, .IdentityDictionary, .MethodDictionary, .SequenceableCollection,
   .ArrayedCollection, .FloatArray, .IntegerArray, .WordArray, .ByteString, .WideString, .Symbol,
   .ByteSymbol, .WideSymbol, .OrderedCollection, .Magnitude, .Number, .Fraction, .Integer,
   .LargeInteger, .LookupKey, .Association, .BoxedFloat64, .ExternalObject, .Set, .IdentitySet,
   .WeakSet, .WeakArray, .SystemDictionary, .CompiledMethod, .PrimitiveMethod, .LiteralVariable,
   .ClassVariable, .GlobalVariable, .WorkspaceVariable, .FullBlockClosure, .InstructionStream]

theorem mem_all (c : KernelClass) : c ∈ all := by
  cases c <;> decide

/-- `compactIndices.inc`: the classes with the indices they are entered under, the alias of
`SmallInteger` at the third place. -/
def compactIndices : List (KernelClass × ℕ) :=
  (all.take 2).map (fun c => (c, c.index)) ++
    (.SmallInteger, 3) :: (all.drop 2).map fun c => (c, c.index)

theorem mem_compactIndices (c : KernelClass) : (c, c.index) ∈ compactIndices := by
  have h := c.mem_all
  rw [← List.take_append_drop 2 all, List.mem_append] at h
  rcases h with h | h
  · exact List.mem_append_left _ (List.mem_map.mpr ⟨c, h, rfl⟩)
  · exact List.mem_append_right _ (List.mem_cons_of_mem _ (List.mem_map.mpr ⟨c, h, rfl⟩))

/-- The kernel class with a given compact index. -/
def ofIndex (i : ℕ) : Option KernelClass := all.find? fun c => c.index == i

theorem ofIndex_index (c : KernelClass) : ofIndex c.index = some c := by
  cases c <;> rfl

theorem index_injective : Function.Injective index := fun c d h =>
  Option.some.inj (by rw [← ofIndex_index c, h, ofIndex_index])

theorem index_lt (c : KernelClass) : c.index < 256 := by
  cases c <;> decide

theorem metaIndex_lt (c : KernelClass) : c.metaIndex < 512 := by
  have := c.index_lt
  rw [metaIndex]
  omega

theorem format_lt (c : KernelClass) : c.info.format < 2 ^ 5 := by
  cases c <;> decide

theorem fixedSize_lt (c : KernelClass) : c.info.fixedSize < 2 ^ 16 := by
  cases c <;> decide

end KernelClass

/-! ### Static objects -/

/-- The objects that are static variables of the runtime. -/
inductive StaticObject where
  | nil
  | false
  | true
  | kernelClass (c : KernelClass)
  | kernelMetaclass (c : KernelClass)
  deriving DecidableEq

/-- A placement of the static objects in memory, as the linker and loader leave it. -/
class KernelImage where
  /-- The address of a static object. -/
  address : StaticObject → ℕ
  /-- The static object at an address. -/
  objectAt : ℕ → Option StaticObject
  objectAt_eq_some : ∀ a o, objectAt a = some o ↔ address o = a
  address_aligned : ∀ o, address o % 8 = 0

section

variable [KernelImage]

theorem address_injective : Function.Injective KernelImage.address := fun o p h =>
  Option.some.inj <| ((KernelImage.objectAt_eq_some _ o).mpr h).symm.trans
    ((KernelImage.objectAt_eq_some _ p).mpr rfl)

@[simp] theorem objectAt_address (o : StaticObject) :
    KernelImage.objectAt (KernelImage.address o) = some o :=
  (KernelImage.objectAt_eq_some _ o).mpr rfl

/-- `slvm_nilOop` -/
def nilOop : ℕ := KernelImage.address .nil

/-- `slvm_falseOop` -/
def falseOop : ℕ := KernelImage.address .false

/-- `slvm_trueOop` -/
def trueOop : ℕ := KernelImage.address .true

/-- `SLVM_KCLASS(className)` -/
def kernelClass (c : KernelClass) : ℕ := KernelImage.address (.kernelClass c)

/-- `&slvm_kernel_metaclass_className` -/
def kernelMetaclass (c : KernelClass) : ℕ := KernelImage.address (.kernelMetaclass c)

theorem kernelClass_injective : Function.Injective kernelClass := fun _ _ h =>
  StaticObject.kernelClass.inj (address_injective h)

theorem kernelClass_ne_nilOop (c : KernelClass) : kernelClass c ≠ nilOop := fun h =>
  StaticObject.noConfusion (address_injective h)

theorem kernelMetaclass_ne_nilOop (c : KernelClass) : kernelMetaclass c ≠ nilOop := fun h =>
  StaticObject.noConfusion (address_injective h)

theorem kernelClass_ne_kernelMetaclass (c d : KernelClass) : kernelClass c ≠ kernelMetaclass d :=
  fun h => StaticObject.noConfusion (address_injective h)

theorem oopIsPointers_address (o : StaticObject) : oopIsPointers (KernelImage.address o) :=
  oopIsPointers_iff.mpr (KernelImage.address_aligned o)

end

/-! ### A placement

The static objects one after another, each in a block of 128 bytes, which is as much as a class
takes. -/

namespace StaticObject

/-- The position of a static object in the placement. -/
def position : StaticObject → ℕ
  | .nil => 1
  | .false => 2
  | .true => 3
  | .kernelClass c => 4 + c.index
  | .kernelMetaclass c => 4 + c.metaIndex

/-- Every static object. -/
def all : List StaticObject :=
  [.nil, .false, .true] ++ KernelClass.all.map .kernelClass ++ KernelClass.all.map .kernelMetaclass

theorem mem_all (o : StaticObject) : o ∈ all := by
  cases o <;> simp [all, KernelClass.mem_all]

theorem position_injective : Function.Injective position := by
  intro o p h
  cases o <;> cases p <;> simp only [position, KernelClass.metaIndex] at h
  case kernelClass.kernelClass c d => rw [KernelClass.index_injective (Nat.add_left_cancel h)]
  case kernelMetaclass.kernelMetaclass c d =>
    have hcd : c.index = d.index := by omega
    rw [KernelClass.index_injective hcd]
  case kernelClass.kernelMetaclass c d => have := c.index_lt; omega
  case kernelMetaclass.kernelClass c d => have := d.index_lt; omega
  all_goals first | rfl | omega

theorem position_lt (o : StaticObject) : position o < 512 := by
  cases o with
  | nil | false | true => decide
  | kernelClass c => have := c.index_lt; simp only [position]; omega
  | kernelMetaclass c => cases c <;> decide

end StaticObject

/-- The static objects from address 128 on. -/
abbrev sequentialImage : KernelImage where
  address o := 128 * o.position
  objectAt a := StaticObject.all.find? fun o => decide (128 * o.position = a)
  objectAt_eq_some a o := by
    constructor
    · intro h
      have hp := List.find?_some h
      exact of_decide_eq_true hp
    · rintro rfl
      have hsome : (StaticObject.all.find? fun p =>
          decide (128 * p.position = 128 * o.position)).isSome := by
        rw [List.find?_isSome]
        exact ⟨o, o.mem_all, decide_eq_true rfl⟩
      obtain ⟨p, hp⟩ := Option.isSome_iff_exists.mp hsome
      have hdec := List.find?_some hp
      have hpo : 128 * p.position = 128 * o.position := of_decide_eq_true hdec
      rw [hp, StaticObject.position_injective (Nat.eq_of_mul_eq_mul_left (by decide) hpo)]
  address_aligned o := by omega

end SlvmNative
