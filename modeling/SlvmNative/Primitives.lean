import SlvmNative.KernelInitialization
import SlvmNative.Library.Decimal
import SlvmNative.MarriedContexts
import SlvmNative.PrimitiveAllocation
import SlvmNative.RegisteredKeys
import Mathlib.Data.List.TakeWhile

/-!
# Primitives

The functions that the methods of the kernel classes stand for. A primitive reads the context it is
called with, may allocate or print, and either returns a result with an error code or lets a
compiled method take its place.

Where the linker puts the functions is not fixed: a `PrimitiveImage` is any placement, and
`World.dynrunInitialize` stores the addresses of one in the primitive methods.

## Main definitions

* `PrimitiveCall` — what a primitive is called with
* `PrimitiveFunction`, `PrimitiveImage` — the functions and their addresses
* `PrimitiveFunction.call` — what each function does

## Main results

* `PrimitiveFunction.eq_of_replacesContext` — only the activation of a closure is replaced
* `smallIntegerAsString_spec` — the string of a small integer is a new one with its numeral
-/

namespace SlvmNative

open ObjectMemory

/-! ### Calls -/

/-- `SLVM_CallingConvention` -/
inductive CallingConvention
  | smalltalk | cDecl | stdCall
  deriving DecidableEq

/-- The value of a calling convention. -/
def CallingConvention.code : CallingConvention → ℕ
  | .smalltalk => 0
  | .cDecl => 1
  | .stdCall => 2

/-- `SLVM_PrimitiveError_InvalidArgumentCount` -/
def primitiveErrorInvalidArgumentCount : ℕ := 2

/-- The `SLVM_PrimitiveContext` of a message. -/
structure PrimitiveCall extends PrimitiveContext where
  contextCallingConvention : CallingConvention
  stackPointer : ℕ
  selector : ℕ
  nativeArgumentSize : ℕ

/-- `slvm_ArgumentDescriptor_make` -/
def argumentDescriptorMake (oopArgumentCount nativeArgumentSize : ℕ) : ℕ :=
  (nativeArgumentSize <<< 16) ||| oopArgumentCount

namespace Field

/-- `SLVM_CompiledMethod.flags` -/
abbrev flags : ℕ := 1
/-- `SLVM_CompiledMethod.argumentDescriptor` -/
abbrev argumentDescriptor : ℕ := 2
/-- `SLVM_BlockClosure.outerContext` -/
abbrev outerContext : ℕ := 0
/-- `SLVM_BlockClosure.startpc` -/
abbrev startpc : ℕ := 1
/-- `SLVM_BlockClosure.numArgs` -/
abbrev numArgs : ℕ := 2
/-- `SLVM_FullBlockClosure.receiver` -/
abbrev receiver : ℕ := 3

end Field

/-- What a primitive comes to. -/
inductive PrimitiveOutcome
  /-- It returns a result, with an error code in its context, and what it wrote to `stdout`. -/
  | returns (result errorCode : ℕ) (w : World) (printed : List UInt8)
  /-- It lets a compiled method take its place. -/
  | replacesContext (method : ℕ)

/-! ### The functions -/

/-- The functions of the primitives, `slvm_<class>_primitive_<name>`. -/
inductive PrimitiveFunction
  | ProtoObject_asString | ProtoObject_class | ProtoObject_basicSize
  | Object_value
  | Behavior_basicNew | Behavior_basicNewWithSize | Behavior_registerAsBehavior
  | BlockClosure_activateClosure
  | String_printToStdout
  | SmallInteger_plus | SmallInteger_minus | SmallInteger_multiply
  | SmallInteger_greaterThan | SmallInteger_lessThan | SmallInteger_asString
  deriving DecidableEq

namespace PrimitiveFunction

/-- The two parts of the name of a function, as they are given to `SLVM_KCLASS_ADD_PRIMITIVE`. -/
def symbol : PrimitiveFunction → KernelClass × String
  | ProtoObject_asString => (.ProtoObject, "asString")
  | ProtoObject_class => (.ProtoObject, "class")
  | ProtoObject_basicSize => (.ProtoObject, "basicSize")
  | Object_value => (.Object, "value")
  | Behavior_basicNew => (.Behavior, "basicNew")
  | Behavior_basicNewWithSize => (.Behavior, "basicNewWithSize")
  | Behavior_registerAsBehavior => (.Behavior, "registerAsBehavior")
  | BlockClosure_activateClosure => (.BlockClosure, "activateClosure")
  | String_printToStdout => (.String, "printToStdout")
  | SmallInteger_plus => (.SmallInteger, "plus")
  | SmallInteger_minus => (.SmallInteger, "minus")
  | SmallInteger_multiply => (.SmallInteger, "multiply")
  | SmallInteger_greaterThan => (.SmallInteger, "greaterThan")
  | SmallInteger_lessThan => (.SmallInteger, "lessThan")
  | SmallInteger_asString => (.SmallInteger, "asString")

/-- Every function. -/
def all : List PrimitiveFunction :=
  [ProtoObject_asString, ProtoObject_class, ProtoObject_basicSize, Object_value, Behavior_basicNew,
   Behavior_basicNewWithSize, Behavior_registerAsBehavior, BlockClosure_activateClosure,
   String_printToStdout, SmallInteger_plus, SmallInteger_minus, SmallInteger_multiply,
   SmallInteger_greaterThan, SmallInteger_lessThan, SmallInteger_asString]

theorem mem_all (p : PrimitiveFunction) : p ∈ all := by
  cases p <;> decide

/-- The function of a name. -/
def ofSymbol (c : KernelClass) (name : String) : Option PrimitiveFunction :=
  all.find? fun p => p.symbol = (c, name)

theorem ofSymbol_symbol (p : PrimitiveFunction) : ofSymbol p.symbol.1 p.symbol.2 = some p := by
  cases p <;> decide

end PrimitiveFunction

/-- A placement of the functions of the primitives, as the linker leaves them. -/
class PrimitiveImage where
  /-- The address of a function. -/
  address : PrimitiveFunction → ℕ
  /-- The function at an address. -/
  functionAt : ℕ → Option PrimitiveFunction
  functionAt_address : ∀ p, functionAt (address p) = some p

/-- The functions are placed in the order of the list. -/
@[reducible] def numberedPrimitiveImage : PrimitiveImage where
  address p := PrimitiveFunction.all.idxOf p
  functionAt address := PrimitiveFunction.all[address]?
  functionAt_address p := by cases p <;> rfl

/-- The addresses the initialization of the kernel stores in the primitive methods. -/
def PrimitiveImage.addressOf [PrimitiveImage] (c : KernelClass) (name : String) : ℕ :=
  ((PrimitiveFunction.ofSymbol c name).map PrimitiveImage.address).getD 0

section Primitives

variable [KernelImage]

/-- A primitive that only returns a value. -/
def PrimitiveOutcome.value (call : PrimitiveCall) (w : World) (result : ℕ) : PrimitiveOutcome :=
  .returns result call.errorCode w []

/-- `slvm_primitiveFailWithError` -/
def PrimitiveCall.failWithError (call : PrimitiveCall) (w : World) (errorCode : ℕ) :
    PrimitiveOutcome :=
  let (result, context) := call.toPrimitiveContext.failWithError errorCode
  .returns result context.errorCode w []

/-- `slvm_ProtoObject_primitive_asString` -/
def protoObjectAsString (call : PrimitiveCall) (w : World) : Option PrimitiveOutcome := do
  let behavior ← w.getClassFromOop call.receiver
  let metaclassIndex := w.memory.getClassIndexFromOop behavior
  if metaclassIndex = KernelClass.Metaclass.index then
    return .value call w (w.memory.slot (w.memory.slot behavior Field.thisClass) Field.name)
  else return .value call w (w.memory.slot behavior Field.name)

/-- `slvm_ProtoObject_primitive_class` -/
def protoObjectClass (call : PrimitiveCall) (w : World) : Option PrimitiveOutcome := do
  let behavior ← w.getClassFromOop call.receiver
  return .value call w behavior

/-- `slvm_ProtoObject_primitive_basicSize` -/
def protoObjectBasicSize (call : PrimitiveCall) (w : World) : Option PrimitiveOutcome :=
  some (.value call w (makeInteger (BitVec.ofNat 64 (w.memory.basicSize call.receiver))))

/-- `slvm_Object_primitive_value` -/
def objectValue (call : PrimitiveCall) (w : World) : Option PrimitiveOutcome :=
  some (.value call w call.receiver)

/-- `slvm_Behavior_primitive_basicNew` -/
def behaviorBasicNew (call : PrimitiveCall) (w : World) : Option PrimitiveOutcome := do
  let (result, m) ← w.memory.basicNew call.receiver 0
  return .value call (w.withMemory m) result

/-- `slvm_Behavior_primitive_basicNewWithSize`. Object memory has no sizes that wrap, which are
those of negative arguments, and a call with one comes to a fault here; `primitiveBasicNewWithSize`
has them. `LaidOut.agree_iff` says that all other calls are the same. -/
def behaviorBasicNewWithSize (call : PrimitiveCall) (w : World) : Option PrimitiveOutcome :=
  match call.oopArguments with
  | argument :: _ =>
    if ¬ oopIsSmallInteger argument then
      some (call.failWithError w primitiveErrorInvalidArgument)
    else do
      let variableSize := (decodeSignedSmallInteger argument).toNat
      if 2 ^ 60 ≤ variableSize then none
      else
        let (result, m) ← w.memory.basicNew call.receiver variableSize
        return .value call (w.withMemory m) result
  | [] => none

/-- `slvm_Behavior_primitive_registerAsBehavior` -/
def behaviorRegisterAsBehavior (call : PrimitiveCall) (w : World) : Option PrimitiveOutcome := do
  let (result, w) ← w.behaviorPrimitiveRegisterAsBehavior call.receiver
  return .value call w result

/-- `slvm_BlockClosure_primitive_activateClosure` -/
def activateClosure (call : PrimitiveCall) (w : World) : Option PrimitiveOutcome :=
  let numArgs := w.memory.slot call.receiver Field.numArgs
  let startpc := w.memory.slot call.receiver Field.startpc
  -- the signed number is compared with an unsigned one
  if (decodeSignedSmallInteger numArgs).toNat ≠
      argumentDescriptorMake call.oopArguments.length call.nativeArgumentSize then
    some (call.failWithError w primitiveErrorInvalidArgumentCount)
  else if w.memory.getClassIndexFromOop startpc ≠ KernelClass.CompiledMethod.index then
    some (call.failWithError w primitiveErrorInvalidArgument)
  else some (.replacesContext startpc)

/-- `slvm_String_print`: what it writes. Wide strings are not printed yet. -/
def stringPrint (m : ObjectMemory) (object : ℕ) : Option (List UInt8) :=
  if object = nilOop then none
  else
    let classIndex := (m.header object).classIndex
    if classIndex = KernelClass.ByteString.index ∨ classIndex = KernelClass.ByteSymbol.index then
      some (m.bytes object)
    else some []

/-- `slvm_String_printLine` -/
def stringPrintLine (m : ObjectMemory) (object : ℕ) : Option (List UInt8) :=
  (stringPrint m object).map fun printed => printed ++ [10]

/-- `slvm_String_primitive_printToStdout` -/
def stringPrintToStdout (call : PrimitiveCall) (w : World) : Option PrimitiveOutcome := do
  let printed ← stringPrintLine w.memory call.receiver
  return .returns call.receiver call.errorCode w printed

/-- A primitive of small integers with an argument. -/
def smallIntegerPrimitive (primitive : PrimitiveContext → Option ℕ) (call : PrimitiveCall)
    (w : World) : Option PrimitiveOutcome :=
  (primitive call.toPrimitiveContext).map (PrimitiveOutcome.value call w)

/-- `slvm_SmallInteger_primitive_asString`; `snprintf` writes 62 characters at most. -/
def smallIntegerAsString (call : PrimitiveCall) (w : World) : Option PrimitiveOutcome := do
  let buffer := (Decimal.printInt (decodeSignedSmallInteger call.receiver).toInt).take 62
  let (result, m) ← w.memory.stringConvertCString buffer
  return .value call (w.withMemory m) result

/-- What a function does. It fails where the source aborts. -/
def PrimitiveFunction.call : PrimitiveFunction → PrimitiveCall → World → Option PrimitiveOutcome
  | ProtoObject_asString => protoObjectAsString
  | ProtoObject_class => protoObjectClass
  | ProtoObject_basicSize => protoObjectBasicSize
  | Object_value => objectValue
  | Behavior_basicNew => behaviorBasicNew
  | Behavior_basicNewWithSize => behaviorBasicNewWithSize
  | Behavior_registerAsBehavior => behaviorRegisterAsBehavior
  | BlockClosure_activateClosure => activateClosure
  | String_printToStdout => stringPrintToStdout
  | SmallInteger_plus => smallIntegerPrimitive SmallInteger.plus
  | SmallInteger_minus => smallIntegerPrimitive SmallInteger.minus
  | SmallInteger_multiply => smallIntegerPrimitive SmallInteger.multiply
  | SmallInteger_greaterThan => smallIntegerPrimitive SmallInteger.greaterThan
  | SmallInteger_lessThan => smallIntegerPrimitive SmallInteger.lessThan
  | SmallInteger_asString => smallIntegerAsString

/-! ### Results -/

variable {call : PrimitiveCall} {w : World}

theorem activateClosure_replacesContext {method : ℕ}
    (h : activateClosure call w = some (.replacesContext method)) :
    method = w.memory.slot call.receiver Field.startpc ∧
      w.memory.getClassIndexFromOop method = KernelClass.CompiledMethod.index ∧
      (decodeSignedSmallInteger (w.memory.slot call.receiver Field.numArgs)).toNat =
        argumentDescriptorMake call.oopArguments.length call.nativeArgumentSize := by
  simp only [activateClosure] at h
  split_ifs at h with hcount hclass
  · cases h
  · cases h
  · obtain rfl := PrimitiveOutcome.replacesContext.inj (Option.some.inj h)
    exact ⟨rfl, not_not.mp hclass, not_not.mp hcount⟩

omit [KernelImage] in
/-- What a primitive returns after another step is no replacement. -/
theorem bind_ne_replacesContext {α : Type} {x : Option α} {f : α → Option PrimitiveOutcome}
    {method : ℕ} (hf : ∀ a, f a ≠ some (.replacesContext method)) :
    x.bind f ≠ some (.replacesContext method) := by
  cases x with
  | none => exact fun h => nomatch h
  | some a => exact hf a

/-- **Only the activation of a closure** lets a method take its place. -/
theorem PrimitiveFunction.eq_of_replacesContext {primitive : PrimitiveFunction} {method : ℕ}
    (h : primitive.call call w = some (.replacesContext method)) :
    primitive = BlockClosure_activateClosure := by
  have hvalue : ∀ w' result, some (PrimitiveOutcome.value call w' result) ≠
      some (.replacesContext method) := fun w' result heq => nomatch heq
  cases primitive with
  | BlockClosure_activateClosure => rfl
  | ProtoObject_asString =>
    refine absurd h (bind_ne_replacesContext fun behavior => ?_)
    dsimp only
    split_ifs
    · exact hvalue _ _
    · exact hvalue _ _
  | ProtoObject_class => exact absurd h (bind_ne_replacesContext fun _ => hvalue _ _)
  | ProtoObject_basicSize => exact absurd h (hvalue _ _)
  | Object_value => exact absurd h (hvalue _ _)
  | Behavior_basicNew => exact absurd h (bind_ne_replacesContext fun _ => hvalue _ _)
  | Behavior_basicNewWithSize =>
    simp only [PrimitiveFunction.call, behaviorBasicNewWithSize] at h
    split at h
    · split_ifs at h
      · exact absurd h (bind_ne_replacesContext fun _ => hvalue _ _)
      · cases h
    · cases h
  | Behavior_registerAsBehavior => exact absurd h (bind_ne_replacesContext fun _ => hvalue _ _)
  | String_printToStdout =>
    exact absurd h (bind_ne_replacesContext fun _ heq => nomatch heq)
  | SmallInteger_asString => exact absurd h (bind_ne_replacesContext fun _ => hvalue _ _)
  | _ =>
    obtain ⟨result, -, heq⟩ := Option.map_eq_some_iff.mp h
    cases heq

/-! ### Numerals -/

omit [KernelImage] in
theorem natAbs_decode_le (oop : ℕ) : (decodeSignedSmallInteger oop).toInt.natAbs ≤ 2 ^ 60 := by
  have hle := BitVec.le_toInt (BitVec.ofNat 64 oop)
  have hlt := BitVec.toInt_lt (x := BitVec.ofNat 64 oop)
  rw [decodeSignedSmallInteger, BitVec.toInt_sshiftRight, Int.shiftRight_eq_div_pow]
  omega

omit [KernelImage] in
/-- The buffer of `slvm_SmallInteger_primitive_asString` holds the whole numeral. -/
theorem take_printInt (oop : ℕ) :
    (Decimal.printInt (decodeSignedSmallInteger oop).toInt).take 62 =
      Decimal.printInt (decodeSignedSmallInteger oop).toInt := by
  have habs := natAbs_decode_le oop
  have hlength : (Decimal.printInt (decodeSignedSmallInteger oop).toInt).length ≤ 19 + 1 :=
    Decimal.length_printInt_le (by decide) (Nat.lt_of_le_of_lt habs (by decide))
  exact List.take_of_length_le (by omega)

omit [KernelImage] in
theorem cStringBytes_printInt (z : ℤ) :
    cStringBytes (Decimal.printInt z) = Decimal.printInt z := by
  refine List.takeWhile_eq_self_iff.mpr fun b hb => ?_
  exact bne_iff_ne.mpr (Decimal.ne_zero_of_mem_printInt hb)

/-- **The string of a small integer** is a new byte string with its numeral. -/
theorem smallIntegerAsString_spec (hk : KernelIntact w.memory) (call : PrimitiveCall) :
    ∃ o m, smallIntegerAsString call w = some (.value call (w.withMemory m) o) ∧
      Allocated w.memory KernelClass.ByteString.index (m.bytes o).length o m ∧
      m.bytes o = Decimal.printInt (decodeSignedSmallInteger call.receiver).toInt := by
  obtain ⟨o, m, hnew, halloc, -, hbytes⟩ := hk.newBytes_spec (c := .ByteString) rfl rfl
    (Decimal.printInt (decodeSignedSmallInteger call.receiver).toInt)
  refine ⟨o, m, ?_, hbytes ▸ halloc, hbytes⟩
  rw [smallIntegerAsString, take_printInt, stringConvertCString, cStringBytes_printInt, hnew]
  rfl

end Primitives

end SlvmNative
