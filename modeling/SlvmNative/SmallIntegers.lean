import SlvmNative.KernelClasses

/-!
# Small integers

The primitives of `SmallInteger` (`classes/magnitude.c`) on tagged 64-bit words. An operation is
done on the untagged 64-bit values, and its result is shifted left by the tag; nothing checks
whether it has the 61 bits the tag leaves.

## Main definitions

* `SmallInteger`, `SmallInteger.oop` — the values a tagged word can have
* `PrimitiveContext` — what a primitive is called with
* `SmallInteger.plus`, `minus`, `multiply`, `greaterThan`, `lessThan` — the primitives

## Main results

* `SmallInteger.value_makeInteger` — a result is cut to 61 bits
* `SmallInteger.primitives_exact_iff` — when the primitives are exact
-/

namespace SlvmNative

/-- The part of `SLVM_PrimitiveContext` the primitives read and write. -/
structure PrimitiveContext where
  errorCode : ℕ
  receiver : ℕ
  /-- `oopArgumentCount` many arguments. -/
  oopArguments : List ℕ

/-- `slvm_oopIsSmallInteger` -/
def oopIsSmallInteger (oop : ℕ) : Prop := oop &&& 7 = 1

instance (oop : ℕ) : Decidable (oopIsSmallInteger oop) := inferInstanceAs (Decidable (_ = _))

/-- `slvm_decodeSmallInteger`, an arithmetic shift of the signed word. -/
def decodeSignedSmallInteger (oop : ℕ) : BitVec 64 := (BitVec.ofNat 64 oop).sshiftRight 3

/-- `slvm_makeInteger` -/
def makeInteger (value : BitVec 64) : ℕ := ((value <<< 3) ||| 1).toNat

/-- `slvm_encodeBoolean` -/
def encodeBoolean [KernelImage] (expr : Bool) : ℕ := if expr then trueOop else falseOop

/-- The integers that fit a tagged word. -/
def SmallInteger : Type := {a : ℤ // -2 ^ 60 ≤ a ∧ a < 2 ^ 60}

namespace SmallInteger

/-- The integer a tagged word stands for. -/
def value (oop : ℕ) : ℤ := (decodeSignedSmallInteger oop).toInt

/-- The tagged word of an integer. -/
def oop (a : SmallInteger) : ℕ := makeInteger (BitVec.ofInt 64 a.val)

/-- A result that fits a tagged word. -/
def Fits (a : ℤ) : Prop := -2 ^ 60 ≤ a ∧ a < 2 ^ 60

/-! ### The primitives -/

/-- What the primitives have in common: the argument has to be a small integer, or else they
abort. -/
def binaryPrimitive (operation : BitVec 64 → BitVec 64 → ℕ) (context : PrimitiveContext) :
    Option ℕ :=
  match context.oopArguments with
  | [argument] =>
    if oopIsSmallInteger argument then
      some (operation (decodeSignedSmallInteger context.receiver)
        (decodeSignedSmallInteger argument))
    else none
  -- `assert(context->oopArgumentCount == 1)`
  | _ => none

/-- `slvm_SmallInteger_primitive_plus` -/
def plus : PrimitiveContext → Option ℕ := binaryPrimitive fun a b => makeInteger (a + b)

/-- `slvm_SmallInteger_primitive_minus` -/
def minus : PrimitiveContext → Option ℕ := binaryPrimitive fun a b => makeInteger (a - b)

/-- `slvm_SmallInteger_primitive_multiply` -/
def multiply : PrimitiveContext → Option ℕ := binaryPrimitive fun a b => makeInteger (a * b)

/-- `slvm_SmallInteger_primitive_greaterThan` -/
def greaterThan [KernelImage] : PrimitiveContext → Option ℕ :=
  binaryPrimitive fun a b => encodeBoolean (b.slt a)

/-- `slvm_SmallInteger_primitive_lessThan` -/
def lessThan [KernelImage] : PrimitiveContext → Option ℕ :=
  binaryPrimitive fun a b => encodeBoolean (a.slt b)

/-! ### Tagging -/

theorem makeInteger_eq (v : BitVec 64) : makeInteger v = v.toNat * 8 % 2 ^ 64 + 1 := by
  have hshift : (v <<< 3).toNat = v.toNat * 8 % 2 ^ 64 := by
    rw [BitVec.toNat_shiftLeft, Nat.shiftLeft_eq]
  rw [makeInteger, BitVec.toNat_or, hshift]
  have heven : v.toNat * 8 % 2 ^ 64 = 2 ^ 3 * (v.toNat * 8 % 2 ^ 64 / 8) := by omega
  rw [heven]
  exact (Nat.two_pow_add_eq_or_of_lt (i := 3) (by decide) _).symm

/-- Every result is a small integer. -/
theorem makeInteger_isSmallInteger (v : BitVec 64) : oopIsSmallInteger (makeInteger v) := by
  rw [oopIsSmallInteger, show (7 : ℕ) = 2 ^ 3 - 1 from rfl, Nat.and_two_pow_sub_one_eq_mod,
    makeInteger_eq]
  omega

/-- **A result is cut to 61 bits.** -/
theorem value_makeInteger (v : BitVec 64) :
    value (makeInteger v) = (v.toInt + 2 ^ 60) % 2 ^ 61 - 2 ^ 60 := by
  have hlt := v.isLt
  have hword : (BitVec.ofNat 64 (makeInteger v)).toNat = v.toNat * 8 % 2 ^ 64 + 1 := by
    rw [BitVec.toNat_ofNat, makeInteger_eq]
    omega
  rw [value, decodeSignedSmallInteger, BitVec.toInt_sshiftRight, Int.shiftRight_eq_div_pow,
    BitVec.toInt_eq_toNat_cond, hword, BitVec.toInt_eq_toNat_cond]
  split_ifs <;> omega

/-- A result that fits is kept, and any other one is changed. -/
theorem value_makeInteger_eq_iff {v : BitVec 64} {r : ℤ} (h : v.toInt = r.bmod (2 ^ 64)) :
    value (makeInteger v) = r ↔ Fits r := by
  rw [value_makeInteger, h, Fits]
  have hmod := Int.bmod_emod (x := r) (m := 2 ^ 64)
  constructor <;> intro h' <;> omega

/-- **Tagging and untagging** an integer that fits. -/
@[simp] theorem decode_oop (a : SmallInteger) :
    (decodeSignedSmallInteger a.oop).toInt = a.val := by
  obtain ⟨a, ha⟩ := a
  refine (value_makeInteger_eq_iff ?_).mpr ha
  exact BitVec.toInt_ofInt a

theorem oop_isSmallInteger (a : SmallInteger) : oopIsSmallInteger a.oop :=
  makeInteger_isSmallInteger _

/-! ### Exactness -/

/-- Whatever small integer a primitive returns is `r`. -/
def Exact (result : Option ℕ) (r : ℤ) : Prop :=
  ∀ oop, result = some oop → oopIsSmallInteger oop → value oop = r

theorem binaryPrimitive_eq (operation : BitVec 64 → BitVec 64 → ℕ) (errorCode : ℕ)
    (a b : SmallInteger) :
    binaryPrimitive operation ⟨errorCode, a.oop, [b.oop]⟩ =
      some (operation (decodeSignedSmallInteger a.oop) (decodeSignedSmallInteger b.oop)) :=
  if_pos b.oop_isSmallInteger

/-- An operation on 64-bit words is exact just in case its result fits. -/
theorem exact_iff {operation : BitVec 64 → BitVec 64 → BitVec 64} {r : ℤ} (errorCode : ℕ)
    (a b : SmallInteger)
    (h : (operation (decodeSignedSmallInteger a.oop) (decodeSignedSmallInteger b.oop)).toInt =
      r.bmod (2 ^ 64)) :
    Exact (binaryPrimitive (fun a b => makeInteger (operation a b)) ⟨errorCode, a.oop, [b.oop]⟩) r ↔
      Fits r := by
  rw [binaryPrimitive_eq, ← value_makeInteger_eq_iff h]
  constructor
  · intro hexact
    exact hexact _ rfl (makeInteger_isSmallInteger _)
  · rintro hvalue oop hresult -
    rw [← Option.some.inj hresult]
    exact hvalue

/-- **The primitives of small integers.** `+`, `-` and `*` return the exact result just in case it
fits a tagged word; `>` and `<` are always exact. -/
theorem primitives_exact_iff [KernelImage] (a b : SmallInteger) (errorCode : ℕ) :
    (Exact (plus ⟨errorCode, a.oop, [b.oop]⟩) (a.val + b.val) ↔ Fits (a.val + b.val)) ∧
      (Exact (minus ⟨errorCode, a.oop, [b.oop]⟩) (a.val - b.val) ↔ Fits (a.val - b.val)) ∧
      (Exact (multiply ⟨errorCode, a.oop, [b.oop]⟩) (a.val * b.val) ↔ Fits (a.val * b.val)) ∧
      greaterThan ⟨errorCode, a.oop, [b.oop]⟩ = some (encodeBoolean (decide (a.val > b.val))) ∧
      lessThan ⟨errorCode, a.oop, [b.oop]⟩ = some (encodeBoolean (decide (a.val < b.val))) := by
  refine ⟨exact_iff errorCode a b ?_, exact_iff errorCode a b ?_,
    exact_iff errorCode a b ?_, ?_, ?_⟩
  · rw [BitVec.toInt_add, decode_oop, decode_oop]
  · rw [BitVec.toInt_sub, decode_oop, decode_oop]
  · rw [BitVec.toInt_mul, decode_oop, decode_oop]
  · rw [greaterThan, binaryPrimitive_eq, BitVec.slt, decode_oop, decode_oop]
  · rw [lessThan, binaryPrimitive_eq, BitVec.slt, decode_oop, decode_oop]

/-- The sum of `2 ^ 59` and itself comes out negative. -/
theorem plus_two_pow : ∃ r, plus ⟨0, oop ⟨2 ^ 59, by decide⟩, [oop ⟨2 ^ 59, by decide⟩]⟩ = some r ∧
    oopIsSmallInteger r ∧ value r = -2 ^ 60 ∧ value r ≠ 2 ^ 59 + 2 ^ 59 :=
  ⟨2 ^ 63 + 1, by decide, by decide, by decide, by decide⟩

end SmallInteger

end SlvmNative
