import Mathlib.Data.Nat.Bitwise
import Mathlib.Tactic.Common
import Mathlib.Tactic.Ring

/-!
# Machine words as natural numbers

Rounding by masking, and bit-fields: the part of a word between two bit positions, read and
assigned.

## Main definitions

* `Words.field`, `Words.setField` — a bit-field of a word, and its assignment

## Main results

* `and_neg_two_pow` — masking with the negative of a power of two rounds down to a multiple
* `shiftLeft_or` — a number shifted above another, joined with it
* `field_setField_self`, `field_setField_of_ge`, `field_setField_of_le` — reading a bit-field
  after an assignment
-/

namespace Words

/-! ### Rounding -/

/-- The two's complement of `2 ^ k`, as a mask, clears the low `k` bits. -/
theorem and_neg_two_pow {w k x : ℕ} (hk : k ≤ w) (hx : x < 2 ^ w) :
    x &&& (2 ^ w - 2 ^ k) = x / 2 ^ k * 2 ^ k := by
  have hmask : 2 ^ w - 2 ^ k = (2 ^ (w - k) - 1) <<< k := by
    rw [Nat.shiftLeft_eq, Nat.sub_mul, one_mul, ← Nat.pow_add, Nat.sub_add_cancel hk]
  rw [hmask, ← Nat.shiftRight_eq_div_pow, ← Nat.shiftLeft_eq]
  refine Nat.eq_of_testBit_eq fun i => ?_
  rw [Nat.testBit_and, Nat.testBit_shiftLeft, Nat.testBit_shiftLeft, Nat.testBit_shiftRight,
    Nat.testBit_two_pow_sub_one]
  by_cases hi : k ≤ i
  · rw [Nat.add_sub_cancel' hi]
    by_cases hiw : i < w
    · simp [hi, show i - k < w - k by omega]
    · -- above the width both sides are clear
      have hbit : x.testBit i = false :=
        Nat.testBit_lt_two_pow (hx.trans_le (Nat.pow_le_pow_right (by decide) (by omega)))
      simp [hbit]
  · simp [hi]

/-! ### Bit-fields -/

/-- A number shifted above another is joined with it as by addition. -/
theorem shiftLeft_or {k low : ℕ} (h : low < 2 ^ k) (high : ℕ) :
    high <<< k ||| low = 2 ^ k * high + low := by
  rw [Nat.shiftLeft_eq, Nat.mul_comm, Nat.two_pow_add_eq_or_of_lt h]

/-- The bit-field of `width` bits from bit `offset` on. -/
def field (word offset width : ℕ) : ℕ := word / 2 ^ offset % 2 ^ width

/-- The word with `v`, cut to `width` bits, assigned to the bit-field from bit `offset` on. -/
def setField (word offset width v : ℕ) : ℕ :=
  word / 2 ^ (offset + width) * 2 ^ (offset + width) + v % 2 ^ width * 2 ^ offset +
    word % 2 ^ offset

variable {word offset width offset' width' v : ℕ}

theorem field_lt (word offset width : ℕ) : field word offset width < 2 ^ width :=
  Nat.mod_lt _ (Nat.two_pow_pos _)

@[simp] theorem field_zero (offset width : ℕ) : field 0 offset width = 0 := by
  simp [field]

/-- A bit-field of a word that has been cut. -/
theorem field_mod {w : ℕ} (h : offset + width ≤ w) :
    field (word % 2 ^ w) offset width = field word offset width := by
  have hpow : 2 ^ w = 2 ^ offset * 2 ^ (w - offset) := by
    rw [← Nat.pow_add, Nat.add_sub_cancel' (by omega)]
  rw [field, field, hpow, Nat.mod_mul_right_div_self]
  exact Nat.mod_mod_of_dvd _ (pow_dvd_pow _ (by omega))

/-- An assignment keeps what is below the bit-field. -/
theorem setField_eq_low_add (word offset width v : ℕ) : setField word offset width v =
    word % 2 ^ offset + 2 ^ offset * (word / 2 ^ (offset + width) * 2 ^ width + v % 2 ^ width) := by
  rw [setField, Nat.pow_add]
  ring

theorem field_setField_self (word offset width v : ℕ) :
    field (setField word offset width v) offset width = v % 2 ^ width := by
  rw [field, setField_eq_low_add, Nat.add_mul_div_left _ _ (Nat.two_pow_pos _),
    Nat.div_eq_of_lt (Nat.mod_lt _ (Nat.two_pow_pos _)), Nat.zero_add, Nat.add_comm,
    Nat.add_mul_mod_self_right, Nat.mod_mod]

/-- A bit-field above the one assigned keeps its value. -/
theorem field_setField_of_ge (h : offset + width ≤ offset') (v : ℕ) :
    field (setField word offset width v) offset' width' = field word offset' width' := by
  have hlow : v % 2 ^ width * 2 ^ offset + word % 2 ^ offset < 2 ^ (offset + width) := by
    have hv : v % 2 ^ width + 1 ≤ 2 ^ width := Nat.mod_lt _ (Nat.two_pow_pos _)
    have hw : word % 2 ^ offset < 2 ^ offset := Nat.mod_lt _ (Nat.two_pow_pos _)
    calc v % 2 ^ width * 2 ^ offset + word % 2 ^ offset
        < v % 2 ^ width * 2 ^ offset + 2 ^ offset := Nat.add_lt_add_left hw _
      _ = (v % 2 ^ width + 1) * 2 ^ offset := by ring
      _ ≤ 2 ^ width * 2 ^ offset := Nat.mul_le_mul_right _ hv
      _ = 2 ^ (offset + width) := by rw [Nat.pow_add, Nat.mul_comm]
  have hhigh : setField word offset width v / 2 ^ (offset + width) =
      word / 2 ^ (offset + width) := by
    rw [setField, Nat.add_assoc, Nat.mul_comm, Nat.mul_add_div (Nat.two_pow_pos _),
      Nat.div_eq_of_lt hlow, Nat.add_zero]
  have hpow : 2 ^ offset' = 2 ^ (offset + width) * 2 ^ (offset' - (offset + width)) := by
    rw [← Nat.pow_add, Nat.add_sub_cancel' h]
  rw [field, field, hpow, ← Nat.div_div_eq_div_mul, ← Nat.div_div_eq_div_mul, hhigh]

/-- A bit-field below the one assigned keeps its value. -/
theorem field_setField_of_le (h : offset' + width' ≤ offset) (v : ℕ) :
    field (setField word offset width v) offset' width' = field word offset' width' := by
  have hlow : setField word offset width v % 2 ^ offset = word % 2 ^ offset := by
    rw [setField_eq_low_add, Nat.add_mul_mod_self_left, Nat.mod_mod]
  have hdvd : 2 ^ offset' * 2 ^ width' ∣ 2 ^ offset := by
    rw [← Nat.pow_add]
    exact pow_dvd_pow 2 h
  rw [field, field, ← Nat.mod_mul_right_div_self, ← Nat.mod_mul_right_div_self,
    ← Nat.mod_mod_of_dvd _ hdvd, hlow, Nat.mod_mod_of_dvd _ hdvd]

end Words
