import Mathlib.Algebra.Group.Nat.Defs
import Mathlib.Tactic.Common

/-!
# Byte-addressed memory

Little-endian words in an array of bytes, and blocks copied within it.

## Main definitions

* `ByteMemory`, `ByteMemory.load64`, `ByteMemory.store64`, `ByteMemory.copy`, `ByteMemory.copyWords`
* `ByteMemory.load16`, `ByteMemory.load32` — parts of a word
* `ByteMemory.SameOn` — two memories agree on a range

## Main results

* `ByteMemory.load64_store64` — a word is read back as it was stored
* `ByteMemory.load64_store64_of_disjoint`, `ByteMemory.SameOn.load64` — what a load depends on
* `ByteMemory.load64_copy`, `ByteMemory.load64_copyWords` — a word of a copied block
* `ByteMemory.load16_toNat`, `ByteMemory.load32_toNat` — a part of a word is a digit of it
-/

/-- The byte at each address. -/
abbrev ByteMemory := ℕ → UInt8

namespace ByteMemory

variable {m m' : ByteMemory}

/-- The little-endian number in the `n` bytes from `a` on. -/
def loadBytes (m : ByteMemory) : ℕ → ℕ → ℕ
  | _, 0 => 0
  | a, n + 1 => (m a).toNat + 256 * loadBytes m (a + 1) n

/-- Store the low `n` bytes of a number from `a` on. -/
def storeBytes (m : ByteMemory) (a n v : ℕ) : ByteMemory := fun b =>
  if a ≤ b ∧ b < a + n then UInt8.ofNat (v / 256 ^ (b - a)) else m b

/-- The word at an address. -/
def load64 (m : ByteMemory) (a : ℕ) : UInt64 := UInt64.ofNat (loadBytes m a 8)

/-- The 16-bit number at an address. -/
def load16 (m : ByteMemory) (a : ℕ) : UInt16 := UInt16.ofNat (loadBytes m a 2)

/-- The 32-bit number at an address. -/
def load32 (m : ByteMemory) (a : ℕ) : UInt32 := UInt32.ofNat (loadBytes m a 4)

/-- Store a word. -/
def store64 (m : ByteMemory) (a : ℕ) (v : UInt64) : ByteMemory := storeBytes m a 8 v.toNat

/-- `memcpy` of `n` bytes between blocks that do not overlap. -/
def copy (m : ByteMemory) (dst src n : ℕ) : ByteMemory := fun b =>
  if dst ≤ b ∧ b < dst + n then m (src + (b - dst)) else m b

/-- The `n` words from `src` on, stored one after another from `dst` on. -/
def copyWords (m : ByteMemory) (dst src : ℕ) : ℕ → ByteMemory
  | 0 => m
  | n + 1 => store64 (copyWords m dst src n) (dst + n * 8)
    (load64 (copyWords m dst src n) (src + n * 8))

/-- The memories agree from `lo` to `hi`. -/
def SameOn (m m' : ByteMemory) (lo hi : ℕ) : Prop := ∀ a, lo ≤ a → a < hi → m' a = m a

theorem SameOn.refl (m : ByteMemory) (lo hi : ℕ) : SameOn m m lo hi := fun _ _ _ => rfl

theorem SameOn.trans {m₁ m₂ m₃ : ByteMemory} {lo hi : ℕ} (h₁ : SameOn m₁ m₂ lo hi)
    (h₂ : SameOn m₂ m₃ lo hi) : SameOn m₁ m₃ lo hi := fun a hlo hhi =>
  (h₂ a hlo hhi).trans (h₁ a hlo hhi)

theorem SameOn.mono {lo hi lo' hi' : ℕ} (h : SameOn m m' lo hi) (hlo : lo ≤ lo') (hhi : hi' ≤ hi) :
    SameOn m m' lo' hi' := fun a ha ha' => h a (Nat.le_trans hlo ha) (Nat.lt_of_lt_of_le ha' hhi)

/-! ### Words -/

theorem loadBytes_congr {a n : ℕ} (h : SameOn m m' a (a + n)) :
    loadBytes m' a n = loadBytes m a n := by
  induction n generalizing a with
  | zero => rfl
  | succ n ih =>
    have hfirst : m' a = m a := h a (Nat.le_refl a) (by omega)
    have hrest : SameOn m m' (a + 1) (a + 1 + n) := h.mono (by omega) (by omega)
    rw [loadBytes, loadBytes, hfirst, ih hrest]

/-- **A load depends on its eight bytes only.** -/
theorem SameOn.load64 {a : ℕ} (h : SameOn m m' a (a + 8)) : m'.load64 a = m.load64 a := by
  rw [ByteMemory.load64, ByteMemory.load64, loadBytes_congr h]

/-- Bytes that spell a number are read as that number. -/
theorem loadBytes_eq {a n v : ℕ} (h : ∀ i < n, m (a + i) = UInt8.ofNat (v / 256 ^ i)) :
    loadBytes m a n = v % 256 ^ n := by
  induction n generalizing a v with
  | zero => rw [loadBytes, Nat.pow_zero, Nat.mod_one]
  | succ n ih =>
    have hfirst : (m a).toNat = v % 256 := by
      have h0 := h 0 (Nat.succ_pos n)
      rw [Nat.add_zero, Nat.pow_zero, Nat.div_one] at h0
      rw [h0]
      exact UInt8.toNat_ofNat'
    have hrest : loadBytes m (a + 1) n = v / 256 % 256 ^ n := by
      refine ih fun i hi => ?_
      rw [Nat.add_assoc, Nat.add_comm 1 i, h (i + 1) (Nat.succ_lt_succ hi), Nat.div_div_eq_div_mul,
        Nat.pow_succ']
    rw [loadBytes, hfirst, hrest, Nat.pow_succ', Nat.mod_mul]

theorem storeBytes_of_mem {a n v i : ℕ} (h : i < n) :
    storeBytes m a n v (a + i) = UInt8.ofNat (v / 256 ^ i) := by
  rw [storeBytes, if_pos ⟨Nat.le_add_right a i, Nat.add_lt_add_left h a⟩, Nat.add_sub_cancel_left]

/-- **A word is read back as it was stored.** -/
@[simp] theorem load64_store64 (m : ByteMemory) (a : ℕ) (v : UInt64) :
    (m.store64 a v).load64 a = v := by
  have hlt : v.toNat < 256 ^ 8 := v.toNat_lt
  have hload : loadBytes (m.store64 a v) a 8 = v.toNat % 256 ^ 8 :=
    loadBytes_eq fun i hi => storeBytes_of_mem hi
  rw [load64, hload, Nat.mod_eq_of_lt hlt]
  exact UInt64.ofNat_toNat

theorem sameOn_store64 (m : ByteMemory) {a lo hi : ℕ} (v : UInt64) (h : a + 8 ≤ lo ∨ hi ≤ a) :
    SameOn m (m.store64 a v) lo hi := by
  intro b hlo hhi
  rw [store64, storeBytes, if_neg]
  omega

theorem SameOn.store64 {a lo hi : ℕ} (hsame : SameOn m m' lo hi) (v : UInt64)
    (h : a + 8 ≤ lo ∨ hi ≤ a) : SameOn m (m'.store64 a v) lo hi :=
  hsame.trans (m'.sameOn_store64 v h)

/-- A store elsewhere does not change a word. -/
theorem load64_store64_of_disjoint (m : ByteMemory) {a b : ℕ} (v : UInt64)
    (h : a + 8 ≤ b ∨ b + 8 ≤ a) : (m.store64 a v).load64 b = m.load64 b :=
  (m.sameOn_store64 v h).load64

/-! ### Parts of words -/

theorem loadBytes_lt (m : ByteMemory) (a n : ℕ) : loadBytes m a n < 256 ^ n := by
  induction n generalizing a with
  | zero => exact Nat.one_pos
  | succ n ih =>
    have hbyte := (m a).toNat_lt
    have hrest := ih (a + 1)
    rw [loadBytes, Nat.pow_succ']
    omega

theorem loadBytes_add (m : ByteMemory) (a k n : ℕ) :
    loadBytes m a (k + n) = loadBytes m a k + 256 ^ k * loadBytes m (a + k) n := by
  induction k generalizing a with
  | zero => rw [Nat.zero_add, loadBytes, Nat.pow_zero, Nat.one_mul, Nat.zero_add, Nat.add_zero]
  | succ k ih =>
    have hplace : a + 1 + k = a + (k + 1) := by omega
    rw [show k + 1 + n = k + n + 1 by omega, loadBytes, ih, loadBytes, hplace, Nat.pow_succ',
      Nat.mul_add, Nat.mul_assoc, Nat.add_assoc]

/-- Some bytes of a number are some of its digits. -/
theorem loadBytes_of_le (m : ByteMemory) (a : ℕ) {k n w : ℕ} (h : k + n ≤ w) :
    loadBytes m (a + k) n = loadBytes m a w / 256 ^ k % 256 ^ n := by
  obtain ⟨rest, rfl⟩ := Nat.exists_eq_add_of_le h
  have hlow := loadBytes_lt m a k
  have hpart := loadBytes_lt m (a + k) n
  rw [Nat.add_assoc, loadBytes_add m a k, loadBytes_add m (a + k) n,
    Nat.add_mul_div_left _ _ (Nat.pow_pos (by decide)), Nat.div_eq_of_lt hlow, Nat.zero_add,
    Nat.add_mul_mod_self_left, Nat.mod_eq_of_lt hpart]

theorem load64_toNat (m : ByteMemory) (a : ℕ) : (m.load64 a).toNat = loadBytes m a 8 := by
  rw [load64, UInt64.toNat_ofNat']
  exact Nat.mod_eq_of_lt (loadBytes_lt m a 8)

/-- A byte of a word. -/
theorem byte_eq (m : ByteMemory) (a : ℕ) {k : ℕ} (h : k < 8) :
    m (a + k) = UInt8.ofNat ((m.load64 a).toNat / 256 ^ k) := by
  have hdigit := m.loadBytes_of_le a (k := k) (n := 1) (w := 8) h
  rw [loadBytes, loadBytes, Nat.mul_zero, Nat.add_zero, ← load64_toNat] at hdigit
  rw [← UInt8.toNat_inj, hdigit]
  exact UInt8.toNat_ofNat'.symm

theorem load16_toNat (m : ByteMemory) (a : ℕ) {k : ℕ} (h : k + 2 ≤ 8) :
    (m.load16 (a + k)).toNat = (m.load64 a).toNat / 256 ^ k % 2 ^ 16 := by
  rw [load16, UInt16.toNat_ofNat', load64_toNat, loadBytes_of_le m a h]
  exact Nat.mod_mod _ _

theorem load32_toNat (m : ByteMemory) (a : ℕ) {k : ℕ} (h : k + 4 ≤ 8) :
    (m.load32 (a + k)).toNat = (m.load64 a).toNat / 256 ^ k % 2 ^ 32 := by
  rw [load32, UInt32.toNat_ofNat', load64_toNat, loadBytes_of_le m a h]
  exact Nat.mod_mod _ _

/-! ### Blocks -/

theorem copy_of_mem (m : ByteMemory) {dst n i : ℕ} (src : ℕ) (h : i < n) :
    m.copy dst src n (dst + i) = m (src + i) := by
  rw [copy, if_pos ⟨Nat.le_add_right dst i, Nat.add_lt_add_left h dst⟩, Nat.add_sub_cancel_left]

theorem sameOn_copy (m : ByteMemory) {dst n lo hi : ℕ} (src : ℕ) (h : dst + n ≤ lo ∨ hi ≤ dst) :
    SameOn m (m.copy dst src n) lo hi := by
  intro b hlo hhi
  rw [copy, if_neg]
  omega

/-- **A word of a copied block.** -/
theorem load64_copy (m : ByteMemory) {dst n i : ℕ} (src : ℕ) (h : i + 8 ≤ n) :
    (m.copy dst src n).load64 (dst + i) = m.load64 (src + i) := by
  have hbytes : ∀ k ≤ 8, loadBytes (m.copy dst src n) (dst + i + (8 - k)) k =
      loadBytes m (src + i + (8 - k)) k := by
    intro k hk
    induction k with
    | zero => rfl
    | succ k ih =>
      have hnext := ih (by omega)
      rw [show 8 - k = 8 - (k + 1) + 1 by omega, ← Nat.add_assoc, ← Nat.add_assoc] at hnext
      have hbyte := @copy_of_mem m dst n (i + (8 - (k + 1))) src (by omega)
      rw [← Nat.add_assoc, ← Nat.add_assoc] at hbyte
      rw [loadBytes, loadBytes, hbyte, hnext]
  rw [load64, load64]
  exact congrArg UInt64.ofNat (hbytes 8 (Nat.le_refl 8))

theorem sameOn_copyWords (m : ByteMemory) {dst n lo hi : ℕ} (src : ℕ)
    (h : dst + n * 8 ≤ lo ∨ hi ≤ dst) : SameOn m (m.copyWords dst src n) lo hi := by
  induction n with
  | zero => exact SameOn.refl m lo hi
  | succ n ih => exact (ih (by omega)).store64 _ (by omega)

/-- **A word of words copied one after another.** -/
theorem load64_copyWords (m : ByteMemory) {dst src n i : ℕ} (hi : i < n)
    (h : dst + n * 8 ≤ src ∨ src + n * 8 ≤ dst) :
    (m.copyWords dst src n).load64 (dst + i * 8) = m.load64 (src + i * 8) := by
  induction n with
  | zero => exact absurd hi (Nat.not_lt_zero i)
  | succ n ih =>
    rcases Nat.lt_succ_iff_lt_or_eq.mp hi with hlt | rfl
    · rw [copyWords, load64_store64_of_disjoint _ _ (by omega)]
      exact ih hlt (by omega)
    · rw [copyWords, load64_store64]
      exact (m.sameOn_copyWords src (by omega)).load64

-- proofs about programs go through the lemmas above
attribute [irreducible] load64 store64 copy

end ByteMemory
