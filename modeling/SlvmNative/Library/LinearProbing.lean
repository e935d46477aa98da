import Mathlib.Data.Finset.Card
import Mathlib.Data.Finset.Range
import Mathlib.Data.Nat.ModEq
import Mathlib.Logic.Function.Basic
import Mathlib.Tactic.Common

/-!
# Linear probing

Open addressing with linear probing over a table of `n` slots, for entries `(key, value)` whose
keys are compared by an arbitrary equivalence. The scan is a bounded loop that stops at the first
slot a caller-supplied test accepts; everything else is about the table the scan runs over.

The invariant is `IsTable`: from the home slot of an entry to the slot that holds it there is no
hole, and two slots never hold equivalent keys. It is what makes a scan that stops at holes and
at equivalent keys find an entry whenever there is one, and a hole from which the same invariant
can be extended whenever there is none.

## Main definitions

* `LinearProbing.probe` — the scan
* `LinearProbing.Reached`, `IsTable` — the probing invariant
* `LinearProbing.Finds` — scanning from a slot finds a key
* `LinearProbing.Maps` — the map the table stands for, as a relation
* `LinearProbing.occupied` — the number of used slots
* `Represents` — the table stands for a finite map
* `Rehashed` — what inserting the entries of a table into another one has achieved half way

## Main results

* `probe_eq_some_iff`, `probe_eq_none_iff` — what a scan returns
* `IsTable.probe_of_mem`, `IsTable.probe_of_not_mem` — scanning for a present and an absent key
* `IsTable.insert`, `IsTable.replace` — the two ways of storing an entry
* `Represents.rehome` — a table whose keys have other home slots
* `Represents.scan` — the slot a scan finds is where the entry of the key belongs
* `Rehashed.finish` — a rehashed table stands for the same map
-/

namespace LinearProbing

/-! ### The scan -/

/-- The scanning loop: look at `index`, then at the slot after it, and so on around the table,
until `stop` accepts a slot or the walk is back at `start`. The fuel bounds the walk. -/
def probeLoop (n start : ℕ) (stop : ℕ → Bool) : ℕ → ℕ → Option ℕ
  | 0, _ => none
  | fuel + 1, index =>
    if stop index then some index
    else if (index + 1) % n = start then none
    else probeLoop n start stop fuel ((index + 1) % n)

/-- Scan a table of `n` slots from `start` for the first slot that `stop` accepts. -/
def probe (n start : ℕ) (stop : ℕ → Bool) : Option ℕ := probeLoop n start stop n start

/-- The scan stops where it starts if it can. -/
theorem probe_of_start {n start : ℕ} {stop : ℕ → Bool} (hs : start < n)
    (h : stop start = true) : probe n start stop = some start := by
  cases n with
  | zero => cases hs
  | succ n => rw [probe, probeLoop, if_pos h]

/-- The scan looks at the slots of the table only. -/
theorem probe_congr {n start : ℕ} {stop stop' : ℕ → Bool} (hs : start < n)
    (h : ∀ i < n, stop i = stop' i) : probe n start stop = probe n start stop' := by
  suffices hloop : ∀ fuel index, index < n →
      probeLoop n start stop fuel index = probeLoop n start stop' fuel index from hloop n start hs
  intro fuel
  induction fuel with
  | zero =>
    intro index _
    rfl
  | succ fuel ih =>
    intro index hi
    have hnext : (index + 1) % n < n := Nat.mod_lt _ (Nat.zero_lt_of_lt hi)
    rw [probeLoop, probeLoop, h index hi, ih _ hnext]

/-- Two offsets below `n` from one start land on one slot only if they are the same. -/
theorem add_mod_injective {n s c d : ℕ} (hc : c < n) (hd : d < n)
    (h : (s + c) % n = (s + d) % n) : c = d := by
  have hcd : c ≡ d [MOD n] := Nat.ModEq.add_left_cancel' s h
  rwa [Nat.ModEq, Nat.mod_eq_of_lt hc, Nat.mod_eq_of_lt hd] at hcd

/-- Every slot is some offset below `n` away from any start. -/
theorem exists_offset {n i : ℕ} (s : ℕ) (hi : i < n) : ∃ d < n, i = (s + d) % n := by
  have hn : 0 < n := Nat.zero_lt_of_lt hi
  have hs : s % n < n := Nat.mod_lt s hn
  refine ⟨(i + n - s % n) % n, Nat.mod_lt _ hn, ?_⟩
  rw [Nat.add_mod_mod, ← Nat.mod_add_mod, show s % n + (i + n - s % n) = i + n by omega,
    Nat.add_mod_right, Nat.mod_eq_of_lt hi]

/-- The loop, entered at offset `d` with everything before `d` rejected, returns the first
accepted slot, or nothing when no slot is accepted. -/
theorem probeLoop_spec {n start : ℕ} {stop : ℕ → Bool} (hs : start < n) :
    ∀ fuel d : ℕ, d + fuel = n → (∀ c < d, stop ((start + c) % n) = false) →
      (∃ c < n, probeLoop n start stop fuel ((start + d) % n) = some ((start + c) % n) ∧
          stop ((start + c) % n) = true ∧ ∀ b < c, stop ((start + b) % n) = false) ∨
        (probeLoop n start stop fuel ((start + d) % n) = none ∧
          ∀ c < n, stop ((start + c) % n) = false) := by
  intro fuel
  induction fuel with
  | zero =>
    intro d hd hrej
    exact Or.inr ⟨rfl, fun c hc => hrej c (by omega)⟩
  | succ fuel ih =>
    intro d hd hrej
    cases hst : stop ((start + d) % n) with
    | true => exact Or.inl ⟨d, by omega, by simp [probeLoop, hst], hst, hrej⟩
    | false =>
      have hrej' : ∀ c < d + 1, stop ((start + c) % n) = false := by
        intro c hc
        rcases Nat.lt_succ_iff_lt_or_eq.mp hc with h | rfl
        · exact hrej c h
        · exact hst
      have hnext : ((start + d) % n + 1) % n = (start + (d + 1)) % n := by
        rw [Nat.mod_add_mod, Nat.add_assoc]
      by_cases hback : (start + (d + 1)) % n = start
      · -- back at the start: every offset below `n` has been rejected
        have hall : d + 1 = n := by
          by_contra hne
          have h0 : (start + (d + 1)) % n = (start + 0) % n := by
            rw [hback, Nat.add_zero, Nat.mod_eq_of_lt hs]
          exact absurd (add_mod_injective (by omega) (by omega) h0) (Nat.succ_ne_zero d)
        exact Or.inr ⟨by simp [probeLoop, hst, hnext, hback], fun c hc => hrej' c (by omega)⟩
      · have := ih (d + 1) (by omega) hrej'
        simpa [probeLoop, hst, hnext, hback] using this

theorem probe_spec {n start : ℕ} (stop : ℕ → Bool) (hs : start < n) :
    (∃ c < n, probe n start stop = some ((start + c) % n) ∧ stop ((start + c) % n) = true ∧
        ∀ b < c, stop ((start + b) % n) = false) ∨
      (probe n start stop = none ∧ ∀ c < n, stop ((start + c) % n) = false) := by
  have h := @probeLoop_spec n start stop hs n 0 (Nat.zero_add n) fun c hc => absurd hc (by omega)
  rwa [Nat.add_zero, Nat.mod_eq_of_lt hs] at h

/-- What it means for a scan to return a slot: it is the first accepted one after `start`. -/
theorem probe_eq_some_iff {n start i : ℕ} {stop : ℕ → Bool} (hs : start < n) :
    probe n start stop = some i ↔
      ∃ c < n, i = (start + c) % n ∧ stop i = true ∧ ∀ b < c, stop ((start + b) % n) = false := by
  constructor
  · intro h
    rcases probe_spec stop hs with ⟨c, hc, hp, hst, hb⟩ | ⟨hp, -⟩
    · obtain rfl : (start + c) % n = i := Option.some.inj (hp.symm.trans h)
      exact ⟨c, hc, rfl, hst, hb⟩
    · rw [hp] at h; cases h
  · rintro ⟨c, hc, rfl, hst, hb⟩
    rcases probe_spec stop hs with ⟨c', hc', hp, hst', hb'⟩ | ⟨-, hall⟩
    · rcases Nat.lt_trichotomy c c' with h | rfl | h
      · rw [hb' c h] at hst; cases hst
      · exact hp
      · rw [hb c' h] at hst'; cases hst'
    · rw [hall c hc] at hst; cases hst

/-- A scan that finds nothing has rejected every slot. -/
theorem probe_eq_none_iff {n start : ℕ} {stop : ℕ → Bool} (hs : start < n) :
    probe n start stop = none ↔ ∀ i < n, stop i = false := by
  constructor
  · intro h i hi
    rcases probe_spec stop hs with ⟨c, -, hp, -⟩ | ⟨-, hall⟩
    · rw [hp] at h; cases h
    · obtain ⟨d, hd, rfl⟩ := exists_offset start hi
      exact hall d hd
  · intro h
    rcases probe_spec stop hs with ⟨c, hc, -, hst, -⟩ | ⟨hp, -⟩
    · rw [h _ (Nat.mod_lt _ (by omega))] at hst; cases hst
    · exact hp

theorem probe_lt {n start i : ℕ} {stop : ℕ → Bool} (hs : start < n)
    (h : probe n start stop = some i) : i < n ∧ stop i = true := by
  obtain ⟨c, -, rfl, hst, -⟩ := (probe_eq_some_iff hs).mp h
  exact ⟨Nat.mod_lt _ (by omega), hst⟩

/-- A scan succeeds as soon as one slot is acceptable. -/
theorem exists_probe {n start i : ℕ} {stop : ℕ → Bool} (hs : start < n) (hi : i < n)
    (h : stop i = true) : ∃ j < n, probe n start stop = some j ∧ stop j = true := by
  rcases hp : probe n start stop with _ | j
  · rw [(probe_eq_none_iff hs).mp hp i hi] at h; cases h
  · obtain ⟨hj, hst⟩ := probe_lt hs hp
    exact ⟨j, hj, rfl, hst⟩

/-! ### The number of used slots -/

section Occupied

variable {α : Type*}

/-- The number of the first `n` slots that hold an entry. -/
def occupied (n : ℕ) (t : ℕ → Option α) : ℕ :=
  ((Finset.range n).filter fun i => (t i).isSome).card

@[simp] theorem occupied_zero (t : ℕ → Option α) : occupied 0 t = 0 := rfl

theorem occupied_succ (n : ℕ) (t : ℕ → Option α) :
    occupied (n + 1) t = occupied n t + if (t n).isSome then 1 else 0 := by
  rw [occupied, Finset.range_add_one, Finset.filter_insert]
  split
  · rw [Finset.card_insert_of_notMem (by simp), occupied]
  · simp [occupied]

theorem occupied_le (n : ℕ) (t : ℕ → Option α) : occupied n t ≤ n :=
  (Finset.card_filter_le _ _).trans (by simp)

theorem occupied_congr {n : ℕ} {t u : ℕ → Option α} (h : ∀ i < n, t i = u i) :
    occupied n t = occupied n u := by
  unfold occupied
  congr 1
  exact Finset.filter_congr fun i hi => by rw [h i (Finset.mem_range.mp hi)]

@[simp] theorem occupied_none (n : ℕ) : occupied n (fun _ => (none : Option α)) = 0 := by
  simp [occupied]

/-- The holes are the slots that are not taken. -/
theorem occupied_add_holes (n : ℕ) (t : ℕ → Option α) :
    occupied n t + ((Finset.range n).filter fun i => t i = none).card = n := by
  have hsplit := Finset.card_filter_add_card_filter_not (s := Finset.range n)
    fun i => (t i).isSome
  rw [Finset.card_range] at hsplit
  have hholes : ((Finset.range n).filter fun i => t i = none) =
      (Finset.range n).filter fun i => ¬ (t i).isSome :=
    Finset.filter_congr fun i _ => by simp
  rw [hholes]
  exact hsplit

/-- A table that is not full has a hole. -/
theorem exists_hole {n : ℕ} {t : ℕ → Option α} (h : occupied n t < n) : ∃ i < n, t i = none := by
  by_contra hall
  push Not at hall
  have hfull : (Finset.range n).filter (fun i => (t i).isSome) = Finset.range n :=
    Finset.filter_true_of_mem fun i hi => Option.isSome_iff_ne_none.mpr
      (hall i (Finset.mem_range.mp hi))
  rw [occupied, hfull, Finset.card_range] at h
  exact lt_irrefl n h

/-- Using a free slot takes one more. -/
theorem occupied_update_of_none {n i : ℕ} {t : ℕ → Option α} (hi : i < n) (ht : t i = none)
    (a : α) : occupied n (Function.update t i (some a)) = occupied n t + 1 := by
  have hset : (Finset.range n).filter (fun j => (Function.update t i (some a) j).isSome)
      = insert i ((Finset.range n).filter fun j => (t j).isSome) := by
    ext j
    by_cases hj : j = i
    · subst hj; simp [hi]
    · simp [hj]
  rw [occupied, hset, Finset.card_insert_of_notMem (by simp [ht]), occupied]

/-- Storing into a used slot takes none. -/
theorem occupied_update_of_some {n i : ℕ} {t : ℕ → Option α} {b : α} (ht : t i = some b) (a : α) :
    occupied n (Function.update t i (some a)) = occupied n t := by
  unfold occupied
  congr 1
  refine Finset.filter_congr fun j _ => ?_
  by_cases hj : j = i
  · subst hj; simp [ht]
  · rw [Function.update_of_ne hj]

end Occupied

/-! ### The invariant -/

variable {κ ν : Type*} {n : ℕ} {home : κ → ℕ} {eqv : κ → κ → Prop} {t u : ℕ → Option (κ × ν)}

/-- Slot `i` is reached from `start` over used slots only. -/
def Reached (n : ℕ) (t : ℕ → Option (κ × ν)) (start i : ℕ) : Prop :=
  ∃ d < n, i = (start + d) % n ∧ ∀ c < d, t ((start + c) % n) ≠ none

/-- The probing invariant of a table of `n` slots. -/
structure IsTable (n : ℕ) (home : κ → ℕ) (eqv : κ → κ → Prop) (t : ℕ → Option (κ × ν)) :
    Prop where
  /-- There is no hole between the home slot of an entry and the entry. -/
  reached : ∀ i < n, ∀ e, t i = some e → Reached n t (home e.1) i
  /-- No two slots hold equivalent keys. -/
  unique : ∀ i < n, ∀ j < n, ∀ e e', t i = some e → t j = some e' → eqv e.1 e'.1 → i = j

/-- The table maps `k` to `v`. -/
def Maps (n : ℕ) (eqv : κ → κ → Prop) (t : ℕ → Option (κ × ν)) (k : κ) (v : ν) : Prop :=
  ∃ i < n, ∃ e, t i = some e ∧ eqv e.1 k ∧ e.2 = v

/-- From the slot `start` on, the entry of `k` comes before any free slot. -/
def Finds (n : ℕ) (t : ℕ → Option (κ × ν)) (start : ℕ) (k : κ) : Prop :=
  ∃ i v, t i = some (k, v) ∧ Reached n t start i

/-- The test a scan for `k` uses: stop at a hole and at a key equivalent to `k`. -/
def Accepts (n : ℕ) (eqv : κ → κ → Prop) (t : ℕ → Option (κ × ν)) (k : κ) (stop : ℕ → Bool) :
    Prop :=
  ∀ i < n, stop i = true ↔ t i = none ∨ ∃ e, t i = some e ∧ eqv e.1 k

theorem isTable_none (n : ℕ) (home : κ → ℕ) (eqv : κ → κ → Prop) :
    IsTable n home eqv (fun _ => (none : Option (κ × ν))) :=
  ⟨fun _ _ _ h => (Option.some_ne_none _ h.symm).elim,
    fun _ _ _ _ _ _ h => (Option.some_ne_none _ h.symm).elim⟩

theorem not_maps_none (n : ℕ) (eqv : κ → κ → Prop) (k : κ) (v : ν) :
    ¬ Maps n eqv (fun _ => (none : Option (κ × ν))) k v := by
  rintro ⟨i, -, e, h, -⟩
  cases h

theorem Reached.congr {start i : ℕ} (h : Reached n t start i) (htu : ∀ i < n, u i = t i) :
    Reached n u start i := by
  obtain ⟨d, hd, hid, hused⟩ := h
  refine ⟨d, hd, hid, fun c hc => ?_⟩
  rw [htu _ (Nat.mod_lt _ (by omega))]
  exact hused c hc

theorem IsTable.congr (h : IsTable n home eqv t) (htu : ∀ i < n, u i = t i) :
    IsTable n home eqv u := by
  refine ⟨fun i hi e he => ?_, fun i hi j hj e e' he he' => ?_⟩
  · exact (h.reached i hi e (htu i hi ▸ he)).congr htu
  · exact h.unique i hi j hj e e' (htu i hi ▸ he) (htu j hj ▸ he')

theorem Maps.congr {k : κ} {v : ν} (h : Maps n eqv t k v) (htu : ∀ i < n, u i = t i) :
    Maps n eqv u k v := by
  obtain ⟨i, hi, e, he, hk, hv⟩ := h
  exact ⟨i, hi, e, by rw [htu i hi]; exact he, hk, hv⟩

theorem Reached.lt {start i : ℕ} (h : Reached n t start i) : i < n := by
  obtain ⟨d, hd, rfl, -⟩ := h
  exact Nat.mod_lt _ (by omega)

/-- Storing into any slot keeps what was reachable reachable. -/
theorem Reached.update {start i : ℕ} (h : Reached n t start i) (j : ℕ) (e : κ × ν) :
    Reached n (Function.update t j (some e)) start i := by
  obtain ⟨d, hd, hid, hused⟩ := h
  refine ⟨d, hd, hid, fun c hc => ?_⟩
  by_cases hj : (start + c) % n = j
  · simp [hj]
  · rw [Function.update_of_ne hj]; exact hused c hc

/-- **Scanning for a present key finds its slot.** -/
theorem IsTable.probe_of_mem (h : IsTable n home eqv t) (heqv : Equivalence eqv) {k : κ}
    {stop : ℕ → Bool} (hstop : Accepts n eqv t k stop) {i start : ℕ} (hi : i < n) {e : κ × ν}
    (he : t i = some e) (hk : eqv e.1 k) (hstart : start < n) (hhome : home e.1 = start) :
    probe n start stop = some i := by
  subst hhome
  obtain ⟨d, hd, hid, hused⟩ := h.reached i hi e he
  refine (probe_eq_some_iff hstart).mpr ⟨d, hd, hid, (hstop i hi).mpr (Or.inr ⟨e, he, hk⟩), ?_⟩
  intro c hc
  have hcn : (home e.1 + c) % n < n := Nat.mod_lt _ (by omega)
  rw [Bool.eq_false_iff]
  intro hs
  rcases (hstop _ hcn).mp hs with hnone | ⟨e', he', hk'⟩
  · exact hused c hc hnone
  · -- an equivalent key earlier on the way would be a second slot for the same key
    have hsame := h.unique _ hcn i hi e' e he' he (heqv.trans hk' (heqv.symm hk))
    have := add_mod_injective (by omega) hd (hsame.trans hid)
    omega

/-- Whatever slot a scan stops at, it has passed over used slots only. -/
theorem reached_of_probe {k : κ} {stop : ℕ → Bool} (hstop : Accepts n eqv t k stop) {start i : ℕ}
    (hstart : start < n) (hp : probe n start stop = some i) : Reached n t start i := by
  obtain ⟨c, hc, hic, -, hrej⟩ := (probe_eq_some_iff hstart).mp hp
  refine ⟨c, hc, hic, fun b hb hbn => ?_⟩
  have hbn' : (start + b) % n < n := Nat.mod_lt _ (by omega)
  have hrejb := hrej b hb
  rw [(hstop _ hbn').mpr (Or.inl hbn)] at hrejb
  cases hrejb

/-- **Scanning for an absent key finds a hole**, and the hole is reachable from the home slot. -/
theorem probe_of_not_mem {k : κ} {stop : ℕ → Bool} (hstop : Accepts n eqv t k stop)
    {start : ℕ} (hstart : start < n) (habs : ∀ i < n, ∀ e, t i = some e → ¬ eqv e.1 k)
    (hhole : ∃ i < n, t i = none) :
    ∃ i < n, probe n start stop = some i ∧ t i = none ∧ Reached n t start i := by
  obtain ⟨j, hj, hjnone⟩ := hhole
  obtain ⟨i, hi, hp, hst⟩ := exists_probe hstart hj ((hstop j hj).mpr (Or.inl hjnone))
  have hnone : ∀ m < n, stop m = true → t m = none := by
    intro m hm hms
    rcases (hstop m hm).mp hms with h | ⟨e, he, hk⟩
    · exact h
    · exact absurd hk (habs m hm e he)
  exact ⟨i, hi, hp, hnone i hi hst, reached_of_probe hstop hstart hp⟩

/-- Scanning from a slot from which the key is not found stops at a hole. -/
theorem probe_of_not_finds {k : κ} {stop : ℕ → Bool} (hstop : Accepts n Eq t k stop) {start : ℕ}
    (hstart : start < n) (hhole : ∃ i < n, t i = none) (hnot : ¬ Finds n t start k) :
    ∃ i < n, probe n start stop = some i ∧ t i = none := by
  obtain ⟨j, hj, hjnone⟩ := hhole
  obtain ⟨i, hi, hp, hst⟩ := exists_probe hstart hj ((hstop j hj).mpr (Or.inl hjnone))
  refine ⟨i, hi, hp, ?_⟩
  rcases (hstop i hi).mp hst with hnone | ⟨⟨k', v⟩, he, rfl⟩
  · exact hnone
  · exact absurd ⟨i, v, he, reached_of_probe hstop hstart hp⟩ hnot

/-- **Storing a new key in a reachable hole.** -/
theorem IsTable.insert (h : IsTable n home eqv t) (heqv : Equivalence eqv) {i : ℕ}
    (ht : t i = none) {k : κ} (hr : Reached n t (home k) i)
    (habs : ∀ j < n, ∀ e, t j = some e → ¬ eqv e.1 k) (v : ν) :
    IsTable n home eqv (Function.update t i (some (k, v))) := by
  refine ⟨fun j hj e he => ?_, fun a ha b hb e e' he he' hk => ?_⟩
  · by_cases hji : j = i
    · subst hji
      rw [Function.update_self] at he
      obtain rfl := Option.some.inj he
      exact hr.update _ _
    · rw [Function.update_of_ne hji] at he
      exact (h.reached j hj e he).update _ _
  · by_cases hai : a = i <;> by_cases hbi : b = i
    · rw [hai, hbi]
    · subst hai
      rw [Function.update_self] at he
      rw [Function.update_of_ne hbi] at he'
      obtain rfl := Option.some.inj he
      exact absurd (heqv.symm hk) (habs b hb e' he')
    · subst hbi
      rw [Function.update_of_ne hai] at he
      rw [Function.update_self] at he'
      obtain rfl := Option.some.inj he'
      exact absurd hk (habs a ha e he)
    · rw [Function.update_of_ne hai] at he
      rw [Function.update_of_ne hbi] at he'
      exact h.unique a ha b hb e e' he he' hk

/-- **Replacing the entry of a present key** by one with an equivalent key and the same home. -/
theorem IsTable.replace (h : IsTable n home eqv t) (heqv : Equivalence eqv) {i : ℕ} (hi : i < n)
    {e : κ × ν} (ht : t i = some e) {k : κ} (hk : eqv e.1 k) (hhome : home k = home e.1) (v : ν) :
    IsTable n home eqv (Function.update t i (some (k, v))) := by
  -- up to equivalence the keys of the table are what they were
  have hold : ∀ j, ∀ e', Function.update t i (some (k, v)) j = some e' →
      ∃ e₀, t j = some e₀ ∧ eqv e₀.1 e'.1 ∧ home e'.1 = home e₀.1 := by
    intro j e' he'
    by_cases hji : j = i
    · subst hji
      rw [Function.update_self] at he'
      obtain rfl := Option.some.inj he'
      exact ⟨e, ht, hk, hhome⟩
    · rw [Function.update_of_ne hji] at he'
      exact ⟨e', he', heqv.refl _, rfl⟩
  refine ⟨fun j hj e' he' => ?_, fun a ha b hb e₁ e₂ h₁ h₂ hk' => ?_⟩
  · obtain ⟨e₀, he₀, -, hh⟩ := hold j e' he'
    rw [hh]
    exact (h.reached j hj e₀ he₀).update _ _
  · obtain ⟨d₁, hd₁, hk₁, -⟩ := hold a e₁ h₁
    obtain ⟨d₂, hd₂, hk₂, -⟩ := hold b e₂ h₂
    exact h.unique a ha b hb d₁ d₂ hd₁ hd₂
      (heqv.trans hk₁ (heqv.trans hk' (heqv.symm hk₂)))

/-- After storing `(k, v)` in a slot that held no key inequivalent to `k`, and when no other slot
holds a key equivalent to `k`, the map is the old one with `k` bound to `v`. -/
theorem maps_update_iff (heqv : Equivalence eqv) {i : ℕ} (hi : i < n) {k : κ} {v : ν}
    (hslot : ∀ e, t i = some e → eqv e.1 k)
    (habs : ∀ j < n, j ≠ i → ∀ e, t j = some e → ¬ eqv e.1 k) (k' : κ) (v' : ν) :
    Maps n eqv (Function.update t i (some (k, v))) k' v' ↔
      (eqv k k' ∧ v = v') ∨ (¬ eqv k k' ∧ Maps n eqv t k' v') := by
  constructor
  · rintro ⟨j, hj, e, he, hk', rfl⟩
    by_cases hji : j = i
    · subst hji
      rw [Function.update_self] at he
      obtain rfl := Option.some.inj he
      exact Or.inl ⟨hk', rfl⟩
    · rw [Function.update_of_ne hji] at he
      refine Or.inr ⟨fun hkk => habs j hj hji e he (heqv.trans hk' (heqv.symm hkk)), ?_⟩
      exact ⟨j, hj, e, he, hk', rfl⟩
  · rintro (⟨hkk, rfl⟩ | ⟨hkk, j, hj, e, he, hk', rfl⟩)
    · exact ⟨i, hi, (k, v), Function.update_self .., hkk, rfl⟩
    · have hji : j ≠ i := by
        rintro rfl
        exact hkk (heqv.trans (heqv.symm (hslot e he)) hk')
      exact ⟨j, hj, e, by rw [Function.update_of_ne hji]; exact he, hk', rfl⟩

/-! ### Tables that stand for a map -/

section Represents

variable {f g : κ → Option ν} {m : ℕ} {home' : κ → ℕ}

/-- A table whose entries are the bindings of a map. -/
structure Represents (n : ℕ) (home : κ → ℕ) (t : ℕ → Option (κ × ν)) (f : κ → Option ν) :
    Prop where
  isTable : IsTable n home Eq t
  maps : ∀ k v, Maps n Eq t k v ↔ f k = some v

/-- The map of a list of entries, the newest of a key first, with one more entry. -/
theorem lookup_cons_eq_update [DecidableEq κ] (entries : List (κ × ν)) (k : κ) (v : ν) :
    (fun k' => ((k, v) :: entries).lookup k') =
      Function.update (fun k' => entries.lookup k') k (some v) := by
  funext k'
  by_cases hk : k' = k
  · rw [hk, Function.update_self, List.lookup_cons_self]
  · have hbeq : (k' == k) = false := beq_false_of_ne hk
    rw [Function.update_of_ne hk, List.lookup_cons, hbeq]

theorem represents_none (n : ℕ) (home : κ → ℕ) :
    Represents n home (fun _ => none) (fun _ => (none : Option ν)) where
  isTable := isTable_none n home Eq
  maps k v := ⟨fun h => absurd h (not_maps_none n Eq k v), fun h => absurd h (by simp)⟩

namespace Represents

theorem congr (h : Represents n home t f) (htu : ∀ i < n, u i = t i) : Represents n home u f where
  isTable := h.isTable.congr htu
  maps k v := ⟨fun hu => (h.maps k v).mp (hu.congr fun i hi => (htu i hi).symm),
    fun hf => ((h.maps k v).mpr hf).congr htu⟩

/-- A table depends on the home slots of its entries only. -/
theorem congr_home (h : Represents n home t f)
    (hhome : ∀ i < n, ∀ e, t i = some e → home' e.1 = home e.1) : Represents n home' t f where
  isTable := ⟨fun i hi e he => by rw [hhome i hi e he]; exact h.isTable.reached i hi e he,
    h.isTable.unique⟩
  maps := h.maps

/-- A used slot holds the binding of its key. -/
theorem eq_some_of_slot (h : Represents n home t f) {i : ℕ} (hi : i < n) {k : κ} {v : ν}
    (ht : t i = some (k, v)) : f k = some v :=
  (h.maps k v).mp ⟨i, hi, (k, v), ht, rfl, rfl⟩

/-- A binding is in some slot. -/
theorem exists_slot (h : Represents n home t f) {k : κ} {v : ν} (hf : f k = some v) :
    ∃ i < n, t i = some (k, v) := by
  obtain ⟨i, hi, ⟨k', v'⟩, he, rfl, rfl⟩ := (h.maps k v).mpr hf
  exact ⟨i, hi, he⟩

/-- There are as many bound keys as used slots. -/
theorem exists_keys (h : Represents n home t f) :
    ∃ keys : Finset κ, (∀ k, k ∈ keys ↔ (f k).isSome) ∧ keys.card = occupied n t := by
  classical
  let used := (Finset.range n).filter fun i => (t i).isSome
  have hused : ∀ i, i ∈ used ↔ i < n ∧ (t i).isSome := by simp [used]
  let key : ∀ i ∈ used, κ := fun i hi => ((t i).get ((hused i).mp hi).2).1
  refine ⟨used.attach.image fun i => key i.1 i.2, fun k => ?_, ?_⟩
  · rw [Finset.mem_image]
    constructor
    · rintro ⟨i, -, rfl⟩
      obtain ⟨hi, hsome⟩ := (hused i.1).mp i.2
      have ht : t i.1 = some ((t i.1).get hsome) := (Option.some_get hsome).symm
      exact Option.isSome_iff_exists.mpr ⟨_, h.eq_some_of_slot hi ht⟩
    · intro hk
      obtain ⟨v, hv⟩ := Option.isSome_iff_exists.mp hk
      obtain ⟨i, hi, ht⟩ := h.exists_slot hv
      refine ⟨⟨i, (hused i).mpr ⟨hi, by simp [ht]⟩⟩, Finset.mem_attach _ _, ?_⟩
      simp [key, ht]
  · rw [Finset.card_image_of_injOn, Finset.card_attach]
    · rfl
    · intro i _ j _ heq
      obtain ⟨hi, hsome⟩ := (hused i.1).mp i.2
      obtain ⟨hj, hsome'⟩ := (hused j.1).mp j.2
      exact Subtype.ext (h.isTable.unique i.1 hi j.1 hj _ _ (Option.some_get hsome).symm
        (Option.some_get hsome').symm heq)

/-- Tables of one map have as many used slots. -/
theorem occupied_eq {n' : ℕ} {home' : κ → ℕ} {t' : ℕ → Option (κ × ν)}
    (h : Represents n home t f) (h' : Represents n' home' t' f) :
    occupied n t = occupied n' t' := by
  obtain ⟨keys, hkeys, hcard⟩ := h.exists_keys
  obtain ⟨keys', hkeys', hcard'⟩ := h'.exists_keys
  have hsame : keys = keys' := by
    ext k
    rw [hkeys, hkeys']
  rw [← hcard, ← hcard', hsame]

/-- A new key takes one more slot, an old one none. -/
theorem occupied_update [DecidableEq κ] {n' : ℕ} {home' : κ → ℕ} {t' : ℕ → Option (κ × ν)} {k : κ}
    {v : ν} (h : Represents n home t f)
    (h' : Represents n' home' t' (Function.update f k (some v))) :
    occupied n' t' = occupied n t + if (f k).isSome then 0 else 1 := by
  obtain ⟨keys, hkeys, hcard⟩ := h.exists_keys
  obtain ⟨keys', hkeys', hcard'⟩ := h'.exists_keys
  have hinsert : keys' = insert k keys := by
    ext k'
    rw [hkeys', Finset.mem_insert, hkeys]
    by_cases hk : k' = k
    · simp [hk]
    · simp [hk]
  rw [← hcard, ← hcard', hinsert]
  split_ifs with hsome
  · rw [Finset.insert_eq_of_mem ((hkeys k).mpr hsome), Nat.add_zero]
  · exact Finset.card_insert_of_notMem (mt (hkeys k).mp hsome)

/-- Scanning for a bound key. -/
theorem probe_of_some (h : Represents n home t f) {k : κ} {v : ν} (hf : f k = some v)
    {stop : ℕ → Bool} (hstop : Accepts n Eq t k stop) (hhome : home k < n) :
    ∃ i < n, probe n (home k) stop = some i ∧ t i = some (k, v) := by
  obtain ⟨i, hi, he⟩ := h.exists_slot hf
  exact ⟨i, hi, h.isTable.probe_of_mem eq_equivalence hstop hi he rfl hhome rfl, he⟩

/-- Scanning for an unbound key. -/
theorem probe_of_none (h : Represents n home t f) {k : κ} (hf : f k = none)
    {stop : ℕ → Bool} (hstop : Accepts n Eq t k stop) (hhome : home k < n)
    (hhole : ∃ i < n, t i = none) :
    ∃ i < n, probe n (home k) stop = some i ∧ t i = none ∧ Reached n t (home k) i := by
  refine probe_of_not_mem hstop hhome (fun i hi e he hk => ?_) hhole
  obtain ⟨k', v⟩ := e
  obtain rfl : k' = k := hk
  rw [h.eq_some_of_slot hi he] at hf
  cases hf

/-- Scanning for a bound key from its home slot finds it. -/
theorem finds_home (h : Represents n home t f) {k : κ} {v : ν} (hf : f k = some v) :
    Finds n t (home k) k := by
  obtain ⟨i, hi, ht⟩ := h.exists_slot hf
  exact ⟨i, v, ht, h.isTable.reached i hi _ ht⟩

/-- **A table with other home slots** is as good, if from them all its keys are found. -/
theorem rehome (h : Represents n home t f)
    (hfinds : ∀ k v, f k = some v → Finds n t (home' k) k) : Represents n home' t f where
  isTable := by
    refine ⟨fun i hi e he => ?_, h.isTable.unique⟩
    obtain ⟨k, v⟩ := e
    obtain ⟨j, w, hj, hreached⟩ := hfinds k v (h.eq_some_of_slot hi he)
    have hsame := h.isTable.unique j hreached.lt i hi _ _ hj he rfl
    exact hsame ▸ hreached
  maps := h.maps

variable [DecidableEq κ]

/-- Storing a binding in a slot that is free and reached, or that holds the key already. -/
theorem update (h : Represents n home t f) {i : ℕ} (hi : i < n) {k : κ} (v : ν)
    (hslot : (t i = none ∧ f k = none ∧ Reached n t (home k) i) ∨ ∃ w, t i = some (k, w)) :
    Represents n home (Function.update t i (some (k, v))) (Function.update f k (some v)) := by
  have habs : ∀ j < n, j ≠ i → ∀ e, t j = some e → e.1 ≠ k := by
    rintro j hj hji ⟨k', w⟩ he rfl
    rcases hslot with ⟨-, hf, -⟩ | ⟨w', hw⟩
    · rw [h.eq_some_of_slot hj he] at hf
      cases hf
    · exact hji (h.isTable.unique j hj i hi _ _ he hw rfl)
  refine ⟨?_, fun k' v' => ?_⟩
  · rcases hslot with ⟨hnone, hf, hreached⟩ | ⟨w, hw⟩
    · refine h.isTable.insert eq_equivalence hnone hreached (fun j hj e he => ?_) v
      by_cases hji : j = i
      · rw [hji, hnone] at he
        cases he
      · exact habs j hj hji e he
    · exact h.isTable.replace eq_equivalence hi hw rfl rfl v
  · have hslot' : ∀ e, t i = some e → e.1 = k := by
      rintro e he
      rcases hslot with ⟨hnone, -, -⟩ | ⟨w, hw⟩
      · rw [hnone] at he
        cases he
      · rw [hw] at he
        rw [← Option.some.inj he]
    rw [maps_update_iff eq_equivalence hi hslot' habs]
    by_cases hk : k = k'
    · subst hk
      simp
    · rw [Function.update_of_ne (Ne.symm hk), ← h.maps k' v']
      simp [hk]

/-- **The slot a scan finds** holds what the map says, and is where the binding of the
key belongs. -/
theorem scan (h : Represents n home t f) (hhole : ∃ i < n, t i = none) {k : κ}
    {stop : ℕ → Bool} (hstop : Accepts n Eq t k stop) (hhome : home k < n) :
    ∃ i < n, probe n (home k) stop = some i ∧ t i = (f k).map (Prod.mk k) ∧
      ∀ v, Represents n home (Function.update t i (some (k, v)))
        (Function.update f k (some v)) := by
  cases hf : f k with
  | none =>
    obtain ⟨i, hi, hprobe, hnone, hreached⟩ := h.probe_of_none hf hstop hhome hhole
    exact ⟨i, hi, hprobe, hnone, fun v => h.update hi v (Or.inl ⟨hnone, hf, hreached⟩)⟩
  | some w =>
    obtain ⟨i, hi, hprobe, hw⟩ := h.probe_of_some hf hstop hhome
    exact ⟨i, hi, hprobe, hw, fun v => h.update hi v (Or.inr ⟨w, hw⟩)⟩

end Represents

/-! ### Rehashing -/

/-- The entries of the first `i` slots of `t` have been inserted into the table `u` of `m` slots,
which stands for the map `g`. -/
structure Rehashed (t : ℕ → Option (κ × ν)) (i m : ℕ) (home' : κ → ℕ) (u : ℕ → Option (κ × ν))
    (g : κ → Option ν) : Prop where
  represents : Represents m home' u g
  entries : ∀ k v, g k = some v ↔ ∃ j < i, t j = some (k, v)
  occupied : occupied m u = occupied i t

namespace Rehashed

theorem start (t : ℕ → Option (κ × ν)) (m : ℕ) (home' : κ → ℕ) :
    Rehashed t 0 m home' (fun _ => none) (fun _ => none) where
  represents := represents_none m home'
  entries k v := by simp
  occupied := by simp

theorem congr {i : ℕ} {u' : ℕ → Option (κ × ν)} (h : Rehashed t i m home' u g)
    (hu : ∀ j < m, u' j = u j) : Rehashed t i m home' u' g where
  represents := h.represents.congr hu
  entries := h.entries
  occupied := (occupied_congr hu).trans h.occupied

/-- The next slot is free. -/
theorem skip {i : ℕ} (h : Rehashed t i m home' u g) (ht : t i = none) :
    Rehashed t (i + 1) m home' u g where
  represents := h.represents
  entries k v := by
    rw [h.entries k v]
    constructor
    · rintro ⟨j, hj, he⟩
      exact ⟨j, hj.trans (Nat.lt_succ_self i), he⟩
    · rintro ⟨j, hj, he⟩
      refine ⟨j, Nat.lt_of_le_of_ne (Nat.lt_succ_iff.mp hj) ?_, he⟩
      rintro rfl
      rw [ht] at he
      cases he
  occupied := by rw [h.occupied, occupied_succ, ht]; rfl

/-- The key in the next slot has not been inserted yet. -/
theorem not_mem {i : ℕ} (h : Rehashed t i m home' u g) (ht : IsTable n home Eq t) (hi : i < n)
    {k : κ} {v : ν} (he : t i = some (k, v)) : g k = none := by
  cases hg : g k with
  | none => rfl
  | some w =>
    obtain ⟨j, hj, hw⟩ := (h.entries k w).mp hg
    exact absurd (ht.unique j (hj.trans hi) i hi _ _ hw he rfl) hj.ne

/-- The new table has room for the next entry if it has at least as many slots. -/
theorem exists_hole {i : ℕ} (h : Rehashed t i m home' u g) (hi : i < n) (hnm : n ≤ m) :
    ∃ j < m, u j = none := by
  refine LinearProbing.exists_hole ?_
  rw [h.occupied]
  exact (occupied_le i t).trans_lt (hi.trans_le hnm)

/-- The next entry has been stored in a free slot. -/
theorem store [DecidableEq κ] {i j : ℕ} (h : Rehashed t i m home' u g) (ht : IsTable n home Eq t)
    (hi : i < n) {k : κ} {v : ν} (he : t i = some (k, v)) (hj : j < m) (hu : u j = none)
    (hr : Represents m home' (Function.update u j (some (k, v))) (Function.update g k (some v))) :
    Rehashed t (i + 1) m home' (Function.update u j (some (k, v)))
      (Function.update g k (some v)) where
  represents := hr
  entries k' v' := by
    by_cases hk : k' = k
    · subst hk
      rw [Function.update_self]
      constructor
      · intro hv
        exact ⟨i, Nat.lt_succ_self i, by rw [he, Option.some.inj hv]⟩
      · rintro ⟨j', hj', he'⟩
        have hji := ht.unique j' (by omega) i hi _ _ he' he rfl
        rw [hji, he] at he'
        rw [(Prod.mk.inj (Option.some.inj he')).2]
    · rw [Function.update_of_ne hk, h.entries k' v']
      constructor
      · rintro ⟨j', hj', he'⟩
        exact ⟨j', hj'.trans (Nat.lt_succ_self i), he'⟩
      · rintro ⟨j', hj', he'⟩
        refine ⟨j', Nat.lt_of_le_of_ne (Nat.lt_succ_iff.mp hj') ?_, he'⟩
        rintro rfl
        rw [he] at he'
        exact hk (Prod.mk.inj (Option.some.inj he')).1.symm
  occupied := by
    rw [occupied_update_of_none hj hu, h.occupied, occupied_succ, he]
    rfl

/-- **A rehashed table stands for the same map**, in as many slots. -/
theorem finish (h : Rehashed t n m home' u g) (ht : Represents n home t f) : g = f := by
  funext k
  refine Option.ext fun v => ?_
  rw [h.entries k v]
  constructor
  · rintro ⟨i, hi, he⟩
    exact ht.eq_some_of_slot hi he
  · intro hf
    exact ht.exists_slot hf

end Rehashed

end Represents

end LinearProbing
