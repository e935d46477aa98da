import Mathlib.Logic.Function.Basic
import Mathlib.Logic.Relation
import Mathlib.Tactic.Common

/-!
# Lookup along a chain of parents

A tree of nodes, each with at most one parent and a table of its own. Resolving a key at a node
returns the entry of the nearest node on the way to the root that has one.

## Main definitions

* `Inheritance.IsAncestor` — the nodes on the way to the root, the node itself included
* `Inheritance.Resolves` — what a key resolves to at a node
* `Inheritance.WellFounded` — no chain of parents goes on for ever
* `Inheritance.PathToRoot` — the nodes on the way to the root, in order

## Main results

* `Resolves.functional`, `exists_resolves` — a key resolves to exactly one thing
* `Resolves.eq_none_iff` — it resolves to nothing if no ancestor has an entry
* `Resolves.congr` — it depends on the ancestors only
* `Resolves.update` — a new entry changes its key below its node, and nothing else
* `WellFounded.exists_pathToRoot` — every way to the root is finite and passes each node once
-/

namespace Inheritance

open Relation

variable {α κ ν : Type*} {parent parent' : α → Option α} {table table' : α → κ → Option ν}

/-- `a` is `b` or on the way from `b` to the root. -/
def IsAncestor (parent : α → Option α) (a b : α) : Prop :=
  ReflTransGen (fun x y => parent x = some y) b a

/-- The key `k` resolves to `r` at a node: to the entry of the nearest ancestor that has one. -/
inductive Resolves (parent : α → Option α) (table : α → κ → Option ν) (k : κ) :
    α → Option ν → Prop
  | here {a : α} {v : ν} (h : table a k = some v) : Resolves parent table k a (some v)
  | inherited {a p : α} {r : Option ν} (h : table a k = none) (hp : parent a = some p)
      (hr : Resolves parent table k p r) : Resolves parent table k a r
  | undefined {a : α} (h : table a k = none) (hp : parent a = none) :
      Resolves parent table k a none

/-- Some measure decreases from every node to its parent. -/
def WellFounded (parent : α → Option α) : Prop :=
  ∃ rank : α → ℕ, ∀ a p, parent a = some p → rank p < rank a

/-- The nodes on the way from a node to the root, in order. -/
inductive PathToRoot (parent : α → Option α) : α → List α → Prop
  | root {a : α} (hp : parent a = none) : PathToRoot parent a [a]
  | step {a p : α} {l : List α} (hp : parent a = some p) (hl : PathToRoot parent p l) :
      PathToRoot parent a (a :: l)

theorem isAncestor_refl (parent : α → Option α) (a : α) : IsAncestor parent a a :=
  ReflTransGen.refl

theorem IsAncestor.of_parent {a b p : α} (hp : parent b = some p) (h : IsAncestor parent a p) :
    IsAncestor parent a b :=
  ReflTransGen.head hp h

/-- The ancestors of a node are the node and those of its parent. -/
theorem isAncestor_iff {a b : α} :
    IsAncestor parent a b ↔ a = b ∨ ∃ p, parent b = some p ∧ IsAncestor parent a p := by
  constructor
  · intro h
    rcases ReflTransGen.cases_head h with rfl | ⟨p, hp, hrest⟩
    · exact Or.inl rfl
    · exact Or.inr ⟨p, hp, hrest⟩
  · rintro (rfl | ⟨p, hp, hrest⟩)
    · exact isAncestor_refl parent a
    · exact IsAncestor.of_parent hp hrest

namespace Resolves

variable {k : κ} {a : α} {r : Option ν}

/-- A key resolves to at most one thing. -/
theorem functional (h : Resolves parent table k a r) :
    ∀ {r'}, Resolves parent table k a r' → r = r' := by
  induction h with
  | here h =>
    intro r' h'
    cases h' with
    | here h' => rw [← h, h']
    | inherited hnone => rw [h] at hnone; cases hnone
    | undefined hnone => rw [h] at hnone; cases hnone
  | inherited h hp _ ih =>
    intro r' h'
    cases h' with
    | here hsome => rw [h] at hsome; cases hsome
    | inherited _ hp' hr' =>
      rw [hp] at hp'
      obtain rfl := Option.some.inj hp'
      exact ih hr'
    | undefined _ hroot => rw [hp] at hroot; cases hroot
  | undefined h hp =>
    intro r' h'
    cases h' with
    | here hsome => rw [h] at hsome; cases hsome
    | inherited _ hp' => rw [hp] at hp'; cases hp'
    | undefined => rfl

/-- Resolving at a node depends on the node and its ancestors only. -/
theorem congr (h : Resolves parent table k a r)
    (hsame : ∀ b, IsAncestor parent b a → parent' b = parent b ∧ table' b k = table b k) :
    Resolves parent' table' k a r := by
  induction h with
  | @here a v h =>
    refine Resolves.here ?_
    rw [(hsame a (isAncestor_refl parent a)).2, h]
  | @inherited a p r h hp _ ih =>
    obtain ⟨hparent, htable⟩ := hsame a (isAncestor_refl parent a)
    refine Resolves.inherited (by rw [htable, h]) (by rw [hparent, hp]) (ih ?_)
    intro b hb
    exact hsame b (hb.of_parent hp)
  | @undefined a h hp =>
    obtain ⟨hparent, htable⟩ := hsame a (isAncestor_refl parent a)
    exact Resolves.undefined (by rw [htable, h]) (by rw [hparent, hp])

/-- **A key resolves to nothing** just in case no ancestor has an entry for it. -/
theorem eq_none_iff (h : Resolves parent table k a r) :
    r = none ↔ ∀ b, IsAncestor parent b a → table b k = none := by
  induction h with
  | @here a v h =>
    constructor
    · intro hv
      cases hv
    · intro hnone
      rw [hnone a (isAncestor_refl parent a)] at h
      cases h
  | @inherited a p r h hp _ ih =>
    rw [ih]
    constructor
    · intro hnone b hb
      rcases isAncestor_iff.mp hb with rfl | ⟨q, hq, hb⟩
      · exact h
      · rw [hp] at hq
        obtain rfl := Option.some.inj hq
        exact hnone b hb
    · exact fun hnone b hb => hnone b (hb.of_parent hp)
  | @undefined a h hp =>
    refine ⟨fun _ b hb => ?_, fun _ => rfl⟩
    rcases isAncestor_iff.mp hb with rfl | ⟨q, hq, -⟩
    · exact h
    · rw [hp] at hq
      cases hq

/-- What a key resolves to is an entry of an ancestor. -/
theorem exists_entry {v : ν} (h : Resolves parent table k a (some v)) :
    ∃ b, IsAncestor parent b a ∧ table b k = some v := by
  generalize hr : some v = r at h
  induction h with
  | @here a v' h =>
    obtain rfl := Option.some.inj hr
    exact ⟨a, isAncestor_refl parent a, h⟩
  | inherited _ hp _ ih =>
    obtain ⟨b, hb, hv⟩ := ih hr
    exact ⟨b, hb.of_parent hp, hv⟩
  | undefined => cases hr

variable [DecidableEq α] [DecidableEq κ]

/-- The tables after `v` has been entered under `s` at `t`. -/
theorem update_of_ne {t b : α} {s : κ} {v : ν} (h : k ≠ s ∨ b ≠ t) :
    Function.update table t (Function.update (table t) s (some v)) b k = table b k := by
  by_cases hb : b = t
  · subst hb
    rw [Function.update_self, Function.update_of_ne (h.resolve_right fun hne => hne rfl)]
  · rw [Function.update_of_ne hb]

/-- **A new entry** under `s` at `t` changes nothing for other keys, nor at nodes that do not have
`t` for an ancestor. -/
theorem update (h : Resolves parent table k a r) {t : α} {s : κ} (v : ν)
    (hne : k ≠ s ∨ ¬ IsAncestor parent t a) :
    Resolves parent (Function.update table t (Function.update (table t) s (some v))) k a r := by
  refine h.congr fun b hb => ⟨rfl, update_of_ne ?_⟩
  refine hne.imp_right ?_
  rintro hnot rfl
  exact hnot hb

end Resolves

/-- **Every key resolves to something** when the chains of parents end. -/
theorem exists_resolves (h : WellFounded parent) (table : α → κ → Option ν) (k : κ) (a : α) :
    ∃ r, Resolves parent table k a r := by
  obtain ⟨rank, hrank⟩ := h
  induction hn : rank a using Nat.strongRecOn generalizing a with
  | ind n ih =>
    subst hn
    cases hk : table a k with
    | some v => exact ⟨some v, Resolves.here hk⟩
    | none =>
      cases hp : parent a with
      | none => exact ⟨none, Resolves.undefined hk hp⟩
      | some p =>
        obtain ⟨r, hr⟩ := ih (rank p) (hrank a p hp) p rfl
        exact ⟨r, Resolves.inherited hk hp hr⟩

/-- **Every way to the root ends** and passes through no node twice. -/
theorem WellFounded.exists_pathToRoot (h : WellFounded parent) (a : α) :
    ∃ l, PathToRoot parent a l ∧ l.Nodup := by
  obtain ⟨rank, hrank⟩ := h
  -- the ranks decrease along the way
  suffices hpath : ∃ l, PathToRoot parent a l ∧ l.Nodup ∧ ∀ b ∈ l, rank b ≤ rank a by
    obtain ⟨l, hl, hnodup, -⟩ := hpath
    exact ⟨l, hl, hnodup⟩
  induction hn : rank a using Nat.strongRecOn generalizing a with
  | ind n ih =>
    subst hn
    cases hp : parent a with
    | none =>
      refine ⟨[a], PathToRoot.root hp, List.pairwise_singleton _ a, fun b hb => ?_⟩
      exact Nat.le_of_eq (congrArg rank (List.mem_singleton.mp hb))
    | some p =>
      obtain ⟨l, hl, hnodup, hle⟩ := ih (rank p) (hrank a p hp) p rfl
      have hlt := hrank a p hp
      refine ⟨a :: l, PathToRoot.step hp hl, List.nodup_cons.mpr ⟨fun hmem => ?_, hnodup⟩,
        fun b hb => ?_⟩
      · exact absurd (hle a hmem) (by omega)
      · rcases List.mem_cons.mp hb with rfl | hb
        · exact Nat.le_refl _
        · exact Nat.le_trans (hle b hb) (Nat.le_of_lt hlt)

/-- A node that is nobody's parent may be given one. -/
theorem WellFounded.update [DecidableEq α] (h : WellFounded parent) {a p : α} (hpa : p ≠ a)
    (hleaf : ∀ b, parent b ≠ some a) : WellFounded (Function.update parent a (some p)) := by
  obtain ⟨rank, hrank⟩ := h
  refine ⟨Function.update rank a (rank p + 1), fun b q hq => ?_⟩
  by_cases hb : b = a
  · subst hb
    rw [Function.update_self] at hq
    obtain rfl := Option.some.inj hq
    rw [Function.update_self, Function.update_of_ne hpa]
    exact Nat.lt_succ_self _
  · rw [Function.update_of_ne hb] at hq
    have hqa : q ≠ a := by
      rintro rfl
      exact hleaf b hq
    rw [Function.update_of_ne hb, Function.update_of_ne hqa]
    exact hrank b q hq

end Inheritance
