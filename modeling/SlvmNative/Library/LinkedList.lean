import Mathlib.Data.List.Chain
import Mathlib.Data.List.Nodup
import Mathlib.Logic.Function.Basic
import Mathlib.Tactic.Common

/-!
# Intrusive doubly linked lists

Nodes `ν` that carry their own two links, in any number of lists `ρ` that carry a first and a last
node; a missing node is `none`. A node belongs to at most one list.

A list is read as a ring: its header takes the place of `none`, the link after the header is
`first` and the link before it is `last`. Then adding and removing a node are the same few stores
at both ends of the list and in the middle of it.

## Main definitions

* `Links`, `Links.addNode`, `Links.removeNode`
* `Links.nextOf`, `Links.previousOf` — the two links of a node or of the header
* `Links.IsList` — the ring of a list goes through exactly these nodes, in this order
* `Follows` — following a link passes exactly these nodes and ends
* `Links.Represents` — every list has its contents, and no node is in two lists

## Main results

* `Links.IsList.addNode`, `Links.IsList.removeNode` — the operations on the list itself
* `Links.IsList.follows_next`, `Links.IsList.follows_previous` — the two chains of a list
* `Links.IsList.transport` — a list depends on its own links only
* `Links.IsList.nextOf_addNode_of_outside` and its siblings — what is not in the list is kept
* `Links.Represents.addNode`, `Links.Represents.removeNode` — the operations on all lists at once
-/

namespace LinkedList

/-- Following `link` passes exactly these nodes, and then ends. -/
inductive Follows {ν : Type*} (link : ν → Option ν) : Option ν → List ν → Prop
  | nil : Follows link none []
  | cons {x : ν} {l : List ν} (h : Follows link (link x) l) : Follows link (some x) (x :: l)

/-- The links of all nodes and of all list headers. -/
structure Links (ν ρ : Type*) where
  previous : ν → Option ν
  next : ν → Option ν
  first : ρ → Option ν
  last : ρ → Option ν

namespace Links

variable {ν ρ : Type*}

/-- No node is linked and every list is empty. -/
def empty : Links ν ρ := ⟨fun _ => none, fun _ => none, fun _ => none, fun _ => none⟩

/-- The link after a node, or after the header of `list`. -/
def nextOf (s : Links ν ρ) (list : ρ) : Option ν → Option ν
  | some node => s.next node
  | none => s.first list

/-- The link before a node, or before the header of `list`. -/
def previousOf (s : Links ν ρ) (list : ρ) : Option ν → Option ν
  | some node => s.previous node
  | none => s.last list

theorem previous_eq (s : Links ν ρ) (list : ρ) (node : ν) :
    s.previous node = s.previousOf list (some node) := rfl

theorem next_eq (s : Links ν ρ) (list : ρ) (node : ν) :
    s.next node = s.nextOf list (some node) := rfl

/-- `b` comes right after `a`, and `a` right before `b`. -/
def Linked (s : Links ν ρ) (list : ρ) (a b : Option ν) : Prop :=
  s.nextOf list a = b ∧ s.previousOf list b = a

/-- The nodes of a list with its header in front. -/
def ring (nodes : List ν) : List (Option ν) := none :: nodes.map some

/-- Following `next` from the header goes through `nodes` and back to the header, following
`previous` does so in the reverse order, and no node is passed twice. -/
structure IsList (s : Links ν ρ) (list : ρ) (nodes : List ν) : Prop where
  chain : (ring nodes ++ [none]).IsChain (s.Linked list)
  nodup : nodes.Nodup

theorem some_mem_ring {nodes : List ν} {x : ν} : some x ∈ ring nodes ↔ x ∈ nodes := by
  simp [ring]

theorem ring_append (l t : List ν) : ring (l ++ t) = ring l ++ t.map some := by
  simp [ring]

theorem getLast?_ring (nodes : List ν) : (ring nodes).getLast? = some nodes.getLast? := by
  rcases List.eq_nil_or_concat nodes with rfl | ⟨l, x, rfl⟩
  · rfl
  · rw [List.concat_eq_append, ring_append, List.map_singleton, List.getLast?_concat,
      List.getLast?_concat]

theorem head?_map_append_none (nodes : List ν) :
    (nodes.map some ++ [none]).head? = some nodes.head? := by
  cases nodes <;> rfl

/-- A list whose ends are clear is empty, whatever the nodes hold. -/
theorem isList_nil {s : Links ν ρ} {list : ρ} (hfirst : s.first list = none)
    (hlast : s.last list = none) : s.IsList list [] where
  chain := List.isChain_pair.mpr ⟨hfirst, hlast⟩
  nodup := List.nodup_nil

theorem empty_isList (list : ρ) : (empty : Links ν ρ).IsList list [] :=
  isList_nil rfl rfl

namespace IsList

variable {s s' : Links ν ρ} {list : ρ} {nodes l t : List ν} {x : ν}

/-- `last` is the last node. -/
theorem last_eq (h : s.IsList list nodes) : s.last list = nodes.getLast? := by
  have hlink := (List.isChain_append.mp h.chain).2.2 _ (getLast?_ring nodes) none rfl
  exact hlink.2

/-- `first` is the first node. -/
theorem first_eq (h : s.IsList list nodes) : s.first list = nodes.head? := by
  have hchain := h.chain
  rw [ring, List.cons_append, List.isChain_cons] at hchain
  exact (hchain.1 _ (head?_map_append_none nodes)).1

/-- The links around a node in the middle of its list. -/
theorem around (h : s.IsList list (l ++ x :: t)) :
    (ring l).IsChain (s.Linked list) ∧ (t.map some ++ [none]).IsChain (s.Linked list) ∧
      s.Linked list l.getLast? (some x) ∧ s.Linked list (some x) t.head? := by
  have hchain := h.chain
  rw [ring_append, List.map_cons, List.append_assoc, List.cons_append, List.isChain_append,
    List.isChain_cons] at hchain
  obtain ⟨hl, ⟨hx, ht⟩, hlink⟩ := hchain
  exact ⟨hl, ht, hlink _ (getLast?_ring l) _ rfl, hx _ (head?_map_append_none t)⟩

/-- Following `next` to the end of a list. -/
theorem follows_next_of_isChain (h : (t.map some ++ [none]).IsChain (s.Linked list)) :
    Follows s.next t.head? t := by
  induction t with
  | nil => exact .nil
  | cons x t ih =>
    rw [List.map_cons, List.cons_append, List.isChain_cons] at h
    have hnext : s.next x = t.head? := (h.1 _ (head?_map_append_none t)).1
    refine .cons ?_
    rw [hnext]
    exact ih h.2

/-- Following `previous` to the header of a list. -/
theorem follows_previous_of_isChain (h : (ring l).IsChain (s.Linked list)) :
    Follows s.previous l.getLast? l.reverse := by
  induction l using List.reverseRecOn with
  | nil => exact .nil
  | append_singleton l x ih =>
    rw [ring_append, List.map_singleton, List.isChain_append] at h
    have hprevious : s.previous x = l.getLast? := (h.2.2 _ (getLast?_ring l) _ rfl).2
    rw [List.getLast?_concat, List.reverse_concat]
    refine .cons ?_
    rw [hprevious]
    exact ih h.1

/-- **The forward chain** of a list. -/
theorem follows_next (h : s.IsList list nodes) : Follows s.next (s.first list) nodes := by
  have hchain := h.chain
  rw [ring, List.cons_append, List.isChain_cons] at hchain
  rw [h.first_eq]
  exact follows_next_of_isChain hchain.2

/-- **The backward chain** of a list. -/
theorem follows_previous (h : s.IsList list nodes) :
    Follows s.previous (s.last list) nodes.reverse := by
  rw [h.last_eq]
  exact follows_previous_of_isChain (List.isChain_append.mp h.chain).1

/-- A node of a list without repetitions is not its own neighbour. -/
theorem previous_ne (h : s.IsList list (l ++ x :: t)) : s.previous x ≠ some x := by
  have hprevious : s.previous x = l.getLast? := h.around.2.2.1.2
  rw [hprevious]
  intro hlast
  have hdisjoint := (List.nodup_append.mp h.nodup).2.2
  exact hdisjoint x (List.mem_of_getLast? hlast) x List.mem_cons_self rfl

/-- **A list depends only on the links of its nodes and of its header.** -/
theorem transport (h : s.IsList list nodes)
    (hnext : ∀ a ∈ ring nodes, s'.nextOf list a = s.nextOf list a)
    (hprevious : ∀ a ∈ ring nodes, s'.previousOf list a = s.previousOf list a) :
    s'.IsList list nodes where
  chain := by
    refine List.IsChain.imp_of_mem_imp (fun a b ha hb hab => ?_) h.chain
    have hring : ∀ c ∈ ring nodes ++ [none], c ∈ ring nodes := by
      intro c hc
      rcases List.mem_append.mp hc with hc | hc
      · exact hc
      · rw [List.mem_singleton.mp hc]
        exact List.mem_cons_self
    exact ⟨(hnext a (hring a ha)).trans hab.1, (hprevious b (hring b hb)).trans hab.2⟩
  nodup := h.nodup

end IsList

/-! ### Stores -/

variable [DecidableEq ν] [DecidableEq ρ]

/-- Store the link after a node or after the header. -/
def setNext (s : Links ν ρ) (list : ρ) (at? value : Option ν) : Links ν ρ :=
  match at? with
  | some node => { s with next := Function.update s.next node value }
  | none => { s with first := Function.update s.first list value }

/-- Store the link before a node or before the header. -/
def setPrevious (s : Links ν ρ) (list : ρ) (at? value : Option ν) : Links ν ρ :=
  match at? with
  | some node => { s with previous := Function.update s.previous node value }
  | none => { s with last := Function.update s.last list value }

/-- Clear both links of a node. -/
def clearNode (s : Links ν ρ) (node : ν) : Links ν ρ :=
  { s with
    previous := Function.update s.previous node none
    next := Function.update s.next node none }

/-- Clear both ends of a list. -/
def clearList (s : Links ν ρ) (list : ρ) : Links ν ρ :=
  { s with
    first := Function.update s.first list none
    last := Function.update s.last list none }

/-- Append a node that is in no list. -/
def addNode (s : Links ν ρ) (list : ρ) (node : ν) : Links ν ρ :=
  -- set the links in the node
  let s := s.setPrevious list (some node) (s.last list)
  let s := s.setNext list (some node) none
  -- set the new last node
  let s := s.setPrevious list none (some node)
  -- update the previous link, or the header when the list was empty
  s.setNext list (s.previous node) (some node)

/-- Unlink a node of the list. -/
def removeNode (s : Links ν ρ) (list : ρ) (node : ν) : Links ν ρ :=
  let s := s.setNext list (s.previous node) (s.next node)
  let s := s.setPrevious list (s.next node) (s.previous node)
  let s := s.setPrevious list (some node) none
  s.setNext list (some node) none

/-- The link of a node is shared by all lists, that of a header belongs to its own list. -/
theorem nextOf_setNext (s : Links ν ρ) (list other : ρ) (a b value : Option ν) :
    (s.setNext list a value).nextOf other b =
      if b = a ∧ (other = list ∨ a ≠ none) then value else s.nextOf other b := by
  cases a <;> cases b <;> simp [setNext, nextOf, Function.update_apply]

theorem previousOf_setPrevious (s : Links ν ρ) (list other : ρ) (a b value : Option ν) :
    (s.setPrevious list a value).previousOf other b =
      if b = a ∧ (other = list ∨ a ≠ none) then value else s.previousOf other b := by
  cases a <;> cases b <;> simp [setPrevious, previousOf, Function.update_apply]

@[simp] theorem previousOf_setNext (s : Links ν ρ) (list other : ρ) (a b value : Option ν) :
    (s.setNext list a value).previousOf other b = s.previousOf other b := by
  cases a <;> cases b <;> rfl

@[simp] theorem nextOf_setPrevious (s : Links ν ρ) (list other : ρ) (a b value : Option ν) :
    (s.setPrevious list a value).nextOf other b = s.nextOf other b := by
  cases a <;> cases b <;> rfl

/-- Every `next` link after a node was added. -/
theorem nextOf_addNode (s : Links ν ρ) (list other : ρ) (node : ν) (a : Option ν) :
    (s.addNode list node).nextOf other a =
      if a = s.last list ∧ (other = list ∨ s.last list ≠ none) then some node
      else if a = some node then none
      else s.nextOf other a := by
  simp [addNode, nextOf_setNext, previous_eq _ list, previousOf_setPrevious]

/-- Every `previous` link after a node was added. -/
theorem previousOf_addNode (s : Links ν ρ) (list other : ρ) (node : ν) (a : Option ν) :
    (s.addNode list node).previousOf other a =
      if a = none ∧ other = list then some node
      else if a = some node then s.last list
      else s.previousOf other a := by
  simp [addNode, previousOf_setPrevious]

/-- Every `next` link after a node was removed. -/
theorem nextOf_removeNode (s : Links ν ρ) (list other : ρ) (node : ν) (a : Option ν) :
    (s.removeNode list node).nextOf other a =
      if a = some node then none
      else if a = s.previous node ∧ (other = list ∨ s.previous node ≠ none) then s.next node
      else s.nextOf other a := by
  simp [removeNode, nextOf_setNext]

/-- Every `previous` link after a node was removed that is not its own neighbour. -/
theorem previousOf_removeNode (s : Links ν ρ) (list other : ρ) (node : ν) (a : Option ν)
    (hprevious : s.previous node ≠ some node) :
    (s.removeNode list node).previousOf other a =
      if a = some node then none
      else if a = s.next node ∧ (other = list ∨ s.next node ≠ none) then s.previous node
      else s.previousOf other a := by
  have hnext : (s.setNext list (s.previous node) (s.next node)).next node = s.next node := by
    rw [next_eq _ list, nextOf_setNext, if_neg (fun h => hprevious h.1.symm)]
    rfl
  have hkept : (s.setNext list (s.previous node) (s.next node)).previous node = s.previous node :=
    previousOf_setNext s list list _ (some node) _
  simp [removeNode, previousOf_setPrevious, hnext, hkept]

/-! ### The operations on one list -/

variable {s : Links ν ρ} {list other : ρ} {nodes l t : List ν} {x : ν}

/-- **Adding a node** puts it at the end of its list. -/
theorem IsList.addNode (h : s.IsList list nodes) (hx : x ∉ nodes) :
    (s.addNode list x).IsList list (nodes ++ [x]) where
  chain := by
    obtain ⟨hring, -, hlast⟩ := List.isChain_append.mp h.chain
    have hend : s.nextOf list (s.last list) = none := by
      rw [h.last_eq]
      exact (hlast _ (getLast?_ring nodes) none rfl).1
    have hmem : some x ∉ ring nodes := fun hmem => hx (some_mem_ring.mp hmem)
    have hlx : s.last list ≠ some x := by
      intro hlx
      exact hx (List.mem_of_getLast? (h.last_eq.symm.trans hlx))
    rw [ring_append, List.append_assoc, List.isChain_append]
    refine ⟨?_, ?_, ?_⟩
    · -- inside the old ring: what is followed by something is not the last node
      refine List.IsChain.imp_of_mem_tail_imp (fun a b ha hb hab => ?_) hring
      obtain ⟨y, hy, rfl⟩ := List.mem_map.mp hb
      have hal : a ≠ s.last list := by
        rintro rfl
        rw [hab.1] at hend
        cases hend
      have hax : a ≠ some x := fun hax => hmem (hax ▸ ha)
      have hyx : some y ≠ some x := fun hyx => hx (Option.some.inj hyx ▸ hy)
      refine ⟨?_, ?_⟩
      · rw [nextOf_addNode, if_neg (fun h => hal h.1), if_neg hax, hab.1]
      · rw [previousOf_addNode, if_neg (fun h => Option.some_ne_none y h.1), if_neg hyx, hab.2]
    · rw [List.map_singleton, List.cons_append, List.nil_append, List.isChain_pair]
      refine ⟨?_, ?_⟩
      · rw [nextOf_addNode, if_neg (fun h => hlx h.1.symm), if_pos rfl]
      · rw [previousOf_addNode, if_pos ⟨rfl, rfl⟩]
    · intro a ha b hb
      rw [getLast?_ring, Option.mem_some_iff, ← h.last_eq] at ha
      rw [List.map_singleton, List.cons_append, List.head?_cons, Option.mem_some_iff] at hb
      subst ha hb
      refine ⟨?_, ?_⟩
      · rw [nextOf_addNode, if_pos ⟨rfl, Or.inl rfl⟩]
      · rw [previousOf_addNode, if_neg (fun h => Option.some_ne_none x h.1), if_pos rfl]
  nodup := by
    rw [← List.concat_eq_append]
    exact h.nodup.concat hx

/-- **Removing a node** from any place of its list. -/
theorem IsList.removeNode (h : s.IsList list (l ++ x :: t)) :
    (s.removeNode list x).IsList list (l ++ t) where
  chain := by
    obtain ⟨hl, ht, hlx, hxt⟩ := h.around
    have hp : s.previous x = l.getLast? := hlx.2
    have hn : s.next x = t.head? := hxt.1
    have hne := h.previous_ne
    obtain ⟨-, hnodup, hdisjoint⟩ := List.nodup_append.mp h.nodup
    have hxl : some x ∉ ring l := fun hmem =>
      hdisjoint x (some_mem_ring.mp hmem) x List.mem_cons_self rfl
    have hxt' : some x ∉ t.map some ++ [none] := by
      simpa using (List.nodup_cons.mp hnodup).1
    -- a link that does not involve `x` is neither the one into `x` nor the one out of it
    have hkeep : ∀ a b, a ≠ some x → b ≠ some x → s.Linked list a b →
        (s.removeNode list x).Linked list a b := by
      intro a b ha hb hab
      have hap : a ≠ s.previous x := by
        rintro rfl
        rw [hp] at hab
        exact hb (hab.1.symm.trans hlx.1)
      have hbn : b ≠ s.next x := by
        rintro rfl
        rw [hn] at hab
        exact ha (hab.2.symm.trans hxt.2)
      refine ⟨?_, ?_⟩
      · rw [nextOf_removeNode, if_neg ha, if_neg (fun h => hap h.1), hab.1]
      · rw [previousOf_removeNode _ _ _ _ _ hne, if_neg hb, if_neg (fun h => hbn h.1), hab.2]
    rw [ring_append, List.append_assoc, List.isChain_append]
    refine ⟨?_, ?_, ?_⟩
    · refine List.IsChain.imp_of_mem_imp (fun a b ha hb hab => ?_) hl
      exact hkeep a b (fun h => hxl (h ▸ ha)) (fun h => hxl (h ▸ hb)) hab
    · refine List.IsChain.imp_of_mem_imp (fun a b ha hb hab => ?_) ht
      exact hkeep a b (fun h => hxt' (h ▸ ha)) (fun h => hxt' (h ▸ hb)) hab
    · -- the seam
      intro a ha b hb
      rw [getLast?_ring, Option.mem_some_iff, ← hp] at ha
      rw [head?_map_append_none, Option.mem_some_iff, ← hn] at hb
      subst ha hb
      have hnx : s.next x ≠ some x := by
        rw [hn]
        intro hhead
        exact (List.nodup_cons.mp hnodup).1 (List.mem_of_head? hhead)
      refine ⟨?_, ?_⟩
      · rw [nextOf_removeNode, if_neg hne, if_pos ⟨rfl, Or.inl rfl⟩]
      · rw [previousOf_removeNode _ _ _ _ _ hne, if_neg hnx, if_pos ⟨rfl, Or.inl rfl⟩]
  nodup := h.nodup.sublist ((List.sublist_cons_self x t).append_left l)

/-! ### What is not in the list

The header of another list, or a node that is neither in the list nor the one it is called with. -/

section Outside

variable {a : Option ν}

theorem IsList.nextOf_addNode_of_outside (h : s.IsList list nodes)
    (hheader : a = none → other ≠ list) (hax : a ≠ some x) (hnodes : ∀ y ∈ nodes, a ≠ some y) :
    (s.addNode list x).nextOf other a = s.nextOf other a := by
  have hal : ¬(a = s.last list ∧ (other = list ∨ s.last list ≠ none)) := by
    rintro ⟨rfl, hor⟩
    cases hlast : s.last list with
    | none => exact hheader hlast (hor.resolve_right (fun hne => hne hlast))
    | some y => exact hnodes y (List.mem_of_getLast? (h.last_eq.symm.trans hlast)) hlast
  rw [nextOf_addNode, if_neg hal, if_neg hax]

theorem previousOf_addNode_of_outside (hheader : a = none → other ≠ list)
    (hax : a ≠ some x) : (s.addNode list x).previousOf other a = s.previousOf other a := by
  rw [previousOf_addNode, if_neg (fun h => hheader h.1 h.2), if_neg hax]

theorem IsList.nextOf_removeNode_of_outside (h : s.IsList list (l ++ x :: t))
    (hheader : a = none → other ≠ list) (hnodes : ∀ y ∈ l ++ x :: t, a ≠ some y) :
    (s.removeNode list x).nextOf other a = s.nextOf other a := by
  have hp : s.previous x = l.getLast? := h.around.2.2.1.2
  have hap : ¬(a = s.previous x ∧ (other = list ∨ s.previous x ≠ none)) := by
    rintro ⟨rfl, hor⟩
    cases hprevious : s.previous x with
    | none => exact hheader hprevious (hor.resolve_right (fun hne => hne hprevious))
    | some y =>
      have hy : y ∈ l := List.mem_of_getLast? (hp.symm.trans hprevious)
      exact hnodes y (List.mem_append_left _ hy) hprevious
  rw [nextOf_removeNode, if_neg (hnodes x (List.mem_append_right l List.mem_cons_self)),
    if_neg hap]

theorem IsList.previousOf_removeNode_of_outside (h : s.IsList list (l ++ x :: t))
    (hheader : a = none → other ≠ list) (hnodes : ∀ y ∈ l ++ x :: t, a ≠ some y) :
    (s.removeNode list x).previousOf other a = s.previousOf other a := by
  have hn : s.next x = t.head? := h.around.2.2.2.1
  have han : ¬(a = s.next x ∧ (other = list ∨ s.next x ≠ none)) := by
    rintro ⟨rfl, hor⟩
    cases hnext : s.next x with
    | none => exact hheader hnext (hor.resolve_right (fun hne => hne hnext))
    | some y =>
      have hy : y ∈ t := List.mem_of_head? (hn.symm.trans hnext)
      exact hnodes y (List.mem_append_right l (List.mem_cons_of_mem x hy)) hnext
  rw [previousOf_removeNode _ _ _ _ _ h.previous_ne,
    if_neg (hnodes x (List.mem_append_right l List.mem_cons_self)), if_neg han]

end Outside

/-! ### All lists at once -/

/-- Every list has its contents, and no node is in two lists. -/
structure Represents (s : Links ν ρ) (contents : ρ → List ν) : Prop where
  isList : ∀ list, s.IsList list (contents list)
  disjoint : ∀ list other, list ≠ other → ∀ x ∈ contents list, x ∉ contents other

omit [DecidableEq ν] [DecidableEq ρ] in
theorem empty_represents : (empty : Links ν ρ).Represents fun _ => [] where
  isList := empty_isList
  disjoint _ _ _ _ hx := absurd hx List.not_mem_nil

namespace Represents

variable {contents : ρ → List ν}

omit [DecidableEq ν] [DecidableEq ρ] in
/-- What is in the ring of another list is no node of this one. -/
theorem ne_of_mem_ring (h : s.Represents contents) (hother : other ≠ list) {a : Option ν}
    (ha : a ∈ ring (contents other)) : ∀ y ∈ contents list, a ≠ some y := by
  rintro y hy rfl
  exact h.disjoint other list hother y (some_mem_ring.mp ha) hy

/-- **Adding a node that is in no list** extends its list and changes no other one. -/
theorem addNode (h : s.Represents contents) (hx : ∀ list, x ∉ contents list) :
    (s.addNode list x).Represents (Function.update contents list (contents list ++ [x])) where
  isList other := by
    by_cases hother : other = list
    · subst hother
      rw [Function.update_self]
      exact (h.isList other).addNode (hx other)
    · rw [Function.update_of_ne hother]
      have hax : ∀ a ∈ ring (contents other), a ≠ some x := fun a ha hax =>
        hx other (some_mem_ring.mp (hax ▸ ha))
      refine (h.isList other).transport (fun a ha => ?_) fun a ha => ?_
      · exact (h.isList list).nextOf_addNode_of_outside (fun _ => hother) (hax a ha)
          (h.ne_of_mem_ring hother ha)
      · exact previousOf_addNode_of_outside (fun _ => hother) (hax a ha)
  disjoint := by
    intro r r' hne y hy hy'
    rw [Function.update_apply] at hy hy'
    split at hy <;> split at hy'
    · rename_i h1 h2
      exact hne (h1.trans h2.symm)
    · rename_i h1 h2
      rcases List.mem_append.mp hy with hy | hy
      · exact h.disjoint list r' (fun he => h2 he.symm) y hy hy'
      · rw [List.mem_singleton.mp hy] at hy'
        exact hx r' hy'
    · rename_i h1 h2
      rcases List.mem_append.mp hy' with hy' | hy'
      · exact h.disjoint r list h1 y hy hy'
      · rw [List.mem_singleton.mp hy'] at hy
        exact hx r hy
    · exact h.disjoint r r' hne y hy hy'

omit [DecidableEq ρ] in
/-- Clearing a node that is in no list. -/
theorem clearNode (h : s.Represents contents) (hx : ∀ list, x ∉ contents list) :
    (s.clearNode x).Represents contents where
  isList r := by
    have hne : ∀ a ∈ ring (contents r), a ≠ some x := fun a ha hax =>
      hx r (some_mem_ring.mp (hax ▸ ha))
    refine (h.isList r).transport (fun a ha => ?_) fun a ha => ?_
    · cases a with
      | none => rfl
      | some y => exact Function.update_of_ne (fun hy => hne _ ha (congrArg some hy)) _ _
    · cases a with
      | none => rfl
      | some y => exact Function.update_of_ne (fun hy => hne _ ha (congrArg some hy)) _ _
  disjoint := h.disjoint

omit [DecidableEq ν] in
/-- Clearing a list that is empty. -/
theorem clearList (h : s.Represents contents) (hlist : contents list = []) :
    (s.clearList list).Represents contents where
  isList r := by
    have hfirst : s.first list = none := (h.isList list).first_eq.trans (by rw [hlist]; rfl)
    have hlast : s.last list = none := (h.isList list).last_eq.trans (by rw [hlist]; rfl)
    refine (h.isList r).transport (fun a ha => ?_) fun a ha => ?_
    · cases a with
      | none => simp only [Links.clearList, nextOf, ← hfirst, Function.update_eq_self]
      | some y => rfl
    · cases a with
      | none => simp only [Links.clearList, previousOf, ← hlast, Function.update_eq_self]
      | some y => rfl
  disjoint := h.disjoint

/-- **Removing a node** shortens its list and changes no other one. -/
theorem removeNode (h : s.Represents contents) (hnodes : contents list = l ++ x :: t) :
    (s.removeNode list x).Represents (Function.update contents list (l ++ t)) where
  isList other := by
    have hlist := h.isList list
    rw [hnodes] at hlist
    by_cases hother : other = list
    · subst hother
      rw [Function.update_self]
      exact hlist.removeNode
    · rw [Function.update_of_ne hother]
      refine (h.isList other).transport (fun a ha => ?_) fun a ha => ?_
      · exact hlist.nextOf_removeNode_of_outside (fun _ => hother)
          (hnodes ▸ h.ne_of_mem_ring hother ha)
      · exact hlist.previousOf_removeNode_of_outside (fun _ => hother)
          (hnodes ▸ h.ne_of_mem_ring hother ha)
  disjoint := by
    have hsub : ∀ r, ∀ y ∈ Function.update contents list (l ++ t) r, y ∈ contents r := by
      intro r y hy
      rw [Function.update_apply] at hy
      split at hy
      · rename_i hr
        rw [hr, hnodes]
        exact ((List.sublist_cons_self x t).append_left l).subset hy
      · exact hy
    intro r r' hne y hy hy'
    exact h.disjoint r r' hne y (hsub r y hy) (hsub r' y hy')

end Represents

end Links

end LinkedList
