import SlvmNative.Library.LinkedList

/-!
# The linked lists of the data structures

`slvm_list_addNode` and `slvm_list_removeNode` over the memory of the nodes and of the lists. They
are the operations of the library on the links this memory holds, and so any number of lists can be
followed together through every sequence of calls.

## Main definitions

* `ListMemory`, `ListMemory.addNode`, `ListMemory.removeNode`
* `currentNodes` — the nodes of a list, read off the calls alone
* `ListRun` — any sequence of additions of free nodes and removals of listed ones

## Main results

* `ListMemory.links_addNode`, `ListMemory.links_removeNode` — the stores are those of the library
* `ListMemory.Valid` — what holds after every sequence of calls
* `ListMemory.lists_of_run` — both chains, both ends and the removed nodes, after every call
-/

namespace SlvmNative

open LinkedList

/-! ### The model -/

/-- `SLVM_LinkedListNode` -/
structure LinkedListNode (ν : Type*) where
  previous : Option ν
  next : Option ν

/-- `SLVM_LinkedList` -/
structure LinkedListEnds (ν : Type*) where
  first : Option ν
  last : Option ν

/-- The nodes and the lists in memory. A pointer is the node it points to, `NULL` is `none`. -/
structure ListMemory (ν ρ : Type*) where
  node : ν → LinkedListNode ν
  list : ρ → LinkedListEnds ν

namespace ListMemory

variable {ν ρ : Type*} [DecidableEq ν] [DecidableEq ρ]

/-- `node->previous = value` -/
def setPrevious (s : ListMemory ν ρ) (node : ν) (value : Option ν) : ListMemory ν ρ :=
  { s with node := Function.update s.node node { s.node node with previous := value } }

/-- `node->next = value` -/
def setNext (s : ListMemory ν ρ) (node : ν) (value : Option ν) : ListMemory ν ρ :=
  { s with node := Function.update s.node node { s.node node with next := value } }

/-- `list->first = value` -/
def setFirst (s : ListMemory ν ρ) (list : ρ) (value : Option ν) : ListMemory ν ρ :=
  { s with list := Function.update s.list list { s.list list with first := value } }

/-- `list->last = value` -/
def setLast (s : ListMemory ν ρ) (list : ρ) (value : Option ν) : ListMemory ν ρ :=
  { s with list := Function.update s.list list { s.list list with last := value } }

/-- `slvm_list_addNode` -/
def addNode (s : ListMemory ν ρ) (list : ρ) (node : ν) : ListMemory ν ρ :=
  let s := s.setPrevious node (s.list list).last
  let s := s.setNext node none
  let s := s.setLast list (some node)
  match (s.node node).previous with
  | some previous => s.setNext previous (some node)
  | none => s.setFirst list (some node)

/-- `slvm_list_removeNode` -/
def removeNode (s : ListMemory ν ρ) (list : ρ) (node : ν) : ListMemory ν ρ :=
  let s :=
    match (s.node node).previous with
    | some previous => s.setNext previous (s.node node).next
    | none => s.setFirst list (s.node node).next
  let s :=
    match (s.node node).next with
    | some next => s.setPrevious next (s.node node).previous
    | none => s.setLast list (s.node node).previous
  let s := s.setNext node none
  s.setPrevious node none

end ListMemory

/-- A call of one of the two functions. -/
inductive ListCall (ν ρ : Type*)
  | addNode (list : ρ) (node : ν)
  | removeNode (list : ρ) (node : ν)
  deriving DecidableEq

/-- The list a call is about. -/
def ListCall.list {ν ρ : Type*} : ListCall ν ρ → ρ
  | addNode list _ | removeNode list _ => list

section Calls

variable {ν ρ : Type*} [DecidableEq ν] [DecidableEq ρ]

/-- The nodes that these calls added to a list and did not remove from it later, in the order in
which they were added. -/
def currentNodes (list : ρ) : List (ListCall ν ρ) → List ν
  | [] => []
  | .addNode list' node :: calls =>
    if list' = list ∧ .removeNode list node ∉ calls then node :: currentNodes list calls
    else currentNodes list calls
  | .removeNode _ _ :: calls => currentNodes list calls

/-- A node is added when it is in no list, and removed from the list it is in. -/
def ListCall.Allowed (calls : List (ListCall ν ρ)) : ListCall ν ρ → Prop
  | addNode _ node => ∀ list, node ∉ currentNodes list calls
  | removeNode list node => node ∈ currentNodes list calls

/-- The memory after a call. -/
def ListMemory.run (s : ListMemory ν ρ) : ListCall ν ρ → ListMemory ν ρ
  | .addNode list node => s.addNode list node
  | .removeNode list node => s.removeNode list node

/-- The memory after a sequence of calls. -/
inductive ListRun (start : ListMemory ν ρ) : List (ListCall ν ρ) → ListMemory ν ρ → Prop
  | start : ListRun start [] start
  | call {calls : List (ListCall ν ρ)} {s : ListMemory ν ρ} {c : ListCall ν ρ}
      (h : ListRun start calls s) (hallowed : c.Allowed calls) :
      ListRun start (calls ++ [c]) (s.run c)

/-! ### The nodes of a list, call by call -/

theorem currentNodes_append_addNode (list list' : ρ) (node : ν) (calls : List (ListCall ν ρ)) :
    currentNodes list (calls ++ [.addNode list' node]) =
      currentNodes list calls ++ if list' = list then [node] else [] := by
  induction calls with
  | nil => simp [currentNodes]
  | cons c calls ih =>
    cases c with
    | addNode list'' node' =>
      simp only [List.cons_append, currentNodes, ih, List.mem_append, List.mem_singleton,
        reduceCtorEq, or_false]
      split <;> rfl
    | removeNode list'' node' => exact ih

theorem currentNodes_append_removeNode (list list' : ρ) (node : ν) (calls : List (ListCall ν ρ)) :
    currentNodes list (calls ++ [.removeNode list' node]) =
      if list' = list then (currentNodes list calls).filter (· ≠ node)
      else currentNodes list calls := by
  induction calls with
  | nil => simp [currentNodes]
  | cons c calls ih =>
    cases c with
    | addNode list'' node' =>
      by_cases hlist : list' = list
      · subst hlist
        by_cases hnode : node' = node
        · simp [currentNodes, ih, hnode, apply_ite (List.filter _)]
        · simp [currentNodes, ih, hnode, apply_ite (List.filter _)]
      · simp [currentNodes, ih, hlist, Ne.symm hlist]
    | removeNode list'' node' => simp [currentNodes, ih]

/-- An added node is at the end of its list. -/
theorem currentNodes_addNode (list : ρ) (node : ν) (calls : List (ListCall ν ρ)) :
    (fun other => currentNodes other (calls ++ [.addNode list node])) =
      Function.update (fun other => currentNodes other calls) list
        (currentNodes list calls ++ [node]) := by
  funext other
  rw [currentNodes_append_addNode]
  by_cases hother : other = list
  · subst hother
    rw [if_pos rfl, Function.update_self]
  · rw [if_neg (fun h => hother h.symm), List.append_nil, Function.update_of_ne hother]

/-- A removed node is left out of its list. -/
theorem currentNodes_removeNode {list : ρ} {node : ν} {calls : List (ListCall ν ρ)} {l t : List ν}
    (hnodes : currentNodes list calls = l ++ node :: t) (hnodup : (l ++ node :: t).Nodup) :
    (fun other => currentNodes other (calls ++ [.removeNode list node])) =
      Function.update (fun other => currentNodes other calls) list (l ++ t) := by
  have hfilter : (l ++ node :: t).filter (· ≠ node) = l ++ t := by
    have hl : ∀ y ∈ l, y ≠ node := fun y hy hyn =>
      (List.nodup_append.mp hnodup).2.2 y hy node List.mem_cons_self hyn
    have ht : ∀ y ∈ t, y ≠ node := fun y hy hyn =>
      (List.nodup_cons.mp (List.nodup_append.mp hnodup).2.1).1 (hyn ▸ hy)
    rw [List.filter_append, List.filter_cons_of_neg (by simp)]
    congr 1
    · exact List.filter_eq_self.mpr fun y hy => decide_eq_true (hl y hy)
    · exact List.filter_eq_self.mpr fun y hy => decide_eq_true (ht y hy)
  funext other
  rw [currentNodes_append_removeNode]
  by_cases hother : other = list
  · subst hother
    rw [if_pos rfl, Function.update_self, hnodes, hfilter]
  · rw [if_neg (fun h => hother h.symm), Function.update_of_ne hother]

namespace ListMemory

/-! ### The stores are those of the library -/

/-- The links this memory holds. -/
def links (s : ListMemory ν ρ) : Links ν ρ where
  previous := LinkedListNode.previous ∘ s.node
  next := LinkedListNode.next ∘ s.node
  first := LinkedListEnds.first ∘ s.list
  last := LinkedListEnds.last ∘ s.list

variable (s : ListMemory ν ρ) (list : ρ) (node : ν) (value : Option ν)

omit [DecidableEq ν] [DecidableEq ρ] in
theorem previous_eq : (s.node node).previous = s.links.previous node := rfl

omit [DecidableEq ν] [DecidableEq ρ] in
theorem next_eq : (s.node node).next = s.links.next node := rfl

omit [DecidableEq ν] [DecidableEq ρ] in
theorem last_eq : (s.list list).last = s.links.last list := rfl

theorem links_setPrevious :
    (s.setPrevious node value).links = s.links.setPrevious list (some node) value := by
  have hnext := Function.update_eq_self node (LinkedListNode.next ∘ s.node)
  rw [Function.comp_apply] at hnext
  simp only [links, setPrevious, Links.setPrevious, Function.comp_update, hnext]

theorem links_setNext :
    (s.setNext node value).links = s.links.setNext list (some node) value := by
  have hprevious := Function.update_eq_self node (LinkedListNode.previous ∘ s.node)
  rw [Function.comp_apply] at hprevious
  simp only [links, setNext, Links.setNext, Function.comp_update, hprevious]

theorem links_setFirst : (s.setFirst list value).links = s.links.setNext list none value := by
  have hlast := Function.update_eq_self list (LinkedListEnds.last ∘ s.list)
  rw [Function.comp_apply] at hlast
  simp only [links, setFirst, Links.setNext, Function.comp_update, hlast]

theorem links_setLast : (s.setLast list value).links = s.links.setPrevious list none value := by
  have hfirst := Function.update_eq_self list (LinkedListEnds.first ∘ s.list)
  rw [Function.comp_apply] at hfirst
  simp only [links, setLast, Links.setPrevious, Function.comp_update, hfirst]

/-- The two branches of an update of a link, after a node or after the header. -/
theorem links_match_next (at? : Option ν) :
    (match at? with
      | some previous => s.setNext previous value
      | none => s.setFirst list value).links = s.links.setNext list at? value := by
  cases at? with
  | none => exact s.links_setFirst list value
  | some previous => exact s.links_setNext list previous value

theorem links_match_previous (at? : Option ν) :
    (match at? with
      | some next => s.setPrevious next value
      | none => s.setLast list value).links = s.links.setPrevious list at? value := by
  cases at? with
  | none => exact s.links_setLast list value
  | some next => exact s.links_setPrevious list next value

/-- **Adding a node** is the addition of the library. -/
theorem links_addNode : (s.addNode list node).links = s.links.addNode list node := by
  rw [addNode, links_match_next, previous_eq, links_setLast, links_setNext _ list,
    links_setPrevious _ list, last_eq]
  rfl

/-- **Removing a node** is the removal of the library. -/
theorem links_removeNode : (s.removeNode list node).links = s.links.removeNode list node := by
  rw [removeNode, links_setPrevious _ list, links_setNext _ list, links_match_previous]
  simp only [previous_eq, next_eq, links_match_next]
  rfl

/-! ### Every sequence of calls -/

/-- What holds after these calls. -/
structure Valid (calls : List (ListCall ν ρ)) (s : ListMemory ν ρ) : Prop where
  /-- Every list holds its current nodes. -/
  represents : s.links.Represents fun list => currentNodes list calls
  /-- A removed node that was not added again is clear. -/
  removed : ∀ list node, .removeNode list node ∈ calls →
    (∀ other, node ∉ currentNodes other calls) → s.node node = ⟨none, none⟩

namespace Valid

variable {calls : List (ListCall ν ρ)} {s : ListMemory ν ρ} {list : ρ} {node : ν}

theorem start (hstart : ∀ list, s.list list = ⟨none, none⟩) : Valid [] s where
  represents :=
    { isList := fun list =>
        Links.isList_nil (congrArg LinkedListEnds.first (hstart list))
          (congrArg LinkedListEnds.last (hstart list))
      disjoint := fun _ _ _ _ hx => absurd hx List.not_mem_nil }
  removed _ _ hmem := absurd hmem List.not_mem_nil

/-- A call on one list keeps the other ones, and every node that is not in it. -/
structure Keeps (s s' : ListMemory ν ρ) (list : ρ) (nodes : List ν) : Prop where
  list_eq : ∀ other, other ≠ list → s'.list other = s.list other
  node_eq : ∀ y, y ∉ nodes → s'.node y = s.node y

omit [DecidableEq ν] [DecidableEq ρ] in
/-- It is enough to look at the links outside the list. -/
theorem Keeps.of_links {s' : ListMemory ν ρ} {nodes : List ν}
    (hnext : ∀ other a, (a = none → other ≠ list) → (∀ y ∈ nodes, a ≠ some y) →
      s'.links.nextOf other a = s.links.nextOf other a)
    (hprevious : ∀ other a, (a = none → other ≠ list) → (∀ y ∈ nodes, a ≠ some y) →
      s'.links.previousOf other a = s.links.previousOf other a) : Keeps s s' list nodes where
  list_eq other hother := by
    have hfirst := hnext other none (fun _ => hother) fun _ _ h => nomatch h
    have hlast := hprevious other none (fun _ => hother) fun _ _ h => nomatch h
    exact congrArg₂ LinkedListEnds.mk hfirst hlast
  node_eq y hy := by
    have houtside : ∀ z ∈ nodes, some y ≠ some z := fun z hz hyz => hy (Option.some.inj hyz ▸ hz)
    have hn := hnext list (some y) (fun h => nomatch h) houtside
    have hp := hprevious list (some y) (fun h => nomatch h) houtside
    exact congrArg₂ LinkedListNode.mk hp hn

theorem keeps_addNode (h : Valid calls s) :
    Keeps s (s.addNode list node) list (node :: currentNodes list calls) := by
  refine .of_links (fun other a hheader houtside => ?_) fun other a hheader houtside => ?_
  · rw [links_addNode]
    exact (h.represents.isList list).nextOf_addNode_of_outside hheader
      (houtside node List.mem_cons_self) fun y hy => houtside y (List.mem_cons_of_mem node hy)
  · rw [links_addNode]
    exact Links.previousOf_addNode_of_outside hheader (houtside node List.mem_cons_self)

theorem keeps_removeNode (h : Valid calls s) (hmem : node ∈ currentNodes list calls) :
    Keeps s (s.removeNode list node) list (currentNodes list calls) := by
  obtain ⟨l, t, hnodes⟩ := List.append_of_mem hmem
  have hlist := h.represents.isList list
  rw [hnodes] at hlist ⊢
  refine .of_links (fun other a hheader houtside => ?_) fun other a hheader houtside => ?_
  · rw [links_removeNode]
    exact hlist.nextOf_removeNode_of_outside hheader houtside
  · rw [links_removeNode]
    exact hlist.previousOf_removeNode_of_outside hheader houtside

omit [DecidableEq ρ] in
/-- The last line of a removal. -/
theorem node_removeNode [DecidableEq ρ] (s : ListMemory ν ρ) (list : ρ) (node : ν) :
    (s.removeNode list node).node node = ⟨none, none⟩ := by
  simp only [removeNode, ListMemory.setPrevious, ListMemory.setNext, Function.update_self]

theorem addNode (h : Valid calls s) (hfree : ∀ list, node ∉ currentNodes list calls) :
    Valid (calls ++ [.addNode list node]) (s.addNode list node) where
  represents := by
    rw [links_addNode, currentNodes_addNode]
    exact h.represents.addNode hfree
  removed list' y hmem hy := by
    have hlist := hy list
    rw [currentNodes_append_addNode, if_pos rfl, List.mem_append, not_or] at hlist
    have hyn : y ≠ node := fun hyn => hlist.2 (List.mem_singleton.mpr hyn)
    have hbefore : .removeNode list' y ∈ calls := by simpa using hmem
    rw [h.keeps_addNode.node_eq y (List.not_mem_cons_of_ne_of_not_mem hyn hlist.1)]
    refine h.removed list' y hbefore fun other hother => hy other ?_
    rw [currentNodes_append_addNode]
    exact List.mem_append_left _ hother

theorem removeNode (h : Valid calls s) (hmem : node ∈ currentNodes list calls) :
    Valid (calls ++ [.removeNode list node]) (s.removeNode list node) where
  represents := by
    obtain ⟨l, t, hnodes⟩ := List.append_of_mem hmem
    have hnodup := hnodes ▸ (h.represents.isList list).nodup
    rw [links_removeNode, currentNodes_removeNode hnodes hnodup]
    exact h.represents.removeNode hnodes
  removed list' y hremoved hy := by
    by_cases hyn : y = node
    · subst hyn
      exact node_removeNode s list y
    · -- another free node was free before, and outside the list
      have hfree : ∀ other, y ∉ currentNodes other calls := by
        intro other hother
        refine hy other ?_
        rw [currentNodes_append_removeNode]
        split
        · exact List.mem_filter.mpr ⟨hother, decide_eq_true hyn⟩
        · exact hother
      have hbefore : .removeNode list' y ∈ calls := by simpa [hyn] using hremoved
      rw [(h.keeps_removeNode hmem).node_eq y (hfree list)]
      exact h.removed list' y hbefore hfree

/-- **The step.** -/
theorem run {c : ListCall ν ρ} (h : Valid calls s) (hallowed : c.Allowed calls) :
    Valid (calls ++ [c]) (s.run c) := by
  cases c with
  | addNode list node => exact h.addNode hallowed
  | removeNode list node => exact h.removeNode hallowed

/-- A call changes no link of a node in another list, and no other list. -/
theorem keeps_run {c : ListCall ν ρ} (h : Valid calls s) (hallowed : c.Allowed calls) {other : ρ}
    (hother : other ≠ c.list) : (s.run c).list other = s.list other ∧
      ∀ y ∈ currentNodes other calls, (s.run c).node y = s.node y := by
  cases c with
  | addNode list node =>
    have hkeeps : Keeps s (s.addNode list node) list _ := h.keeps_addNode
    refine ⟨hkeeps.list_eq other hother, fun y hy => hkeeps.node_eq y ?_⟩
    intro hmem
    rcases List.mem_cons.mp hmem with rfl | hmem
    · exact hallowed other hy
    · exact h.represents.disjoint other list hother y hy hmem
  | removeNode list node =>
    have hkeeps : Keeps s (s.removeNode list node) list _ := h.keeps_removeNode hallowed
    refine ⟨hkeeps.list_eq other hother, fun y hy => hkeeps.node_eq y ?_⟩
    exact h.represents.disjoint other list hother y hy

end Valid

/-- **The invariant of the lists** holds after every sequence of calls. -/
theorem valid_of_run {start s : ListMemory ν ρ} {calls : List (ListCall ν ρ)}
    (hstart : ∀ list, start.list list = ⟨none, none⟩) (hrun : ListRun start calls s) :
    Valid calls s := by
  induction hrun with
  | start => exact Valid.start hstart
  | call _ hallowed ih => exact ih.run hallowed

/-- **The lists after every sequence of calls**, from empty lists and nodes with any links. -/
theorem lists_of_run {start s : ListMemory ν ρ} {calls : List (ListCall ν ρ)}
    (hstart : ∀ list, start.list list = ⟨none, none⟩) (hrun : ListRun start calls s) :
    -- both chains end, and pass the current nodes in order and in reverse
    (∀ list, Follows (fun y => (s.node y).next) (s.list list).first (currentNodes list calls) ∧
      Follows (fun y => (s.node y).previous) (s.list list).last
        (currentNodes list calls).reverse) ∧
    -- the ends are missing exactly in an empty list
    (∀ list, ((s.list list).first = none ↔ currentNodes list calls = []) ∧
      ((s.list list).last = none ↔ currentNodes list calls = [])) ∧
    -- a removed node is clear
    (∀ list y, .removeNode list y ∈ calls → (∀ other, y ∉ currentNodes other calls) →
      s.node y = ⟨none, none⟩) ∧
    -- the next call, whatever it is, changes its own list only
    ∀ c : ListCall ν ρ, c.Allowed calls → ∀ other, other ≠ c.list →
      (s.run c).list other = s.list other ∧
        ∀ y ∈ currentNodes other calls, (s.run c).node y = s.node y := by
  have h := valid_of_run hstart hrun
  refine ⟨fun list => ⟨(h.represents.isList list).follows_next,
    (h.represents.isList list).follows_previous⟩, fun list => ⟨?_, ?_⟩, h.removed,
    fun c hallowed other hother => h.keeps_run hallowed hother⟩
  · have hfirst : (s.list list).first = _ := (h.represents.isList list).first_eq
    rw [hfirst, List.head?_eq_none_iff]
  · have hlast : (s.list list).last = _ := (h.represents.isList list).last_eq
    rw [hlast, List.getLast?_eq_none_iff]

/-- The first of two nodes moves to another list. -/
theorem lists_of_run_moved :
    ∃ s : ListMemory ℕ Bool,
      ListRun ⟨fun _ => ⟨some 9, some 9⟩, fun _ => ⟨none, none⟩⟩
        [.addNode false 1, .addNode false 2, .addNode true 5, .removeNode false 1,
          .addNode true 1] s ∧
      Follows (fun y => (s.node y).next) (s.list false).first [2] ∧
      Follows (fun y => (s.node y).next) (s.list true).first [5, 1] := by
  have hrun := @ListRun.start ℕ Bool _ _ ⟨fun _ => ⟨some 9, some 9⟩, fun _ => ⟨none, none⟩⟩
    |>.call (c := .addNode false 1) (by simp [ListCall.Allowed, currentNodes])
    |>.call (c := .addNode false 2) (by simp [ListCall.Allowed, currentNodes])
    |>.call (c := .addNode true 5) (by simp [ListCall.Allowed, currentNodes])
    |>.call (c := .removeNode false 1) (by simp [ListCall.Allowed, currentNodes])
    |>.call (c := .addNode true 1) (by simp [ListCall.Allowed, currentNodes])
  have hlists := lists_of_run (fun _ => rfl) hrun
  exact ⟨_, hrun, (hlists.1 false).1, (hlists.1 true).1⟩

end ListMemory

end Calls

end SlvmNative
