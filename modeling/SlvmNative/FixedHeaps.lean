import SlvmNative.StaticHeapNames

/-!
# Fixed heaps

The four walks of `slvm_internal_fixStaticHeap` over a heap of small objects, one after another. A
marking walk leaves the forwarding pointers of its class behind, with the symbols and the globals
that are then valid; a forwarding walk changes the slots that refer to a marked object, none of
which is a name in the globals. In the state after the last walk every walk changes nothing.

## Main definitions

* `World.SmallImage`, `NamedImage` — the heaps in question
* `World.HalfMarked` — a marking walk that is under way
* `World.SymbolsMarked`, `VariablesMarked` — what the marking walks leave behind
* `World.HeapFixed` — the state after the last walk

## Main results

* `World.iterate_marking` — what a marking walk leaves behind
* `World.iterate_symbols`, `iterate_globalVariables` — the marking walks
* `World.HeapFixed.fixStaticHeap` — a fixed heap is not changed by fixing it up
* `World.fixStaticHeap_of_run` — what becomes of every slot
-/

namespace SlvmNative

open ObjectMemory Relation

/-! ### Marks -/

/-- The forwarding pointer of an object that is to become `target`. -/
def forwardingMark (header target : ℕ) : ℕ := if target = header then 0 else target

theorem forwardingMark_clear {header target : ℕ} (h : oopIsPointers target) :
    clearTag (forwardingMark header target) = forwardingMark header target := by
  rw [forwardingMark]
  split
  · rfl
  · exact clearTag_of_pointers h

namespace World

/-- Storing the word that is there. -/
theorem setForwardingWord_self (w : World) (a : ℕ) :
    w.setForwardingWord a (w.memory.forwardingWord a) = w := by
  rw [setForwardingWord, ObjectMemory.setForwardingWord, Function.update_eq_self]
  rfl

@[simp] theorem setForwardingWord_header (w : World) (a v : ℕ) :
    (w.setForwardingWord a v).memory.header = w.memory.header := rfl

@[simp] theorem setForwardingWord_slot (w : World) (a v : ℕ) :
    (w.setForwardingWord a v).memory.slot = w.memory.slot := rfl

theorem setForwardingWord_word_self (w : World) (a v : ℕ) :
    (w.setForwardingWord a v).memory.forwardingWord a = v := Function.update_self ..

theorem setForwardingWord_word_of_ne (w : World) {a b : ℕ} (h : b ≠ a) (v : ℕ) :
    (w.setForwardingWord a v).memory.forwardingWord b = w.memory.forwardingWord b :=
  Function.update_of_ne h _ _

section Mark

variable {Marked : ℕ → Prop} [DecidablePred Marked]
  {becomeTarget : World → ℕ → Option (ℕ × World)} {w w' : World} {o : HeapObject}

/-- Marking an object of another class, whose forwarding pointer has no tags, changes nothing. -/
theorem markForwarding_of_not
    (hword : clearTag (w.memory.forwardingWord o.forwardingPointer) =
      w.memory.forwardingWord o.forwardingPointer)
    (hclass : ¬ Marked (w.memory.header o.header).classIndex) :
    markForwarding Marked becomeTarget w o = some w := by
  rw [markForwarding]
  simp only [hword, setForwardingWord_self, hclass, if_false, Option.bind_eq_bind, Option.bind_some,
    ne_eq, not_true_eq_false]
  rfl

/-- Marking an object that is to become `target`. -/
theorem markForwarding_of_marked
    (hword : clearTag (w.memory.forwardingWord o.forwardingPointer) =
      w.memory.forwardingWord o.forwardingPointer)
    (hclass : Marked (w.memory.header o.header).classIndex) {target : ℕ}
    (htarget : becomeTarget w o.header = some (target, w')) :
    markForwarding Marked becomeTarget w o =
      some (if target ≠ o.header then
        w'.setForwardingWord o.forwardingPointer
          (w'.memory.forwardingWord o.forwardingPointer ||| target)
      else w') := by
  rw [markForwarding]
  simp only [hword, setForwardingWord_self, hclass, if_true, Option.bind_eq_bind, Option.bind_some,
    htarget, Option.pure_def]

/-- Marking an object without a forwarding pointer. -/
theorem markForwarding_of_zero (hword : w.memory.forwardingWord o.forwardingPointer = 0)
    (hclass : Marked (w.memory.header o.header).classIndex) {target : ℕ}
    (htarget : becomeTarget w o.header = some (target, w'))
    (hword' : w'.memory.forwardingWord o.forwardingPointer = 0) :
    markForwarding Marked becomeTarget w o =
      some (w'.setForwardingWord o.forwardingPointer (forwardingMark o.header target)) := by
  rw [markForwarding_of_marked (by rw [hword]; rfl) hclass htarget, hword', forwardingMark]
  congr 1
  by_cases heq : target = o.header
  · rw [if_neg (not_not_intro heq), if_pos heq, ← hword', setForwardingWord_self]
  · rw [if_pos heq, if_neg heq, Nat.zero_or]

/-- An object that was marked has a target. -/
theorem exists_becomeTarget
    (hword : clearTag (w.memory.forwardingWord o.forwardingPointer) =
      w.memory.forwardingWord o.forwardingPointer)
    (hclass : Marked (w.memory.header o.header).classIndex)
    (hmark : markForwarding Marked becomeTarget w o = some w') :
    ∃ target w'', becomeTarget w o.header = some (target, w'') := by
  rcases htarget : becomeTarget w o.header with _ | ⟨target, w''⟩
  · rw [markForwarding] at hmark
    simp only [hword, setForwardingWord_self, hclass, if_true, Option.bind_eq_bind,
      htarget] at hmark
    cases hmark
  · exact ⟨target, w'', rfl⟩

/-- Marking an object again changes nothing. -/
theorem markForwarding_again {target : ℕ}
    (hword : w.memory.forwardingWord o.forwardingPointer = forwardingMark o.header target)
    (hpointers : oopIsPointers target) (hclass : Marked (w.memory.header o.header).classIndex)
    (htarget : becomeTarget w o.header = some (target, w)) :
    markForwarding Marked becomeTarget w o = some w := by
  have hclear : clearTag (w.memory.forwardingWord o.forwardingPointer) =
      w.memory.forwardingWord o.forwardingPointer := by
    rw [hword]
    exact forwardingMark_clear hpointers
  rw [markForwarding_of_marked hclear hclass htarget]
  congr 1
  by_cases heq : target = o.header
  · rw [if_neg (not_not_intro heq)]
  · have hor : w.memory.forwardingWord o.forwardingPointer ||| target =
        w.memory.forwardingWord o.forwardingPointer := by
      rw [hword, forwardingMark, if_neg heq, Nat.or_self]
    rw [if_pos heq, hor, setForwardingWord_self]

end Mark

/-- The image in a memory with other slots. -/
theorem StaticImage.withSlots {w : World} {heap : HeapInformation} {objects : List HeapObject}
    (h : StaticImage w heap objects) (slot : ℕ → ℕ → ℕ) :
    StaticImage (w.withMemory (w.memory.withSlots slot)) heap objects :=
  ⟨h.laid, h.aligned, h.parses⟩

/-! ### Images of small objects -/

/-- A static heap of small objects whose forwarding pointers have no tags. -/
structure SmallImage (w : World) (heap : HeapInformation) (objects : List HeapObject) : Prop
    extends StaticImage w heap objects where
  clear : ∀ o ∈ objects, clearTag (w.memory.forwardingWord o.forwardingPointer) =
    w.memory.forwardingWord o.forwardingPointer

namespace SmallImage

variable {w w' : World} {heap : HeapInformation} {objects : List HeapObject} {o : HeapObject}

theorem not_isBig (h : SmallImage w heap objects) (ho : o ∈ objects) :
    ¬ isBig w o.forwardingPointer := by
  have hword := clearTag_and_one (w.memory.forwardingWord o.forwardingPointer)
  rw [h.clear o ho] at hword
  exact not_not_intro hword

/-- The header of a small object is behind its forwarding pointer. -/
theorem header_eq (h : SmallImage w heap objects) (ho : o ∈ objects) :
    o.header = o.forwardingPointer + 8 ∧ (w.memory.header o.header).slotCount ≠ 255 := by
  obtain ⟨hparse, hassert⟩ := h.parses o ho
  have hheader : o.header = o.forwardingPointer + 8 := by
    conv_lhs => rw [← hparse]
    rw [parseObject, if_neg (h.not_isBig ho)]
  refine ⟨hheader, fun hslot => h.not_isBig ho ?_⟩
  rw [slotCountAsserted, hparse] at hassert
  exact hassert.mp hslot

/-- The objects are in the heap, at oops. -/
theorem bounds (h : SmallImage w heap objects) (ho : o ∈ objects) :
    heap.start ≤ o.forwardingPointer ∧ o.header < heap.finish ∧ oopIsPointers o.header := by
  obtain ⟨hstart, hnext, -⟩ := h.laid.bounds ho
  have haligned := h.laid.forwardingPointer_aligned h.aligned ho
  have hheader := (h.header_eq ho).1
  have hbody := HeapObject.header_add_eight_le_next (Or.inl hheader) haligned
  refine ⟨hstart, by omega, oopIsPointers_iff.mpr ?_⟩
  omega

/-- What a reference to an object of the heap is forwarded to. -/
theorem forwardOop_header (h : SmallImage w heap objects) (ho : o ∈ objects) :
    w.memory.forwardOop heap o.header =
      if w.memory.forwardingWord o.forwardingPointer = 0 then o.header
      else w.memory.forwardingWord o.forwardingPointer := by
  obtain ⟨hheader, hslot⟩ := h.header_eq ho
  obtain ⟨hstart, hfinish, hpointers⟩ := h.bounds ho
  have hposition : w.memory.getForwardingPointerForObject o.header = o.forwardingPointer := by
    rw [getForwardingPointerForObject, if_neg hslot]
    omega
  rw [forwardOop, hposition, h.clear o ho]
  have hle : heap.start ≤ o.header := by omega
  simp only [hpointers, hfinish, hle, true_and, ne_eq]
  by_cases hzero : w.memory.forwardingWord o.forwardingPointer = 0
  · rw [if_neg (not_not_intro hzero), if_pos hzero]
  · rw [if_pos hzero, if_neg hzero]

/-- An object whose mark is known is forwarded to what it is to become. -/
theorem forwardOop_mark (h : SmallImage w heap objects) (ho : o ∈ objects) {target : ℕ}
    (hne : target ≠ 0)
    (hword : w.memory.forwardingWord o.forwardingPointer = forwardingMark o.header target) :
    w.memory.forwardOop heap o.header = target := by
  rw [h.forwardOop_header ho, hword, forwardingMark]
  by_cases heq : target = o.header
  · rw [if_pos heq, if_pos rfl, heq]
  · rw [if_neg heq, if_neg hne]

/-- The image after a step that changed at most forwarding pointers and slots of static memory. -/
theorem congr (h : SmallImage w heap objects) (hbelow : heap.finish ≤ w.memory.heapStart)
    (hheader : ∀ x < w.memory.heapStart, w'.memory.header x = w.memory.header x)
    (hclear : ∀ o ∈ objects, clearTag (w'.memory.forwardingWord o.forwardingPointer) =
      w'.memory.forwardingWord o.forwardingPointer) : SmallImage w' heap objects where
  laid := h.laid
  aligned := h.aligned
  clear := hclear
  parses o ho := by
    obtain ⟨-, hfinish, -⟩ := h.bounds ho
    have hsmall : ¬ isBig w' o.forwardingPointer := by
      have hword := clearTag_and_one (w'.memory.forwardingWord o.forwardingPointer)
      rw [hclear o ho] at hword
      exact not_not_intro hword
    obtain ⟨hparse, hassert⟩ := h.parses o ho
    have hposition := (h.header_eq ho).1
    have hheader' := hheader o.header (hfinish.trans_le hbelow)
    have hparse' : parseObject w' o.forwardingPointer = o := by
      refine Eq.trans ?_ hparse
      rw [hposition] at hheader'
      simp only [parseObject, hsmall, h.not_isBig ho, if_false, HeapReader.header, hheader']
    refine ⟨hparse', ?_⟩
    rw [slotCountAsserted, hparse']
    refine iff_of_false (fun hslot => (h.header_eq ho).2 ?_) hsmall
    exact (congrArg ObjectHeader.slotCount hheader').symm.trans hslot

/-- The objects are static. -/
theorem lt_heapStart (h : SmallImage w heap objects) (hbelow : heap.finish ≤ w.memory.heapStart)
    (ho : o ∈ objects) : o.header < w.memory.heapStart ∧ o.forwardingPointer < w.memory.heapStart ∧
      o.header ≠ 0 := by
  obtain ⟨-, hfinish, -⟩ := h.bounds ho
  have hheader := (h.header_eq ho).1
  omega

/-- There can be objects at their headers. -/
theorem placed (h : SmallImage w heap objects) (hbelow : heap.finish ≤ w.memory.heapStart)
    (ho : o ∈ objects) : heap.Placed objects o.header :=
  ⟨(h.lt_heapStart hbelow ho).2.2, fun _ _ => ⟨o, ho, rfl⟩⟩

end SmallImage

variable [KernelImage]

/-- The class of an object. -/
def HasClass (w : World) (o : HeapObject) (c : KernelClass) : Prop :=
  (w.memory.header o.header).classIndex = c.index

/-- A heap in which every symbol is a byte symbol, every global variable has a symbol of the heap
or an interned one as its name, and every oop that points into the heap points to an object. -/
structure NamedImage (w : World) (heap : HeapInformation) (objects : List HeapObject) : Prop where
  narrow : ∀ o ∈ objects, ¬ w.HasClass o .WideSymbol
  /-- The static objects of the runtime are elsewhere. -/
  apart : ∀ o ∈ objects, KernelImage.objectAt o.header = none
  key : ∀ o ∈ objects, w.HasClass o .GlobalVariable → w.IsOopSlot objects o.header Field.key ∧
    ((∃ p ∈ objects, p.header = w.memory.slot o.header Field.key ∧ w.HasClass p .ByteSymbol) ∨
      w.IsInterned (w.memory.slot o.header Field.key))
  oop : ∀ x i, w.IsOopSlot objects x i → oopIsPointers (w.memory.slot x i) →
    heap.start ≤ w.memory.slot x i → w.memory.slot x i < heap.finish →
    ∃ p ∈ objects, p.header = w.memory.slot x i

/-- Every byte symbol of the heap is marked with the symbol of its bytes. -/
def SymbolsMarked (w : World) (objects : List HeapObject) (f : List UInt8 → Option ℕ) : Prop :=
  ∀ o ∈ objects, w.HasClass o .ByteSymbol → ∃ s, f (w.memory.bytes o.header) = some s ∧
    w.memory.forwardingWord o.forwardingPointer = forwardingMark o.header s

/-- A global variable of the heap. -/
def GlobalVariableOf (w : World) (objects : List HeapObject) (e : ℕ) : Prop :=
  ∃ o ∈ objects, w.HasClass o .GlobalVariable ∧ o.header = e

/-- Every global variable of the heap is marked with the association of its name. -/
def VariablesMarked (w : World) (objects : List HeapObject) (g : ℕ → Option ℕ) : Prop :=
  ∀ o ∈ objects, w.HasClass o .GlobalVariable →
    ∃ e, g (w.memory.slot o.header Field.key) = some e ∧
      w.memory.forwardingWord o.forwardingPointer = forwardingMark o.header e

section Walks

variable {heap : HeapInformation} {objects : List HeapObject} {w : World} {owner : ℕ → Region}
  {f : List UInt8 → Option ℕ} {g : ℕ → Option ℕ}

section Marking

omit [KernelImage]

variable {γ : Type*} {Marked : ℕ → Prop} {becomeTarget : World → ℕ → Option (ℕ × World)}
  {P : γ → World → Prop} {T : γ → HeapObject → ℕ → Prop}

/-- Half way through a marking walk that began in `w`: the objects `pre` are marked, the others have
their old words. The target of an object depends on a state `c` of the data structures. -/
structure HalfMarked (Marked : ℕ → Prop) (P : γ → World → Prop) (T : γ → HeapObject → ℕ → Prop)
    (w : World) (objects pre : List HeapObject) (c : γ) (w' : World) : Prop where
  state : P c w'
  marked : ∀ o ∈ pre, Marked (w.memory.header o.header).classIndex → ∃ target, T c o target ∧
    oopIsPointers target ∧
    w'.memory.forwardingWord o.forwardingPointer = forwardingMark o.header target
  rest : ∀ o ∈ objects, o ∉ pre ∨ ¬ Marked (w.memory.header o.header).classIndex →
    w'.memory.forwardingWord o.forwardingPointer = w.memory.forwardingWord o.forwardingPointer

/-- What marking one more object leaves behind: its target, which is known from then on, and the
forwarding pointers there were. -/
structure MarksObject (P : γ → World → Prop) (T : γ → HeapObject → ℕ → Prop)
    (objects : List HeapObject) (o : HeapObject) (c : γ) (w' : World) (target : ℕ) (c' : γ)
    (w'' : World) : Prop where
  state : P c' w''
  known : T c' o target
  pointers : oopIsPointers target
  words : ∀ p ∈ objects, w''.memory.forwardingWord p.forwardingPointer =
    w'.memory.forwardingWord p.forwardingPointer
  keeps : ∀ p t, T c p t → T c' p t

theorem HalfMarked.start {c : γ} (hstart : P c w) :
    HalfMarked Marked P T w objects [] c w :=
  ⟨hstart, fun _ ho => absurd ho List.not_mem_nil, fun _ _ _ => rfl⟩

theorem HalfMarked.image {pre : List HeapObject} {c : γ} {w' : World}
    (h : HalfMarked Marked P T w objects pre c w') (himage : SmallImage w heap objects)
    (hbelow : heap.finish ≤ w.memory.heapStart)
    (hkept : ∀ c w', P c w' → StaticKept w.memory w'.memory) : SmallImage w' heap objects := by
  refine himage.congr hbelow (hkept c w' h.state).header fun o ho => ?_
  by_cases hmarks : o ∈ pre ∧ Marked (w.memory.header o.header).classIndex
  · obtain ⟨target, -, hpointers, hword⟩ := h.marked o hmarks.1 hmarks.2
    rw [hword]
    exact forwardingMark_clear hpointers
  · rw [h.rest o ho (by tauto)]
    exact himage.clear o ho

/-- Half of an image is part of it. -/
theorem subset_of_append {pre post : List HeapObject} {o : HeapObject}
    (hobjects : objects = pre ++ o :: post) : pre ⊆ objects ∧ o ∈ objects := by
  subst hobjects
  exact ⟨List.subset_append_left _ _, by simp⟩

/-- Marking one more object. -/
theorem HalfMarked.mark [DecidablePred Marked] {pre post : List HeapObject} {o : HeapObject} {c : γ}
    {w' : World} (h : HalfMarked Marked P T w objects pre c w')
    (himage : SmallImage w heap objects) (hobjects : objects = pre ++ o :: post)
    (hzero : Marked (w.memory.header o.header).classIndex →
      w.memory.forwardingWord o.forwardingPointer = 0)
    (hmarks : Marked (w'.memory.header o.header).classIndex)
    (hheader : w'.memory.header o.header = w.memory.header o.header)
    (hset : ∀ c w' a v, P c w' → P c (w'.setForwardingWord a v)) {target : ℕ} {c' : γ} {w'' : World}
    (htarget : becomeTarget w' o.header = some (target, w''))
    (hmark : MarksObject P T objects o c w' target c' w'') :
    ∃ w₁, markForwarding Marked becomeTarget w' o = some w₁ ∧
      HalfMarked Marked P T w objects (pre ++ [o]) c' w₁ := by
  obtain ⟨hpre, ho⟩ := subset_of_append hobjects
  have hlaid := himage.laid
  rw [hobjects] at hlaid
  have hfresh : o ∉ pre := fun hmem => (hlaid.ne (Or.inl hmem)).1 rfl
  have hmarks' : Marked (w.memory.header o.header).classIndex := hheader ▸ hmarks
  have hword := (h.rest o ho (Or.inl hfresh)).trans (hzero hmarks')
  refine ⟨_, markForwarding_of_zero hword hmarks htarget ((hmark.words o ho).trans hword),
    hset _ _ _ _ hmark.state, fun p hp hpmarks => ?_, fun p hp hor => ?_⟩
  · rcases List.mem_append.mp hp with hp | hp
    · obtain ⟨t, hTp, htp, hword'⟩ := h.marked p hp hpmarks
      refine ⟨t, hmark.keeps p t hTp, htp, ?_⟩
      rw [setForwardingWord_word_of_ne _ (hlaid.ne (Or.inl hp)).2, hmark.words p (hpre hp)]
      exact hword'
    · rw [List.mem_singleton.mp hp]
      exact ⟨target, hmark.known, hmark.pointers, setForwardingWord_word_self _ _ _⟩
  · have hpo : p ≠ o := by
      rintro rfl
      rcases hor with hor | hor
      · exact hor (by simp)
      · exact hor hmarks'
    have hne : p.forwardingPointer ≠ o.forwardingPointer := by
      intro heq
      refine hpo (himage.laid.header_injective ho hp ?_)
      rw [(himage.header_eq hp).1, (himage.header_eq ho).1, heq]
    rw [setForwardingWord_word_of_ne _ hne, hmark.words p hp]
    exact h.rest p hp (hor.imp_left fun hnot hmem => hnot (by simp [hmem]))

/-- Passing over an object that is not to be marked. -/
theorem HalfMarked.skip {pre : List HeapObject} {o : HeapObject} {c : γ} {w' : World}
    (h : HalfMarked Marked P T w objects pre c w')
    (hmarks : ¬ Marked (w.memory.header o.header).classIndex) :
    HalfMarked Marked P T w objects (pre ++ [o]) c w' := by
  refine ⟨h.state, fun p hp hpmarks => ?_,
    fun p hp hor => h.rest p hp (hor.imp_left fun hnot hmem => hnot (by simp [hmem]))⟩
  rcases List.mem_append.mp hp with hp | hp
  · exact h.marked p hp hpmarks
  · rw [List.mem_singleton.mp hp] at hpmarks
    exact absurd hpmarks hmarks

variable [DecidablePred Marked]

/-- **A marking walk** over an image of small objects in which those to be marked have no forwarding
pointer. The target of an object stays what it is when later objects are marked. -/
theorem iterate_marking (himage : SmallImage w heap objects)
    (hbelow : heap.finish ≤ w.memory.heapStart)
    (hzero : ∀ o ∈ objects, Marked (w.memory.header o.header).classIndex →
      w.memory.forwardingWord o.forwardingPointer = 0)
    (hkept : ∀ c w', P c w' → StaticKept w.memory w'.memory)
    (hset : ∀ c w' a v, P c w' → P c (w'.setForwardingWord a v))
    (hmark : ∀ o ∈ objects, Marked (w.memory.header o.header).classIndex → ∀ c w', P c w' →
      ∃ target c' w'', becomeTarget w' o.header = some (target, w'') ∧
        MarksObject P T objects o c w' target c' w'')
    {c : γ} (hstart : P c w) :
    ∃ c' w', w.iterate heap (markForwarding Marked becomeTarget) = some w' ∧
      HalfMarked Marked P T w objects objects c' w' ∧ SmallImage w' heap objects := by
  have hstep : ∀ pre o post w', objects = pre ++ o :: post →
      (∃ c, HalfMarked Marked P T w objects pre c w') →
      ∃ w'', markForwarding Marked becomeTarget w' o = some w'' ∧
        ∃ c, HalfMarked Marked P T w objects (pre ++ [o]) c w'' := by
    rintro pre o post w' hobjects ⟨c, h⟩
    have ho := (subset_of_append hobjects).2
    have hclass : w'.memory.header o.header = w.memory.header o.header :=
      (hkept c w' h.state).header _ (himage.lt_heapStart hbelow ho).1
    by_cases hmarks : Marked (w.memory.header o.header).classIndex
    · obtain ⟨target, c', w'', htarget, hmarked⟩ := hmark o ho hmarks c w' h.state
      obtain ⟨w₁, hw₁, h₁⟩ := h.mark himage hobjects (hzero o ho) (hclass ▸ hmarks) hclass hset
        htarget hmarked
      exact ⟨w₁, hw₁, c', h₁⟩
    · have hclear := (h.image himage hbelow hkept).clear o ho
      exact ⟨w', markForwarding_of_not hclear (hclass ▸ hmarks), c, h.skip hmarks⟩
  have hparse : ∀ pre o post w', objects = pre ++ o :: post →
      (∃ c, HalfMarked Marked P T w objects pre c w') → Parses w' o := by
    rintro pre o post w' hobjects ⟨c, h⟩
    exact (h.image himage hbelow hkept).parses o (subset_of_append hobjects).2
  obtain ⟨w', hiterate, c', h'⟩ := iterate_of_image himage.laid himage.aligned hparse hstep
    ⟨c, HalfMarked.start hstart⟩
  exact ⟨c', w', hiterate, h', h'.image himage hbelow hkept⟩

/-- The same of a walk that may fail. -/
theorem iterate_marking_of_some (himage : SmallImage w heap objects)
    (hbelow : heap.finish ≤ w.memory.heapStart)
    (hzero : ∀ o ∈ objects, Marked (w.memory.header o.header).classIndex →
      w.memory.forwardingWord o.forwardingPointer = 0)
    (hkept : ∀ c w', P c w' → StaticKept w.memory w'.memory)
    (hset : ∀ c w' a v, P c w' → P c (w'.setForwardingWord a v))
    (hmark : ∀ o ∈ objects, Marked (w.memory.header o.header).classIndex → ∀ c w' target w'',
      P c w' → becomeTarget w' o.header = some (target, w'') →
      ∃ c', MarksObject P T objects o c w' target c' w'')
    {c : γ} (hstart : P c w) {w' : World}
    (hwalk : w.iterate heap (markForwarding Marked becomeTarget) = some w') :
    ∃ c', HalfMarked Marked P T w objects objects c' w' ∧ SmallImage w' heap objects := by
  have hstep : ∀ pre o post w' w₁, objects = pre ++ o :: post →
      (∃ c, HalfMarked Marked P T w objects pre c w') →
      markForwarding Marked becomeTarget w' o = some w₁ →
      ∃ c, HalfMarked Marked P T w objects (pre ++ [o]) c w₁ := by
    rintro pre o post w' w₁ hobjects ⟨c, h⟩ hw₁
    have ho := (subset_of_append hobjects).2
    have hclass : w'.memory.header o.header = w.memory.header o.header :=
      (hkept c w' h.state).header _ (himage.lt_heapStart hbelow ho).1
    have hclear := (h.image himage hbelow hkept).clear o ho
    by_cases hmarks : Marked (w.memory.header o.header).classIndex
    · obtain ⟨target, w'', htarget⟩ := exists_becomeTarget hclear (hclass ▸ hmarks) hw₁
      obtain ⟨c', hmarked⟩ := hmark o ho hmarks c w' target w'' h.state htarget
      obtain ⟨w₂, hw₂, h₂⟩ := h.mark himage hobjects (hzero o ho) (hclass ▸ hmarks) hclass hset
        htarget hmarked
      obtain rfl := Option.some.inj (hw₁.symm.trans hw₂)
      exact ⟨c', h₂⟩
    · rw [markForwarding_of_not hclear (hclass ▸ hmarks)] at hw₁
      obtain rfl := Option.some.inj hw₁
      exact ⟨c, h.skip hmarks⟩
  have hparse : ∀ pre o post w', objects = pre ++ o :: post →
      (∃ c, HalfMarked Marked P T w objects pre c w') → Parses w' o := by
    rintro pre o post w' hobjects ⟨c, h⟩
    exact (h.image himage hbelow hkept).parses o (subset_of_append hobjects).2
  obtain ⟨c', h'⟩ := iterate_of_image_of_some himage.laid himage.aligned hparse hstep
    ⟨c, HalfMarked.start hstart⟩ hwalk
  exact ⟨c', h', h'.image himage hbelow hkept⟩

end Marking

omit [KernelImage] in
/-- What a step on the compacting heap keeps of the forwarding pointers of an image. -/
theorem SmallImage.word_frame (h : SmallImage w heap objects) {w' : World} {m : ObjectMemory}
    {F : Set (ℕ × ℕ)} (hbelow : heap.finish ≤ w'.memory.heapStart)
    (hf : Frame w'.memory.limit F w'.memory m) :
    ∀ p ∈ objects, m.forwardingWord p.forwardingPointer =
      w'.memory.forwardingWord p.forwardingPointer := by
  intro p hp
  obtain ⟨-, hfinish, -⟩ := h.bounds hp
  have hheader := (h.header_eq hp).1
  have hle := w'.memory.heapStart_le_limit
  exact hf.forwardingWord _ (by omega)

/-- **The symbol walk** marks every byte symbol with the symbol of its bytes, and nothing else. -/
theorem iterate_symbols (h : NamesValid heap objects w owner f g)
    (himage : SmallImage w heap objects)
    (hzero : ∀ o ∈ objects, w.memory.forwardingWord o.forwardingPointer = 0)
    (hnarrow : ∀ o ∈ objects, ¬ w.HasClass o .WideSymbol) :
    ∃ w' owner' f', w.iterate heap fixStaticHeapSymbols = some w' ∧
      NamesValid heap objects w' owner' f' g ∧ StaticKept w.memory w'.memory ∧
      HeadersKept w.memory w'.memory ∧ SmallImage w' heap objects ∧
      (∀ data s, f data = some s → f' data = some s) ∧ w'.SymbolsMarked objects f' ∧
      ∀ o ∈ objects, ¬ w.HasClass o .ByteSymbol →
        w'.memory.forwardingWord o.forwardingPointer = 0 := by
  let P : (ℕ → Region) × (List UInt8 → Option ℕ) → World → Prop := fun c w' =>
    NamesValid heap objects w' c.1 c.2 g ∧ StaticKept w.memory w'.memory ∧
      HeadersKept w.memory w'.memory ∧ ∀ data s, f data = some s → c.2 data = some s
  let T : (ℕ → Region) × (List UInt8 → Option ℕ) → HeapObject → ℕ → Prop := fun c o s =>
    c.2 (w.memory.bytes o.header) = some s
  have hsymbol : ∀ o ∈ objects, IsSymbolClass (w.memory.header o.header).classIndex ↔
      w.HasClass o .ByteSymbol := fun o ho => or_iff_left (hnarrow o ho)
  have hmark : ∀ o ∈ objects, IsSymbolClass (w.memory.header o.header).classIndex → ∀ c w', P c w' →
      ∃ target c' w'', symbolInternString w' o.header = some (target, w'') ∧
        MarksObject P T objects o c w' target c' w'' := by
    rintro o ho hclass ⟨owner', f'⟩ w' ⟨hvalid, hkept, hheaders, hext⟩
    have hlt := (himage.lt_heapStart h.below ho).1
    have hstring : w'.memory.IsByteSymbol o.header := by
      refine ⟨(himage.bounds ho).2.2, ?_⟩
      rw [hkept.header _ hlt]
      exact (hsymbol o ho).mp hclass
    have hlive : w'.memory.Live o.header :=
      Or.inr (hlt.trans_le (hkept.heapStart ▸ w'.memory.heapStart_le_limit))
    obtain ⟨s, m, hintern, hframe, hvalid', hold, -⟩ :=
      hvalid.internString hstring.isByteString hlive (himage.placed h.below ho)
    have hext' : ∀ data s', f' data = some s' →
        Function.update f' (w'.memory.bytes o.header) (some s) data = some s' := by
      intro data s' hs'
      by_cases hdata : data = w'.memory.bytes o.header
      · rw [hdata] at hs' ⊢
        rw [Function.update_self, hold s' hs']
      · rw [Function.update_of_ne hdata, hs']
    refine ⟨s, ⟨_, _⟩, _, hintern,
      ⟨hvalid', hkept.trans (hvalid.staticKept hframe (by simp) (by simp)),
      hheaders.trans (HeadersKept.of_frame hframe),
      fun data s' hs' => hext' data s' (hext data s' hs')⟩, ?_, ?_, ?_, fun p t => hext' _ t⟩
    · show Function.update f' _ _ (w.memory.bytes o.header) = _
      rw [← hkept.bytes hlt, Function.update_self]
    · exact (hvalid'.globals.symbols.of_some (Function.update_self ..)).1.1
    · exact himage.word_frame (hkept.heapStart ▸ h.below) hframe
  obtain ⟨c, w', hiterate, ⟨⟨hvalid, hkept, hheaders, hext⟩, hmarked, hrest⟩, himage'⟩ :=
    iterate_marking (P := P) (T := T) himage h.below (fun o ho _ => hzero o ho)
      (fun c w' hP => hP.2.1)
      (fun c w' a v hP => ⟨hP.1.setForwardingWord a v,
        hP.2.1.trans (StaticKept.setForwardingWord _ a v),
        ⟨hP.2.2.1.limit_le, hP.2.2.1.header⟩, hP.2.2.2⟩)
      hmark (c := (owner, f)) ⟨h, StaticKept.refl _, HeadersKept.refl _, fun _ _ hs => hs⟩
  refine ⟨w', c.1, c.2, hiterate, hvalid, hkept, hheaders, himage', hext, fun o ho hclass => ?_,
    fun o ho hclass => ?_⟩
  · have hlt := (himage.lt_heapStart h.below ho).1
    rw [HasClass, hkept.header _ hlt] at hclass
    obtain ⟨s, hs, -, hword⟩ := hmarked o ho (Or.inl hclass)
    exact ⟨s, by rw [hkept.bytes hlt]; exact hs, hword⟩
  · rw [hrest o ho (Or.inr fun hc => hclass ((hsymbol o ho).mp hc))]
    exact hzero o ho

/-- **The variable walk** marks every global variable with the association of its name, and nothing
else, provided that the names are interned. -/
theorem iterate_globalVariables (h : NamesValid heap objects w owner f g)
    (himage : SmallImage w heap objects)
    (hzero : ∀ o ∈ objects, w.HasClass o .GlobalVariable →
      w.memory.forwardingWord o.forwardingPointer = 0)
    (hapart : ∀ o ∈ objects, KernelImage.objectAt o.header = none)
    (hnames : ∀ o ∈ objects, w.HasClass o .GlobalVariable →
      ∃ data, f data = some (w.memory.slot o.header Field.key)) :
    ∃ w' owner' g', w.iterate heap fixStaticHeapGlobalVariables = some w' ∧
      NamesValid heap objects w' owner' f g' ∧ StaticKept w.memory w'.memory ∧
      HeadersKept w.memory w'.memory ∧ SmallImage w' heap objects ∧
      BindingsAdded (w.GlobalVariableOf objects) g g' ∧
      w'.VariablesMarked objects g' ∧
      ∀ o ∈ objects, ¬ w.HasClass o .GlobalVariable →
        w'.memory.forwardingWord o.forwardingPointer =
          w.memory.forwardingWord o.forwardingPointer := by
  let P : (ℕ → Region) × (ℕ → Option ℕ) → World → Prop := fun c w' =>
    NamesValid heap objects w' c.1 f c.2 ∧ StaticKept w.memory w'.memory ∧
      HeadersKept w.memory w'.memory ∧ BindingsAdded (w.GlobalVariableOf objects) g c.2
  let T : (ℕ → Region) × (ℕ → Option ℕ) → HeapObject → ℕ → Prop := fun c o e =>
    c.2 (w.memory.slot o.header Field.key) = some e
  have hmark : ∀ o ∈ objects, (w.memory.header o.header).classIndex =
      KernelClass.GlobalVariable.index → ∀ c w', P c w' →
      ∃ target c' w'', globalsAddIfNotExistent w' o.header = some (target, w'') ∧
        MarksObject P T objects o c w' target c' w'' := by
    rintro o ho hclass ⟨owner', g'⟩ w' ⟨hvalid, hkept, hheaders, hbound⟩
    have hlt := (himage.lt_heapStart h.below ho).1
    have hslot : w'.memory.slot o.header = w.memory.slot o.header := hkept.slot _ hlt
    obtain ⟨data, hdata⟩ := hnames o ho hclass
    have hvar : w'.IsStaticVariable o.header :=
      ⟨hkept.heapStart ▸ hlt, (himage.bounds ho).2.2, hapart o ho,
        (congrArg ObjectHeader.classIndex (hkept.header _ hlt)).trans hclass⟩
    have hname : w'.IsName heap (w'.memory.slot o.header Field.key) := by
      rw [hslot]
      exact ⟨(hvalid.globals.symbols.of_some hdata).2.1,
        fun _ _ => hvalid.globals.symbols.isInterned_iff.mpr ⟨data, hdata⟩⟩
    obtain ⟨e, m, owner'', g'', hadd, hframe, hvalid', hext, he⟩ :=
      hvalid.addIfNotExistent hvar (himage.placed h.below ho) hname
    rw [hslot] at he
    exact ⟨e, ⟨owner'', g''⟩, _, hadd,
      ⟨hvalid', hkept.trans (hvalid.staticKept hframe (by simp) (by simp)),
        hheaders.trans (HeadersKept.of_frame hframe),
        hbound.trans (hext.mono fun e he => ⟨o, ho, hclass, he.symm⟩)⟩, he,
      (hvalid'.association _ _ he).2.1, himage.word_frame (hkept.heapStart ▸ h.below) hframe,
      fun p t => hext.kept _ t⟩
  obtain ⟨c, w', hiterate, ⟨⟨hvalid, hkept, hheaders, hbound⟩, hmarked, hrest⟩, himage'⟩ :=
    @iterate_marking heap objects w _ (· = KernelClass.GlobalVariable.index)
      globalsAddIfNotExistent P T _ himage h.below hzero (fun c w' hP => hP.2.1)
      (fun c w' a v hP => ⟨hP.1.setForwardingWord a v,
        hP.2.1.trans (StaticKept.setForwardingWord _ a v),
        ⟨hP.2.2.1.limit_le, hP.2.2.1.header⟩, hP.2.2.2⟩)
      hmark (owner, g)
      ⟨h, StaticKept.refl _, HeadersKept.refl _, BindingsAdded.refl _ _⟩
  refine ⟨w', c.1, c.2, hiterate, hvalid, hkept, hheaders, himage', hbound, fun o ho hclass => ?_,
    fun o ho hnot => hrest o ho (Or.inr hnot)⟩
  have hlt := (himage.lt_heapStart h.below ho).1
  rw [HasClass, hkept.header _ hlt] at hclass
  obtain ⟨e, he, -, hword⟩ := hmarked o ho hclass
  exact ⟨e, by rw [hkept.slot _ hlt]; exact he, hword⟩

/-! ### The forwarding walks -/

/-- An interned symbol is forwarded to itself once the symbols are marked. -/
theorem forwardOop_interned (h : NamesValid heap objects w owner f g)
    (himage : SmallImage w heap objects) (hmarked : w.SymbolsMarked objects f) {data : List UInt8}
    {s : ℕ} (hs : f data = some s) : w.memory.forwardOop heap s = s := by
  obtain ⟨hsymbol, -, hbytes⟩ := h.globals.symbols.of_some hs
  obtain ⟨hne, hplaced⟩ := h.symbol data s hs
  by_cases hheap : heap.start ≤ s ∧ s < heap.finish
  · obtain ⟨o, ho, rfl⟩ := hplaced hheap.1 hheap.2
    obtain ⟨t, ht, hword⟩ := hmarked o ho hsymbol.2
    rw [hbytes, hs] at ht
    obtain rfl := Option.some.inj ht
    exact himage.forwardOop_mark ho hne hword
  · exact if_neg fun hcond => hheap ⟨hcond.2.1, hcond.2.2.1⟩

omit [KernelImage] in
/-- The cells a change of the slots stores into. -/
theorem frame_withSlots (m : ObjectMemory) (slot : ℕ → ℕ → ℕ) :
    Frame m.limit {p | slot p.1 p.2 ≠ m.slot p.1 p.2} m (m.withSlots slot) :=
  ⟨rfl, Nat.le_refl _, fun _ _ => rfl, fun _ _ => rfl, fun _ _ => rfl, fun _ _ => rfl,
    fun _ _ _ hmem => not_not.mp hmem⟩

/-- **A forwarding walk** keeps the names: the slots it changes hold none of them. -/
theorem iterate_forwarding (h : NamesValid heap objects w owner f g)
    (himage : SmallImage w heap objects) (hmarked : w.SymbolsMarked objects f)
    (hapart : ∀ o ∈ objects, KernelImage.objectAt o.header = none) :
    ∃ w', w.iterate heap (applyNotNullForwarding heap) = some w' ∧
      w' = w.withMemory (w.memory.withSlots (w.forwardedSlots heap objects)) ∧
      NamesValid heap objects w' owner f g ∧ SmallImage w' heap objects := by
  have hcell : ∀ p ∈ {p : ℕ × ℕ | w.forwardedSlots heap objects p.1 p.2 ≠ w.memory.slot p.1 p.2},
      w.IsOopSlot objects p.1 p.2 ∧
        w.memory.forwardOop heap (w.memory.slot p.1 p.2) ≠ w.memory.slot p.1 p.2 := by
    intro p hp
    have hne : w.forwardedSlots heap objects p.1 p.2 ≠ w.memory.slot p.1 p.2 := hp
    rw [forwardedSlots] at hne
    split_ifs at hne with hslot
    · exact ⟨hslot, hne⟩
    · exact absurd rfl hne
  refine ⟨_, iterate_applyNotNullForwarding himage.toStaticImage, rfl,
    h.of_static (frame_withSlots _ _) (fun p hp => ?_) (fun k e hg hmem => ?_) (fun c hmem => ?_),
    himage.congr h.below (fun _ _ => rfl) himage.clear⟩
  · obtain ⟨⟨o, ho, hheader, -⟩, -⟩ := hcell p hp
    exact hheader ▸ (himage.lt_heapStart h.below ho).1
  · -- the name of an association in the globals
    obtain ⟨-, hne⟩ := hcell _ hmem
    have hkey : w.memory.slot e Field.key = k := (h.globals.entry hg).2.2.1
    simp only [hkey] at hne
    by_cases hheap : heap.start ≤ k ∧ k < heap.finish
    · obtain ⟨data, hdata⟩ := h.name k e hg hheap.1 hheap.2
      exact hne (forwardOop_interned h himage hmarked hdata)
    · exact hne (if_neg fun hcond => hheap ⟨hcond.2.1, hcond.2.2.1⟩)
  · obtain ⟨⟨o, ho, hheader, -⟩, -⟩ := hcell _ hmem
    have hobject := hapart o ho
    rw [show o.header = KernelImage.address (.kernelClass c) from hheader,
      objectAt_address] at hobject
    cases hobject

/-- An association of the globals is forwarded to itself once the variables are marked. -/
theorem forwardOop_association (h : NamesValid heap objects w owner f g)
    (himage : SmallImage w heap objects) (hmarked : w.VariablesMarked objects g) {k e : ℕ}
    (hg : g k = some e) : w.memory.forwardOop heap e = e := by
  obtain ⟨⟨hne, hplaced⟩, -, hclass⟩ := h.association k e hg
  by_cases hheap : heap.start ≤ e ∧ e < heap.finish
  · obtain ⟨o, ho, rfl⟩ := hplaced hheap.1 hheap.2
    obtain ⟨t, ht, hword⟩ := hmarked o ho (hclass (himage.lt_heapStart h.below ho).1)
    rw [(h.globals.entry hg).2.2.1, hg] at ht
    obtain rfl := Option.some.inj ht
    exact himage.forwardOop_mark ho hne hword
  · exact if_neg fun hcond => hheap ⟨hcond.2.1, hcond.2.2.1⟩

omit [KernelImage] in
/-- Which slots are oops depends on the headers of the objects only. -/
theorem SmallImage.isOopSlot_congr (himage : SmallImage w heap objects)
    (hbelow : heap.finish ≤ w.memory.heapStart) {w' : World}
    (hheader : ∀ x < w.memory.heapStart, w'.memory.header x = w.memory.header x) {x i : ℕ} :
    w'.IsOopSlot objects x i ↔ w.IsOopSlot objects x i := by
  refine exists_congr fun o => and_congr_right fun ho => and_congr_right fun _ => ?_
  rw [HoldsPointers, HoldsPointers, hheader _ (himage.lt_heapStart hbelow ho).1]

/-! ### A fixed heap -/

/-- A heap that has been fixed: everything is marked, and no slot refers to anything that is marked
to become something else. -/
structure HeapFixed (heap : HeapInformation) (objects : List HeapObject) (w : World)
    (owner : ℕ → Region) (f : List UInt8 → Option ℕ) (g : ℕ → Option ℕ) : Prop where
  names : NamesValid heap objects w owner f g
  image : SmallImage w heap objects
  narrow : ∀ o ∈ objects, ¬ w.HasClass o .WideSymbol
  apart : ∀ o ∈ objects, KernelImage.objectAt o.header = none
  symbols : w.SymbolsMarked objects f
  globalVariables : w.VariablesMarked objects g
  forwarded : ∀ x i, w.IsOopSlot objects x i →
    w.memory.forwardOop heap (w.memory.slot x i) = w.memory.slot x i

omit [KernelImage] in
/-- A walk whose iterator changes nothing. -/
theorem iterate_same (himage : SmallImage w heap objects)
    {iterator : World → HeapObject → Option World} (h : ∀ o ∈ objects, iterator w o = some w) :
    w.iterate heap iterator = some w := by
  obtain ⟨w', hiterate, rfl⟩ := @iterate_of_image heap objects iterator (fun _ w' => w' = w) w
    himage.laid himage.aligned
    (by
      rintro pre o post w' hobjects rfl
      exact himage.parses o (by rw [hobjects]; simp))
    (by
      rintro pre o post w' hobjects rfl
      exact ⟨w', h o (by rw [hobjects]; simp), rfl⟩) rfl
  exact hiterate

/-- **A fixed heap is not changed** by fixing it up again, nor is anything else. -/
theorem HeapFixed.fixStaticHeap (h : HeapFixed heap objects w owner f g) :
    w.fixStaticHeap heap = some w := by
  have hsymbols : w.iterate heap fixStaticHeapSymbols = some w := by
    refine iterate_same h.image fun o ho => ?_
    by_cases hclass : w.HasClass o .ByteSymbol
    · obtain ⟨s, hs, hword⟩ := h.symbols o ho hclass
      have hsymbol : w.memory.IsByteSymbol o.header := ⟨(h.image.bounds ho).2.2, hclass⟩
      exact markForwarding_again hword (h.names.globals.symbols.of_some hs).1.1 (Or.inl hclass)
        (h.names.globals.symbols.internString_old hsymbol.isByteString hs)
    · refine markForwarding_of_not (h.image.clear o ho) ?_
      rintro (hc | hc)
      · exact hclass hc
      · exact h.narrow o ho hc
  have hvariables : w.iterate heap fixStaticHeapGlobalVariables = some w := by
    refine iterate_same h.image fun o ho => ?_
    by_cases hclass : w.HasClass o .GlobalVariable
    · obtain ⟨e, he, hword⟩ := h.globalVariables o ho hclass
      have hvar : w.IsStaticVariable o.header :=
        ⟨(h.image.lt_heapStart h.names.below ho).1, (h.image.bounds ho).2.2, h.apart o ho, hclass⟩
      exact markForwarding_again hword (h.names.association _ _ he).2.1 hclass
        (h.names.globals.addIfNotExistent_of_some (h.names.ne_nilOop hvar) he)
    · exact markForwarding_of_not (h.image.clear o ho) hclass
  have hforwarding : w.iterate heap (applyNotNullForwarding heap) = some w := by
    have hslots : w.forwardedSlots heap objects = w.memory.slot := by
      funext x i
      rw [forwardedSlots]
      split
      · rename_i hslot
        exact h.forwarded x i hslot
      · rfl
    rw [iterate_applyNotNullForwarding h.image.toStaticImage, hslots]
    rfl
  simp only [World.fixStaticHeap, hsymbols, hvariables, hforwarding, Option.bind_eq_bind,
    Option.bind_some]

/-! ### A marking walk and a forwarding walk -/

/-- What a marking walk and the forwarding walk after it leave behind: every oop has been forwarded,
by the forwarding pointers that are there now. -/
structure Forwarded (heap : HeapInformation) (objects : List HeapObject) (w w' : World) : Prop where
  image : SmallImage w' heap objects
  heapStart : w'.memory.heapStart = w.memory.heapStart
  header : ∀ x < w.memory.heapStart, w'.memory.header x = w.memory.header x
  byte : ∀ x < w.memory.heapStart, w'.memory.byte x = w.memory.byte x
  sizeWord : ∀ x < w.memory.heapStart, w'.memory.sizeWord x = w.memory.sizeWord x
  oop : ∀ x i, w.IsOopSlot objects x i →
    w'.memory.slot x i = w'.memory.forwardOop heap (w.memory.slot x i)
  elsewhere : ∀ x < w.memory.heapStart, ∀ i, ¬ w.IsOopSlot objects x i →
    w'.memory.slot x i = w.memory.slot x i

omit [KernelImage] in
theorem Forwarded.of_walks {w₁ : World} (himage : SmallImage w heap objects)
    (hbelow : heap.finish ≤ w.memory.heapStart) (hkept : StaticKept w.memory w₁.memory)
    (himage₁ : SmallImage w₁ heap objects) :
    Forwarded heap objects w
      (w₁.withMemory (w₁.memory.withSlots (w₁.forwardedSlots heap objects))) := by
  have hoop : ∀ {x i}, w₁.IsOopSlot objects x i ↔ w.IsOopSlot objects x i :=
    himage.isOopSlot_congr hbelow hkept.header
  refine ⟨⟨himage₁.toStaticImage.withSlots _, himage₁.clear⟩, hkept.heapStart, hkept.header,
    hkept.byte, hkept.sizeWord, fun x i hslot => ?_, fun x hx i hslot => ?_⟩
  · refine (if_pos (hoop.mpr hslot)).trans ?_
    obtain ⟨o, ho, rfl, -⟩ := hslot
    rw [hkept.slot _ (himage.lt_heapStart hbelow ho).1]
    rfl
  · refine (if_neg fun h => hslot (hoop.mp h)).trans ?_
    rw [hkept.slot x hx]

namespace Forwarded

variable {w' : World}

omit [KernelImage] in
theorem basicSize (h : Forwarded heap objects w w') {x : ℕ} (hx : x < w.memory.heapStart) :
    w'.memory.basicSize x = w.memory.basicSize x := by
  simp only [ObjectMemory.basicSize, h.header x hx, h.sizeWord (x - 8) (by omega)]

omit [KernelImage] in
theorem bytes (h : Forwarded heap objects w w') {x : ℕ} (hx : x < w.memory.heapStart) :
    w'.memory.bytes x = w.memory.bytes x := by
  rw [ObjectMemory.bytes, ObjectMemory.bytes, h.basicSize hx, h.byte x hx]

omit [KernelImage] in
theorem isOopSlot (h : Forwarded heap objects w w') (himage : SmallImage w heap objects)
    (hbelow : heap.finish ≤ w.memory.heapStart) {x i : ℕ} :
    w'.IsOopSlot objects x i ↔ w.IsOopSlot objects x i :=
  himage.isOopSlot_congr hbelow h.header

omit [KernelImage] in
theorem hasClass (h : Forwarded heap objects w w') (himage : SmallImage w heap objects)
    (hbelow : heap.finish ≤ w.memory.heapStart) {o : HeapObject} (ho : o ∈ objects)
    {c : KernelClass} : w'.HasClass o c ↔ w.HasClass o c := by
  rw [HasClass, HasClass, h.header _ (himage.lt_heapStart hbelow ho).1]

end Forwarded

/-- **The symbols** of a heap without forwarding pointers are fixed. -/
theorem NamesValid.fixSymbols (h : NamesValid heap objects w owner f g)
    (himage : SmallImage w heap objects)
    (hzero : ∀ o ∈ objects, w.memory.forwardingWord o.forwardingPointer = 0)
    (hnamed : NamedImage w heap objects) :
    ∃ w₁ w' owner' f', w.iterate heap fixStaticHeapSymbols = some w₁ ∧
      w₁.iterate heap (applyNotNullForwarding heap) = some w' ∧
      NamesValid heap objects w' owner' f' g ∧ Forwarded heap objects w w' ∧
      HeadersKept w.memory w'.memory ∧ (∀ data s, f data = some s → f' data = some s) ∧
      w'.SymbolsMarked objects f' ∧
      ∀ o ∈ objects, ¬ w.HasClass o .ByteSymbol →
        w'.memory.forwardingWord o.forwardingPointer = 0 := by
  obtain ⟨w₁, owner', f', hwalk, hvalid, hkept, hheaders, himage₁, hext, hmarked, hrest⟩ :=
    iterate_symbols h himage hzero hnamed.narrow
  obtain ⟨w', hwalk', rfl, hvalid', -⟩ := iterate_forwarding hvalid himage₁ hmarked hnamed.apart
  exact ⟨w₁, _, owner', f', hwalk, hwalk', hvalid',
    Forwarded.of_walks himage h.below hkept himage₁, ⟨hheaders.limit_le, hheaders.header⟩, hext,
    hmarked, hrest⟩

/-- **The global variables** of a heap whose symbols are fixed are fixed. -/
theorem NamesValid.fixGlobalVariables (h : NamesValid heap objects w owner f g)
    (himage : SmallImage w heap objects) (hmarked : w.SymbolsMarked objects f)
    (hzero : ∀ o ∈ objects, w.HasClass o .GlobalVariable →
      w.memory.forwardingWord o.forwardingPointer = 0)
    (hapart : ∀ o ∈ objects, KernelImage.objectAt o.header = none)
    (hnames : ∀ o ∈ objects, w.HasClass o .GlobalVariable →
      w.IsOopSlot objects o.header Field.key ∧
        ∃ data, f data = some (w.memory.slot o.header Field.key)) :
    ∃ w₁ w' owner' g', w.iterate heap fixStaticHeapGlobalVariables = some w₁ ∧
      w₁.iterate heap (applyNotNullForwarding heap) = some w' ∧
      NamesValid heap objects w' owner' f g' ∧ Forwarded heap objects w w' ∧
      HeadersKept w.memory w'.memory ∧ BindingsAdded (w.GlobalVariableOf objects) g g' ∧
      w'.SymbolsMarked objects f ∧ w'.VariablesMarked objects g' ∧
      (∀ o ∈ objects, w.HasClass o .GlobalVariable →
        w'.memory.slot o.header Field.key = w.memory.slot o.header Field.key) ∧
      ∀ o ∈ objects, ¬ w.HasClass o .GlobalVariable →
        w'.memory.forwardingWord o.forwardingPointer =
          w.memory.forwardingWord o.forwardingPointer := by
  obtain ⟨w₁, owner', g', hwalk, hvalid, hkept, hheaders, himage₁, hbound, hvariables, hrest⟩ :=
    iterate_globalVariables h himage hzero hapart fun o ho hclass => (hnames o ho hclass).2
  have hlt : ∀ o ∈ objects, o.header < w.memory.heapStart := fun o ho =>
    (himage.lt_heapStart h.below ho).1
  have hsymbols : w₁.SymbolsMarked objects f := by
    intro o ho hclass
    have hclass' : w.HasClass o .ByteSymbol := by
      rw [HasClass, ← hkept.header _ (hlt o ho)]
      exact hclass
    have hnot : ¬ w.HasClass o .GlobalVariable := fun hvar =>
      absurd (hvar.symm.trans hclass') (by decide)
    rw [hrest o ho hnot, hkept.bytes (hlt o ho)]
    exact hmarked o ho hclass'
  obtain ⟨w', hwalk', rfl, hvalid', -⟩ := iterate_forwarding hvalid himage₁ hsymbols hapart
  have hforwarded := Forwarded.of_walks himage h.below hkept himage₁
  -- the names are interned, so they stay
  have hkey : ∀ o ∈ objects, w.HasClass o .GlobalVariable →
      w₁.forwardedSlots heap objects o.header Field.key = w.memory.slot o.header Field.key := by
    intro o ho hclass
    obtain ⟨hslot, data, hdata⟩ := hnames o ho hclass
    exact (hforwarded.oop _ _ hslot).trans (forwardOop_interned hvalid himage₁ hsymbols hdata)
  refine ⟨w₁, _, owner', g', hwalk, hwalk', hvalid', hforwarded,
    ⟨hheaders.limit_le, hheaders.header⟩, hbound, hsymbols, ?_, hkey, hrest⟩
  intro o ho hclass
  have hclass' := (hforwarded.hasClass himage h.below ho).mp hclass
  obtain ⟨e, he, hword⟩ := hvariables o ho hclass
  rw [hkept.slot _ (hlt o ho)] at he
  exact ⟨e, by rw [withMemory, withSlots_slot, hkey o ho hclass']; exact he, hword⟩

/-! ### Fixing up a heap -/

/-- What fixing up a heap makes of its slots, in terms of the symbols `f` and the globals `g` that
are then valid. -/
structure SlotsFixed (objects : List HeapObject) (w w' : World) (f : List UInt8 → Option ℕ)
    (g : ℕ → Option ℕ) : Prop where
  header : ∀ x < w.memory.heapStart, w'.memory.header x = w.memory.header x
  byte : ∀ x < w.memory.heapStart, w'.memory.byte x = w.memory.byte x
  bytes : ∀ x < w.memory.heapStart, w'.memory.bytes x = w.memory.bytes x
  elsewhere : ∀ x < w.memory.heapStart, ∀ i, ¬ w.IsOopSlot objects x i →
    w'.memory.slot x i = w.memory.slot x i
  symbol : ∀ x i, w.IsOopSlot objects x i → ∀ p ∈ objects, w.memory.slot x i = p.header →
    w.HasClass p .ByteSymbol → f (w.memory.bytes p.header) = some (w'.memory.slot x i)
  globalVariable : ∀ x i, w.IsOopSlot objects x i → ∀ p ∈ objects, w.memory.slot x i = p.header →
    w.HasClass p .GlobalVariable →
    g (w'.memory.slot p.header Field.key) = some (w'.memory.slot x i)
  /-- The name of a variable is the interned one of its old name. -/
  name : ∀ p ∈ objects, w.HasClass p .GlobalVariable →
    f (w.memory.bytes (w.memory.slot p.header Field.key)) =
      some (w'.memory.slot p.header Field.key)
  other : ∀ x i, w.IsOopSlot objects x i → (∀ p ∈ objects, w.memory.slot x i = p.header →
    ¬ w.HasClass p .ByteSymbol ∧ ¬ w.HasClass p .GlobalVariable) →
    w'.memory.slot x i = w.memory.slot x i

/-- What fixing up a heap leaves alone: the symbols and the bindings there were, all headers, and
the forwarding pointers of the other objects. -/
structure NamesKept (objects : List HeapObject) (w w' : World) (f f' : List UInt8 → Option ℕ)
    (g g' : ℕ → Option ℕ) : Prop where
  symbol : ∀ data s, f data = some s → f' data = some s
  binding : BindingsAdded (w.GlobalVariableOf objects) g g'
  headers : HeadersKept w.memory w'.memory
  zero : ∀ o ∈ objects, ¬ w.HasClass o .ByteSymbol → ¬ w.HasClass o .GlobalVariable →
    w'.memory.forwardingWord o.forwardingPointer = 0

/-- An oop that refers to no object with a forwarding pointer is not forwarded. -/
theorem NamedImage.forwardOop_other (hnamed : NamedImage w heap objects) {w' : World}
    (himage' : SmallImage w' heap objects) {x i : ℕ} (hslot : w.IsOopSlot objects x i)
    (hzero : ∀ p ∈ objects, w.memory.slot x i = p.header →
      w'.memory.forwardingWord p.forwardingPointer = 0) :
    w'.memory.forwardOop heap (w.memory.slot x i) = w.memory.slot x i := by
  by_cases hheap : oopIsPointers (w.memory.slot x i) ∧ heap.start ≤ w.memory.slot x i ∧
    w.memory.slot x i < heap.finish
  · obtain ⟨p, hp, hheader⟩ := hnamed.oop x i hslot hheap.1 hheap.2.1 hheap.2.2
    rw [← hheader, himage'.forwardOop_header hp, if_pos (hzero p hp hheader.symm)]
  · exact if_neg fun hcond => hheap ⟨hcond.1, hcond.2.1, hcond.2.2.1⟩

/-- A symbol of a heap whose symbols are marked is forwarded to the interned one. -/
theorem SymbolsMarked.forwardOop_header {w₂ : World} (hmarked : w₂.SymbolsMarked objects f)
    (hvalid : NamesValid heap objects w₂ owner f g) (himage : SmallImage w heap objects)
    (hbelow : heap.finish ≤ w.memory.heapStart) (hforwarded : Forwarded heap objects w w₂)
    {o : HeapObject} (ho : o ∈ objects) (hclass : w.HasClass o .ByteSymbol) :
    f (w.memory.bytes o.header) = some (w₂.memory.forwardOop heap o.header) := by
  obtain ⟨s, hs, hword⟩ := hmarked o ho ((hforwarded.hasClass himage hbelow ho).mpr hclass)
  rw [hforwarded.image.forwardOop_mark ho (hvalid.symbol _ s hs).1 hword,
    ← hforwarded.bytes (himage.lt_heapStart hbelow ho).1, hs]

/-- The name of a global variable, in the heap or interned already, becomes the interned one. -/
theorem SymbolsMarked.name {w₂ : World} {owner₂ : ℕ → Region} {f' : List UInt8 → Option ℕ}
    (hmarked : w₂.SymbolsMarked objects f') (h : NamesValid heap objects w owner f g)
    (hvalid : NamesValid heap objects w₂ owner₂ f' g) (himage : SmallImage w heap objects)
    (hforwarded : Forwarded heap objects w w₂) (hnamed : NamedImage w heap objects)
    (hext : ∀ data s, f data = some s → f' data = some s) {o : HeapObject} (ho : o ∈ objects)
    (hclass : w.HasClass o .GlobalVariable) :
    f' (w.memory.bytes (w.memory.slot o.header Field.key)) =
      some (w₂.memory.slot o.header Field.key) := by
  obtain ⟨hslot, hkey⟩ := hnamed.key o ho hclass
  rw [hforwarded.oop _ _ hslot]
  rcases hkey with ⟨p, hp, hheader, hsymbol⟩ | hinterned
  · rw [← hheader]
    exact hmarked.forwardOop_header hvalid himage h.below hforwarded hp hsymbol
  · obtain ⟨data, hdata⟩ := h.globals.symbols.isInterned_iff.mp hinterned
    rw [(h.globals.symbols.of_some hdata).2.2,
      forwardOop_interned hvalid hforwarded.image hmarked (hext _ _ hdata)]
    exact hext _ _ hdata

/-- **Fixing up a heap** of small objects without forwarding pointers succeeds, and leaves a fixed
heap behind. -/
theorem NamesValid.fixStaticHeap (h : NamesValid heap objects w owner f g)
    (himage : SmallImage w heap objects)
    (hzero : ∀ o ∈ objects, w.memory.forwardingWord o.forwardingPointer = 0)
    (hnamed : NamedImage w heap objects) :
    ∃ w' owner' f' g', w.fixStaticHeap heap = some w' ∧ HeapFixed heap objects w' owner' f' g' ∧
      SlotsFixed objects w w' f' g' ∧ NamesKept objects w w' f f' g g' := by
  obtain ⟨w₁, w₂, owner₂, f', hwalk₁, hwalk₂, hvalid₂, hforwarded₂, hheaders₂, hext, hsymbols₂,
      hrest₂⟩ :=
    h.fixSymbols himage hzero hnamed
  have hbelow₂ : heap.finish ≤ w₂.memory.heapStart := hforwarded₂.heapStart ▸ h.below
  have hclass₂ : ∀ {o c}, o ∈ objects → (w₂.HasClass o c ↔ w.HasClass o c) :=
    fun ho => hforwarded₂.hasClass himage h.below ho
  have hlt : ∀ o ∈ objects, o.header < w.memory.heapStart := fun o ho =>
    (himage.lt_heapStart h.below ho).1
  have hnotSymbol : ∀ o, w.HasClass o .GlobalVariable → ¬ w.HasClass o .ByteSymbol :=
    fun o hclass hsymbol => absurd (hclass.symm.trans hsymbol) (by decide)
  have hsymbol₂ : ∀ o ∈ objects, w.HasClass o .ByteSymbol →
      f' (w.memory.bytes o.header) = some (w₂.memory.forwardOop heap o.header) :=
    fun o ho => hsymbols₂.forwardOop_header hvalid₂ himage h.below hforwarded₂ ho
  have hname₂ : ∀ o ∈ objects, w.HasClass o .GlobalVariable →
      f' (w.memory.bytes (w.memory.slot o.header Field.key)) =
        some (w₂.memory.slot o.header Field.key) :=
    fun o ho => hsymbols₂.name h hvalid₂ himage hforwarded₂ hnamed hext ho
  have hoop₂ : ∀ {x i}, w₂.IsOopSlot objects x i ↔ w.IsOopSlot objects x i :=
    hforwarded₂.isOopSlot himage h.below
  obtain ⟨w₃, w₄, owner₄, g', hwalk₃, hwalk₄, hvalid₄, hforwarded₄, hheaders₄, hbound, hsymbols₄,
      hvariables₄, hkey₄, hrest₄⟩ := hvalid₂.fixGlobalVariables hforwarded₂.image hsymbols₂
    (fun o ho hclass => hrest₂ o ho (hnotSymbol o ((hclass₂ ho).mp hclass))) hnamed.apart
    fun o ho hclass => ⟨hoop₂.mpr (hnamed.key o ho ((hclass₂ ho).mp hclass)).1, _,
      hname₂ o ho ((hclass₂ ho).mp hclass)⟩
  have hclass₄ : ∀ {o c}, o ∈ objects → (w₄.HasClass o c ↔ w.HasClass o c) :=
    fun ho => (hforwarded₄.hasClass hforwarded₂.image hbelow₂ ho).trans (hclass₂ ho)
  have hoop₄ : ∀ {x i}, w₄.IsOopSlot objects x i ↔ w.IsOopSlot objects x i :=
    (hforwarded₄.isOopSlot hforwarded₂.image hbelow₂).trans hoop₂
  have hlt₂ : ∀ {x}, x < w.memory.heapStart → x < w₂.memory.heapStart :=
    fun hx => hforwarded₂.heapStart ▸ hx
  have hslot₄ : ∀ x i, w.IsOopSlot objects x i → w₄.memory.slot x i =
      w₄.memory.forwardOop heap (w₂.memory.forwardOop heap (w.memory.slot x i)) := by
    intro x i hslot
    rw [hforwarded₄.oop x i (hoop₂.mpr hslot), hforwarded₂.oop x i hslot]
  -- a symbol, a variable, or neither
  have hsymbol : ∀ x i, w.IsOopSlot objects x i → ∀ p ∈ objects, w.memory.slot x i = p.header →
      w.HasClass p .ByteSymbol → f' (w.memory.bytes p.header) = some (w₄.memory.slot x i) := by
    intro x i hslot p hp hheader hclass
    rw [hslot₄ x i hslot, hheader, forwardOop_interned hvalid₄ hforwarded₄.image hsymbols₄
      (hsymbol₂ p hp hclass)]
    exact hsymbol₂ p hp hclass
  have hvariable : ∀ x i, w.IsOopSlot objects x i → ∀ p ∈ objects, w.memory.slot x i = p.header →
      w.HasClass p .GlobalVariable →
      g' (w₄.memory.slot p.header Field.key) = some (w₄.memory.slot x i) := by
    intro x i hslot p hp hheader hclass
    obtain ⟨e, he, hword⟩ := hvariables₄ p hp ((hclass₄ hp).mpr hclass)
    rw [hslot₄ x i hslot, hheader, hforwarded₂.image.forwardOop_header hp,
      if_pos (hrest₂ p hp (hnotSymbol p hclass)),
      hforwarded₄.image.forwardOop_mark hp (hvalid₄.association _ e he).1.1 hword]
    exact he
  have hother : ∀ x i, w.IsOopSlot objects x i → (∀ p ∈ objects, w.memory.slot x i = p.header →
      ¬ w.HasClass p .ByteSymbol ∧ ¬ w.HasClass p .GlobalVariable) →
      w₂.memory.forwardOop heap (w.memory.slot x i) = w.memory.slot x i ∧
        w₄.memory.forwardOop heap (w.memory.slot x i) = w.memory.slot x i := by
    intro x i hslot hnone
    have hword₂ : ∀ p ∈ objects, w.memory.slot x i = p.header →
        w₂.memory.forwardingWord p.forwardingPointer = 0 :=
      fun p hp hheader => hrest₂ p hp (hnone p hp hheader).1
    refine ⟨hnamed.forwardOop_other hforwarded₂.image hslot hword₂,
      hnamed.forwardOop_other hforwarded₄.image hslot fun p hp hheader => ?_⟩
    rw [hrest₄ p hp fun hclass => (hnone p hp hheader).2 ((hclass₂ hp).mp hclass)]
    exact hword₂ p hp hheader
  refine ⟨w₄, owner₄, f', g', ?_, ⟨hvalid₄, hforwarded₄.image, ?_, hnamed.apart, hsymbols₄,
    hvariables₄, ?_⟩, ⟨?_, ?_, ?_, ?_, hsymbol, hvariable, ?_, ?_⟩,
    ⟨hext, hbound.mono ?_, hheaders₂.trans hheaders₄, ?_⟩⟩
  · simp only [World.fixStaticHeap, hwalk₁, hwalk₂, hwalk₃, hwalk₄, Option.bind_eq_bind,
      Option.bind_some]
  · exact fun o ho hclass => hnamed.narrow o ho ((hclass₄ ho).mp hclass)
  · -- what an oop has become is not forwarded any further
    intro x i hslot
    have hslot' := hoop₄.mp hslot
    by_cases hs : ∃ p ∈ objects, w.memory.slot x i = p.header ∧ w.HasClass p .ByteSymbol
    · obtain ⟨p, hp, hheader, hclass⟩ := hs
      exact forwardOop_interned hvalid₄ hforwarded₄.image hsymbols₄
        (hsymbol x i hslot' p hp hheader hclass)
    · by_cases hv : ∃ p ∈ objects, w.memory.slot x i = p.header ∧ w.HasClass p .GlobalVariable
      · obtain ⟨p, hp, hheader, hclass⟩ := hv
        exact forwardOop_association hvalid₄ hforwarded₄.image hvariables₄
          (hvariable x i hslot' p hp hheader hclass)
      · obtain ⟨hsame₂, hsame₄⟩ := hother x i hslot' fun p hp hheader =>
          ⟨fun hc => hs ⟨p, hp, hheader, hc⟩, fun hc => hv ⟨p, hp, hheader, hc⟩⟩
        rw [hslot₄ x i hslot', hsame₂, hsame₄, hsame₄]
  · exact fun x hx => (hforwarded₄.header x (hlt₂ hx)).trans (hforwarded₂.header x hx)
  · exact fun x hx => (hforwarded₄.byte x (hlt₂ hx)).trans (hforwarded₂.byte x hx)
  · exact fun x hx => (hforwarded₄.bytes (hlt₂ hx)).trans (hforwarded₂.bytes hx)
  · intro x hx i hslot
    rw [hforwarded₄.elsewhere x (hlt₂ hx) i fun h => hslot (hoop₂.mp h)]
    exact hforwarded₂.elsewhere x hx i hslot
  · intro p hp hclass
    rw [hkey₄ p hp ((hclass₂ hp).mpr hclass)]
    exact hname₂ p hp hclass
  · intro x i hslot hnone
    obtain ⟨hsame₂, hsame₄⟩ := hother x i hslot hnone
    rw [hslot₄ x i hslot, hsame₂, hsame₄]
  · rintro e ⟨o, ho, hclass, hheader⟩
    exact ⟨o, ho, (hclass₂ ho).mp hclass, hheader⟩
  · intro o ho hsymbol hvariable
    rw [hrest₄ o ho fun hclass => hvariable ((hclass₂ ho).mp hclass)]
    exact hrest₂ o ho hsymbol

/-- **Fixing up a heap.** Whatever has been interned and bound before, fixing up a heap of small
objects succeeds. A slot that referred to a byte symbol of the heap then refers to the interned
symbol with its bytes, one that referred to a global variable to the association the globals hold
for its name, which has been interned, and all other slots, headers and bytes are as before. Fixing
it up again changes nothing at all. -/
theorem fixStaticHeap_of_run (hrun : NameReachable heap objects w)
    (himage : StaticImage w heap objects)
    (hzero : ∀ o ∈ objects, w.memory.forwardingWord o.forwardingPointer = 0)
    (hnamed : NamedImage w heap objects) :
    ∃ w', w.fixStaticHeap heap = some w' ∧
      (∀ x i, w.IsOopSlot objects x i → ∀ p ∈ objects, w.memory.slot x i = p.header →
        (w.HasClass p .ByteSymbol → w'.IsInterned (w'.memory.slot x i) ∧
          w'.memory.bytes (w'.memory.slot x i) = w.memory.bytes p.header) ∧
        (w.HasClass p .GlobalVariable → w'.IsInterned (w'.memory.slot p.header Field.key) ∧
          w'.memory.bytes (w'.memory.slot p.header Field.key) =
            w.memory.bytes (w.memory.slot p.header Field.key) ∧
          w'.memory.identityDictionaryAssociationAt w'.globals
            (w'.memory.slot p.header Field.key) = some (w'.memory.slot x i))) ∧
      (∀ x < w.memory.heapStart, ∀ i, (w.IsOopSlot objects x i → ∀ p ∈ objects,
        w.memory.slot x i = p.header → ¬ w.HasClass p .ByteSymbol ∧
          ¬ w.HasClass p .GlobalVariable) →
        w'.memory.slot x i = w.memory.slot x i) ∧
      (∀ x < w.memory.heapStart, w'.memory.header x = w.memory.header x ∧
        w'.memory.byte x = w.memory.byte x) ∧
      w'.fixStaticHeap heap = some w' := by
  obtain ⟨owner, f, g, hvalid⟩ := hrun.valid
  have hsmall : SmallImage w heap objects := ⟨himage, fun o ho => by rw [hzero o ho]; rfl⟩
  obtain ⟨w', owner', f', g', hfix, hfixed, hslots, -⟩ := hvalid.fixStaticHeap hsmall hzero hnamed
  have hsymbols := hfixed.names.globals.symbols
  refine ⟨w', hfix, fun x i hslot p hp hheader => ⟨fun hclass => ?_, fun hclass => ?_⟩,
    fun x hx i hnone => ?_, fun x hx => ⟨hslots.header x hx, hslots.byte x hx⟩,
    hfixed.fixStaticHeap⟩
  · have hs := hslots.symbol x i hslot p hp hheader hclass
    exact ⟨hsymbols.isInterned_iff.mpr ⟨_, hs⟩, (hsymbols.of_some hs).2.2⟩
  · have hname := hslots.name p hp hclass
    obtain ⟨n, c, hd, hroom⟩ := hfixed.names.globals.globals
    have hat : w'.memory.identityDictionaryAssociationAt w'.globals
        (w'.memory.slot p.header Field.key) =
        some ((g' (w'.memory.slot p.header Field.key)).getD nilOop) :=
      hd.associationAt trivial hroom
    rw [hslots.globalVariable x i hslot p hp hheader hclass, Option.getD_some] at hat
    exact ⟨hsymbols.isInterned_iff.mpr ⟨_, hname⟩, (hsymbols.of_some hname).2.2, hat⟩
  · by_cases hslot : w.IsOopSlot objects x i
    · exact hslots.other x i hslot (hnone hslot)
    · exact hslots.elsewhere x hx i hslot

end Walks

/-- A run can begin over any memory the runtime is loaded into. -/
theorem exists_nameStart {w : World} (hloaded : KernelLoaded w.memory) :
    ∃ w₀ : World, NameStart w₀ ∧
      Frame w.spurInitialize.memory.limit ∅ w.spurInitialize.memory w₀.memory := by
  have hintact : KernelIntact w.spurInitialize.memory :=
    KernelLoaded.intact ⟨hloaded.header, hloaded.slot, hloaded.lt_heapStart⟩
  obtain ⟨m₁, newSymbols, symbolTable, owner, hinit, hsymbols, hframe₁, -⟩ :=
    initCollectionsKernel_spec hintact
  obtain ⟨d, m₂, hnew, hd⟩ := @dictionaryNewWithCapacity_spec _ m₁ hsymbols.kernel
    .SystemDictionary (by decide) 5
  exact ⟨{ w.spurInitialize with
      memory := m₂, newSymbols := newSymbols, symbolTable := symbolTable, globals := d },
    ⟨_, _, _, _, hloaded, hinit, hnew, rfl⟩,
    hframe₁.trans (hd.frame.mono hframe₁.limit_le (by simp))⟩

/-! ### The heap of the examples -/

omit [KernelImage]

/-- A heap of the byte symbol `Object`, the global variable of that name, a class variable `Bar` of
that class and an array that refers to it. -/
def objectHeap : HeapInformation := ⟨61440, 128⟩

def objectHeapObjects : List HeapObject :=
  [⟨61440, 61448, 1, 1⟩, ⟨61472, 61480, 2, 2⟩, ⟨61504, 61512, 2, 2⟩, ⟨61536, 61544, 1, 1⟩]

/-- The headers of these objects, and of a pool outside the heap that binds `Bar`: a dictionary, its
array, the association and its key. -/
def objectHeapHeader (a : ℕ) : ObjectHeader :=
  if a = 61448 then .ofFields KernelClass.ByteSymbol.index (ObjectFormat.indexable8 + 2) 0 1
  else if a = 61480 then .ofFields KernelClass.GlobalVariable.index ObjectFormat.fixedSize 0 2
  else if a = 61512 then .ofFields KernelClass.ClassVariable.index ObjectFormat.fixedSize 0 2
  else if a = 61544 then .ofFields KernelClass.Array.index ObjectFormat.variableSizeNoIvars 0 1
  else if a = 60680 then .ofFields KernelClass.Dictionary.index ObjectFormat.fixedSize 0 2
  else if a = 60712 then .ofFields KernelClass.Array.index ObjectFormat.variableSizeNoIvars 0 1
  else if a = 60744 then .ofFields KernelClass.Association.index ObjectFormat.fixedSize 0 2
  else if a = 60776 then .ofFields KernelClass.ByteSymbol.index (ObjectFormat.indexable8 + 5) 0 1
  else .ofFields 0 0 0 0

/-- Their slots. -/
def objectHeapSlot (a i : ℕ) : ℕ :=
  if a = 61480 then if i = Field.key then 61448 else 0
  else if a = 61512 then if i = Field.key then 60776 else 61480
  else if a = 61544 then 61512
  else if a = 60680 then if i = Field.array then 60712 else encodeSmallInteger 1
  else if a = 60712 then 60744
  else if a = 60744 then if i = Field.key then 60776 else 0
  else 0

/-- The bytes of the two symbols. -/
def objectHeapByte (a i : ℕ) : UInt8 :=
  if a = 61448 then [79, 98, 106, 101, 99, 116].getD i 0
  else if a = 60776 then [66, 97, 114].getD i 0
  else 0

/-- The runtime as loaded with the placement `sequentialImage`, next to that heap. The static
objects are at multiples of 128, up to 58496. -/
def objectHeapWorld : World :=
  let kernel := sequential.memory
  ofMemory { kernel with
    header a := if a % 128 = 0 then kernel.header a else objectHeapHeader a
    slot a := if a % 128 = 0 then kernel.slot a else objectHeapSlot a
    byte := objectHeapByte }

theorem objectHeapWorld_loaded : @KernelLoaded sequentialImage objectHeapWorld.memory := by
  let := sequentialImage
  have haddress : ∀ o : StaticObject, KernelImage.address o % 128 = 0 := fun o =>
    Nat.mul_mod_right 128 o.position
  exact ⟨fun o => (if_pos (haddress o)).trans (sequential_loaded.header o),
    fun o => (if_pos (haddress o)).trans (sequential_loaded.slot o), sequential_loaded.lt_heapStart⟩

/-- What the examples know of the memory of the runtime. -/
structure NextToObjectHeap (w : World) : Prop where
  kept : StaticKept objectHeapWorld.memory w.memory
  word : ∀ a < 65536, w.memory.forwardingWord a = 0

theorem forall_objectHeapObjects {P : HeapObject → Prop} (h₁ : P ⟨61440, 61448, 1, 1⟩)
    (h₂ : P ⟨61472, 61480, 2, 2⟩) (h₃ : P ⟨61504, 61512, 2, 2⟩) (h₄ : P ⟨61536, 61544, 1, 1⟩) :
    ∀ o ∈ objectHeapObjects, P o := by
  intro o ho
  simp only [objectHeapObjects, List.mem_cons, List.not_mem_nil, or_false] at ho
  rcases ho with rfl | rfl | rfl | rfl
  · exact h₁
  · exact h₂
  · exact h₃
  · exact h₄

namespace NextToObjectHeap

variable {w : World}

theorem header (h : NextToObjectHeap w) {a : ℕ} (ha : a < 65536) (hmod : a % 128 ≠ 0) :
    w.memory.header a = objectHeapHeader a :=
  (h.kept.header a ha).trans (if_neg hmod)

theorem slot (h : NextToObjectHeap w) {a : ℕ} (ha : a < 65536) (hmod : a % 128 ≠ 0) :
    w.memory.slot a = objectHeapSlot a :=
  (h.kept.slot a ha).trans (if_neg hmod)

/-- A step that changes no static memory. -/
theorem frame (h : NextToObjectHeap w) {m : ObjectMemory} {F : Set (ℕ × ℕ)}
    (hf : Frame w.memory.limit F w.memory m) (hkept : StaticKept w.memory m) :
    NextToObjectHeap (w.withMemory m) where
  kept := h.kept.trans hkept
  word a ha := by
    have hstart : w.memory.heapStart = 65536 := h.kept.heapStart
    exact (hf.forwardingWord a ((hstart ▸ ha).trans_le w.memory.heapStart_le_limit)).trans
      (h.word a ha)

theorem image (h : NextToObjectHeap w) : StaticImage w objectHeap objectHeapObjects := by
  have hlaid : Laid 61536 [⟨61536, 61544, 1, 1⟩] 61568 :=
    @Laid.cons ⟨61536, 61544, 1, 1⟩ [] 61568 (Or.inl rfl) (Laid.nil 61568)
  have hlaid := @Laid.cons ⟨61504, 61512, 2, 2⟩ _ 61568 (Or.inl rfl) hlaid
  have hlaid := @Laid.cons ⟨61472, 61480, 2, 2⟩ _ 61568 (Or.inl rfl) hlaid
  refine ⟨@Laid.cons ⟨61440, 61448, 1, 1⟩ _ 61568 (Or.inl rfl) hlaid, rfl, ?_⟩
  refine forall_objectHeapObjects ?_ ?_ ?_ ?_ <;>
    refine parses_small (h.word _ (by decide)) ?_ (by decide) <;>
    rw [h.header (by decide) (by decide)] <;> rfl

theorem zero (h : NextToObjectHeap w) :
    ∀ o ∈ objectHeapObjects, w.memory.forwardingWord o.forwardingPointer = 0 :=
  forall_objectHeapObjects (h.word _ (by decide)) (h.word _ (by decide)) (h.word _ (by decide))
    (h.word _ (by decide))

theorem small (h : NextToObjectHeap w) : SmallImage w objectHeap objectHeapObjects :=
  ⟨h.image, fun o ho => by rw [h.zero o ho]; rfl⟩

/-- The classes of the objects. -/
theorem hasClass_iff (h : NextToObjectHeap w) (c : KernelClass) : ∀ o ∈ objectHeapObjects,
    (w.HasClass o c ↔ (objectHeapHeader o.header).classIndex = c.index) := by
  refine forall_objectHeapObjects ?_ ?_ ?_ ?_ <;>
    rw [HasClass, h.header (by decide) (by decide)]

/-- The class of the value decides about the slots an object has. -/
theorem holdsPointers (h : NextToObjectHeap w) {a : ℕ} (ha : a < 65536) (hmod : a % 128 ≠ 0)
    (hformat : (objectHeapHeader a).objectFormat < ObjectFormat.indexable64) :
    w.memory.HoldsPointers a := by
  rw [HoldsPointers, h.header ha hmod]
  exact fun hnot => absurd hnot.1 (Nat.not_le.mpr hformat)

/-- The pointer slots of the heap. -/
theorem isOopSlot (h : NextToObjectHeap w) {a n i : ℕ} (ho : ⟨a - 8, a, n, n⟩ ∈ objectHeapObjects)
    (ha : a < 65536) (hmod : a % 128 ≠ 0)
    (hformat : (objectHeapHeader a).objectFormat < ObjectFormat.indexable64) (hi : i < n) :
    w.IsOopSlot objectHeapObjects a i :=
  ⟨_, ho, rfl, h.holdsPointers ha hmod hformat, hi⟩

/-- The value of the class variable is the global variable. -/
theorem value (h : NextToObjectHeap w) : w.memory.slot 61512 Field.value = 61480 := by
  rw [h.slot (by decide) (by decide)]
  rfl

/-- The key of the global variable is the symbol of the heap. -/
theorem key (h : NextToObjectHeap w) : w.memory.slot 61480 Field.key = 61448 := by
  rw [h.slot (by decide) (by decide)]
  rfl

/-- Its bytes are those of `Object`. -/
theorem name (h : NextToObjectHeap w) :
    w.memory.bytes (w.memory.slot 61480 Field.key) = [79, 98, 106, 101, 99, 116] := by
  rw [h.key, bytes, basicSize, h.header (by decide) (by decide), h.kept.byte _ (by decide)]
  rfl

theorem named (h : NextToObjectHeap w) :
    letI := sequentialImage
    NamedImage w objectHeap objectHeapObjects := by
  let := sequentialImage
  refine ⟨fun o ho => ?_, fun o ho => ?_, fun o ho hclass => ?_, ?_⟩
  · rw [h.hasClass_iff _ o ho]
    revert o
    exact forall_objectHeapObjects (by decide) (by decide) (by decide) (by decide)
  · rw [Option.eq_none_iff_forall_ne_some]
    intro x hx
    have haddress : 128 * x.position = o.header := (KernelImage.objectAt_eq_some _ x).mp hx
    revert o
    refine forall_objectHeapObjects ?_ ?_ ?_ ?_ <;> intro _ <;> simp only <;> omega
  · rw [h.hasClass_iff _ o ho] at hclass
    have hsymbol : w.HasClass ⟨61440, 61448, 1, 1⟩ .ByteSymbol :=
      (h.hasClass_iff _ _ (by decide)).mpr rfl
    revert o
    refine forall_objectHeapObjects (fun hclass => ?_) (fun hclass => ?_) (fun hclass => ?_)
      fun hclass => ?_
    · exact absurd hclass (by decide)
    · exact ⟨@isOopSlot w h 61480 2 Field.key (by decide) (by decide) (by decide) (by decide)
        (by decide), Or.inl ⟨_, by decide, h.key.symm, hsymbol⟩⟩
    · exact absurd hclass (by decide)
    · exact absurd hclass (by decide)
  · rintro x i ⟨o, ho, rfl, hholds, hi⟩
    revert o
    refine forall_objectHeapObjects (fun hholds hi => ?_) (fun hholds hi => ?_)
      (fun hholds hi => ?_) fun hholds hi => ?_
    · rw [HoldsPointers, h.header (by decide) (by decide)] at hholds
      exact absurd hholds (by decide)
    all_goals
      rw [h.slot (by decide) (by decide)]
      have hindex : i < 2 := Nat.lt_of_lt_of_le hi (by decide)
      clear hi
      revert i
      decide

end NextToObjectHeap

/-- The runtime as it starts, next to that heap. -/
theorem exists_nextToObjectHeap : letI := sequentialImage
    ∃ w : World, NameStart w ∧ objectHeap.finish ≤ w.memory.heapStart ∧ NextToObjectHeap w := by
  let := sequentialImage
  obtain ⟨w, hstart, hmade⟩ := exists_nameStart objectHeapWorld_loaded
  have hframe : Frame objectHeapWorld.memory.limit ∅ objectHeapWorld.memory w.memory := hmade
  refine ⟨w, hstart, ?_, StaticKept.of_frame hframe (by simp), fun a ha => ?_⟩
  · rw [hframe.heapStart]
    decide
  · rw [hframe.forwardingWord a ha]
    rfl

/-- The state after C code has interned the bytes of `Object`, next to that heap. -/
theorem exists_internedNextToObjectHeap : letI := sequentialImage
    ∃ w : World, NameReachable objectHeap objectHeapObjects w ∧ NextToObjectHeap w := by
  let := sequentialImage
  obtain ⟨w₀, hstart, hbelow, hnext⟩ := exists_nextToObjectHeap
  obtain ⟨owner, hvalid⟩ := @NamesValid.of_start _ objectHeap objectHeapObjects _ hstart hbelow
  obtain ⟨symbol, m, hintern, hframe, -⟩ := hvalid.internCString [79, 98, 106, 101, 99, 116]
  exact ⟨w₀.withMemory m,
    ⟨w₀, hstart, hbelow, ReflTransGen.single (NameStep.internCString _ hintern)⟩,
    hnext.frame hframe (hvalid.staticKept hframe (by simp) (by simp))⟩

/-- The class variable then refers to the association that the globals hold for the interned symbol
`Object`. -/
theorem fixStaticHeap_of_run_objectHeap : letI := sequentialImage
    ∃ w w' : World, NameReachable objectHeap objectHeapObjects w ∧
      w.memory.slot 61480 Field.key = 61448 ∧ w.memory.slot 61512 Field.value = 61480 ∧
      w.fixStaticHeap objectHeap = some w' ∧ w'.IsInterned (w'.memory.slot 61480 Field.key) ∧
      w'.memory.bytes (w'.memory.slot 61480 Field.key) = [79, 98, 106, 101, 99, 116] ∧
      w'.memory.identityDictionaryAssociationAt w'.globals (w'.memory.slot 61480 Field.key) =
        some (w'.memory.slot 61512 Field.value) ∧
      w'.fixStaticHeap objectHeap = some w' := by
  let := sequentialImage
  obtain ⟨w, hrun, hnext⟩ := exists_internedNextToObjectHeap
  obtain ⟨w', hfix, hslots, -, -, hagain⟩ :=
    fixStaticHeap_of_run hrun hnext.image hnext.zero hnext.named
  have hslot : w.IsOopSlot objectHeapObjects 61512 Field.value :=
    hnext.isOopSlot (by decide) (by decide) (by decide) (by decide) Nat.one_lt_two
  have hclass : w.HasClass ⟨61472, 61480, 2, 2⟩ .GlobalVariable :=
    (hnext.hasClass_iff _ _ (by decide)).mpr rfl
  obtain ⟨hinterned, hbytes, hat⟩ :=
    (hslots 61512 Field.value hslot ⟨61472, 61480, 2, 2⟩ (by decide)
    hnext.value).2 hclass
  refine ⟨w, w', hrun, hnext.key, hnext.value, hfix, hinterned, ?_, hat, hagain⟩
  rw [hbytes, hnext.name]

end World

end SlvmNative
