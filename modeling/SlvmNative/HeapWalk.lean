import SlvmNative.ObjectModel

/-!
# Walking a heap

`slvm_spur_heap_iterate` finds the objects of a heap from their pre-headers alone: bit 0 of the
first word tells the 24-byte pre-header of a big object from the 8-byte one, and that decides where
the header is and where the slot counts are. The walk is stated over anything one can read those
words and headers from, so that the same walk serves the flat memory of the allocator and the
object memory of the runtime.

## Main definitions

* `HeapReader` — what the walker reads
* `HeapObject` — what the walker hands to its iterator
* `heapIterateLoop`, `heapIterate` — the walk: the calls it makes, and the state it ends in
* `Laid` — objects laid out one after another, the next at the next 16-byte boundary
* `callEach` — an iterator called on given objects

## Main results

* `heapIterateLoop_of_laid` — over laid-out objects the walk calls its iterator on exactly them
* `heapIterateLoop_calls` — the calls of any walk are about laid-out objects
* `heapIterate_isSome_of_laid` — when the closing assertion of a walk over laid-out objects holds
-/

namespace SlvmNative

/-- The words and headers the walker reads. -/
class HeapReader (σ : Type*) where
  /-- The first word of the pre-header at an address. -/
  forwardingWord : σ → ℕ → ℕ
  /-- The word before the header of a big object. -/
  sizeWord : σ → ℕ → ℕ
  /-- The header at an address. -/
  header : σ → ℕ → ObjectHeader

/-- One call of an iterator: the addresses of the forwarding pointer and of the header, and the
slot counts. -/
@[ext] structure HeapObject where
  forwardingPointer : ℕ
  header : ℕ
  oopSlotCount : ℕ
  totalSlotCount : ℕ
  deriving DecidableEq

/-- Where the walk goes on after an object: behind its header and slots, whose size is a 64-bit
number, on a 16-byte boundary. -/
def HeapObject.next (o : HeapObject) : ℕ :=
  (o.header + (8 + o.totalSlotCount * 8) % 2 ^ 64 + 15) / 16 * 16

/-- What an iterator is told about an object besides its forwarding pointer. -/
def HeapObject.handed (o : HeapObject) : ℕ × ℕ × ℕ := (o.header, o.oopSlotCount, o.totalSlotCount)

variable {σ : Type*} [HeapReader σ]

open HeapReader

/-- Bit 0 of a forwarding word signals the size pre-header. -/
def isBig (s : σ) (position : ℕ) : Prop := forwardingWord s position &&& 1 ≠ 0

instance (s : σ) (position : ℕ) : Decidable (isBig s position) :=
  inferInstanceAs (Decidable (_ ≠ _))

/-- The object the walker takes to be at a position. -/
def parseObject (s : σ) (position : ℕ) : HeapObject :=
  if isBig s position then
    let word := sizeWord s (position + 16)
    if ObjectFormat.mixedObject ≤ (header s (position + 24)).objectFormat then
      ⟨position, position + 24, word >>> 32, word &&& 0xFFFFFFFF⟩
    else ⟨position, position + 24, word, word⟩
  else
    let slotCount := (header s (position + 8)).slotCount
    ⟨position, position + 8, slotCount, slotCount⟩

/-- The assertion on the slot count of the header. -/
def slotCountAsserted (s : σ) (position : ℕ) : Prop :=
  (header s (parseObject s position).header).slotCount = 255 ↔ isBig s position

instance (s : σ) (position : ℕ) : Decidable (slotCountAsserted s position) :=
  inferInstanceAs (Decidable (_ ↔ _))

theorem position_lt_next (s : σ) (position : ℕ) : position < (parseObject s position).next := by
  simp only [parseObject, HeapObject.next]
  split_ifs <;> simp only <;> omega

theorem parseObject_forwardingPointer (s : σ) (position : ℕ) :
    (parseObject s position).forwardingPointer = position := by
  rw [parseObject]
  split_ifs <;> rfl

/-- The header is behind the pre-header. -/
theorem parseObject_header (s : σ) (position : ℕ) :
    (parseObject s position).header = if isBig s position then position + 24 else position + 8 := by
  rw [parseObject]
  split_ifs <;> rfl

/-- The loop of `slvm_spur_heap_iterate` up to `finish`: the calls it makes, and the state and
position it leaves if neither an assertion nor the iterator fails. -/
def heapIterateLoop (iterator : σ → HeapObject → Option σ) (finish : ℕ) (s : σ) (position : ℕ) :
    List HeapObject × Option (σ × ℕ) :=
  if position < finish then
    if slotCountAsserted s position then
      match iterator s (parseObject s position) with
      | none => ([parseObject s position], none)
      | some s' =>
        let rest := heapIterateLoop iterator finish s' (parseObject s position).next
        (parseObject s position :: rest.1, rest.2)
    else ([], none)
  else ([], some (s, position))
termination_by finish - position
decreasing_by
  have := position_lt_next s position
  omega

/-- `slvm_spur_heap_iterate` over a heap from `start` of `size` bytes. -/
def heapIterate (iterator : σ → HeapObject → Option σ) (start size : ℕ) (s : σ) :
    List HeapObject × Option σ :=
  let walk := heapIterateLoop iterator (start + size) s start
  (walk.1, walk.2.bind fun r => if r.2 = start + size then some r.1 else none)

/-! ### Laid-out objects -/

/-- Objects laid out one after another from `position` to `last`, each with its pre-header. -/
inductive Laid : ℕ → List HeapObject → ℕ → Prop
  | nil (last : ℕ) : Laid last [] last
  | cons {o : HeapObject} {objects : List HeapObject} {last : ℕ}
      (hheader : o.header = o.forwardingPointer + 8 ∨ o.header = o.forwardingPointer + 24)
      (h : Laid o.next objects last) : Laid o.forwardingPointer (o :: objects) last

/-- What the walker reads at an object is that object. -/
def Parses (s : σ) (o : HeapObject) : Prop :=
  parseObject s o.forwardingPointer = o ∧ slotCountAsserted s o.forwardingPointer

theorem HeapObject.add_sixteen_le_next {o : HeapObject}
    (h : o.header = o.forwardingPointer + 8 ∨ o.header = o.forwardingPointer + 24)
    (halign : o.forwardingPointer % 16 = 0) : o.forwardingPointer + 16 ≤ o.next := by
  rw [HeapObject.next]
  omega

theorem HeapObject.next_aligned (o : HeapObject) : o.next % 16 = 0 :=
  Nat.mul_mod_left _ _

theorem HeapObject.header_le_next (o : HeapObject) : o.header ≤ o.next := by
  rw [HeapObject.next]
  omega

theorem HeapObject.header_add_eight_le_next {o : HeapObject}
    (h : o.header = o.forwardingPointer + 8 ∨ o.header = o.forwardingPointer + 24)
    (halign : o.forwardingPointer % 16 = 0) : o.header + 8 ≤ o.next := by
  rw [HeapObject.next]
  omega

theorem HeapObject.next_congr {o p : HeapObject} (hheader : p.header = o.header)
    (hsize : (8 + p.totalSlotCount * 8) % 2 ^ 64 = (8 + o.totalSlotCount * 8) % 2 ^ 64) :
    p.next = o.next := by
  rw [HeapObject.next, HeapObject.next, hheader, hsize]

/-- The size of an object in a heap does not wrap. -/
theorem HeapObject.next_eq {o : HeapObject} (h : 8 + o.totalSlotCount * 8 < 2 ^ 64) :
    o.next = (o.header + 8 + o.totalSlotCount * 8 + 15) / 16 * 16 := by
  simp only [HeapObject.next, Nat.mod_eq_of_lt h, Nat.add_assoc]

theorem HeapObject.body_le_next {o : HeapObject} (h : 8 + o.totalSlotCount * 8 < 2 ^ 64) :
    o.header + 8 + o.totalSlotCount * 8 ≤ o.next := by
  rw [HeapObject.next_eq h]
  omega

namespace Laid

variable {position last : ℕ} {objects : List HeapObject}

theorem le (h : Laid position objects last) : position ≤ last := by
  induction h with
  | nil => exact Nat.le_refl _
  | @cons o objects last hheader _ ih =>
    have := o.header_le_next
    omega

theorem aligned (h : Laid position objects last) (halign : position % 16 = 0) : last % 16 = 0 := by
  induction h with
  | nil => exact halign
  | @cons o _ _ _ _ ih => exact ih o.next_aligned

theorem append {objects' : List HeapObject} {last' : ℕ} (h : Laid position objects last)
    (h' : Laid last objects' last') : Laid position (objects ++ objects') last' := by
  induction h with
  | nil => exact h'
  | cons hheader _ ih => exact Laid.cons hheader (ih h')

/-- Every object lies within the layout. -/
theorem bounds (h : Laid position objects last) {o : HeapObject} (ho : o ∈ objects) :
    position ≤ o.forwardingPointer ∧ o.next ≤ last ∧
      (o.header = o.forwardingPointer + 8 ∨ o.header = o.forwardingPointer + 24) := by
  induction h with
  | nil => exact absurd ho List.not_mem_nil
  | @cons p objects last hheader h ih =>
    rcases List.mem_cons.mp ho with rfl | ho
    · exact ⟨Nat.le_refl _, h.le, hheader⟩
    · obtain ⟨hle, hnext, hhead⟩ := ih ho
      have := p.header_le_next
      exact ⟨by omega, hnext, hhead⟩

theorem forwardingPointer_aligned (h : Laid position objects last) (halign : position % 16 = 0)
    {o : HeapObject} (ho : o ∈ objects) : o.forwardingPointer % 16 = 0 := by
  induction h with
  | nil => exact absurd ho List.not_mem_nil
  | @cons p objects last _ _ ih =>
    rcases List.mem_cons.mp ho with rfl | ho
    · exact halign
    · exact ih p.next_aligned ho

theorem add_sixteen_le (h : Laid position objects last) (halign : position % 16 = 0)
    {o : HeapObject} (ho : o ∈ objects) : o.forwardingPointer + 16 ≤ last := by
  obtain ⟨-, hlast, hheader⟩ := h.bounds ho
  exact (HeapObject.add_sixteen_le_next hheader (h.forwardingPointer_aligned halign ho)).trans hlast

/-- Two objects of a layout are the same, or one lies behind the other. -/
theorem separate (h : Laid position objects last) {o p : HeapObject} (ho : o ∈ objects)
    (hp : p ∈ objects) :
    o = p ∨ o.next ≤ p.forwardingPointer ∨ p.next ≤ o.forwardingPointer := by
  induction h with
  | nil => exact absurd ho List.not_mem_nil
  | @cons q objects last _ h ih =>
    rcases List.mem_cons.mp ho with rfl | ho' <;> rcases List.mem_cons.mp hp with rfl | hp'
    · exact Or.inl rfl
    · exact Or.inr (Or.inl (h.bounds hp').1)
    · exact Or.inr (Or.inr (h.bounds ho').1)
    · exact ih ho' hp'

/-- Different objects have different forwarding pointers. -/
theorem forwardingPointer_ne (h : Laid position objects last) {o p : HeapObject} (ho : o ∈ objects)
    (hp : p ∈ objects) (hne : p ≠ o) : p.forwardingPointer ≠ o.forwardingPointer := by
  have hobody := o.header_le_next
  have hpbody := p.header_le_next
  have hoheader := (h.bounds ho).2.2
  have hpheader := (h.bounds hp).2.2
  rcases h.separate ho hp with heq | hsep | hsep
  · exact absurd heq.symm hne
  · omega
  · omega

/-- No store into the slots of one object reaches the pre-header or the header of any. -/
theorem body_not_meta (h : Laid position objects last) (halign : position % 16 = 0)
    {o p : HeapObject} (ho : o ∈ objects) (hp : p ∈ objects)
    (hsize : 8 + o.totalSlotCount * 8 < 2 ^ 64) {a : ℕ} (ha : o.header + 8 ≤ a)
    (ha' : a < o.header + 8 + o.totalSlotCount * 8) :
    ¬ (p.forwardingPointer ≤ a ∧ a < p.header + 8) := by
  have hop := h.bounds ho
  have hpp := h.bounds hp
  have hobody := HeapObject.body_le_next hsize
  have hpbody := HeapObject.header_add_eight_le_next hpp.2.2 (h.forwardingPointer_aligned halign hp)
  rcases h.separate ho hp with rfl | hsep | hsep <;> omega

theorem of_nil (h : Laid position [] last) : last = position := by
  cases h
  rfl

theorem of_cons {o : HeapObject} (h : Laid position (o :: objects) last) :
    o.forwardingPointer = position ∧ Laid o.next objects last := by
  cases h with
  | cons _ h => exact ⟨rfl, h⟩

/-- What lies before and behind an object of a layout. -/
theorem split {pre post : List HeapObject} {o : HeapObject}
    (h : Laid position (pre ++ o :: post) last) :
    Laid position pre o.forwardingPointer ∧ Laid o.next post last ∧
      (o.header = o.forwardingPointer + 8 ∨ o.header = o.forwardingPointer + 24) := by
  induction pre generalizing position with
  | nil =>
    cases h with
    | cons hheader h => exact ⟨Laid.nil _, h, hheader⟩
  | cons p pre ih =>
    cases h with
    | cons hheader h =>
      obtain ⟨hpre, hpost⟩ := ih h
      exact ⟨Laid.cons hheader hpre, hpost⟩

/-- The layout ends where the walker goes on after its last object. -/
theorem last_eq_next {o : HeapObject} (h : Laid position (objects ++ [o]) last) : last = o.next :=
  h.split.2.1.of_nil

/-- Only the places and sizes of the objects make a layout. -/
theorem map_of_next {f : HeapObject → HeapObject} (h : Laid position objects last)
    (hf : ∀ o ∈ objects, (f o).forwardingPointer = o.forwardingPointer ∧ (f o).header = o.header ∧
      (f o).next = o.next) : Laid position (objects.map f) last := by
  induction h with
  | nil => exact Laid.nil _
  | @cons o objects last hheader _ ih =>
    obtain ⟨hposition, hhead, hnext⟩ := hf o List.mem_cons_self
    have hrest := ih fun p hp => hf p (List.mem_cons_of_mem _ hp)
    rw [← hnext] at hrest
    rw [← hposition, ← hhead] at hheader
    rw [← hposition]
    exact Laid.cons hheader hrest

/-- Objects laid out from the same position on are the same if what an iterator is told about them
is. -/
theorem eq_of_handed {objects' : List HeapObject} {last' : ℕ} (h : Laid position objects last)
    (h' : Laid position objects' last')
    (heq : objects.map HeapObject.handed = objects'.map HeapObject.handed) :
      objects = objects' := by
  induction objects generalizing position objects' with
  | nil => exact (List.map_eq_nil_iff.mp heq.symm).symm
  | cons o objects ih =>
    cases objects' with
    | nil => cases heq
    | cons p objects' =>
      obtain ⟨hposition, h⟩ := h.of_cons
      obtain ⟨hposition', h'⟩ := h'.of_cons
      obtain ⟨hhanded, hrest⟩ := List.cons.inj heq
      simp only [HeapObject.handed, Prod.mk.injEq] at hhanded
      have hop : o = p :=
        HeapObject.ext (hposition.trans hposition'.symm) hhanded.1 hhanded.2.1 hhanded.2.2
      subst hop
      rw [ih h h' hrest]

end Laid

/-! ### The calls of a walk -/

/-- An iterator called on objects one after another, up to the first call that fails: the calls
made, and the state they leave. -/
def callEach (iterator : σ → HeapObject → Option σ) :
    List HeapObject → σ → List HeapObject × Option σ
  | [], s => ([], some s)
  | o :: objects, s =>
    match iterator s o with
    | none => ([o], none)
    | some s' =>
      let rest := callEach iterator objects s'
      (o :: rest.1, rest.2)

section CallEach

omit [HeapReader σ]

variable {iterator : σ → HeapObject → Option σ} {objects : List HeapObject} {s : σ}

theorem callEach_snd : (callEach iterator objects s).2 = objects.foldlM iterator s := by
  induction objects generalizing s with
  | nil => rfl
  | cons o objects ih =>
    rw [callEach, List.foldlM_cons]
    rcases iterator s o with _ | s'
    · rfl
    · exact ih

/-- If no call fails, all are made. -/
theorem callEach_fst (h : (objects.foldlM iterator s).isSome) :
    (callEach iterator objects s).1 = objects := by
  induction objects generalizing s with
  | nil => rfl
  | cons o objects ih =>
    rw [List.foldlM_cons] at h
    rw [callEach]
    rcases hs : iterator s o with _ | s'
    · rw [hs] at h
      cases h
    · rw [hs] at h
      simp only [ih h]

/-- An iterator that never fails is called on all objects. -/
theorem callEach_total (h : ∀ s o, ∃ s', iterator s o = some s') (s : σ) :
    ∃ s', (callEach iterator objects s).2 = some s' := by
  induction objects generalizing s with
  | nil => exact ⟨s, rfl⟩
  | cons o objects ih =>
    obtain ⟨s', hs'⟩ := h s o
    rw [callEach, hs']
    exact ih s'

end CallEach

/-- What is read at a position is laid out before what is read behind it. -/
theorem laid_parseObject (s : σ) (position : ℕ) {objects : List HeapObject} {last : ℕ}
    (h : Laid (parseObject s position).next objects last) :
    Laid position (parseObject s position :: objects) last := by
  have hposition := parseObject_forwardingPointer s position
  have hheader : (parseObject s position).header = (parseObject s position).forwardingPointer + 8 ∨
      (parseObject s position).header = (parseObject s position).forwardingPointer + 24 := by
    rw [parseObject_header, hposition]
    split_ifs
    · exact Or.inr rfl
    · exact Or.inl rfl
  have hlaid := Laid.cons hheader h
  rwa [hposition] at hlaid

/-- The calls of a walk are about objects laid out one after another, each as it was read in a state
with whatever the iterator keeps. -/
theorem heapIterateLoop_calls {iterator : σ → HeapObject → Option σ} {I : σ → Prop}
    (hI : ∀ s o s', I s → iterator s o = some s' → I s') (finish position : ℕ) {s : σ} (hs : I s) :
    (∃ last, Laid position (heapIterateLoop iterator finish s position).1 last) ∧
      ∀ o ∈ (heapIterateLoop iterator finish s position).1,
        ∃ s', I s' ∧ parseObject s' o.forwardingPointer = o := by
  have hparsed : ∀ s : σ, ∀ position, I s → ∃ s', I s' ∧
      parseObject s' (parseObject s position).forwardingPointer = parseObject s position :=
    fun s position hs => ⟨s, hs, by rw [parseObject_forwardingPointer]⟩
  fun_induction heapIterateLoop iterator finish s position with
  | case1 s position hlt hassert hcall =>
    exact ⟨⟨_, laid_parseObject s position (Laid.nil _)⟩,
      fun o ho => List.mem_singleton.mp ho ▸ hparsed s position hs⟩
  | case2 s position hlt hassert s' hcall rest ih =>
    obtain ⟨⟨last, hlaid⟩, hcalls⟩ := ih (hI s _ s' hs hcall)
    refine ⟨⟨last, laid_parseObject s position hlaid⟩, fun o ho => ?_⟩
    rcases List.mem_cons.mp ho with rfl | ho
    · exact hparsed s position hs
    · exact hcalls o ho
  | case3 s position hlt hassert =>
    exact ⟨⟨position, Laid.nil position⟩, fun o ho => absurd ho List.not_mem_nil⟩
  | case4 s position hlt =>
    exact ⟨⟨position, Laid.nil position⟩, fun o ho => absurd ho List.not_mem_nil⟩

/-- A walk over objects that all lie before the end of the heap calls its iterator on exactly them,
in order, up to the first call that fails, when the iterator never changes how a later object
parses. The last position is the one behind them, however far beyond the end that is. -/
theorem heapIterateLoop_of_laid_before {iterator : σ → HeapObject → Option σ}
    {P : σ → List HeapObject → Prop} (hparse : ∀ s o objects, P s (o :: objects) → Parses s o)
    (hstep : ∀ s o objects s', P s (o :: objects) → iterator s o = some s' → P s' objects)
    {finish position last : ℕ} {objects : List HeapObject} (h : Laid position objects last)
    (hbefore : ∀ o ∈ objects, o.forwardingPointer < finish) (hfinish : finish ≤ last) {s : σ}
    (hP : P s objects) :
    heapIterateLoop iterator finish s position =
      ((callEach iterator objects s).1, (callEach iterator objects s).2.map fun s' =>
        (s', last)) := by
  induction h generalizing s with
  | nil last =>
    rw [heapIterateLoop, if_neg (Nat.not_lt.mpr hfinish)]
    rfl
  | @cons o objects last hheader hlaid ih =>
    obtain ⟨ho, hassert⟩ := hparse s o objects hP
    rw [heapIterateLoop, if_pos (hbefore o List.mem_cons_self), if_pos hassert, ho, callEach]
    rcases hs : iterator s o with _ | s'
    · rfl
    · simp only [ih (fun p hp => hbefore p (List.mem_cons_of_mem _ hp)) hfinish
        (hstep s o objects s' hP hs)]

/-- **The walk over laid-out objects** calls its iterator on exactly them, in order, up to the
first call that fails, when the iterator never changes how a later object parses. The last
position is the one behind them. -/
theorem heapIterateLoop_of_laid {iterator : σ → HeapObject → Option σ}
    {P : σ → List HeapObject → Prop} (hparse : ∀ s o objects, P s (o :: objects) → Parses s o)
    (hstep : ∀ s o objects s', P s (o :: objects) → iterator s o = some s' → P s' objects)
    {finish position last : ℕ} {objects : List HeapObject} (h : Laid position objects last)
    (halign : position % 16 = 0) (hfinish : finish ≤ last) (hlast : last < finish + 16) {s : σ}
    (hP : P s objects) :
    heapIterateLoop iterator finish s position =
      ((callEach iterator objects s).1, (callEach iterator objects s).2.map fun s' => (s', last)) :=
  heapIterateLoop_of_laid_before hparse hstep h
    (fun o ho => by
      have hle := h.add_sixteen_le halign ho
      omega)
    hfinish hP

/-- **The closing assertion of a walk** over laid-out objects, by an iterator that never fails and
leaves what the walker reads alone, holds exactly when the layout ends where the heap does. -/
theorem heapIterate_isSome_of_laid {iterator : σ → HeapObject → Option σ}
    (hiterator : ∀ s o, ∃ s', iterator s o = some s' ∧ ∀ p, Parses s p → Parses s' p)
    {start size last : ℕ} {objects : List HeapObject} (h : Laid start objects last)
    (hbefore : ∀ o ∈ objects, o.forwardingPointer < start + size) (hfinish : start + size ≤ last)
    {s : σ} (hparses : ∀ o ∈ objects, Parses s o) :
    (heapIterate iterator start size s).2.isSome ↔ last = start + size := by
  have hloop := heapIterateLoop_of_laid_before (P := fun s objects => ∀ o ∈ objects, Parses s o)
    (fun s o objects hP => hP o List.mem_cons_self)
    (fun s o objects s' hP hs' p hp => by
      obtain ⟨s'', hs'', hkeep⟩ := hiterator s o
      obtain rfl := Option.some.inj (hs'.symm.trans hs'')
      exact hkeep p (hP p (List.mem_cons_of_mem _ hp)))
    h hbefore hfinish hparses
  obtain ⟨s', hs'⟩ := @callEach_total σ iterator objects
    (fun s o => (hiterator s o).imp fun _ hs' => hs'.1) s
  have hwalk : (heapIterate iterator start size s).2 =
      if last = start + size then some s' else none := by
    simp only [heapIterate, hloop, hs', Option.map_some, Option.bind_some]
  rw [hwalk]
  split_ifs with heq
  · exact iff_of_true rfl heq
  · exact iff_of_false (by simp) heq

end SlvmNative
