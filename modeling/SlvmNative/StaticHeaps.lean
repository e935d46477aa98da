import SlvmNative.Globals
import SlvmNative.HeapWalk

/-!
# Fixing up static heaps

A static heap is compiled apart from the runtime: it brings its own symbols, global variables and
class variables. `slvm_internal_fixStaticHeap` and `slvm_internal_fixStaticHeapPass2` replace every
reference to one of them by one to the object the runtime has for it. A marking walk leaves that
object in the forwarding pointer of the duplicate, and a walk over all slots then forwards them.

## Main definitions

* `World.fixStaticHeapSymbols`, `fixStaticHeapGlobalVariables`, `fixStaticHeapClassVariables`
* `World.applyNotNullForwarding`, `HeapInformation.forwardOop` — what a slot is forwarded to
* `World.fixStaticHeap`, `fixStaticHeapPass2`

## Main results

* `World.iterate_of_image` — what the calls of an iterator keep, a walk over the image keeps
* `World.iterate_applyNotNullForwarding` — a forwarding walk forwards the slots at once
-/

namespace SlvmNative

open ObjectMemory

/-- `SLVM_HeapInformation`, without its links and flags. -/
structure HeapInformation where
  start : ℕ
  size : ℕ
  deriving DecidableEq

/-- The end of a heap. -/
def HeapInformation.finish (heap : HeapInformation) : ℕ := heap.start + heap.size

/-! ### Tags -/

/-- A word `& ~FORWARDING_POINTER_TAG_MASK`. -/
def clearTag (word : ℕ) : ℕ := word >>> 2 <<< 2

theorem clearTag_eq (word : ℕ) : clearTag word = word / 4 * 4 := by
  rw [clearTag, Nat.shiftRight_eq_div_pow, Nat.shiftLeft_eq]

@[simp] theorem clearTag_zero : clearTag 0 = 0 := rfl

theorem clearTag_of_pointers {word : ℕ} (h : oopIsPointers word) : clearTag word = word := by
  have hmod := oopIsPointers_iff.mp h
  rw [clearTag_eq]
  omega

theorem and_one_eq_zero_iff {word : ℕ} : word &&& 1 = 0 ↔ word % 2 = 0 := by
  rw [Nat.and_one_is_mod]

theorem or_and_one {a b : ℕ} (ha : a &&& 1 = 0) (hb : b &&& 1 = 0) : (a ||| b) &&& 1 = 0 := by
  rw [Nat.and_or_distrib_right, ha, hb]
  rfl

theorem clearTag_and_one (word : ℕ) : clearTag word &&& 1 = 0 := by
  rw [and_one_eq_zero_iff, clearTag_eq]
  omega

theorem pointers_and_one {word : ℕ} (h : oopIsPointers word) : word &&& 1 = 0 := by
  have hmod := oopIsPointers_iff.mp h
  rw [and_one_eq_zero_iff]
  omega

/-! ### The walker -/

instance : HeapReader World where
  forwardingWord w := w.memory.forwardingWord
  sizeWord w := w.memory.sizeWord
  header w := w.memory.header

namespace ObjectMemory

/-- `slvm_spur_heap_getForwardingPointerForObject` -/
def getForwardingPointerForObject (m : ObjectMemory) (oop : ℕ) : ℕ :=
  if (m.header oop).slotCount = 255 then oop - 24 else oop - 8

/-- `slvm_spur_heap_applyNotNullForwarding` of one slot. -/
def forwardSlot (heap : HeapInformation) (header : ℕ) (m : ObjectMemory) (i : ℕ) : ObjectMemory :=
  let element := m.slot header i
  if ¬ oopIsPointers element then m
  -- only process the objects in the same heap
  else if element < heap.start ∨ heap.finish ≤ element then m
  else
    let elementForwarded := clearTag (m.forwardingWord (m.getForwardingPointerForObject element))
    if elementForwarded ≠ 0 then m.setSlot header i elementForwarded else m

/-- What a forwarding walk makes of an oop. -/
def forwardOop (heap : HeapInformation) (m : ObjectMemory) (element : ℕ) : ℕ :=
  if oopIsPointers element ∧ heap.start ≤ element ∧ element < heap.finish ∧
      clearTag (m.forwardingWord (m.getForwardingPointerForObject element)) ≠ 0 then
    clearTag (m.forwardingWord (m.getForwardingPointerForObject element))
  else element

/-- The objects whose slots are oops. -/
def HoldsPointers (m : ObjectMemory) (object : ℕ) : Prop :=
  ¬ (ObjectFormat.indexable64 ≤ (m.header object).objectFormat ∧
    (m.header object).objectFormat < ObjectFormat.mixedObject)

instance (m : ObjectMemory) (object : ℕ) : Decidable (m.HoldsPointers object) :=
  inferInstanceAs (Decidable (¬ _))

/-- The same memory with other slots. -/
def withSlots (m : ObjectMemory) (slot : ℕ → ℕ → ℕ) : ObjectMemory := { m with slot := slot }

@[simp] theorem withSlots_slot (m : ObjectMemory) (slot : ℕ → ℕ → ℕ) :
    (m.withSlots slot).slot = slot := rfl

@[simp] theorem withSlots_header (m : ObjectMemory) (slot : ℕ → ℕ → ℕ) :
    (m.withSlots slot).header = m.header := rfl

@[simp] theorem withSlots_forwardingWord (m : ObjectMemory) (slot : ℕ → ℕ → ℕ) :
    (m.withSlots slot).forwardingWord = m.forwardingWord := rfl

theorem setSlot_self (m : ObjectMemory) (o i : ℕ) : m.setSlot o i (m.slot o i) = m := by
  rw [setSlot, Function.update_eq_self, Function.update_eq_self]

/-- Forwarding a slot stores what its oop is forwarded to. -/
theorem forwardSlot_eq (heap : HeapInformation) (header : ℕ) (m : ObjectMemory) (i : ℕ) :
    m.forwardSlot heap header i = m.setSlot header i (m.forwardOop heap (m.slot header i)) := by
  rw [forwardSlot, forwardOop]
  by_cases hpointers : oopIsPointers (m.slot header i)
  · by_cases hheap : m.slot header i < heap.start ∨ heap.finish ≤ m.slot header i
    · rw [if_neg (not_not_intro hpointers), if_pos hheap, if_neg (by omega), setSlot_self]
    · by_cases hword :
        clearTag (m.forwardingWord (m.getForwardingPointerForObject (m.slot header i))) = 0
      · simp only [hword, ne_eq, not_true_eq_false, and_false, if_false, hpointers, hheap,
          setSlot_self]
      · rw [if_neg (not_not_intro hpointers), if_neg hheap, if_pos hword,
          if_pos ⟨hpointers, by omega, by omega, hword⟩]
  · rw [if_pos hpointers, if_neg fun h => hpointers h.1, setSlot_self]

/-- What oops are forwarded to does not depend on the slots. -/
theorem forwardOop_withSlots (heap : HeapInformation) (m : ObjectMemory) (slot : ℕ → ℕ → ℕ) :
    (m.withSlots slot).forwardOop heap = m.forwardOop heap := rfl

/-- The loop over the slots of an object forwards them all. -/
theorem foldl_forwardSlot (heap : HeapInformation) (header n : ℕ) (m : ObjectMemory) :
    (List.range n).foldl (forwardSlot heap header) m =
      m.withSlots (Function.update m.slot header fun i =>
        if i < n then m.forwardOop heap (m.slot header i) else m.slot header i) := by
  induction n with
  | zero => simp [withSlots]
  | succ n ih =>
    rw [List.range_succ, List.foldl_append, ih, List.foldl_cons, List.foldl_nil, forwardSlot_eq,
      forwardOop_withSlots]
    simp only [withSlots, setSlot, Function.update_self, Function.update_idem, Nat.lt_irrefl,
      if_false]
    congr 2
    funext i
    rcases Nat.lt_trichotomy i n with h | rfl | h
    · rw [Function.update_of_ne h.ne, if_pos h, if_pos (by omega)]
    · rw [Function.update_self, if_pos (by omega)]
    · rw [Function.update_of_ne h.ne', if_neg (by omega), if_neg (by omega)]

end ObjectMemory

namespace World

/-- Store the first word of a pre-header. -/
def setForwardingWord (w : World) (a v : ℕ) : World := w.withMemory (w.memory.setForwardingWord a v)

/-- `slvm_spur_heap_applyNotNullForwarding` -/
def applyNotNullForwarding (heap : HeapInformation) (w : World) (o : HeapObject) : Option World :=
  if ¬ w.memory.HoldsPointers o.header then some w
  else some (w.withMemory ((List.range o.oopSlotCount).foldl (forwardSlot heap o.header) w.memory))

/-- What the marking iterators do: the objects of the marked classes get the oop they are to become
as their forwarding pointer. -/
def markForwarding (Marked : ℕ → Prop) [DecidablePred Marked]
    (becomeTarget : World → ℕ → Option (ℕ × World)) (w : World) (o : HeapObject) :
    Option World := do
  -- clear the forwarding pointer
  let w := w.setForwardingWord o.forwardingPointer
    (clearTag (w.memory.forwardingWord o.forwardingPointer))
  let (becomeTarget, w) ←
    if Marked (w.memory.header o.header).classIndex then becomeTarget w o.header
    else some (o.header, w)
  -- update the forwarding pointer
  return if becomeTarget ≠ o.header then
      w.setForwardingWord o.forwardingPointer
        (w.memory.forwardingWord o.forwardingPointer ||| becomeTarget)
    else w

/-- `slvm_spur_heap_iterate` -/
def iterate (heap : HeapInformation) (iterator : World → HeapObject → Option World) (w : World) :
    Option World :=
  (heapIterate iterator heap.start heap.size w).2

section Passes

variable [KernelImage]

/-- `slvm_globals_fixClassVariable` -/
def globalsFixClassVariable (w : World) (var : ℕ) : Option ℕ :=
  let classGlobal := w.memory.slot var Field.value
  if w.memory.getClassIndexFromOop classGlobal = KernelClass.GlobalVariable.index then
    let clazz := w.memory.slot classGlobal Field.value
    -- `assert(!slvm_isNil(classGlobal->value))`
    if clazz = nilOop then none
    else
      w.memory.dictionaryAssociationAt (w.memory.slot clazz Field.classPool)
        (w.memory.slot var Field.key) stringHash stringEquals
  else some var

/-- The classes of symbols. -/
def IsSymbolClass (classIndex : ℕ) : Prop :=
  classIndex = KernelClass.ByteSymbol.index ∨ classIndex = KernelClass.WideSymbol.index

instance : DecidablePred IsSymbolClass := fun _ => inferInstanceAs (Decidable (_ ∨ _))

/-- `slvm_internal_fixStaticHeap_symbols` -/
def fixStaticHeapSymbols : World → HeapObject → Option World :=
  markForwarding IsSymbolClass symbolInternString

/-- `slvm_internal_fixStaticHeap_globalVariables` -/
def fixStaticHeapGlobalVariables : World → HeapObject → Option World :=
  markForwarding (· = KernelClass.GlobalVariable.index) globalsAddIfNotExistent

/-- `slvm_internal_fixStaticHeap_classVariables` -/
def fixStaticHeapClassVariables : World → HeapObject → Option World :=
  markForwarding (· = KernelClass.ClassVariable.index) fun w var =>
    (w.globalsFixClassVariable var).map (·, w)

/-- `slvm_internal_fixStaticHeap` -/
def fixStaticHeap (heap : HeapInformation) (w : World) : Option World := do
  -- fix the symbols first
  let w ← w.iterate heap fixStaticHeapSymbols
  let w ← w.iterate heap (applyNotNullForwarding heap)
  -- fix the global variables
  let w ← w.iterate heap fixStaticHeapGlobalVariables
  w.iterate heap (applyNotNullForwarding heap)

/-- `slvm_internal_fixStaticHeapPass2` -/
def fixStaticHeapPass2 (heap : HeapInformation) (w : World) : Option World := do
  -- fix the class variables
  let w ← w.iterate heap fixStaticHeapClassVariables
  w.iterate heap (applyNotNullForwarding heap)

end Passes

end World

/-! ### The layout of an image -/

/-- The objects of a layout are told apart by their headers and by their forwarding pointers. -/
theorem Laid.ne {position last : ℕ} {pre post : List HeapObject} {o p : HeapObject}
    (h : Laid position (pre ++ o :: post) last) (hp : p ∈ pre ∨ p ∈ post) :
    p.header ≠ o.header ∧ p.forwardingPointer ≠ o.forwardingPointer := by
  obtain ⟨hpre, hpost, ho⟩ := h.split
  have hobody := o.header_le_next
  have hpbody := p.header_le_next
  rcases hp with hp | hp
  · have hbounds := hpre.bounds hp
    omega
  · have hbounds := hpost.bounds hp
    omega

/-- Objects of a layout with the same header are the same. -/
theorem Laid.header_injective {position last : ℕ} {objects : List HeapObject} {o p : HeapObject}
    (h : Laid position objects last) (ho : o ∈ objects) (hp : p ∈ objects)
    (heq : p.header = o.header) : p = o := by
  obtain ⟨pre, post, rfl⟩ := List.append_of_mem ho
  rcases List.mem_append.mp hp with hp | hp
  · exact absurd heq (h.ne (Or.inl hp)).1
  · rcases List.mem_cons.mp hp with hp | hp
    · exact hp
    · exact absurd heq (h.ne (Or.inr hp)).1

namespace World

/-- An object is read as before when its header and the words of its pre-header are. -/
theorem parses_congr {w w' : World} {o : HeapObject} (h : Parses w o)
    (hheader : w'.memory.header o.header = w.memory.header o.header)
    (hbig : isBig w' o.forwardingPointer ↔ isBig w o.forwardingPointer)
    (hsize : isBig w o.forwardingPointer → w'.memory.sizeWord (o.forwardingPointer + 16) =
      w.memory.sizeWord (o.forwardingPointer + 16)) : Parses w' o := by
  obtain ⟨hparse, hassert⟩ := h
  have hposition : o.header =
      if isBig w o.forwardingPointer then o.forwardingPointer + 24
      else o.forwardingPointer + 8 := by
    conv_lhs => rw [← hparse]
    simp only [parseObject]
    split_ifs <;> rfl
  have hparse' : parseObject w' o.forwardingPointer = o := by
    refine Eq.trans ?_ hparse
    by_cases hb : isBig w o.forwardingPointer
    · rw [if_pos hb] at hposition
      rw [hposition] at hheader
      simp only [parseObject, hb, hbig, if_true, HeapReader.sizeWord, HeapReader.header, hsize hb,
        hheader]
    · rw [if_neg hb] at hposition
      rw [hposition] at hheader
      simp only [parseObject, hb, hbig, if_false, HeapReader.header, hheader]
  refine ⟨hparse', ?_⟩
  rw [slotCountAsserted, hparse] at hassert
  rw [slotCountAsserted, hparse']
  exact (iff_of_eq (congrArg (fun h : ObjectHeader => h.slotCount = 255) hheader)).trans
    (hassert.trans hbig.symm)

/-- A small object without a forwarding pointer. -/
theorem parses_small {w : World} {a n : ℕ} (hword : w.memory.forwardingWord a = 0)
    (hcount : (w.memory.header (a + 8)).slotCount = n) (hn : n ≠ 255) :
    Parses w ⟨a, a + 8, n, n⟩ := by
  have hsmall : ¬ isBig w a := by
    rw [isBig, show HeapReader.forwardingWord w a = w.memory.forwardingWord a from rfl, hword]
    decide
  have hparse : parseObject w a = ⟨a, a + 8, n, n⟩ := by
    rw [parseObject, if_neg hsmall]
    exact congrArg (fun n => HeapObject.mk a (a + 8) n n) hcount
  refine ⟨hparse, ?_⟩
  rw [slotCountAsserted, hparse]
  exact iff_of_false (fun heq => hn (hcount.symm.trans heq)) hsmall

/-- The objects of a static heap, as the walker finds them. -/
structure StaticImage (w : World) (heap : HeapInformation) (objects : List HeapObject) : Prop where
  laid : Laid heap.start objects heap.finish
  aligned : heap.start % 16 = 0
  parses : ∀ o ∈ objects, Parses w o

section Iterate

variable {heap : HeapInformation} {objects : List HeapObject}
  {iterator : World → HeapObject → Option World} {Inv : List HeapObject → World → Prop} {w : World}

/-- **A walk over an image** calls its iterator on the objects of the image, in order, as long as
the iterator keeps the later ones as they are: an invariant of the objects seen so far. -/
theorem heapIterate_of_image (hlaid : Laid heap.start objects heap.finish)
    (halign : heap.start % 16 = 0)
    (hparse : ∀ pre o post w, objects = pre ++ o :: post → Inv pre w → Parses w o)
    (hstep : ∀ pre o post w w', objects = pre ++ o :: post → Inv pre w →
      iterator w o = some w' → Inv (pre ++ [o]) w') (hstart : Inv [] w) :
    heapIterate iterator heap.start heap.size w = callEach iterator objects w := by
  let P : World → List HeapObject → Prop := fun w post =>
    ∃ pre, objects = pre ++ post ∧ Inv pre w
  have hP : ∀ s o post, P s (o :: post) → Parses s o := by
    rintro s o post ⟨pre, hobjects, hinv⟩
    exact hparse pre o post s hobjects hinv
  have hPstep : ∀ s o post s', P s (o :: post) → iterator s o = some s' → P s' post := by
    rintro s o post s' ⟨pre, hobjects, hinv⟩ hs
    refine ⟨pre ++ [o], ?_, hstep pre o post s s' hobjects hinv hs⟩
    rw [hobjects, List.append_assoc]
    rfl
  have hloop := heapIterateLoop_of_laid hP hPstep hlaid halign (Nat.le_refl _) (by omega) (s := w)
    ⟨[], rfl, hstart⟩
  rw [heapIterate, ← HeapInformation.finish, hloop]
  ext1
  · rfl
  · cases (callEach iterator objects w).2 with
    | none => rfl
    | some w' => simp

/-- What an iterator that never fails keeps. -/
theorem iterate_of_image (hlaid : Laid heap.start objects heap.finish)
    (halign : heap.start % 16 = 0)
    (hparse : ∀ pre o post w, objects = pre ++ o :: post → Inv pre w → Parses w o)
    (hstep : ∀ pre o post w, objects = pre ++ o :: post → Inv pre w →
      ∃ w', iterator w o = some w' ∧ Inv (pre ++ [o]) w') (hstart : Inv [] w) :
    ∃ w', w.iterate heap iterator = some w' ∧ Inv objects w' := by
  have hstep' : ∀ pre o post w w', objects = pre ++ o :: post → Inv pre w →
      iterator w o = some w' → Inv (pre ++ [o]) w' := by
    intro pre o post w w' hobjects hinv hs
    obtain ⟨w'', hs', hinv'⟩ := hstep pre o post w hobjects hinv
    rw [hs] at hs'
    exact Option.some.inj hs' ▸ hinv'
  rw [iterate, heapIterate_of_image hlaid halign hparse hstep' hstart, callEach_snd]
  suffices hfold : ∀ post pre w, objects = pre ++ post → Inv pre w →
      ∃ w', post.foldlM iterator w = some w' ∧ Inv objects w' from hfold objects [] w rfl hstart
  intro post
  induction post with
  | nil =>
    intro pre w hobjects hinv
    rw [hobjects, List.append_nil]
    exact ⟨w, rfl, hinv⟩
  | cons o post ih =>
    intro pre w hobjects hinv
    obtain ⟨w₁, hs, hinv₁⟩ := hstep pre o post w hobjects hinv
    rw [List.foldlM_cons, hs]
    exact ih (pre ++ [o]) w₁ (by rw [hobjects, List.append_assoc]; rfl) hinv₁

/-- What the calls of an iterator keep, if the walk returns. -/
theorem iterate_of_image_of_some (hlaid : Laid heap.start objects heap.finish)
    (halign : heap.start % 16 = 0)
    (hparse : ∀ pre o post w, objects = pre ++ o :: post → Inv pre w → Parses w o)
    (hstep : ∀ pre o post w w', objects = pre ++ o :: post → Inv pre w →
      iterator w o = some w' → Inv (pre ++ [o]) w') (hstart : Inv [] w) {w' : World}
    (hwalk : w.iterate heap iterator = some w') : Inv objects w' := by
  rw [iterate, heapIterate_of_image hlaid halign hparse hstep hstart, callEach_snd] at hwalk
  suffices hfold : ∀ post pre w, objects = pre ++ post → Inv pre w →
      post.foldlM iterator w = some w' → Inv objects w' from hfold objects [] w rfl hstart hwalk
  intro post
  induction post with
  | nil =>
    intro pre w hobjects hinv hfold
    rw [hobjects, List.append_nil]
    exact Option.some.inj hfold ▸ hinv
  | cons o post ih =>
    intro pre w hobjects hinv hfold
    rw [List.foldlM_cons, Option.bind_eq_bind, Option.bind_eq_some_iff] at hfold
    obtain ⟨w₁, hs, hfold⟩ := hfold
    exact ih (pre ++ [o]) w₁ (by rw [hobjects, List.append_assoc]; rfl)
      (hstep pre o post w w₁ hobjects hinv hs) hfold

end Iterate

/-! ### The forwarding walk -/

/-- The slots a forwarding walk looks at: those of the objects that hold pointers. -/
def IsOopSlot (w : World) (objects : List HeapObject) (x i : ℕ) : Prop :=
  ∃ o ∈ objects, o.header = x ∧ w.memory.HoldsPointers o.header ∧ i < o.oopSlotCount

instance (w : World) (objects : List HeapObject) (x i : ℕ) :
    Decidable (w.IsOopSlot objects x i) :=
  inferInstanceAs (Decidable (∃ o ∈ objects, _))

/-- The slots after a forwarding walk. -/
def forwardedSlots (w : World) (heap : HeapInformation) (objects : List HeapObject) (x i : ℕ) : ℕ :=
  if w.IsOopSlot objects x i then w.memory.forwardOop heap (w.memory.slot x i)
  else w.memory.slot x i

theorem isOopSlot_append {w : World} {pre : List HeapObject} {o : HeapObject} {x i : ℕ} :
    w.IsOopSlot (pre ++ [o]) x i ↔ w.IsOopSlot pre x i ∨
      (o.header = x ∧ w.memory.HoldsPointers o.header ∧ i < o.oopSlotCount) := by
  simp [IsOopSlot, or_and_right, exists_or]

/-- The slots after one more object. -/
theorem forwardedSlots_append {w : World} {heap : HeapInformation} {pre : List HeapObject}
    {o : HeapObject} (hne : ∀ p ∈ pre, p.header ≠ o.header) :
    w.forwardedSlots heap (pre ++ [o]) =
      if w.memory.HoldsPointers o.header then
        Function.update (w.forwardedSlots heap pre) o.header fun i =>
          if i < o.oopSlotCount then w.memory.forwardOop heap (w.forwardedSlots heap pre o.header i)
          else w.forwardedSlots heap pre o.header i
      else w.forwardedSlots heap pre := by
  have hpre : ∀ i, ¬ w.IsOopSlot pre o.header i := by
    rintro i ⟨p, hp, hheader, -⟩
    exact hne p hp hheader
  funext x i
  by_cases hholds : w.memory.HoldsPointers o.header
  · rw [if_pos hholds]
    by_cases hx : x = o.header
    · subst hx
      rw [Function.update_self, forwardedSlots, forwardedSlots, if_neg (hpre i)]
      by_cases hi : i < o.oopSlotCount
      · rw [if_pos hi, if_pos (isOopSlot_append.mpr (Or.inr ⟨rfl, hholds, hi⟩))]
      · rw [if_neg hi, if_neg]
        rw [isOopSlot_append]
        rintro (h | ⟨-, -, h⟩)
        · exact hpre i h
        · exact hi h
    · rw [Function.update_of_ne hx, forwardedSlots, forwardedSlots]
      have hiff : w.IsOopSlot (pre ++ [o]) x i ↔ w.IsOopSlot pre x i := by
        rw [isOopSlot_append]
        exact or_iff_left fun h => hx h.1.symm
      simp only [hiff]
  · rw [if_neg hholds, forwardedSlots, forwardedSlots]
    have hiff : w.IsOopSlot (pre ++ [o]) x i ↔ w.IsOopSlot pre x i := by
      rw [isOopSlot_append]
      exact or_iff_left fun h => hholds h.2.1
    simp only [hiff]

/-- **A forwarding walk forwards all slots at once**: no slot is looked at twice, and what an oop
is forwarded to does not change on the way. -/
theorem iterate_applyNotNullForwarding {w : World} {heap : HeapInformation}
    {objects : List HeapObject} (h : StaticImage w heap objects) :
    w.iterate heap (applyNotNullForwarding heap) =
      some (w.withMemory (w.memory.withSlots (w.forwardedSlots heap objects))) := by
  let Inv : List HeapObject → World → Prop := fun pre w' =>
    w' = w.withMemory (w.memory.withSlots (w.forwardedSlots heap pre))
  have hparse : ∀ pre o post w', objects = pre ++ o :: post → Inv pre w' → Parses w' o := by
    rintro pre o post w' rfl rfl
    exact h.parses o (by simp)
  have hstep : ∀ pre o post w', objects = pre ++ o :: post → Inv pre w' →
      ∃ w'', applyNotNullForwarding heap w' o = some w'' ∧ Inv (pre ++ [o]) w'' := by
    rintro pre o post w' rfl rfl
    have hslots := @forwardedSlots_append w heap pre o fun p hp => (h.laid.ne (Or.inl hp)).1
    rw [applyNotNullForwarding]
    by_cases hholds : w.memory.HoldsPointers o.header
    · refine ⟨_, if_neg (not_not_intro hholds), ?_⟩
      rw [if_pos hholds] at hslots
      simp only [Inv]
      rw [hslots, foldl_forwardSlot]
      rfl
    · refine ⟨_, if_pos hholds, ?_⟩
      rw [if_neg hholds] at hslots
      simp only [Inv]
      rw [hslots]
  have hstart : Inv [] w := by
    have hslots : w.forwardedSlots heap [] = w.memory.slot := by
      funext x i
      exact if_neg fun ⟨_, ho, _⟩ => absurd ho List.not_mem_nil
    simp only [Inv]
    rw [hslots]
    rfl
  obtain ⟨w', hiterate, hw'⟩ := iterate_of_image h.laid h.aligned hparse hstep hstart
  rw [hiterate]
  exact congrArg some hw'

end World

end SlvmNative
