import SlvmNative.PopulatedGlobals
import SlvmNative.StringSets

/-!
# The walks of the passes

`slvm_internal_fixStaticHeap` walks a heap four times and `slvm_internal_fixStaticHeapPass2` twice
more. Each walk finds the objects from their pre-headers, of which the first word is the forwarding
pointer as well: bit 0 of it tells the walker that a size word follows. The marking walks clear the
tags of every forwarding pointer they come across, bit 0 among them, and store nothing into it that
has this bit. So the walks agree on the objects of a heap until there is an object with a size word.

## Main definitions

* `World.walks` — the walks of a pass, each with the state it begins in
* `World.SameWalks` — they call their iterators on the same objects
* `World.UntaggedHeap` — a heap of small objects next to the globals
* `World.HalfUntagged` — half way through a marking walk over objects of any size
* `World.TablesFormed` — the sets of symbols and the globals, whatever is in them

## Main results

* `World.heapIterate_untagging` — a marking walk calls its iterator on the objects of the image
* `World.handed_ne_of_untagged` — a forwarding walk misses an object that has lost its tag
* `World.TablesFormed.internString` — any symbol of the heap can be interned
* `World.sameWalks_of_run` — the walks agree exactly on heaps of small objects
-/

namespace SlvmNative

open ObjectMemory Relation

namespace World

/-! ### What a walk reads -/

section Images

variable {heap : HeapInformation} {objects : List HeapObject} {w w' : World} {o : HeapObject}

namespace StaticImage

/-- The objects are static, and so are the size words of the big ones. -/
theorem lt_heapStart (h : StaticImage w heap objects) (hbelow : heap.finish ≤ w.memory.heapStart)
    (ho : o ∈ objects) : o.header < w.memory.heapStart ∧ o.forwardingPointer < o.header ∧
      (isBig w o.forwardingPointer → o.forwardingPointer + 16 < w.memory.heapStart) := by
  obtain ⟨-, hnext, hheader⟩ := h.laid.bounds ho
  have hbody := HeapObject.header_add_eight_le_next hheader
    (h.laid.forwardingPointer_aligned h.aligned ho)
  refine ⟨by omega, by omega, fun hbig => ?_⟩
  have hbig' : o.header = o.forwardingPointer + 24 := by
    conv_lhs => rw [← (h.parses o ho).1]
    rw [parseObject_header, if_pos hbig]
  omega

/-- The headers are oops. -/
theorem pointers (h : StaticImage w heap objects) (ho : o ∈ objects) : oopIsPointers o.header := by
  obtain ⟨-, -, hheader⟩ := h.laid.bounds ho
  have haligned := h.laid.forwardingPointer_aligned h.aligned ho
  rw [oopIsPointers_iff]
  omega

/-- An object is read as before as long as its tag is the same. -/
theorem parses_of_kept (h : StaticImage w heap objects) (hbelow : heap.finish ≤ w.memory.heapStart)
    (hheader : ∀ x < w.memory.heapStart, w'.memory.header x = w.memory.header x)
    (hsizeWord : ∀ x < w.memory.heapStart, w'.memory.sizeWord x = w.memory.sizeWord x)
    (ho : o ∈ objects) (hbig : isBig w' o.forwardingPointer ↔ isBig w o.forwardingPointer) :
    Parses w' o := by
  obtain ⟨hlt, -, hsize⟩ := h.lt_heapStart hbelow ho
  exact parses_congr (h.parses o ho) (hheader _ hlt) hbig fun hb => hsizeWord _ (hsize hb)

/-- An image of small objects stays one as long as none of them gets the tag. -/
theorem of_kept (h : StaticImage w heap objects) (hbelow : heap.finish ≤ w.memory.heapStart)
    (hheader : ∀ x < w.memory.heapStart, w'.memory.header x = w.memory.header x)
    (hsizeWord : ∀ x < w.memory.heapStart, w'.memory.sizeWord x = w.memory.sizeWord x)
    (hsmall : ∀ o ∈ objects, ¬ isBig w o.forwardingPointer)
    (hsmall' : ∀ o ∈ objects, ¬ isBig w' o.forwardingPointer) : StaticImage w' heap objects where
  laid := h.laid
  aligned := h.aligned
  parses o ho := h.parses_of_kept hbelow hheader hsizeWord ho
    (iff_of_false (hsmall' o ho) (hsmall o ho))

end StaticImage

/-- What the walker reads of an object is in the memory. -/
theorem isBig_congr {a : ℕ} (h : w'.memory.forwardingWord a = w.memory.forwardingWord a) :
    isBig w' a ↔ isBig w a := by
  rw [isBig, isBig, show HeapReader.forwardingWord w' a = w'.memory.forwardingWord a from rfl, h]
  rfl

end Images

/-! ### Marking objects of any size -/

section Untagging

variable {heap : HeapInformation} {objects : List HeapObject} {w w' : World} {o : HeapObject}
  {Marked : ℕ → Prop} [DecidablePred Marked] {becomeTarget : World → ℕ → Option (ℕ × World)}
  {P : World → Prop}

/-- Half way through a marking walk that began in `w`: the objects `pre` have lost their tags, the
others have their old words. -/
structure HalfUntagged (P : World → Prop) (w : World) (objects pre : List HeapObject) (w' : World) :
    Prop where
  state : P w'
  kept : StaticKept w.memory w'.memory
  seen : ∀ o ∈ pre, ¬ isBig w' o.forwardingPointer
  rest : ∀ o ∈ objects, o ∉ pre →
    w'.memory.forwardingWord o.forwardingPointer = w.memory.forwardingWord o.forwardingPointer

/-- What finding the target of an object leaves behind: the target has no tag, and the forwarding
pointers are what they were. -/
structure FindsTarget (P : World → Prop) (objects : List HeapObject) (w : World) (target : ℕ)
    (w' : World) : Prop where
  state : P w'
  untagged : target &&& 1 = 0
  kept : StaticKept w.memory w'.memory
  words : ∀ o ∈ objects,
    w'.memory.forwardingWord o.forwardingPointer = w.memory.forwardingWord o.forwardingPointer

theorem HalfUntagged.start (hstart : P w) : HalfUntagged P w objects [] w :=
  ⟨hstart, StaticKept.refl _, fun _ ho => absurd ho List.not_mem_nil, fun _ _ _ => rfl⟩

theorem isBig_setForwardingWord_self {a v : ℕ} (h : v &&& 1 = 0) :
    ¬ isBig (w.setForwardingWord a v) a := by
  rw [isBig, show HeapReader.forwardingWord (w.setForwardingWord a v) a = v from
    setForwardingWord_word_self w a v]
  exact not_not_intro h

/-- One more object has lost its tag. -/
theorem HalfUntagged.untag {pre post : List HeapObject} (h : HalfUntagged P w objects pre w')
    (hobjects : objects = pre ++ o :: post)
    {w'' : World} (hstate : P w'') (hkept : StaticKept w'.memory w''.memory)
    (hself : ¬ isBig w'' o.forwardingPointer) (hwords : ∀ p ∈ objects, p ≠ o →
      w''.memory.forwardingWord p.forwardingPointer =
        w'.memory.forwardingWord p.forwardingPointer) :
    HalfUntagged P w objects (pre ++ [o]) w'' := by
  obtain ⟨hpre, ho⟩ := subset_of_append hobjects
  refine ⟨hstate, h.kept.trans hkept, fun p hp => ?_, fun p hp hnot => ?_⟩
  · by_cases hpo : p = o
    · exact hpo ▸ hself
    · rcases List.mem_append.mp hp with hp | hp
      · rw [isBig_congr (hwords p (hpre hp) hpo)]
        exact h.seen p hp
      · exact absurd (List.mem_singleton.mp hp) hpo
  · rw [List.mem_append, List.mem_singleton, not_or] at hnot
    rw [hwords p hp hnot.2]
    exact h.rest p hp hnot.1

/-- What marking an object does to its forwarding pointer. -/
theorem markForwarding_cases (h : markForwarding Marked becomeTarget w o = some w') {w₀ : World}
    (hw₀ : w₀ = w.setForwardingWord o.forwardingPointer
      (clearTag (w.memory.forwardingWord o.forwardingPointer))) :
    (¬ Marked (w.memory.header o.header).classIndex ∧ w' = w₀) ∨
      (Marked (w.memory.header o.header).classIndex ∧ ∃ target w₁,
        becomeTarget w₀ o.header = some (target, w₁) ∧ w' = if target ≠ o.header then
          w₁.setForwardingWord o.forwardingPointer
            (w₁.memory.forwardingWord o.forwardingPointer ||| target) else w₁) := by
  have hheader : w₀.memory.header = w.memory.header := by
    rw [hw₀]
    rfl
  rw [markForwarding, ← hw₀, hheader] at h
  by_cases hclass : Marked (w.memory.header o.header).classIndex
  · simp only [hclass, if_true, Option.bind_eq_bind, Option.bind_eq_some_iff] at h
    obtain ⟨⟨target, w₁⟩, htarget, hw'⟩ := h
    exact Or.inr ⟨hclass, target, w₁, htarget, (Option.some.inj hw').symm⟩
  · simp only [hclass, if_false, Option.bind_eq_bind, Option.bind_some, ne_eq, not_true_eq_false]
      at h
    exact Or.inl ⟨hclass, (Option.some.inj h).symm⟩

/-- Marking an object succeeds if its target is found. -/
theorem exists_markForwarding {w₀ : World} (hw₀ : w₀ = w.setForwardingWord o.forwardingPointer
      (clearTag (w.memory.forwardingWord o.forwardingPointer)))
    (h : Marked (w.memory.header o.header).classIndex → (becomeTarget w₀ o.header).isSome) :
    ∃ w', markForwarding Marked becomeTarget w o = some w' := by
  have hheader : w₀.memory.header = w.memory.header := by
    rw [hw₀]
    rfl
  rw [markForwarding, ← hw₀, hheader]
  by_cases hclass : Marked (w.memory.header o.header).classIndex
  · obtain ⟨r, hr⟩ := Option.isSome_iff_exists.mp (h hclass)
    simp only [hclass, if_true, hr, Option.bind_eq_bind, Option.bind_some, Option.pure_def]
    exact ⟨_, rfl⟩
  · simp only [hclass, if_false, Option.bind_eq_bind, Option.bind_some, Option.pure_def]
    exact ⟨_, rfl⟩

/-- Marking one more object. -/
theorem HalfUntagged.mark {pre post : List HeapObject} (h : HalfUntagged P w objects pre w')
    (himage : StaticImage w heap objects) (hbelow : heap.finish ≤ w.memory.heapStart)
    (hobjects : objects = pre ++ o :: post)
    (hset : ∀ w' a v, P w' → P (w'.setForwardingWord a v))
    (hfind : Marked (w.memory.header o.header).classIndex → ∀ w' target w'', P w' →
      StaticKept w.memory w'.memory → becomeTarget w' o.header = some (target, w'') →
      FindsTarget P objects w' target w'')
    {w'' : World} (hmark : markForwarding Marked becomeTarget w' o = some w'') :
    HalfUntagged P w objects (pre ++ [o]) w'' := by
  have ho := (subset_of_append hobjects).2
  have hheader := h.kept.header _ (himage.lt_heapStart hbelow ho).1
  have hkept₀ := StaticKept.setForwardingWord w'.memory o.forwardingPointer
    (clearTag (w'.memory.forwardingWord o.forwardingPointer))
  have hother : ∀ (w : World) v, ∀ p ∈ objects, p ≠ o →
      (w.setForwardingWord o.forwardingPointer v).memory.forwardingWord p.forwardingPointer =
        w.memory.forwardingWord p.forwardingPointer := fun w v p hp hne =>
    setForwardingWord_word_of_ne w (himage.laid.forwardingPointer_ne ho hp hne) v
  rcases markForwarding_cases hmark rfl with ⟨-, rfl⟩ | ⟨hclass, target, w₁, htarget, rfl⟩
  · exact h.untag hobjects (hset _ _ _ h.state) hkept₀
      (isBig_setForwardingWord_self (clearTag_and_one _)) (hother w' _)
  · rw [hheader] at hclass
    obtain ⟨hstate, huntagged, hkept, hwords⟩ := hfind hclass _ target w₁ (hset _ _ _ h.state)
      (h.kept.trans hkept₀) htarget
    have hself : w₁.memory.forwardingWord o.forwardingPointer &&& 1 = 0 := by
      rw [hwords o ho, setForwardingWord_word_self]
      exact clearTag_and_one _
    have hwords' : ∀ p ∈ objects, p ≠ o → w₁.memory.forwardingWord p.forwardingPointer =
        w'.memory.forwardingWord p.forwardingPointer :=
      fun p hp hne => (hwords p hp).trans (hother w' _ p hp hne)
    split
    · exact h.untag hobjects (hset _ _ _ hstate)
        (hkept₀.trans (hkept.trans (StaticKept.setForwardingWord _ _ _)))
        (isBig_setForwardingWord_self (or_and_one hself huntagged))
        fun p hp hne => (hother w₁ _ p hp hne).trans (hwords' p hp hne)
    · exact h.untag hobjects hstate (hkept₀.trans hkept) (not_not_intro hself) hwords'

/-- The next object has its tag still. -/
theorem HalfUntagged.parses {pre post : List HeapObject} (h : HalfUntagged P w objects pre w')
    (himage : StaticImage w heap objects) (hbelow : heap.finish ≤ w.memory.heapStart)
    (hobjects : objects = pre ++ o :: post) : Parses w' o := by
  have ho := (subset_of_append hobjects).2
  have hlaid := himage.laid
  rw [hobjects] at hlaid
  have hfresh : o ∉ pre := fun hmem => (hlaid.ne (Or.inl hmem)).1 rfl
  exact himage.parses_of_kept hbelow h.kept.header h.kept.sizeWord ho
    (isBig_congr (h.rest o ho hfresh))

/-- **A marking walk calls its iterator on the objects of the image**, of whatever size they are.
If it returns, no object has a tag. -/
theorem heapIterate_untagging (himage : StaticImage w heap objects)
    (hbelow : heap.finish ≤ w.memory.heapStart)
    (hset : ∀ w' a v, P w' → P (w'.setForwardingWord a v))
    (hfind : ∀ o ∈ objects, Marked (w.memory.header o.header).classIndex → ∀ w' target w'', P w' →
      StaticKept w.memory w'.memory → becomeTarget w' o.header = some (target, w'') →
      FindsTarget P objects w' target w'') (hstart : P w) :
    heapIterate (markForwarding Marked becomeTarget) heap.start heap.size w =
        callEach (markForwarding Marked becomeTarget) objects w ∧
      ∀ w', w.iterate heap (markForwarding Marked becomeTarget) = some w' →
        HalfUntagged P w objects objects w' := by
  have hparse : ∀ pre o post w', objects = pre ++ o :: post → HalfUntagged P w objects pre w' →
      Parses w' o := fun _ _ _ _ hobjects h => h.parses himage hbelow hobjects
  have hstep : ∀ pre o post w' w'', objects = pre ++ o :: post → HalfUntagged P w objects pre w' →
      markForwarding Marked becomeTarget w' o = some w'' →
      HalfUntagged P w objects (pre ++ [o]) w'' := fun _ o _ _ _ hobjects h hmark =>
    h.mark himage hbelow hobjects hset (hfind o (subset_of_append hobjects).2) hmark
  exact ⟨heapIterate_of_image himage.laid himage.aligned hparse hstep (HalfUntagged.start hstart),
    fun w' => iterate_of_image_of_some himage.laid himage.aligned hparse hstep
      (HalfUntagged.start hstart)⟩

/-- It returns if every target is found. -/
theorem exists_iterate_untagging (himage : StaticImage w heap objects)
    (hbelow : heap.finish ≤ w.memory.heapStart)
    (hset : ∀ w' a v, P w' → P (w'.setForwardingWord a v))
    (hfind : ∀ o ∈ objects, Marked (w.memory.header o.header).classIndex → ∀ w', P w' →
      StaticKept w.memory w'.memory → ∃ target w'',
        becomeTarget w' o.header = some (target, w'') ∧ FindsTarget P objects w' target w'')
    (hstart : P w) :
    heapIterate (markForwarding Marked becomeTarget) heap.start heap.size w =
        callEach (markForwarding Marked becomeTarget) objects w ∧
      ∃ w', w.iterate heap (markForwarding Marked becomeTarget) = some w' ∧
        HalfUntagged P w objects objects w' := by
  have hfind' : ∀ o ∈ objects, Marked (w.memory.header o.header).classIndex → ∀ w' target w'',
      P w' → StaticKept w.memory w'.memory → becomeTarget w' o.header = some (target, w'') →
      FindsTarget P objects w' target w'' := by
    intro o ho hclass w' target w'' hstate hkept htarget
    obtain ⟨target', w₁, htarget', hfound⟩ := hfind o ho hclass w' hstate hkept
    rw [htarget] at htarget'
    obtain ⟨rfl, rfl⟩ := Prod.mk.inj (Option.some.inj htarget')
    exact hfound
  refine ⟨(heapIterate_untagging himage hbelow hset hfind' hstart).1, ?_⟩
  refine iterate_of_image himage.laid himage.aligned
    (fun _ _ _ _ hobjects h => h.parses himage hbelow hobjects)
    (fun pre o post w' hobjects h => ?_) (HalfUntagged.start hstart)
  have ho := (subset_of_append hobjects).2
  have hheader := h.kept.header _ (himage.lt_heapStart hbelow ho).1
  obtain ⟨w'', hmark⟩ := @exists_markForwarding w' o Marked _ becomeTarget _ rfl fun hclass => by
    obtain ⟨target, w₁, htarget, -⟩ := hfind o ho (hheader ▸ hclass) _ (hset _ _ _ h.state)
      (h.kept.trans (StaticKept.setForwardingWord _ _ _))
    rw [htarget]
    rfl
  exact ⟨w'', hmark, h.mark himage hbelow hobjects hset (hfind' o ho) hmark⟩

end Untagging

/-! ### The walks of a pass -/

/-- The walks of a pass, as long as they return: the iterator of each, and the state it
begins in. -/
def walks (heap : HeapInformation) : List (World → HeapObject → Option World) → World →
    List ((World → HeapObject → Option World) × World)
  | [], _ => []
  | iterator :: iterators, w => (iterator, w) ::
    match w.iterate heap iterator with
    | none => []
    | some w' => walks heap iterators w'

/-- Every walk calls its iterator on these objects, as far as the calls return. -/
def SameWalks (heap : HeapInformation) (objects : List HeapObject)
    (iterators : List (World → HeapObject → Option World)) (w : World) : Prop :=
  ∀ walk ∈ walks heap iterators w,
    (heapIterate walk.1 heap.start heap.size walk.2).1.map HeapObject.handed =
      (callEach walk.1 objects walk.2).1.map HeapObject.handed

section Forwarding

variable {heap : HeapInformation} {objects : List HeapObject} {w w' : World} {o : HeapObject}
  {iterator : World → HeapObject → Option World}
  {iterators : List (World → HeapObject → Option World)}

/-- The first walk, and the walks after it. -/
theorem sameWalks_cons : SameWalks heap objects (iterator :: iterators) w ↔
    (heapIterate iterator heap.start heap.size w).1.map HeapObject.handed =
        (callEach iterator objects w).1.map HeapObject.handed ∧
      ∀ w', w.iterate heap iterator = some w' → SameWalks heap objects iterators w' := by
  rw [SameWalks, walks, List.forall_mem_cons]
  refine and_congr_right fun _ => ?_
  cases w.iterate heap iterator with
  | none =>
    refine iff_of_true (fun _ hwalk => absurd hwalk List.not_mem_nil) fun w' hw' => ?_
    cases hw'
  | some w₁ =>
    refine ⟨fun hsame w' hw' => ?_, fun hsame => hsame w₁ rfl⟩
    exact Option.some.inj hw' ▸ hsame

theorem sameWalks_nil : SameWalks heap objects [] w := fun _ hwalk => absurd hwalk List.not_mem_nil

/-- The forwarding iterator changes slots only, and never fails. -/
theorem exists_applyNotNullForwarding (heap : HeapInformation) (w : World) (o : HeapObject) :
    ∃ slot, applyNotNullForwarding heap w o =
      some (w.withMemory (w.memory.withSlots slot)) := by
  rw [applyNotNullForwarding]
  split
  · exact ⟨w.memory.slot, rfl⟩
  · rw [foldl_forwardSlot]
    exact ⟨_, rfl⟩

/-- The two states differ in slots only. -/
def SameButSlots (w w' : World) : Prop := ∃ slot, w' = w.withMemory (w.memory.withSlots slot)

theorem SameButSlots.refl : SameButSlots w w := ⟨w.memory.slot, rfl⟩

theorem SameButSlots.applyNotNullForwarding {w'' : World} (h : SameButSlots w w')
    (hcall : applyNotNullForwarding heap w' o = some w'') : SameButSlots w w'' := by
  obtain ⟨slot, rfl⟩ := h
  obtain ⟨slot', hslot'⟩ := exists_applyNotNullForwarding heap
    (w.withMemory (w.memory.withSlots slot)) o
  rw [hslot'] at hcall
  exact ⟨slot', (Option.some.inj hcall).symm⟩

/-- A forwarding walk is told of all objects of an image. -/
theorem callEach_applyNotNullForwarding :
    (callEach (applyNotNullForwarding heap) objects w).1 = objects := by
  refine callEach_fst ?_
  induction objects generalizing w with
  | nil => rfl
  | cons o objects ih =>
    obtain ⟨slot, hslot⟩ := exists_applyNotNullForwarding heap w o
    rw [List.foldlM_cons, hslot]
    exact ih

/-- **A forwarding walk calls its iterator on the objects of the image.** -/
theorem heapIterate_applyNotNullForwarding (h : StaticImage w heap objects) :
    heapIterate (applyNotNullForwarding heap) heap.start heap.size w =
      callEach (applyNotNullForwarding heap) objects w := by
  refine @heapIterate_of_image heap objects _ (fun _ => SameButSlots w) w h.laid h.aligned ?_
    (fun _ _ _ _ _ _ hsame hcall => hsame.applyNotNullForwarding hcall) SameButSlots.refl
  rintro pre o post w' rfl ⟨slot, rfl⟩
  exact h.parses o (by simp)

/-- **A forwarding walk misses an object that has lost its tag**: the walker looks for its header
right behind the forwarding pointer. -/
theorem handed_ne_of_untagged (hlaid : Laid heap.start objects heap.finish) (ho : o ∈ objects)
    (hheader : o.header = o.forwardingPointer + 24) (hsmall : ¬ isBig w o.forwardingPointer) :
    (heapIterate (applyNotNullForwarding heap) heap.start heap.size w).1.map HeapObject.handed ≠
      objects.map HeapObject.handed := by
  intro heq
  obtain ⟨⟨last, hcalls⟩, hparsed⟩ := @heapIterateLoop_calls World _ (applyNotNullForwarding heap)
    (SameButSlots w) (fun _ _ _ hsame hcall => hsame.applyNotNullForwarding hcall)
    (heap.start + heap.size) heap.start w SameButSlots.refl
  obtain ⟨w', ⟨slot, rfl⟩, hparse⟩ := hparsed o (by rwa [hcalls.eq_of_handed hlaid heq])
  have hsmall' : ¬ isBig (w.withMemory (w.memory.withSlots slot)) o.forwardingPointer := hsmall
  have hheader' := congrArg HeapObject.header hparse
  rw [parseObject_header, if_neg hsmall'] at hheader'
  omega

end Forwarding

/-! ### The sets of symbols -/

section Tables

variable [KernelImage] {objects : List HeapObject} {w w' : World} {owner : ℕ → Region} {S : Set ℕ}

/-- The symbols do not depend on forwarding pointers. -/
theorem SymbolsFormed.setForwardingWord (h : SymbolsFormed w owner S) (a v : ℕ) :
    SymbolsFormed (w.setForwardingWord a v) owner S where
  kernel := ⟨h.kernel.header, h.kernel.format, h.kernel.lt_limit⟩
  kernelOwner := h.kernelOwner
  newSymbols := by
    obtain ⟨n, c, ⟨⟨hmem, hlt, hamem, halt, hne, hsize, htally⟩, hpos, hoccupied, hle, hstored,
      hflag⟩, hroom⟩ := h.newSymbols
    exact ⟨n, c, ⟨⟨hmem, hlt, hamem, halt, hne, hsize, htally⟩, hpos, hoccupied, hle, hstored,
      hflag⟩, hroom⟩
  symbolTable := by
    obtain ⟨n, c, ⟨⟨hmem, hlt, hamem, halt, hne, hsize, htally⟩, hpos, hoccupied, hle, hstored,
      hflag⟩, hroom⟩ := h.symbolTable
    exact ⟨n, c, ⟨⟨hmem, hlt, hamem, halt, hne, hsize, htally⟩, hpos, hoccupied, hle, hstored,
      hflag⟩, hroom⟩

/-- The sets of symbols and the globals, whatever strings and associations are in them. -/
structure TablesFormed (w : World) (owner : ℕ → Region) : Prop where
  symbols : SymbolsFormed w owner Set.univ
  globals : GlobalsPopulated w
  heapStart_le : ∀ x, owner x = .newSymbols → w.memory.heapStart ≤ x
  globalsOwner : owner w.globals = .globals
  arrayOwner : owner (w.memory.slot w.globals Field.array) = .globals

namespace TablesFormed

theorem setForwardingWord (h : TablesFormed w owner) (a v : ℕ) :
    TablesFormed (w.setForwardingWord a v) owner :=
  ⟨h.symbols.setForwardingWord a v, h.globals.setForwardingWord a v, h.heapStart_le, h.globalsOwner,
    h.arrayOwner⟩

/-- **Any string can be interned**, and that changes no static memory. -/
theorem internString (h : TablesFormed w owner) {string : ℕ} (hstring : w.memory.IsString string)
    (hlive : w.memory.Live string) :
    ∃ symbol w' owner', w.symbolInternString string = some (symbol, w') ∧ TablesFormed w' owner' ∧
      oopIsPointers symbol ∧ StaticKept w.memory w'.memory ∧ ImageKept objects w w' := by
  obtain ⟨symbol, m, hintern, hframe, hsymbols, hpointers, -⟩ :=
    h.symbols.internString hstring hlive
  have hapart : ∀ p ∈ {p : ℕ × ℕ | owner p.1 = .newSymbols},
      p.1 ≠ w.globals ∧ p.1 ≠ w.memory.slot w.globals Field.array := by
    intro p hp
    have howner : owner p.1 = .newSymbols := hp
    refine ⟨fun heq => ?_, fun heq => ?_⟩
    · rw [heq, h.globalsOwner] at howner
      cases howner
    · rw [heq, h.arrayOwner] at howner
      cases howner
  have hglobals := h.globals.frame hframe hapart fun c hmem => by
    have howner : owner (kernelClass c) = .newSymbols := hmem
    have hbehavior : owner (kernelClass c) = .behavior := h.symbols.kernelOwner (.kernelClass c)
    rw [hbehavior] at howner
    cases howner
  have harray : m.slot w.globals Field.array = w.memory.slot w.globals Field.array :=
    hframe.slot _ h.globals.lt_limit _ fun hmem => (hapart _ hmem).1 rfl
  refine ⟨symbol, _, _, hintern,
    ⟨hsymbols.mono (Set.subset_univ _), hglobals, fun x hx => ?_, ?_, ?_⟩,
    hpointers, StaticKept.of_frame hframe fun p hp => h.heapStart_le p.1 hp,
    ImageKept.of_frame hframe⟩
  · rw [show (w.withMemory m).memory.heapStart = w.memory.heapStart from hframe.heapStart]
    by_cases hlt : x < w.memory.limit
    · exact h.heapStart_le x ((claim_of_lt hlt _).symm.trans hx)
    · exact w.memory.heapStart_le_limit.trans (Nat.not_lt.mp hlt)
  · exact (claim_of_lt h.globals.lt_limit _).trans h.globalsOwner
  · rw [show (w.withMemory m).memory.slot (w.withMemory m).globals Field.array = _ from harray]
    exact (claim_of_lt h.globals.array_lt _).trans h.arrayOwner

end TablesFormed

/-- The tables of valid names are formed. -/
theorem NamesValid.tablesFormed {heap : HeapInformation} {f : List UInt8 → Option ℕ}
    {g : ℕ → Option ℕ} (h : NamesValid heap objects w owner f g) : TablesFormed w owner where
  symbols := h.globals.symbols.formed fun _ _ _ => trivial
  globals := h.globalsPopulated
  heapStart_le _ hx := h.heapStart_le (by simp) (by simp) hx
  globalsOwner := by
    obtain ⟨n, c, hd, -⟩ := h.globals.globals
    exact hd.shape.mem
  arrayOwner := by
    obtain ⟨n, c, hd, -⟩ := h.globals.globals
    exact hd.shape.array_mem

end Tables

/-! ### Both passes -/

section Passes

variable [KernelImage] {heap : HeapInformation} {objects : List HeapObject} {w w' w₁ : World}
  {owner : ℕ → Region}

/-- The iterators of `slvm_internal_fixStaticHeap`. -/
def fixStaticHeapIterators (heap : HeapInformation) : List (World → HeapObject → Option World) :=
  [fixStaticHeapSymbols, applyNotNullForwarding heap, fixStaticHeapGlobalVariables,
    applyNotNullForwarding heap]

/-- The iterators of `slvm_internal_fixStaticHeapPass2`. -/
def fixStaticHeapPass2Iterators (heap : HeapInformation) :
    List (World → HeapObject → Option World) :=
  [fixStaticHeapClassVariables, applyNotNullForwarding heap]

theorem fixStaticHeap_eq_foldlM : w.fixStaticHeap heap =
    (fixStaticHeapIterators heap).foldlM (fun w iterator => w.iterate heap iterator) w := by
  simp [fixStaticHeap, fixStaticHeapIterators, List.foldlM]

theorem fixStaticHeapPass2_eq_foldlM : w.fixStaticHeapPass2 heap =
    (fixStaticHeapPass2Iterators heap).foldlM (fun w iterator => w.iterate heap iterator) w := by
  simp [fixStaticHeapPass2, fixStaticHeapPass2Iterators, List.foldlM]

/-- **The symbol walk** returns, over objects of any size, and takes the tags off all of them. -/
theorem TablesFormed.symbolWalk (h : TablesFormed w owner) (himage : StaticImage w heap objects)
    (hbelow : heap.finish ≤ w.memory.heapStart) :
    heapIterate fixStaticHeapSymbols heap.start heap.size w =
        callEach fixStaticHeapSymbols objects w ∧
      ∃ w', w.iterate heap fixStaticHeapSymbols = some w' ∧
        HalfUntagged (fun w' => ∃ owner, TablesFormed w' owner) w objects objects w' := by
  refine exists_iterate_untagging himage hbelow
    (fun w' a v ⟨owner, h⟩ => ⟨owner, h.setForwardingWord a v⟩) ?_ ⟨owner, h⟩
  rintro o ho hclass w' ⟨owner', h'⟩ hkept
  have hlt := (himage.lt_heapStart hbelow ho).1
  have hheader := hkept.header _ hlt
  have hstring : w'.memory.IsString o.header := by
    rcases hclass with hclass | hclass
    · exact Or.inl ⟨himage.pointers ho, Or.inr (hheader ▸ hclass)⟩
    · exact Or.inr ⟨himage.pointers ho, Or.inr (hheader ▸ hclass)⟩
  have hlive : w'.memory.Live o.header :=
    Or.inr (hlt.trans_le (hkept.heapStart ▸ w'.memory.heapStart_le_limit))
  obtain ⟨symbol, w'', owner'', hintern, hformed, hpointers, hkept', himage'⟩ :=
    @TablesFormed.internString _ objects _ _ h' _ hstring hlive
  refine ⟨symbol, w'', hintern, ⟨owner'', hformed⟩, pointers_and_one hpointers, hkept',
    fun p hp => himage'.word p hp ?_⟩
  obtain ⟨hlt', hposition, -⟩ := himage.lt_heapStart hbelow hp
  rw [hkept.heapStart]
  omega

/-- A heap of small objects next to the globals. -/
structure UntaggedHeap (heap : HeapInformation) (objects : List HeapObject) (w : World) : Prop
    extends StaticImage w heap objects where
  below : heap.finish ≤ w.memory.heapStart
  small : ∀ o ∈ objects, ¬ isBig w o.forwardingPointer
  globals : GlobalsPopulated w

namespace UntaggedHeap

/-- After a marking walk. -/
theorem of_untagged {P : World → Prop} (himage : StaticImage w heap objects)
    (hbelow : heap.finish ≤ w.memory.heapStart)
    (hsmall : ∀ o ∈ objects, ¬ isBig w o.forwardingPointer)
    (h : HalfUntagged P w objects objects w') (hglobals : GlobalsPopulated w') :
    UntaggedHeap heap objects w' :=
  ⟨himage.of_kept hbelow h.kept.header h.kept.sizeWord hsmall h.seen,
    hbelow.trans_eq h.kept.heapStart.symm, h.seen, hglobals⟩

/-- After a forwarding walk. -/
theorem forwarding (h : UntaggedHeap heap objects w)
    (hapart : ∀ o ∈ objects, KernelImage.objectAt o.header = none)
    (hwalk : w.iterate heap (applyNotNullForwarding heap) = some w') :
    UntaggedHeap heap objects w' := by
  rw [iterate_applyNotNullForwarding h.toStaticImage, Option.some.injEq] at hwalk
  subst hwalk
  have hcell : ∀ p ∈ {p : ℕ × ℕ | w.forwardedSlots heap objects p.1 p.2 ≠ w.memory.slot p.1 p.2},
      ∃ o ∈ objects, o.header = p.1 := by
    intro p hp
    have hne : w.forwardedSlots heap objects p.1 p.2 ≠ w.memory.slot p.1 p.2 := hp
    rw [forwardedSlots] at hne
    split_ifs at hne with hslot
    · obtain ⟨o, ho, hheader, -⟩ := hslot
      exact ⟨o, ho, hheader⟩
    · exact absurd rfl hne
  refine ⟨h.toStaticImage.withSlots _, h.below, h.small,
    h.globals.frame (frame_withSlots _ _) (fun p hp => ?_) fun c hmem => ?_⟩
  · obtain ⟨o, ho, hheader⟩ := hcell p hp
    have hlt := (h.lt_heapStart h.below ho).1
    have hle := h.globals.le
    have hle' := h.globals.le_array
    omega
  · obtain ⟨o, ho, hheader⟩ := hcell _ hmem
    have hobject := hapart o ho
    rw [show o.header = KernelImage.address (.kernelClass c) from hheader, objectAt_address]
      at hobject
    cases hobject

/-- **The walk over the global variables**, whatever their names are. -/
theorem variableWalk (h : UntaggedHeap heap objects w) :
    heapIterate fixStaticHeapGlobalVariables heap.start heap.size w =
        callEach fixStaticHeapGlobalVariables objects w ∧
      ∀ w', w.iterate heap fixStaticHeapGlobalVariables = some w' →
        UntaggedHeap heap objects w' := by
  obtain ⟨hcalls, huntagged⟩ := @heapIterate_untagging heap objects w
    (· = KernelClass.GlobalVariable.index) _ globalsAddIfNotExistent GlobalsPopulated
    h.toStaticImage h.below (fun w' a v hglobals => hglobals.setForwardingWord a v) (by
      intro o ho _ w' target w'' hglobals hkept hadd
      obtain ⟨hlt, -, -⟩ := h.lt_heapStart h.below ho
      obtain ⟨hglobals', hpointers, hkept', himage'⟩ := @GlobalsPopulated.addIfNotExistent objects
        _ _ _ hglobals _ _ (h.pointers ho) (hkept.heapStart ▸ hlt) hadd
      refine ⟨hglobals', pointers_and_one hpointers, hkept', fun p hp => himage'.word p hp ?_⟩
      obtain ⟨hlt', hposition, -⟩ := h.lt_heapStart h.below hp
      rw [hkept.heapStart]
      omega) h.globals
  exact ⟨hcalls, fun w' hwalk =>
    of_untagged h.toStaticImage h.below h.small (huntagged w' hwalk) (huntagged w' hwalk).state⟩

/-- **The walk over the class variables**, if what their pools hold are objects. -/
theorem classVariableWalk (h : UntaggedHeap heap objects w) (hpools : w.PoolsHoldObjects objects) :
    heapIterate fixStaticHeapClassVariables heap.start heap.size w =
        callEach fixStaticHeapClassVariables objects w ∧
      ∀ w', w.iterate heap fixStaticHeapClassVariables = some w' →
        StaticImage w' heap objects := by
  obtain ⟨hcalls, huntagged⟩ := @heapIterate_untagging heap objects w
    (· = KernelClass.ClassVariable.index) _
      (fun w var => (w.globalsFixClassVariable var).map (·, w))
    (fun w' => ∀ var, w'.globalsFixClassVariable var = w.globalsFixClassVariable var)
    h.toStaticImage h.below (fun w' a v hsame => hsame) (by
      intro o ho hclass w' target w'' hsame _ hfix
      obtain ⟨t, ht, heq⟩ := Option.map_eq_some_iff.mp hfix
      obtain ⟨rfl, rfl⟩ := Prod.mk.inj heq
      rw [hsame] at ht
      exact ⟨hsame, pointers_and_one (hpools o ho hclass _ ht).1, StaticKept.refl _,
        fun _ _ => rfl⟩) fun _ => rfl
  refine ⟨hcalls, fun w' hwalk => ?_⟩
  have huntagged' := huntagged w' hwalk
  exact h.toStaticImage.of_kept h.below huntagged'.kept.header huntagged'.kept.sizeWord h.small
    huntagged'.seen

end UntaggedHeap

/-- A registration keeps the tags off. -/
theorem UntaggedHeap.run (h : UntaggedHeap heap objects w)
    (hrun : ReflTransGen (RegistrationStep objects) w w') : UntaggedHeap heap objects w' := by
  obtain ⟨hglobals, hkept⟩ := h.globals.run hrun
  have hsmall : ∀ o ∈ objects, ¬ isBig w' o.forwardingPointer := by
    intro o ho
    obtain ⟨hlt, hposition, -⟩ := h.lt_heapStart h.below ho
    rw [isBig_congr (hkept.word o ho (by omega))]
    exact h.small o ho
  exact ⟨h.toStaticImage.of_kept h.below hkept.header hkept.sizeWord h.small hsmall,
    h.below.trans_eq hkept.heapStart.symm, hsmall, hglobals⟩

/-- **The walks of the first pass** over small objects. -/
theorem TablesFormed.sameWalks (h : TablesFormed w owner) (himage : StaticImage w heap objects)
    (hbelow : heap.finish ≤ w.memory.heapStart)
    (hapart : ∀ o ∈ objects, KernelImage.objectAt o.header = none)
    (hsmall : ∀ o ∈ objects, ¬ isBig w o.forwardingPointer) :
    SameWalks heap objects (fixStaticHeapIterators heap) w ∧
      ∀ w₁, w.fixStaticHeap heap = some w₁ → UntaggedHeap heap objects w₁ := by
  obtain ⟨hcalls, w', hwalk, huntagged⟩ := h.symbolWalk himage hbelow
  have hheap : UntaggedHeap heap objects w' := by
    obtain ⟨owner', h'⟩ := huntagged.state
    exact UntaggedHeap.of_untagged himage hbelow hsmall huntagged h'.globals
  constructor
  · refine sameWalks_cons.mpr ⟨by rw [hcalls], fun w₁ hw₁ => ?_⟩
    obtain rfl := Option.some.inj (hwalk.symm.trans hw₁)
    refine sameWalks_cons.mpr
      ⟨by rw [heapIterate_applyNotNullForwarding hheap.toStaticImage], fun w₂ hw₂ => ?_⟩
    have hheap₂ := hheap.forwarding hapart hw₂
    refine sameWalks_cons.mpr ⟨by rw [hheap₂.variableWalk.1], fun w₃ hw₃ => ?_⟩
    have hheap₃ := hheap₂.variableWalk.2 w₃ hw₃
    exact sameWalks_cons.mpr ⟨by rw [heapIterate_applyNotNullForwarding hheap₃.toStaticImage],
      fun _ _ => sameWalks_nil⟩
  · intro w₁ hfix
    simp only [fixStaticHeap, hwalk, Option.bind_eq_bind, Option.bind_some,
      Option.bind_eq_some_iff] at hfix
    obtain ⟨w₂, hw₂, w₃, hw₃, hw₄⟩ := hfix
    exact ((hheap.forwarding hapart hw₂).variableWalk.2 w₃ hw₃).forwarding hapart hw₄

/-- **A big object is missed** by the second walk of the first pass. -/
theorem TablesFormed.not_sameWalks (h : TablesFormed w owner) (himage : StaticImage w heap objects)
    (hbelow : heap.finish ≤ w.memory.heapStart) {o : HeapObject} (ho : o ∈ objects)
    (hbig : isBig w o.forwardingPointer) :
    ¬ SameWalks heap objects (fixStaticHeapIterators heap) w := by
  intro hsame
  obtain ⟨-, w', hwalk, huntagged⟩ := h.symbolWalk himage hbelow
  have hcalls := (sameWalks_cons.mp ((sameWalks_cons.mp hsame).2 w' hwalk)).1
  rw [callEach_applyNotNullForwarding] at hcalls
  have hheader : o.header = o.forwardingPointer + 24 := by
    conv_lhs => rw [← (himage.parses o ho).1]
    rw [parseObject_header, if_pos hbig]
  exact handed_ne_of_untagged himage.laid ho hheader (huntagged.seen o ho) hcalls

/-- **The walks of both passes agree exactly on heaps without big objects.** Their iterators are
told of the same objects in the same order, whatever classes these have and whatever they refer to,
before and after any registration, as far as the calls return. -/
theorem sameWalks_of_run (hrun : NameReachable heap objects w) (himage : StaticImage w heap objects)
    (hapart : ∀ o ∈ objects, KernelImage.objectAt o.header = none) :
    (SameWalks heap objects (fixStaticHeapIterators heap) w ∧
      ∀ w₁ w₂, w.fixStaticHeap heap = some w₁ → ReflTransGen (RegistrationStep objects) w₁ w₂ →
        w₂.PoolsHoldObjects objects →
        SameWalks heap objects (fixStaticHeapPass2Iterators heap) w₂) ↔
      ∀ o ∈ objects, ¬ isBig w o.forwardingPointer := by
  obtain ⟨owner, f, g, hvalid⟩ := hrun.valid
  have hformed := hvalid.tablesFormed
  constructor
  · rintro ⟨hsame, -⟩ o ho hbig
    exact hformed.not_sameWalks himage hvalid.below ho hbig hsame
  · intro hsmall
    obtain ⟨hsame, hfixed⟩ := hformed.sameWalks himage hvalid.below hapart hsmall
    refine ⟨hsame, fun w₁ w₂ hfix hregistration hpools => ?_⟩
    have hheap := (hfixed w₁ hfix).run hregistration
    obtain ⟨hcalls, hwalk⟩ := hheap.classVariableWalk hpools
    refine sameWalks_cons.mpr ⟨by rw [hcalls], fun w₃ hw₃ => ?_⟩
    exact sameWalks_cons.mpr ⟨by rw [heapIterate_applyNotNullForwarding (hwalk w₃ hw₃)],
      fun _ _ => sameWalks_nil⟩

omit [KernelImage] in
/-- The heap of a symbol, a global variable, a class variable and an array, after C code interned
the same symbol. -/
theorem sameWalks_of_run_objectHeap : letI := sequentialImage
    ∃ w : World, NameReachable objectHeap objectHeapObjects w ∧
      StaticImage w objectHeap objectHeapObjects ∧
      SameWalks objectHeap objectHeapObjects (fixStaticHeapIterators objectHeap) w := by
  let := sequentialImage
  obtain ⟨w, hrun, hnext⟩ := exists_internedNextToObjectHeap
  refine ⟨w, hrun, hnext.image,
    ((sameWalks_of_run hrun hnext.image hnext.named.apart).mpr fun o ho => ?_).1⟩
  rw [isBig, show HeapReader.forwardingWord w o.forwardingPointer = 0 from hnext.zero o ho]
  decide

/-- A heap of one array of 255 slots, with its size word. -/
def bigHeap : HeapInformation := ⟨61440, 2080⟩

def bigArray : HeapObject := ⟨61440, 61464, 255, 255⟩

/-- The runtime as loaded with the placement `sequentialImage`, next to that heap. -/
def bigHeapWorld : World :=
  let kernel := sequential.memory
  ofMemory { kernel with
    header := Function.update kernel.header 61464
      (ObjectHeader.ofFields KernelClass.Array.index ObjectFormat.variableSizeNoIvars 0 255)
    forwardingWord := Function.update kernel.forwardingWord 61440 1
    sizeWord := Function.update kernel.sizeWord 61456 255 }

omit [KernelImage] in
theorem bigHeapWorld_loaded : @KernelLoaded sequentialImage bigHeapWorld.memory := by
  let := sequentialImage
  have hne : ∀ o, KernelImage.address o ≠ 61464 := by
    intro o heq
    have haddress : 128 * o.position = 61464 := heq
    omega
  exact ⟨fun o => (Function.update_of_ne (hne o) _ _).trans (sequential_loaded.header o),
    sequential_loaded.slot, sequential_loaded.lt_heapStart⟩

omit [KernelImage] in
/-- The second walk over that heap misses the array. -/
theorem bigHeap_not_sameWalks : letI := sequentialImage
    ¬ ∀ (heap : HeapInformation) (objects : List HeapObject) (w : World),
      NameReachable heap objects w → StaticImage w heap objects →
      (∀ o ∈ objects, KernelImage.objectAt o.header = none) →
      SameWalks heap objects (fixStaticHeapIterators heap) w := by
  let := sequentialImage
  intro hall
  obtain ⟨w, hstart, hmade⟩ := exists_nameStart bigHeapWorld_loaded
  have hframe : Frame 65536 ∅ bigHeapWorld.memory w.memory := hmade
  have hbelow : bigHeap.finish ≤ w.memory.heapStart := by
    rw [hframe.heapStart]
    decide
  have hword : w.memory.forwardingWord 61440 = 1 := by
    rw [hframe.forwardingWord _ (by decide)]
    rfl
  have hsize : w.memory.sizeWord 61456 = 255 := by
    rw [hframe.sizeWord _ (by decide)]
    rfl
  have hheader : w.memory.header 61464 = ObjectHeader.ofFields KernelClass.Array.index
      ObjectFormat.variableSizeNoIvars 0 255 := by
    rw [hframe.header _ (by decide)]
    rfl
  have hbig : isBig w 61440 := by
    rw [isBig, show HeapReader.forwardingWord w 61440 = 1 from hword]
    decide
  have hparse : parseObject w 61440 = bigArray := by
    simp only [parseObject, hbig, if_true, show HeapReader.sizeWord w (61440 + 16) = 255 from hsize,
      show HeapReader.header w (61440 + 24) = _ from hheader]
    rfl
  have himage : StaticImage w bigHeap [bigArray] := by
    refine ⟨@Laid.cons bigArray [] 63520 (Or.inr rfl) (Laid.nil 63520), rfl, fun o ho => ?_⟩
    obtain rfl := List.mem_singleton.mp ho
    refine ⟨hparse, iff_of_true ?_ hbig⟩
    rw [show bigArray.forwardingPointer = 61440 from rfl, hparse,
      show HeapReader.header w bigArray.header = _ from hheader]
    rfl
  obtain ⟨owner, hvalid⟩ := @NamesValid.of_start _ bigHeap [bigArray] _ hstart hbelow
  refine hvalid.tablesFormed.not_sameWalks himage hbelow (List.mem_singleton.mpr rfl) hbig
    (hall bigHeap [bigArray] w ⟨w, hstart, hbelow, ReflTransGen.refl⟩ himage fun o ho => ?_)
  obtain rfl := List.mem_singleton.mp ho
  rw [Option.eq_none_iff_forall_ne_some]
  intro x hx
  have haddress : 128 * x.position = 61464 := (KernelImage.objectAt_eq_some _ x).mp hx
  omega

end Passes

end World

end SlvmNative
