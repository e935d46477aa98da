import Mathlib.Logic.Relation
import SlvmNative.WeakSets
import SlvmNative.World

/-!
# Runs of a weak set

A weak set of any capacity, and any sequence of `slvm_WeakSet_add` on it with any hash function and
equality that go together, while the rest of the memory goes its own way.

An addition asks whether the slot it found holds the new object itself, and raises the tally if
not. An equal object in the slot is not the object itself, so it is replaced and counted a second
time. The elements stay right; the tally is right again when the set grows.

## Main definitions

* `WeakSetRun.Step`, `WeakSetRun.Reachable` — the additions that meet a condition
* `WeakSetRun.IsSet` — the set finds what was added, and its tally is the number of its elements
* `WeakSetRun.CountsRight` — when an addition counts right

## Main results

* `WeakSetRun.isSet_iff_of_run` — in any run, all but the tally is right
* `WeakSetRun.isSet_of_run` — if every addition counts right, so is the tally
-/

namespace SlvmNative

open ObjectMemory LinearProbing Relation

/-- The state of a run. -/
structure WeakSetRun (β : Type) where
  memory : ObjectMemory
  set : ℕ
  /-- The objects added so far, each with its content, the last first. -/
  added : List (β × ℕ)

namespace WeakSetRun

variable {β : Type}

/-- The set and its array. -/
def objects (s : WeakSetRun β) : Set ℕ :=
  {o | o = s.set ∨ o = s.memory.slot s.set Field.array}

/-- The size of the array. -/
def arraySize (s : WeakSetRun β) : ℕ := s.memory.basicSize (s.memory.slot s.set Field.array)

/-- The element at an index of the array. -/
def element (s : WeakSetRun β) (i : ℕ) : ℕ := s.memory.slot (s.memory.slot s.set Field.array) i

/-- The flag object. -/
def flag (s : WeakSetRun β) : ℕ := s.memory.slot s.set Field.flag

/-- The decoded tally. -/
def tally (s : WeakSetRun β) : ℕ := decodeSmallInteger (s.memory.slot s.set Field.tally)

/-- The number of slots that do not hold the flag. -/
def count (s : WeakSetRun β) : ℕ :=
  ((Finset.range s.arraySize).filter fun i => s.element i ≠ s.flag).card

/-- The object is stored in the set. -/
def Holds (s : WeakSetRun β) (object : ℕ) : Prop :=
  object ≠ s.flag ∧ ∃ i < s.arraySize, s.element i = object

variable [KernelImage]

/-- What may be added: an object the functions are defined on, neither nil nor the flag. -/
structure Addable (K : KeyScheme β) (s : WeakSetRun β) (object : ℕ) : Prop where
  stored : K.Stored s.memory object
  live : s.memory.Live object
  ne_nilOop : object ≠ nilOop
  ne_flag : object ≠ s.flag

/-- The state after an addition. -/
def add (K : KeyScheme β) (s : WeakSetRun β) (object : ℕ) (m : ObjectMemory) : WeakSetRun β :=
  { s with memory := m, added := (K.content s.memory object, object) :: s.added }

/-- One step of a run whose additions meet the condition `P`. -/
inductive Step (K : KeyScheme β) (P : WeakSetRun β → ℕ → Prop) :
    WeakSetRun β → WeakSetRun β → Prop
  | add {s : WeakSetRun β} {object : ℕ} {m : ObjectMemory} (hobject : s.Addable K object)
      (hP : P s object) (h : s.memory.weakSetAdd s.set object K.hash K.equals = some m) :
      Step K P s (s.add K object m)
  /-- Anything that leaves the set, its array and the formats of the kernel classes alone. -/
  | elsewhere {s : WeakSetRun β} {m : ObjectMemory}
      (h : Frame s.memory.limit {p | p.1 ∉ s.objects ∧ ∀ c, p ≠ (kernelClass c, Field.format)}
        s.memory m) :
      Step K P s { s with memory := m }

/-- A state of a run that begins with a new set. -/
def Reachable (K : KeyScheme β) (P : WeakSetRun β → ℕ → Prop) (s : WeakSetRun β) : Prop :=
  ∃ (m₀ m : ObjectMemory) (n set : ℕ), KernelIntact m₀ ∧ 1 ≤ n ∧
    m₀.weakSetNew n = some (set, m) ∧ ReflTransGen (Step K P) ⟨m, set, []⟩ s

/-- An addition counts right if any element equal to the object is the object itself. Otherwise
that element is counted again, until the set grows: right away, if the tally makes it full. -/
def CountsRight (K : KeyScheme β) (s : WeakSetRun β) (object : ℕ) : Prop :=
  (∀ e, s.Holds e → K.content s.memory e = K.content s.memory object → e = object) ∨
    s.arraySize < 4 ∨ s.arraySize - (s.tally + 1) < s.arraySize / 4

variable [DecidableEq β]

/-- The set is one: its tally counts the elements, no two of them are equal, the object added last
is found for any equal one, and growing keeps the elements. -/
structure IsSet (K : KeyScheme β) (s : WeakSetRun β) : Prop where
  tally_eq : s.tally = s.count
  unique : ∀ i < s.arraySize, ∀ j < s.arraySize, s.element i ≠ s.flag → s.element j ≠ s.flag →
    K.content s.memory (s.element i) = K.content s.memory (s.element j) → i = j
  find : ∀ object, K.Probed s.memory object →
    s.memory.weakSetFind s.set object K.hash K.equals =
      some ((s.added.lookup (K.content s.memory object)).getD nilOop)
  /-- What was added has the content it had then. -/
  content : ∀ k e, s.added.lookup k = some e → K.content s.memory e = k
  grow : ∃ m, s.memory.weakSetGrow s.set K.hash K.equals = some m ∧
    ∀ e, Holds { s with memory := m } e ↔ s.Holds e

variable {K : KeyScheme β} {P : WeakSetRun β → ℕ → Prop}

/-- The set stands for what was added last. -/
structure Valid (K : KeyScheme β) (s : WeakSetRun β) : Prop where
  intact : KernelIntact s.memory
  kernelClass_notMem : ∀ c, kernelClass c ∉ s.objects
  set : ∃ n c, WeakSetValid K s.memory s.objects s.set n c (fun k => s.added.lookup k) ∧ c < n

omit [KernelImage] [DecidableEq β] in
/-- A region is as good as the set and its array. -/
theorem valid_objects {s : WeakSetRun β} {R : Set ℕ} {n c : ℕ} {f : β → Option ℕ}
    (h : WeakSetValid K s.memory R s.set n c f) : WeakSetValid K s.memory s.objects s.set n c f :=
  { h with shape := { h.shape with mem := Or.inl rfl, array_mem := Or.inr rfl } }

omit [KernelImage] [DecidableEq β] in
theorem objects_subset {s : WeakSetRun β} {R : Set ℕ} {n c : ℕ} {f : β → Option ℕ}
    (h : WeakSetValid K s.memory R s.set n c f) : ∀ o ∈ s.objects, o ∈ R := by
  rintro o (rfl | rfl)
  · exact h.shape.mem
  · exact h.shape.array_mem

omit [KernelImage] [DecidableEq β] in
/-- The number of elements is the number of used slots. -/
theorem count_eq {s : WeakSetRun β} {R : Set ℕ} {n c : ℕ} {f : β → Option ℕ}
    (h : WeakSetValid K s.memory R s.set n c f) :
    s.count = occupied n (weakSetTable K s.memory s.set) := by
  have hsize : s.arraySize = n := h.shape.basicSize
  rw [count, occupied, hsize]
  congr 1
  refine Finset.filter_congr fun i _ => ?_
  rw [Option.isSome_iff_ne_none, ne_eq, ne_eq, weakSetTable_eq_none]
  rfl

omit [KernelImage] [DecidableEq β] in
theorem tally_eq {s : WeakSetRun β} {R : Set ℕ} {n c : ℕ} {f : β → Option ℕ}
    (h : WeakSetValid K s.memory R s.set n c f) : s.tally = c := by
  rw [tally, h.shape.tally, decodeSmallInteger_encodeSmallInteger]

omit [KernelImage] [DecidableEq β] in
/-- The elements are the objects bound. -/
theorem holds_iff {s : WeakSetRun β} {R : Set ℕ} {n c : ℕ} {f : β → Option ℕ}
    (h : WeakSetValid K s.memory R s.set n c f) (e : ℕ) :
    s.Holds e ↔ ∃ k, f k = some e := by
  have hsize : s.arraySize = n := h.shape.basicSize
  rw [Holds, hsize]
  constructor
  · rintro ⟨hne, i, hi, hslot⟩
    have ht : weakSetTable K s.memory s.set i = some (K.content s.memory e, e) :=
      weakSetTable_eq_some.mpr ⟨hslot, hne, rfl⟩
    exact ⟨_, h.represents.eq_some_of_slot hi ht⟩
  · rintro ⟨k, hk⟩
    obtain ⟨i, hi, ht⟩ := h.represents.exists_slot hk
    obtain ⟨hslot, hne, -⟩ := weakSetTable_eq_some.mp ht
    exact ⟨hne, i, hi, hslot⟩

omit [KernelImage] in
theorem lookup_add (s : WeakSetRun β) (object : ℕ) (m : ObjectMemory) :
    (fun k => (s.add K object m).added.lookup k) =
      Function.update (fun k => s.added.lookup k) (K.content s.memory object) (some object) :=
  lookup_cons_eq_update s.added _ _

/-- **Adding** keeps the invariant and always succeeds; whether it keeps the tally right depends on
the state before. -/
theorem Valid.add {s : WeakSetRun β} (h : s.Valid K) {object : ℕ} (hobject : s.Addable K object) :
    ∃ m, s.memory.weakSetAdd s.set object K.hash K.equals = some m ∧ (s.add K object m).Valid K ∧
      (¬ (s.arraySize < 4 ∨ s.arraySize - (s.tally + 1) < s.arraySize / 4) →
        (s.add K object m).arraySize = s.arraySize) ∧
      (s.tally = s.count →
        ((s.add K object m).tally = (s.add K object m).count ↔ s.CountsRight K object)) := by
  obtain ⟨n, c, hset, hroom⟩ := h.set
  obtain ⟨m, n', c', hadd, hframe, hset', hroom', hsize, hcount⟩ :=
    hset.add hroom h.intact h.kernelClass_notMem hobject.stored hobject.live hobject.ne_flag
  rw [← lookup_add s object m] at hset'
  have hvalid : WeakSetValid K (s.add K object m).memory (s.add K object m).objects
      (s.add K object m).set n' c' (fun k => (s.add K object m).added.lookup k) :=
    @valid_objects _ K (s.add K object m) _ _ _ _ hset'
  have hn : s.arraySize = n := hset.shape.basicSize
  have hn' : (s.add K object m).arraySize = n' := hvalid.shape.basicSize
  refine ⟨m, hadd, ⟨?_, ?_, n', c', hvalid, hroom'⟩, ?_, ?_⟩
  · exact h.intact.frame hframe h.intact.lt_limit fun k => h.kernelClass_notMem k
  · intro k hmem
    rcases @objects_subset _ K (s.add K object m) _ _ _ _ hset' _ hmem with hR | hge
    · exact h.kernelClass_notMem k hR
    · exact absurd (h.intact.lt_limit (.kernelClass k)) (not_lt.mpr hge)
  · rw [hn, hn', tally_eq hset]
    exact hsize
  · rw [count_eq hset, count_eq hvalid, tally_eq hset, tally_eq hvalid, CountsRight, hn,
      tally_eq hset]
    intro hright
    refine (eq_comm.trans (hcount hright.symm)).trans ?_
    refine or_congr_left ⟨fun hall e he heq => ?_, fun hall e he => ?_⟩
    · obtain ⟨k, hk⟩ := (holds_iff hset e).mp he
      obtain rfl : K.content s.memory e = k := (hset.of_some hk).2.2
      exact hall e (heq ▸ hk)
    · exact hall e ((holds_iff hset e).mpr ⟨_, he⟩) (hset.of_some he).2.2

/-- **One step** keeps the invariant. -/
theorem Valid.step {s s' : WeakSetRun β} (h : s.Valid K) (hstep : Step K P s s') : s'.Valid K := by
  cases hstep with
  | @add object m hobject _ hm =>
    obtain ⟨m', hm', hvalid, -⟩ := h.add hobject
    obtain rfl := Option.some.inj (hm.symm.trans hm')
    exact hvalid
  | @elsewhere m hframe =>
    obtain ⟨n, c, hset, hroom⟩ := h.set
    have hslot : m.slot s.set Field.array = s.memory.slot s.set Field.array :=
      hframe.slot _ hset.shape.lt_limit _ fun hmem => hmem.1 (Or.inl rfl)
    have hobjects : objects { s with memory := m } = s.objects := by
      simp only [objects, hslot]
    refine ⟨h.intact.frame hframe h.intact.lt_limit fun c hmem => hmem.2 c rfl, fun c => ?_, n, c,
      ?_, hroom⟩
    · rw [hobjects]
      exact h.kernelClass_notMem c
    · rw [hobjects]
      exact hset.frame hframe (fun p hp => hp.1) fun _ ho _ => ho

/-- Steps elsewhere do not change the tally or an element. -/
theorem Valid.elsewhere_eq {s : WeakSetRun β} (h : s.Valid K) {m : ObjectMemory}
    (hframe : Frame s.memory.limit {p | p.1 ∉ s.objects ∧ ∀ c, p ≠ (kernelClass c, Field.format)}
      s.memory m) :
    tally { s with memory := m } = s.tally ∧ count { s with memory := m } = s.count := by
  obtain ⟨n, c, hset, -⟩ := h.set
  have hslot : ∀ o ∈ s.objects, o < s.memory.limit → ∀ i, m.slot o i = s.memory.slot o i := by
    intro o ho hlt i
    exact hframe.slot o hlt i fun hmem => hmem.1 ho
  have hfield : ∀ i, m.slot s.set i = s.memory.slot s.set i :=
    hslot _ (Or.inl rfl) hset.shape.lt_limit
  have hflag : flag { s with memory := m } = s.flag := hfield _
  have hsize : arraySize { s with memory := m } = s.arraySize := by
    rw [arraySize, arraySize, hfield]
    exact hframe.basicSize hset.shape.array_lt_limit
  have helement : element { s with memory := m } = s.element := by
    funext i
    rw [element, element, hfield]
    exact hslot _ (Or.inr rfl) hset.shape.array_lt_limit i
  constructor
  · rw [tally, tally, hfield]
  · rw [count, count, hsize, helement, hflag]

/-- **Every state of a run is valid.** -/
theorem valid_of_run {s : WeakSetRun β} (h : Reachable K P s) : s.Valid K := by
  obtain ⟨m₀, m, n, set, hk, hn, hnew, hrun⟩ := h
  induction hrun with
  | refl =>
    obtain ⟨set', m', hnew', hframe, -, hset⟩ := weakSetNew_spec (K := K) hk hn
    obtain ⟨rfl, rfl⟩ := Prod.mk.inj (Option.some.inj (hnew.symm.trans hnew'))
    refine ⟨hk.frame hframe hk.lt_limit (by simp), fun c hmem => ?_, n, 0,
      @valid_objects _ K ⟨m, set, []⟩ _ _ _ _ hset, hn⟩
    have hge := @objects_subset _ K ⟨m, set, []⟩ _ _ _ _ hset _ hmem
    exact absurd (hk.lt_limit (.kernelClass c)) (not_lt.mpr hge)
  | tail _ hstep ih => exact ih.step hstep

/-- A valid set is one if its tally is right. -/
theorem Valid.isSet_iff {s : WeakSetRun β} (h : s.Valid K) : s.IsSet K ↔ s.tally = s.count := by
  obtain ⟨n, c, hset, hroom⟩ := h.set
  have hsize : s.arraySize = n := hset.shape.basicSize
  constructor
  · exact IsSet.tally_eq
  · intro htally
    obtain ⟨m, n', c', hgrow, -, ⟨hset', -⟩, -⟩ := hset.grow h.intact h.kernelClass_notMem
    refine ⟨htally, ?_, ?_, ?_, m, hgrow, ?_⟩
    · intro i hi j hj hne hne' heq
      rw [hsize] at hi hj
      exact hset.represents.isTable.unique i hi j hj _ _
        (weakSetTable_eq_some.mpr ⟨rfl, hne, rfl⟩) (weakSetTable_eq_some.mpr ⟨rfl, hne', rfl⟩) heq
    · intro object hp
      exact hset.find hp hroom
    · intro k e hk
      exact (hset.of_some hk).2.2
    · intro e
      rw [holds_iff hset e]
      exact @holds_iff _ K { s with memory := m } _ _ _ _ hset' e

omit [DecidableEq β] in
/-- A new set has an array of the capacity and counts nothing. -/
theorem exists_start {m₀ : ObjectMemory} (hk : KernelIntact m₀) {n : ℕ} (hn : 1 ≤ n) :
    ∃ m set, m₀.weakSetNew n = some (set, m) ∧ Reachable K P ⟨m, set, []⟩ ∧
      arraySize (β := β) ⟨m, set, []⟩ = n ∧ tally (β := β) ⟨m, set, []⟩ = 0 ∧
      count (β := β) ⟨m, set, []⟩ = 0 := by
  obtain ⟨set, m, hnew, -, -, hset⟩ := weakSetNew_spec (K := K) hk hn
  refine ⟨m, set, hnew, ⟨m₀, m, n, set, hk, hn, hnew, .refl⟩, hset.shape.basicSize, ?_, ?_⟩
  · exact @tally_eq _ K ⟨m, set, []⟩ _ _ _ _ hset
  · rw [@count_eq _ K ⟨m, set, []⟩ _ _ _ _ hset]
    exact Nat.le_zero.mp hset.occupied_le

omit [DecidableEq β] in
/-- The kernel classes are not the flag: the class of the flag is `Object`. -/
theorem kernelClass_ne_flag {s : WeakSetRun β} {R : Set ℕ} {n c : ℕ} {f : β → Option ℕ}
    (h : WeakSetValid K s.memory R s.set n c f) (hk : KernelIntact s.memory) (k : KernelClass) :
    kernelClass k ≠ s.flag := by
  intro heq
  have hindex : (s.memory.header s.flag).classIndex = KernelClass.Object.index := h.flag.2
  rw [← heq, hk.classIndex_kernelClass] at hindex
  have hlt := KernelClass.Object.index_lt
  simp only [KernelClass.metaIndex] at hindex
  omega

theorem Valid.addable_kernelClass {s : WeakSetRun β} (h : s.Valid K) {k : KernelClass}
    (hstored : K.Stored s.memory (kernelClass k)) : s.Addable K (kernelClass k) := by
  obtain ⟨n, c, hset, -⟩ := h.set
  exact ⟨hstored, Or.inr (h.intact.lt_limit (.kernelClass k)), kernelClass_ne_nilOop k,
    kernelClass_ne_flag hset h.intact k⟩

/-- **In every run all but the tally is right.** -/
theorem isSet_iff_of_run {s : WeakSetRun β} (h : Reachable K P s) :
    s.IsSet K ↔ s.tally = s.count :=
  (valid_of_run h).isSet_iff

/-- **A run whose additions count right** has a set in every state, and whether the next addition
leaves a set again is whether it counts right. -/
theorem isSet_of_run (s : WeakSetRun β) (h : Reachable K (CountsRight K) s) :
    s.IsSet K ∧ ∀ object, s.Addable K object →
      ∃ m, s.memory.weakSetAdd s.set object K.hash K.equals = some m ∧
        ((s.add K object m).IsSet K ↔ s.CountsRight K object) := by
  have hvalid := valid_of_run h
  have htally : s.tally = s.count := by
    obtain ⟨m₀, m, n, set, hk, hn, hnew, hrun⟩ := h
    induction hrun with
    | refl =>
      obtain ⟨m', set', hnew', -, -, htally, hcount⟩ :=
        exists_start (K := K) (P := CountsRight K) hk hn
      obtain ⟨rfl, rfl⟩ := Prod.mk.inj (Option.some.inj (hnew.symm.trans hnew'))
      rw [htally, hcount]
    | @tail s₁ s₂ hrun hstep ih =>
      have hvalid₁ := valid_of_run (P := CountsRight K) ⟨m₀, m, n, set, hk, hn, hnew, hrun⟩
      have hright := ih hvalid₁
      cases hstep with
      | @add object m' hobject hcounts hm =>
        obtain ⟨m'', hm'', -, -, hiff⟩ := hvalid₁.add hobject
        obtain rfl := Option.some.inj (hm.symm.trans hm'')
        exact (hiff hright).mpr hcounts
      | elsewhere hframe =>
        obtain ⟨htally, hcount⟩ := hvalid₁.elsewhere_eq hframe
        rw [htally, hcount]
        exact hright
  refine ⟨hvalid.isSet_iff.mpr htally, fun object hobject => ?_⟩
  obtain ⟨m, hadd, hvalid', -, hiff⟩ := hvalid.add hobject
  refine ⟨m, hadd, ?_⟩
  rw [hvalid'.isSet_iff]
  exact hiff htally

omit [KernelImage] [DecidableEq β] in
/-- The classes `Array` and `Object` in a set of capacity 8, by identity. -/
theorem isSet_of_run_identity :
    letI := sequentialImage
    ∃ s : WeakSetRun ℕ, s.added = [(kernelClass .Object, kernelClass .Object),
      (kernelClass .Array, kernelClass .Array)] ∧ s.IsSet identityScheme := by
  let := sequentialImage
  have hk : KernelIntact World.sequential.spurInitialize.memory := World.sequential_intact
  obtain ⟨m, set, -, hstart, -⟩ := exists_start (K := identityScheme)
    (P := CountsRight identityScheme) hk (by decide : 1 ≤ 8)
  have hcounts : ∀ (s : WeakSetRun ℕ) object, s.CountsRight identityScheme object :=
    fun _ _ => Or.inl fun _ _ heq => heq
  have hobject := (valid_of_run hstart).addable_kernelClass (k := .Array) trivial
  obtain ⟨-, hadd⟩ := isSet_of_run _ hstart
  obtain ⟨m₁, hm₁, -⟩ := hadd _ hobject
  obtain ⟨m₀, m', n, set', hk₀, hn, hnew, hrun⟩ := hstart
  have hreach₁ : Reachable identityScheme (CountsRight identityScheme) _ :=
    ⟨m₀, m', n, set', hk₀, hn, hnew, hrun.tail (.add hobject (hcounts _ _) hm₁)⟩
  have hobject₁ := (valid_of_run hreach₁).addable_kernelClass (k := .Object) trivial
  obtain ⟨-, hadd₁⟩ := isSet_of_run _ hreach₁
  obtain ⟨m₂, -, hiff⟩ := hadd₁ _ hobject₁
  exact ⟨_, rfl, hiff.mpr (hcounts _ _)⟩

omit [KernelImage] [DecidableEq β] in
/-- The classes `Array` and `Object`, which are equal modulo 64, in a set of capacity 8: the second
one takes the place of the first and is counted. -/
theorem not_isSet_modulo :
    letI := sequentialImage
    ∃ s : WeakSetRun (Quotient KeyFunctions.modulo.setoid),
      Reachable KeyFunctions.modulo.scheme (fun _ _ => True) s ∧ s.added.length = 2 ∧
        ¬ s.IsSet KeyFunctions.modulo.scheme := by
  let := sequentialImage
  have hk : KernelIntact World.sequential.spurInitialize.memory := World.sequential_intact
  obtain ⟨m, set, -, hstart, hsize, htally, hcount⟩ := exists_start
    (K := KeyFunctions.modulo.scheme) (P := fun _ _ => True) hk (by decide : 1 ≤ 8)
  have hvalid := valid_of_run hstart
  have hobject := hvalid.addable_kernelClass (k := .Array) trivial
  obtain ⟨m₁, hm₁, hvalid₁, hsize₁, hiff₁⟩ := hvalid.add hobject
  have hobject₁ := hvalid₁.addable_kernelClass (k := .Object) trivial
  obtain ⟨m₂, hm₂, hvalid₂, -, hiff₂⟩ := hvalid₁.add hobject₁
  obtain ⟨n, c, hset, -⟩ := hvalid.set
  obtain ⟨n₁, c₁, hset₁, -⟩ := hvalid₁.set
  -- the first addition counts the class
  have htally₁ : tally _ = count _ := (hiff₁ (htally.trans hcount.symm)).mpr
    (Or.inl fun e he _ => absurd ((holds_iff hset e).mp he) (by simp))
  rw [hsize, htally] at hsize₁
  have hsize₁' := hsize₁ (by decide)
  have hone : count ((⟨m, set, []⟩ : WeakSetRun _).add KeyFunctions.modulo.scheme
      (kernelClass .Array) m₁) ≤ 1 := by
    have hrepresents := hset₁.represents
    rw [lookup_add] at hrepresents
    rw [count_eq hset₁, hset.represents.occupied_update hrepresents, ← count_eq hset, hcount]
    split <;> omega
  obtain ⟨m₀, m', n', set', hk₀, hn, hnew, hrun⟩ := hstart
  refine ⟨_, ⟨m₀, m', n', set', hk₀, hn, hnew,
    (hrun.tail (.add hobject trivial hm₁)).tail (.add hobject₁ trivial hm₂)⟩, rfl, ?_⟩
  -- the second one counts it again
  rw [hvalid₂.isSet_iff, hiff₂ htally₁, CountsRight, hsize₁', htally₁]
  rintro (hsame | hfull)
  · have hheld : Holds _ (kernelClass .Array) := (holds_iff hset₁ _).mpr
      ⟨_, List.lookup_cons_self⟩
    exact absurd (hsame _ hheld (Quotient.sound (show (_ % 64 == _ % 64) = true by decide)))
      (by decide)
  · omega

end WeakSetRun

end SlvmNative
