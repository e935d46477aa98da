import SlvmNative.MethodDictionaries
import SlvmNative.World

/-!
# Runs of a method dictionary

A method dictionary of any capacity, and any sequence of `slvm_MethodDictionary_atPut` on it, while
the rest of the memory goes its own way. The state of a run records the selectors and methods that
were put, the last one first.

## Main definitions

* `MethodDictionaryRun.Step`, `MethodDictionaryRun.Reachable`
* `MethodDictionaryRun.Valid` — the dictionary stands for what was put
* `MethodDictionaryRun.Formed` — the part of it that does not depend on class indices

## Main results

* `MethodDictionaryRun.atOrNil_of_run` — looking up a selector returns what was put last
-/

namespace SlvmNative

open ObjectMemory LinearProbing Relation

/-- The state of a run. -/
structure MethodDictionaryRun where
  memory : ObjectMemory
  dictionary : ℕ
  /-- The keys and values put so far, the last first. -/
  puts : List (ℕ × ℕ)

namespace MethodDictionaryRun

variable [KernelImage]

/-- The dictionary and its arrays. -/
def objects (s : MethodDictionaryRun) : Set ℕ :=
  {o | o = s.dictionary ∨ o = s.memory.slot s.dictionary Field.array ∨
    o = s.memory.slot s.dictionary Field.keys}

/-- The number of keys that were put. -/
def keyCount (s : MethodDictionaryRun) : ℕ := (s.puts.map Prod.fst).toFinset.card

/-- One step of a run. -/
inductive Step : MethodDictionaryRun → MethodDictionaryRun → Prop
  | atPut {s : MethodDictionaryRun} {key value : ℕ} {m : ObjectMemory} (hkey : key ≠ nilOop)
      (hlive : s.memory.Live key)
      (h : s.memory.methodDictionaryAtPut s.dictionary key value = some m) :
      Step s { s with memory := m, puts := (key, value) :: s.puts }
  /-- Anything that leaves the dictionary, its arrays and the formats of the kernel
  classes alone. -/
  | elsewhere {s : MethodDictionaryRun} {m : ObjectMemory}
      (h : Frame s.memory.limit {p | p.1 ∉ s.objects ∧ ∀ c, p ≠ (kernelClass c, Field.format)}
        s.memory m) :
      Step s { s with memory := m }

/-- A state of a run that begins with a new dictionary of any capacity. -/
def Reachable (s : MethodDictionaryRun) : Prop :=
  ∃ (m₀ m : ObjectMemory) (n d : ℕ), KernelIntact m₀ ∧
    m₀.methodDictionaryNewWithCapacity n = some (d, m) ∧ ReflTransGen Step ⟨m, d, []⟩ s

/-- The dictionary stands for what was put, whatever class indices the kernel classes have. -/
structure Formed (s : MethodDictionaryRun) : Prop where
  formats : KernelFormats s.memory
  kernelClass_notMem : ∀ c, kernelClass c ∉ s.objects
  dictionary : ∃ n, MethodDictionaryValid s.memory s.objects s.dictionary n s.keyCount
    (fun key => s.puts.lookup key) ∧ (s.puts = [] ∨ MethodDictionaryValid.Roomy n s.keyCount)

/-- The dictionary stands for what was put. -/
structure Valid (s : MethodDictionaryRun) : Prop where
  intact : KernelIntact s.memory
  kernelClass_notMem : ∀ c, kernelClass c ∉ s.objects
  dictionary : ∃ n, MethodDictionaryValid s.memory s.objects s.dictionary n s.keyCount
    (fun key => s.puts.lookup key) ∧ (s.puts = [] ∨ MethodDictionaryValid.Roomy n s.keyCount)

omit [KernelImage] in
/-- Putting a key counts it if it is new. -/
theorem keyCount_cons (s : MethodDictionaryRun) (m : ObjectMemory) (key value : ℕ) :
    keyCount { s with memory := m, puts := (key, value) :: s.puts } =
      if s.puts.lookup key = none then s.keyCount + 1 else s.keyCount := by
  have hmem : s.puts.lookup key = none ↔ key ∉ (s.puts.map Prod.fst).toFinset := by
    rw [List.lookup_eq_none_iff, List.mem_toFinset, List.mem_map]
    constructor
    · rintro hall ⟨p, hp, rfl⟩
      simpa using hall p hp
    · intro hnot p hp
      simpa using fun heq : key = p.1 => hnot ⟨p, hp, heq.symm⟩
  simp only [keyCount, List.map_cons, List.toFinset_cons]
  split_ifs with hnone
  · exact Finset.card_insert_of_notMem (hmem.mp hnone)
  · rw [Finset.insert_eq_of_mem (not_not.mp (mt hmem.mpr hnone))]

/-- A region is as good as the dictionary and its arrays. -/
theorem valid_objects {s : MethodDictionaryRun} {R : Set ℕ} {n c : ℕ} {f : ℕ → Option ℕ}
    (h : MethodDictionaryValid s.memory R s.dictionary n c f) :
    MethodDictionaryValid s.memory s.objects s.dictionary n c f :=
  { h with
    shape := { h.shape with mem := Or.inl rfl, array_mem := Or.inr (Or.inl rfl) }
    keys_mem := Or.inr (Or.inr rfl) }

theorem objects_subset {s : MethodDictionaryRun} {R : Set ℕ} {n c : ℕ} {f : ℕ → Option ℕ}
    (h : MethodDictionaryValid s.memory R s.dictionary n c f) : ∀ o ∈ s.objects, o ∈ R := by
  rintro o (rfl | rfl | rfl)
  · exact h.shape.mem
  · exact h.shape.array_mem
  · exact h.keys_mem

theorem Valid.formed {s : MethodDictionaryRun} (h : s.Valid) : s.Formed :=
  ⟨h.intact.formats, h.kernelClass_notMem, h.dictionary⟩

namespace Formed

/-- A new dictionary of any capacity. -/
theorem start {m₀ m : ObjectMemory} {n d : ℕ} (hk : KernelFormats m₀)
    (hnew : m₀.methodDictionaryNewWithCapacity n = some (d, m)) :
    Frame m₀.limit ∅ m₀ m ∧ Formed ⟨m, d, []⟩ := by
  obtain ⟨d', m', hnew', hframe, -, -, -, -, hd⟩ := methodDictionaryNewWithCapacity_made hk n
  rw [hnew] at hnew'
  obtain ⟨rfl, rfl⟩ := Prod.mk.inj (Option.some.inj hnew')
  refine ⟨hframe, hk.frame hframe hk.lt_limit (by simp), fun c hmem => ?_, n,
    @valid_objects _ ⟨m, d, []⟩ _ _ _ _ hd, Or.inl rfl⟩
  have hge := @objects_subset _ ⟨m, d, []⟩ _ _ _ _ hd _ hmem
  exact absurd (hk.lt_limit (.kernelClass c)) (not_lt.mpr hge)

/-- Putting succeeds, and changes the dictionary and its arrays only. -/
theorem atPut {s : MethodDictionaryRun} (h : s.Formed) {key : ℕ} (hkey : key ≠ nilOop)
    (hlive : s.memory.Live key) (value : ℕ) :
    ∃ m, s.memory.methodDictionaryAtPut s.dictionary key value = some m ∧
      Frame s.memory.limit {p | p.1 ∈ s.objects} s.memory m ∧
      Formed { s with memory := m, puts := (key, value) :: s.puts } := by
  obtain ⟨n, hd, hroomy⟩ := h.dictionary
  obtain ⟨m, n', c', hm, hframe, hd', hc', hroomy'⟩ :=
    hd.put (hroomy.imp_left fun hnil => by rw [keyCount, hnil]; rfl) h.formats
      h.kernelClass_notMem hkey hlive value
  rw [← keyCount_cons s m key value] at hc'
  subst hc'
  rw [← lookup_cons_eq_update] at hd'
  refine ⟨m, hm, hframe, h.formats.frame hframe h.formats.lt_limit fun c hmem =>
    h.kernelClass_notMem c hmem, fun c hmem => ?_, n',
    @valid_objects _ ⟨m, s.dictionary, (key, value) :: s.puts⟩ _ _ _ _ hd', Or.inr hroomy'⟩
  rcases @objects_subset _ ⟨m, s.dictionary, (key, value) :: s.puts⟩ _ _ _ _ hd' _ hmem with
    hR | hge
  · exact h.kernelClass_notMem c hR
  · exact absurd (h.formats.lt_limit (.kernelClass c)) (not_lt.mpr hge)

/-- A step elsewhere. -/
theorem elsewhere {s : MethodDictionaryRun} (h : s.Formed) {m : ObjectMemory}
    (hframe : Frame s.memory.limit {p | p.1 ∉ s.objects ∧ ∀ c, p ≠ (kernelClass c, Field.format)}
      s.memory m) : Formed { s with memory := m } := by
  obtain ⟨n, hd, hroomy⟩ := h.dictionary
  have hslot : ∀ o ∈ s.objects, o < s.memory.limit → m.slot o = s.memory.slot o := by
    intro o ho hlt
    funext i
    exact hframe.slot o hlt i fun hmem => hmem.1 ho
  have hobjects : objects { s with memory := m } = s.objects := by
    simp only [objects, hslot _ (Or.inl rfl) hd.shape.lt_limit]
  refine ⟨h.formats.frame hframe h.formats.lt_limit fun c hmem => hmem.2 c rfl, fun c => ?_, n, ?_,
    hroomy⟩
  · rw [hobjects]
    exact h.kernelClass_notMem c
  · rw [hobjects]
    exact hd.frame hframe (fun p hp => hp.1) fun _ ho _ => ho

/-- **Looking up** a selector. -/
theorem atOrNil {s : MethodDictionaryRun} (h : s.Formed) (key : ℕ) :
    s.memory.methodDictionaryAtOrNil s.dictionary key =
      some ((s.puts.lookup key).getD nilOop) := by
  obtain ⟨n, hd, hroomy⟩ := h.dictionary
  rcases Nat.eq_zero_or_pos n with rfl | hpos
  · have hscan : s.memory.methodDictionaryScanFor s.dictionary key = none := by
      simp only [methodDictionaryScanFor, hd.keys_basicSize, if_true]
    have hnil : s.puts = [] := hroomy.resolve_right fun hroomy => absurd hroomy.1 (by decide)
    rw [methodDictionaryAtOrNil, if_neg hd.ne_nilOop, hscan, hnil]
    rfl
  · refine hd.atOrNil ?_ key
    rcases hroomy with hnil | hroomy
    · rw [keyCount, hnil]
      exact hpos
    · exact hroomy.lt

end Formed

/-- **Putting** keeps the invariant, and always succeeds. -/
theorem Valid.atPut {s : MethodDictionaryRun} (h : s.Valid) {key : ℕ} (hkey : key ≠ nilOop)
    (hlive : s.memory.Live key) (value : ℕ) :
    ∃ m, s.memory.methodDictionaryAtPut s.dictionary key value = some m ∧
      Valid { s with memory := m, puts := (key, value) :: s.puts } := by
  obtain ⟨m, hm, hframe, hformed⟩ := h.formed.atPut hkey hlive value
  exact ⟨m, hm, h.intact.frame hframe h.intact.lt_limit fun c hmem => h.kernelClass_notMem c hmem,
    hformed.kernelClass_notMem, hformed.dictionary⟩

/-- **One step** keeps the invariant. -/
theorem Valid.step {s s' : MethodDictionaryRun} (h : s.Valid) (hstep : Step s s') : s'.Valid := by
  cases hstep with
  | @atPut key value m hkey hlive hm =>
    obtain ⟨m', hm', hvalid⟩ := h.atPut hkey hlive value
    rw [hm] at hm'
    exact Option.some.inj hm' ▸ hvalid
  | @elsewhere m hframe =>
    have hformed := h.formed.elsewhere hframe
    exact ⟨h.intact.frame hframe h.intact.lt_limit fun c hmem => hmem.2 c rfl,
      hformed.kernelClass_notMem, hformed.dictionary⟩

/-- **Every state of a run is valid.** -/
theorem valid_of_run {s : MethodDictionaryRun} (h : Reachable s) : s.Valid := by
  obtain ⟨m₀, m, n, d, hk, hnew, hrun⟩ := h
  induction hrun with
  | refl =>
    obtain ⟨hframe, hformed⟩ := Formed.start hk.formats hnew
    exact ⟨hk.frame hframe hk.lt_limit (by simp), hformed.kernelClass_notMem, hformed.dictionary⟩
  | tail _ hstep ih => exact ih.step hstep

/-- The shape of a dictionary that something was put into. -/
structure Shaped (s : MethodDictionaryRun) (n : ℕ) : Prop where
  keys : s.memory.basicSize (s.memory.slot s.dictionary Field.keys) = n
  values : s.memory.basicSize (s.memory.slot s.dictionary Field.array) = n
  four_le : 4 ≤ n
  tally : decodeSmallInteger (s.memory.slot s.dictionary Field.tally) = s.keyCount
  /-- No key occurs twice. -/
  unique : ∀ i < n, ∀ j < n,
    s.memory.slot (s.memory.slot s.dictionary Field.keys) i ≠ nilOop →
    s.memory.slot (s.memory.slot s.dictionary Field.keys) i =
      s.memory.slot (s.memory.slot s.dictionary Field.keys) j → i = j
  free : n / 4 ≤ ((Finset.range n).filter fun i =>
    s.memory.slot (s.memory.slot s.dictionary Field.keys) i = nilOop).card

theorem Valid.shaped {s : MethodDictionaryRun} (h : s.Valid) (hputs : s.puts ≠ []) :
    ∃ n, s.Shaped n := by
  obtain ⟨n, hd, hroomy⟩ := h.dictionary
  obtain ⟨hn, -, hfree⟩ := hroomy.resolve_left hputs
  refine ⟨n, hd.keys_basicSize, hd.shape.basicSize, hn, ?_, fun i hi j hj hne heq => ?_, ?_⟩
  · rw [hd.shape.tally, decodeSmallInteger_encodeSmallInteger]
  · have hti := methodTable_eq_some.mpr ⟨rfl, hne, rfl⟩
    have htj := methodTable_eq_some.mpr ⟨heq.symm, hne, rfl⟩
    exact hd.represents.isTable.unique i hi j hj _ _ hti htj rfl
  · have hholes := occupied_add_holes n (methodTable s.memory s.dictionary)
    have hfilter : ((Finset.range n).filter fun i =>
        s.memory.slot (s.memory.slot s.dictionary Field.keys) i = nilOop) =
        (Finset.range n).filter fun i => methodTable s.memory s.dictionary i = none :=
      Finset.filter_congr fun i _ => methodTable_eq_none.symm
    rw [hd.occupied_eq] at hholes
    rw [hfilter]
    omega

/-- **A method dictionary returns what was put last**, in every state of every run. Once something
was put, its arrays have the same size, its tally counts the keys, no key occurs twice and a quarter
of the slots is free. The next put succeeds. -/
theorem atOrNil_of_run (s : MethodDictionaryRun) (h : Reachable s) :
    (∀ key, s.memory.methodDictionaryAtOrNil s.dictionary key =
        some ((s.puts.lookup key).getD nilOop)) ∧
      (s.puts ≠ [] → ∃ n, s.Shaped n) ∧
      ∀ key value, key ≠ nilOop → s.memory.Live key →
        (s.memory.methodDictionaryAtPut s.dictionary key value).isSome := by
  have hvalid := valid_of_run h
  refine ⟨hvalid.formed.atOrNil, hvalid.shaped, fun key value hkey hlive => ?_⟩
  obtain ⟨m, hm, -⟩ := hvalid.atPut hkey hlive value
  rw [hm]
  rfl

omit [KernelImage] in
/-- A dictionary of capacity 0 into which the SmallInteger 2 was put under the SmallInteger 1. -/
theorem atOrNil_of_run_capacity_zero :
    letI := sequentialImage
    ∃ s : MethodDictionaryRun, s.puts = [(9, 17)] ∧
      (∀ key, s.memory.methodDictionaryAtOrNil s.dictionary key =
        some ((s.puts.lookup key).getD nilOop)) ∧
      (s.puts ≠ [] → ∃ n, s.Shaped n) ∧
      ∀ key value, key ≠ nilOop → s.memory.Live key →
        (s.memory.methodDictionaryAtPut s.dictionary key value).isSome := by
  let := sequentialImage
  have hk : KernelIntact World.sequential.spurInitialize.memory := World.sequential_intact
  obtain ⟨d, m, hnew, -⟩ := methodDictionaryNewWithCapacity_spec hk 0
  have hstart : Reachable ⟨m, d, []⟩ := ⟨_, m, 0, d, hk, hnew, ReflTransGen.refl⟩
  have hkey : 9 ≠ nilOop := by decide +kernel
  have hlive : m.Live 9 := Or.inl (by decide)
  obtain ⟨m', hput, -⟩ := (valid_of_run hstart).atPut hkey hlive 17
  exact ⟨⟨m', d, [(9, 17)]⟩, rfl, atOrNil_of_run _
    ⟨_, m, 0, d, hk, hnew, ReflTransGen.single (Step.atPut hkey hlive hput)⟩⟩

end MethodDictionaryRun

end SlvmNative
