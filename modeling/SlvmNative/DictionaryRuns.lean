import Mathlib.Logic.Relation
import SlvmNative.Dictionaries
import SlvmNative.World

/-!
# Runs of dictionaries

A dictionary of any class and any capacity, and any sequence of calls on it, while the rest of the
memory goes its own way. `slvm_Dictionary_addAssociation` is run with any hash function and any
equality that go together; the identity dictionary is run with all its operations.

## Main definitions

* `StandsFor` — what holds of a dictionary that stands for a map
* `Tabled` — the part of it that does not depend on the class indices of the kernel
* `AddRun.Step` — additions to a dictionary
* `IdentityDictionaryCall` — the calls on an identity dictionary
* `IdentityDictionaryCall.run`, `IdentityDictionaryCall.Effect` — a call as code, and as an
  operation on a map

## Main results

* `AddRun.associationAt_of_run` — a dictionary returns what was added last
* `IdentityDictionaryCall.effect_of_run` — an identity dictionary is a map
-/

namespace SlvmNative

open LinearProbing ObjectMemory Relation

namespace ObjectMemory

variable [KernelImage] {β : Type} {K : KeyScheme β} {L d : ℕ} {m m' : ObjectMemory}
  {f : β → Option ℕ}

/-! ### A dictionary that stands for a map -/

/-- A step that leaves the dictionary, its array, the keys of its associations and the formats of
the kernel classes alone. -/
def Elsewhere (d : ℕ) (m m' : ObjectMemory) : Prop :=
  Frame m.limit {p | p.1 ≠ d ∧ p.1 ≠ m.slot d Field.array ∧
    (m.DictionaryHolds d p.1 → p.2 ≠ Field.key) ∧ ∀ c, p ≠ (kernelClass c, Field.format)} m m'

/-- The cells an insertion may change. -/
def dictionaryCells (m : ObjectMemory) (d : ℕ) : Set (ℕ × ℕ) :=
  {p | p.1 = d ∨ p.1 = m.slot d Field.array}

/-- A dictionary made after the heap ended at `L` stands for the map `f`, whatever class indices
the kernel classes have. Its array has a free slot. -/
structure Tabled (K : KeyScheme β) (L : ℕ) (m : ObjectMemory) (d : ℕ) (f : β → Option ℕ) :
    Prop where
  formats : KernelFormats m
  kernelClass_lt : ∀ c, kernelClass c < L
  le_limit : L ≤ m.limit
  valid : ∃ n c, DictionaryValid K m {p | L ≤ p} d n c f ∧ c < n

namespace Tabled

/-- A new dictionary stands for the empty map. -/
theorem start {m₀ : ObjectMemory} (hk : KernelFormats m₀) {clazz n : ℕ} (hn : 1 ≤ n)
    (hnew : m₀.dictionaryNewWithCapacity clazz n = some (d, m)) :
    Tabled K m₀.limit m d fun _ => none := by
  obtain ⟨⟨d₁, m₁⟩, hbasic, -⟩ := Option.bind_eq_some_iff.mp hnew
  obtain ⟨m', hnew', hd, -⟩ := dictionaryNewWithCapacity_made hk hbasic n
  obtain ⟨rfl, rfl⟩ := Prod.mk.inj (Option.some.inj (hnew.symm.trans hnew'))
  exact ⟨hk.frame hd.frame hk.lt_limit (by simp), fun c => hk.lt_limit (.kernelClass c),
    hd.frame.limit_le, n, 0, hd.valid hk hn, hn⟩

/-- What a step keeps of a dictionary, if it changes neither the dictionary nor a key in it. -/
theorem frame (h : Tabled K L m d f) {F : Set (ℕ × ℕ)} (hf : Frame m.limit F m m')
    (hF : ∀ p ∈ F, p.1 ≠ d ∧ p.1 ≠ m.slot d Field.array)
    (hkey : ∀ k e, f k = some e → (e, Field.key) ∉ F)
    (hformat : ∀ c, (kernelClass c, Field.format) ∉ F) : Tabled K L m' d f := by
  obtain ⟨n, c, hd, hroom⟩ := h.valid
  exact ⟨h.formats.frame hf h.formats.lt_limit hformat, h.kernelClass_lt,
    h.le_limit.trans hf.limit_le, n, c, hd.frame hf hF hkey fun _ ho _ => ho, hroom⟩

/-- A step elsewhere keeps the map. -/
theorem elsewhere (h : Tabled K L m d f) (helsewhere : Elsewhere d m m') : Tabled K L m' d f := by
  obtain ⟨n, c, hd, -⟩ := h.valid
  refine h.frame helsewhere (fun p hp => ⟨hp.1, hp.2.1⟩) (fun k e hf hmem => ?_) fun c hmem => ?_
  · exact hmem.2.2.1 (hd.holds_iff.mpr ⟨k, hf⟩) rfl
  · exact hmem.2.2.2 c rfl

theorem kernelClass_notMem (h : Tabled K L m d f) (c : KernelClass) :
    kernelClass c ∉ {p | L ≤ p} := by
  have hlt := h.kernelClass_lt c
  intro hmem
  exact absurd (show L ≤ kernelClass c from hmem) (by omega)

/-- No cell of the dictionary is a format of a kernel class. -/
theorem format_notMem (h : Tabled K L m d f) (c : KernelClass) :
    (kernelClass c, Field.format) ∉ m.dictionaryCells d := by
  obtain ⟨n, k, hd, -⟩ := h.valid
  rintro (hmem | hmem)
  · exact h.kernelClass_notMem c ((show kernelClass c = d from hmem) ▸ hd.shape.mem)
  · exact h.kernelClass_notMem c
      ((show kernelClass c = m.slot d Field.array from hmem) ▸ hd.shape.array_mem)

/-- An insertion leaves a dictionary that stands for a map again. -/
theorem of_insertion (h : Tabled K L m d f) (hframe : Frame m.limit (m.dictionaryCells d) m m')
    {n c : ℕ} {g : β → Option ℕ}
    (hd : DictionaryValid K m' ({p | L ≤ p} ∪ {p | m.limit ≤ p}) d n c g) (hroom : c < n) :
    Tabled K L m' d g := by
  refine ⟨h.formats.frame hframe h.formats.lt_limit h.format_notMem, h.kernelClass_lt,
    h.le_limit.trans hframe.limit_le, n, c, hd.mono ?_, hroom⟩
  rintro p (hp | hp)
  · exact hp
  · exact h.le_limit.trans hp

/-- `slvm_Dictionary_addAssociation` succeeds and binds the key of the association to it. -/
theorem addAssociation [DecidableEq β] (h : Tabled K L m d f) {e : ℕ}
    (he : DictionaryEntry K m d e) (hne : e ≠ nilOop) :
    ∃ m', m.dictionaryAddAssociation d e K.hash K.storedEquals = some m' ∧
      Frame m.limit (m.dictionaryCells d) m m' ∧
      Tabled K L m' d (Function.update f (K.content m (m.slot e Field.key)) (some e)) := by
  obtain ⟨n, c, hd, hroom⟩ := h.valid
  obtain ⟨m', n', c', hadd, hframe, hd', hroom'⟩ :=
    hd.addAssociation hroom h.formats h.kernelClass_notMem he hne
  exact ⟨m', hadd, hframe, h.of_insertion hframe hd' hroom'⟩

end Tabled

/-- A dictionary made after the heap ended at `L` stands for the map `f`. Its object has room for
its fields, and its array has a free slot. -/
structure StandsFor (K : KeyScheme β) (L : ℕ) (m : ObjectMemory) (d : ℕ) (f : β → Option ℕ) :
    Prop where
  intact : KernelIntact m
  kernelClass_lt : ∀ c, kernelClass c < L
  le_limit : L ≤ m.limit
  room : Field.array < (m.header d).slotCount
  valid : ∃ n c, DictionaryValid K m {p | L ≤ p} d n c f ∧ c < n

/-- Instances of `Dictionary` have room for their fields. -/
theorem dictionaryNewWithCapacity_room (hk : KernelIntact m) (n : ℕ) :
    ∃ d m', m.dictionaryNewWithCapacity (kernelClass .Dictionary) n = some (d, m') ∧
      NewDictionary m KernelClass.Dictionary.index n d m' ∧
      Field.array < (m'.header d).slotCount := by
  obtain ⟨d, m₁, hbasic, -⟩ := @KernelIntact.kernelNew_pointers _ _ hk .Dictionary (by decide) 0
  obtain ⟨m', hnew, hd, hheader⟩ := dictionaryNewWithCapacity_of_basicNew hk hbasic n
  rw [hk.identityHash_kernelClass] at hd
  refine ⟨d, m', hnew, hd, ?_⟩
  rw [hheader, basicNew_slotCount hbasic, hk.decodeFixedSize_kernelClass,
    hk.decodeFormat_kernelClass]
  decide

namespace StandsFor

theorem tabled (h : StandsFor K L m d f) : Tabled K L m d f :=
  ⟨h.intact.formats, h.kernelClass_lt, h.le_limit, h.valid⟩

/-- **A new dictionary stands for the empty map.** -/
theorem start {m₀ : ObjectMemory} (hk : KernelIntact m₀) {clazz n : ℕ} (hn : 1 ≤ n)
    (hnew : m₀.dictionaryNewWithCapacity clazz n = some (d, m))
    (hroom : Field.array < (m.header d).slotCount) :
    StandsFor K m₀.limit m d fun _ => none := by
  obtain ⟨⟨d₁, m₁⟩, hbasic, -⟩ := Option.bind_eq_some_iff.mp hnew
  obtain ⟨m', hnew', hd, -⟩ := dictionaryNewWithCapacity_of_basicNew hk hbasic n
  obtain ⟨rfl, rfl⟩ := Prod.mk.inj (Option.some.inj (hnew.symm.trans hnew'))
  have htabled : Tabled K m₀.limit m d fun _ => none := Tabled.start hk.formats hn hnew
  exact ⟨hk.frame hd.frame hk.lt_limit (by simp), htabled.kernelClass_lt, htabled.le_limit, hroom,
    htabled.valid⟩

/-- A step that keeps the kernel and the room of the dictionary. -/
theorem of_tabled (h : StandsFor K L m d f) {F : Set (ℕ × ℕ)} (hf : Frame m.limit F m m')
    (hformat : ∀ c, (kernelClass c, Field.format) ∉ F) {g : β → Option ℕ}
    (htabled : Tabled K L m' d g) : StandsFor K L m' d g := by
  obtain ⟨n, c, hd, -⟩ := h.valid
  refine ⟨h.intact.frame hf h.intact.lt_limit hformat, h.kernelClass_lt, htabled.le_limit, ?_,
    htabled.valid⟩
  rw [hf.header d hd.shape.lt_limit]
  exact h.room

/-- What a step keeps of a dictionary, if it changes neither the dictionary nor a key in it. -/
theorem frame (h : StandsFor K L m d f) {F : Set (ℕ × ℕ)} (hf : Frame m.limit F m m')
    (hF : ∀ p ∈ F, p.1 ≠ d ∧ p.1 ≠ m.slot d Field.array)
    (hkey : ∀ k e, f k = some e → (e, Field.key) ∉ F)
    (hformat : ∀ c, (kernelClass c, Field.format) ∉ F) : StandsFor K L m' d f :=
  h.of_tabled hf hformat (h.tabled.frame hf hF hkey hformat)

/-- **A step elsewhere** keeps the map. -/
theorem elsewhere (h : StandsFor K L m d f) (helsewhere : Elsewhere d m m') :
    StandsFor K L m' d f :=
  h.of_tabled helsewhere (fun c hmem => hmem.2.2.2 c rfl) (h.tabled.elsewhere helsewhere)

/-- An insertion leaves a dictionary that stands for a map again. -/
theorem of_insertion (h : StandsFor K L m d f) (hframe : Frame m.limit (m.dictionaryCells d) m m')
    {n c : ℕ} {g : β → Option ℕ}
    (hd : DictionaryValid K m' ({p | L ≤ p} ∪ {p | m.limit ≤ p}) d n c g) (hroom : c < n) :
    StandsFor K L m' d g :=
  h.of_tabled hframe h.tabled.format_notMem (h.tabled.of_insertion hframe hd hroom)

theorem kernelClass_notMem (h : StandsFor K L m d f) (c : KernelClass) :
    kernelClass c ∉ {p | L ≤ p} :=
  h.tabled.kernelClass_notMem c

/-- **`slvm_Dictionary_addAssociation`** succeeds and binds the key of the association to it. -/
theorem addAssociation [DecidableEq β] (h : StandsFor K L m d f) {e : ℕ}
    (he : DictionaryEntry K m d e) (hne : e ≠ nilOop) :
    ∃ m', m.dictionaryAddAssociation d e K.hash K.storedEquals = some m' ∧
      Frame m.limit (m.dictionaryCells d) m m' ∧
      StandsFor K L m' d (Function.update f (K.content m (m.slot e Field.key)) (some e)) := by
  obtain ⟨m', hadd, hframe, htabled⟩ := h.tabled.addAssociation he hne
  exact ⟨m', hadd, hframe, h.of_tabled hframe h.tabled.format_notMem htabled⟩

/-- **`slvm_Dictionary_associationAt`** reads the map. -/
theorem associationAt (h : StandsFor K L m d f) {key : ℕ} (hp : K.Probed m key) :
    m.dictionaryAssociationAt d key K.hash K.storedEquals =
      some ((f (K.content m key)).getD nilOop) := by
  obtain ⟨n, c, hd, hroom⟩ := h.valid
  exact hd.associationAt hp hroom

/-- An object from before the dictionary, with a live key, may be added. -/
theorem entry_of_lt (h : StandsFor K L m d f) {e : ℕ} (hlt : e < L)
    (hstored : K.Stored m (m.slot e Field.key)) (hlive : m.Live (m.slot e Field.key)) :
    DictionaryEntry K m d e := by
  obtain ⟨n, c, hd, -⟩ := h.valid
  have hdl : L ≤ d := hd.shape.mem
  have hal : L ≤ m.slot d Field.array := hd.shape.array_mem
  exact ⟨hstored, hlive, hlt.trans_le h.le_limit, by omega, by omega⟩

/-- The decoded tally is the number of bindings. -/
theorem exists_keys (h : StandsFor K L m d f) :
    ∃ keys : Finset β, (∀ k, k ∈ keys ↔ (f k).isSome) ∧
      keys.card = decodeSmallInteger (m.slot d Field.tally) := by
  obtain ⟨n, c, hd, -⟩ := h.valid
  obtain ⟨keys, hkeys, hcard⟩ := hd.represents.exists_keys
  refine ⟨keys, hkeys, ?_⟩
  rw [hcard, hd.occupied_eq, hd.shape.tally, decodeSmallInteger_encodeSmallInteger]

/-- A slot is free. -/
theorem exists_free (h : StandsFor K L m d f) :
    ∃ i < m.basicSize (m.slot d Field.array), m.slot (m.slot d Field.array) i = nilOop := by
  obtain ⟨n, c, hd, hroom⟩ := h.valid
  obtain ⟨i, hi, hnone⟩ := exists_hole (hd.occupied_eq ▸ hroom)
  rw [hd.shape.basicSize]
  exact ⟨i, hi, dictionaryTable_eq_none.mp hnone⟩

/-- No two slots have keys with the same content. -/
theorem unique (h : StandsFor K L m d f) {i j : ℕ}
    (hi : i < m.basicSize (m.slot d Field.array)) (hj : j < m.basicSize (m.slot d Field.array))
    (hne : m.slot (m.slot d Field.array) i ≠ nilOop)
    (hne' : m.slot (m.slot d Field.array) j ≠ nilOop)
    (heq : K.content m (m.slot (m.slot (m.slot d Field.array) i) Field.key) =
      K.content m (m.slot (m.slot (m.slot d Field.array) j) Field.key)) : i = j := by
  obtain ⟨n, c, hd, -⟩ := h.valid
  rw [hd.shape.basicSize] at hi hj
  exact hd.represents.isTable.unique i hi j hj _ _ (dictionaryTable_eq_some.mpr ⟨rfl, hne, rfl⟩)
    (dictionaryTable_eq_some.mpr ⟨rfl, hne', rfl⟩) heq

end StandsFor

end ObjectMemory

/-! ### Dictionaries with any hash function and equality -/

/-- The state of a run of additions. -/
structure AddRun (β : Type) where
  memory : ObjectMemory
  dictionary : ℕ
  /-- The associations added so far, each with the content of its key, the last first. -/
  added : List (β × ℕ)

namespace AddRun

variable [KernelImage] {β : Type} [DecidableEq β] {K : KeyScheme β} {L : ℕ}

/-- One step of a run. -/
inductive Step (K : KeyScheme β) : AddRun β → AddRun β → Prop
  | addAssociation {s : AddRun β} {e : ℕ} {m : ObjectMemory}
      (he : DictionaryEntry K s.memory s.dictionary e) (hne : e ≠ nilOop)
      (h : s.memory.dictionaryAddAssociation s.dictionary e K.hash K.storedEquals = some m) :
      Step K s { s with
        memory := m
        added := (K.content s.memory (s.memory.slot e Field.key), e) :: s.added }
  | elsewhere {s : AddRun β} {m : ObjectMemory} (h : Elsewhere s.dictionary s.memory m) :
      Step K s { s with memory := m }

/-- A state of a run that begins with a new dictionary. -/
def Reachable (K : KeyScheme β) (s : AddRun β) : Prop :=
  ∃ (m₀ m : ObjectMemory) (clazz n d : ℕ), KernelIntact m₀ ∧ 1 ≤ n ∧
    m₀.dictionaryNewWithCapacity clazz n = some (d, m) ∧ Field.array < (m.header d).slotCount ∧
    ReflTransGen (Step K) ⟨m, d, []⟩ s

/-- The dictionary stands for what was added last. -/
def Valid (K : KeyScheme β) (L : ℕ) (s : AddRun β) : Prop :=
  StandsFor K L s.memory s.dictionary fun k => s.added.lookup k

/-- **One step** keeps the invariant. -/
theorem Valid.step {s s' : AddRun β} (h : s.Valid K L) (hstep : Step K s s') : s'.Valid K L := by
  cases hstep with
  | @addAssociation e m he hne hadd =>
    obtain ⟨m', hadd', -, hstands⟩ := StandsFor.addAssociation h he hne
    obtain rfl := Option.some.inj (hadd.symm.trans hadd')
    rw [← lookup_cons_eq_update] at hstands
    exact hstands
  | elsewhere helsewhere => exact StandsFor.elsewhere h helsewhere

/-- **Every state of a run is valid.** -/
theorem valid_of_run {s : AddRun β} (h : Reachable K s) : ∃ L, s.Valid K L := by
  obtain ⟨m₀, m, clazz, n, d, hk, hn, hnew, hroom, hrun⟩ := h
  refine ⟨m₀.limit, ?_⟩
  induction hrun with
  | refl => exact StandsFor.start hk hn hnew hroom
  | tail _ hstep ih => exact ih.step hstep

/-- **A dictionary returns the association added last** for a key, in every state of every run.
What is in its array are these associations, no two of them for one key, and the tally counts them.
A slot is free, and the next addition succeeds. -/
theorem associationAt_of_run (s : AddRun β) (h : Reachable K s) :
    (∀ key, K.Probed s.memory key →
        s.memory.dictionaryAssociationAt s.dictionary key K.hash K.storedEquals =
          some ((s.added.lookup (K.content s.memory key)).getD nilOop)) ∧
      (∀ e, s.memory.DictionaryHolds s.dictionary e ↔ ∃ k, s.added.lookup k = some e) ∧
      (∀ i < s.memory.basicSize (s.memory.slot s.dictionary Field.array),
        ∀ j < s.memory.basicSize (s.memory.slot s.dictionary Field.array),
        s.memory.slot (s.memory.slot s.dictionary Field.array) i ≠ nilOop →
        s.memory.slot (s.memory.slot s.dictionary Field.array) j ≠ nilOop →
        K.content s.memory (s.memory.slot
            (s.memory.slot (s.memory.slot s.dictionary Field.array) i) Field.key) =
          K.content s.memory (s.memory.slot
            (s.memory.slot (s.memory.slot s.dictionary Field.array) j) Field.key) → i = j) ∧
      decodeSmallInteger (s.memory.slot s.dictionary Field.tally) =
        (s.added.map Prod.fst).toFinset.card ∧
      (∃ i < s.memory.basicSize (s.memory.slot s.dictionary Field.array),
        s.memory.slot (s.memory.slot s.dictionary Field.array) i = nilOop) ∧
      ∀ e, DictionaryEntry K s.memory s.dictionary e → e ≠ nilOop →
        (s.memory.dictionaryAddAssociation s.dictionary e K.hash K.storedEquals).isSome := by
  obtain ⟨L, hvalid⟩ := valid_of_run h
  have hstands : StandsFor K L s.memory s.dictionary fun k => s.added.lookup k := hvalid
  refine ⟨?_, ?_, ?_, ?_, hstands.exists_free, ?_⟩
  · intro key hp
    exact hstands.associationAt hp
  · intro e
    obtain ⟨n, c, hd, -⟩ := hstands.valid
    exact hd.holds_iff
  · intro i hi j hj hne hne' heq
    exact hstands.unique hi hj hne hne' heq
  · obtain ⟨keys, hkeys, hcard⟩ := hstands.exists_keys
    have hsame : keys = (s.added.map Prod.fst).toFinset := by
      ext k
      rw [hkeys k, Option.isSome_iff_ne_none, ne_eq, List.lookup_eq_none_iff, List.mem_toFinset,
        List.mem_map]
      constructor
      · intro hall
        by_contra hnone
        refine hall fun p hp => ?_
        simpa using fun heq : k = p.1 => hnone ⟨p, hp, heq.symm⟩
      · rintro ⟨p, hp, rfl⟩ hall
        simpa using hall p hp
    rw [← hcard, hsame]
  · intro e he hne
    obtain ⟨m, hadd, -⟩ := hstands.addAssociation he hne
    rw [hadd]
    rfl

omit [KernelImage] [DecidableEq β] in
/-- Two associations whose keys, the SmallIntegers 1 and 9, are equal modulo 64: the second one
replaces the first. -/
theorem associationAt_of_run_modulo :
    letI := sequentialImage
    ∃ (s : AddRun (Quotient KeyFunctions.modulo.setoid)) (e : ℕ), s.added.length = 2 ∧
      s.memory.dictionaryAssociationAt s.dictionary 9 KeyFunctions.modulo.scheme.hash
        KeyFunctions.modulo.scheme.storedEquals = some e ∧
      s.memory.slot e Field.key = 73 ∧
      decodeSmallInteger (s.memory.slot s.dictionary Field.tally) = 1 := by
  let := sequentialImage
  have hk : KernelIntact World.sequential.spurInitialize.memory := World.sequential_intact
  obtain ⟨e₁, m₁, -, hframe₁, he₁⟩ := associationMakeWithClass_spec hk 0 9 0
  have hk₁ := hk.frame hframe₁ hk.lt_limit (by simp)
  obtain ⟨e₂, m₂, -, hframe₂, he₂⟩ := associationMakeWithClass_spec hk₁ 0 73 0
  have hk₂ := hk₁.frame hframe₂ hk₁.lt_limit (by simp)
  obtain ⟨d, m₃, hnew, hd, hroom⟩ := dictionaryNewWithCapacity_room hk₂ 1
  have he₁' := he₁.frame hframe₂ (by simp)
  have h₃ := StandsFor.start (K := KeyFunctions.modulo.scheme) hk₂ (Nat.le_refl 1) hnew hroom
  have hkey₁ : m₃.slot e₁ Field.key = 9 := (he₁'.frame hd.frame (by simp)).key
  have hentry₁ := h₃.entry_of_lt he₁'.lt_limit trivial (Or.inl (by rw [hkey₁]; decide))
  have hne₁ : e₁ ≠ nilOop := by
    have := hk.lt_limit .nil
    have := he₁.limit_lt
    unfold nilOop
    omega
  obtain ⟨m₄, hadd₁, hframe₄, h₄⟩ := h₃.addAssociation hentry₁ hne₁
  have hentry₂ := h₃.entry_of_lt he₂.lt_limit trivial
    (Or.inl (by rw [(he₂.frame hd.frame (by simp)).key]; decide))
  have hkey₂ : m₄.slot e₂ Field.key = 73 := by
    refine (hframe₄.slot e₂ hentry₂.lt_limit _ fun hmem => ?_).trans
      (he₂.frame hd.frame (by simp)).key
    rcases hmem with hmem | hmem
    · exact hentry₂.ne_dictionary hmem
    · exact hentry₂.ne_array hmem
  have hentry₂' := h₄.entry_of_lt he₂.lt_limit trivial (Or.inl (by rw [hkey₂]; decide))
  have hne₂ : e₂ ≠ nilOop := by
    have := hk₁.lt_limit .nil
    have := he₂.limit_lt
    unfold nilOop
    omega
  obtain ⟨m₅, hadd₂, hframe₅, h₅⟩ := h₄.addAssociation hentry₂' hne₂
  have hstep₁ := Step.addAssociation (s := ⟨m₃, d, []⟩) hentry₁ hne₁ hadd₁
  have hstep₂ := Step.addAssociation (s := ⟨m₄, d, [(⟦9⟧, e₁)]⟩) hentry₂' hne₂ hadd₂
  rw [hkey₁] at hstep₁
  rw [hkey₂] at hstep₂
  have hclass : (⟦9⟧ : Quotient KeyFunctions.modulo.setoid) = ⟦73⟧ :=
    Quotient.sound (show (9 % 64 == 73 % 64) = true by decide)
  obtain ⟨hat, -, -, htally, -⟩ := associationAt_of_run ⟨m₅, d, [(⟦73⟧, e₂), (⟦9⟧, e₁)]⟩
    ⟨m₂, m₃, _, 1, d, hk₂, Nat.le_refl 1, hnew, hroom, .tail (.single hstep₁) hstep₂⟩
  refine ⟨⟨m₅, d, [(⟦73⟧, e₂), (⟦9⟧, e₁)]⟩, e₂, rfl, ?_, ?_, ?_⟩
  · rw [hat 9 trivial, show KeyFunctions.modulo.scheme.content m₅ 9 = ⟦9⟧ from rfl, hclass,
      List.lookup_cons_self]
    rfl
  · refine (hframe₅.slot e₂ hentry₂'.lt_limit _ fun hmem => ?_).trans hkey₂
    rcases hmem with hmem | hmem
    · exact hentry₂'.ne_dictionary hmem
    · exact hentry₂'.ne_array hmem
  · rw [htally, hclass]
    simp

end AddRun

/-! ### Identity dictionaries -/

namespace ObjectMemory

/-- The association an identity dictionary has for a key, found by looking at all slots. -/
def dictionaryBinding [KernelImage] (m : ObjectMemory) (d key : ℕ) : Option ℕ :=
  ((List.range (m.basicSize (m.slot d Field.array))).map (m.slot (m.slot d Field.array))).find?
    fun e => e ≠ nilOop ∧ m.slot e Field.key = key

variable [KernelImage] {L d : ℕ} {m m' : ObjectMemory} {g : ℕ → Option ℕ}

theorem Tabled.dictionaryBinding_eq (h : Tabled identityScheme L m d g) :
    m.dictionaryBinding d = g := by
  obtain ⟨n, c, hd, -⟩ := h.valid
  funext key
  cases hfind : m.dictionaryBinding d key with
  | none =>
    rw [dictionaryBinding, List.find?_eq_none] at hfind
    cases hg : g key with
    | none => rfl
    | some e =>
      obtain ⟨i, hi, ht⟩ := hd.represents.exists_slot hg
      obtain ⟨rfl, hne, hkey⟩ := dictionaryTable_eq_some.mp ht
      have hmem : i < m.basicSize (m.slot d Field.array) := hd.shape.basicSize ▸ hi
      refine absurd ?_ (hfind _ (List.mem_map.mpr ⟨i, List.mem_range.mpr hmem, rfl⟩))
      exact decide_eq_true ⟨hne, hkey⟩
  | some e =>
    rw [dictionaryBinding] at hfind
    have hfound := List.find?_some hfind
    obtain ⟨hne, hkey⟩ : e ≠ nilOop ∧ m.slot e Field.key = key := by simpa using hfound
    obtain ⟨i, hi, hslot⟩ := List.mem_map.mp (List.mem_of_find?_eq_some hfind)
    have hi' : i < n := hd.shape.basicSize ▸ List.mem_range.mp hi
    have ht : dictionaryTable identityScheme m d i = some (key, e) :=
      dictionaryTable_eq_some.mpr ⟨hslot, hne, hkey⟩
    exact (hd.represents.eq_some_of_slot hi' ht).symm

theorem StandsFor.dictionaryBinding_eq (h : StandsFor identityScheme L m d g) :
    m.dictionaryBinding d = g :=
  h.tabled.dictionaryBinding_eq

end ObjectMemory

/-- The calls on an identity dictionary. -/
inductive IdentityDictionaryCall
  | atPutWithAssociationClass (key value associationClass : ℕ)
  | addAssociation (association : ℕ)
  | addAssociationIfNotExistent (association : ℕ)
  | atOrNil (key : ℕ)
  | associationAt (key : ℕ)

namespace IdentityDictionaryCall

variable [KernelImage]

/-- The call, with the oop it returns. -/
def run (m : ObjectMemory) (d : ℕ) : IdentityDictionaryCall → Option (Option ℕ × ObjectMemory)
  | atPutWithAssociationClass key value associationClass =>
    (m.identityDictionaryAtPutWithAssociationClass d key value associationClass).map (none, ·)
  | addAssociation e => (m.identityDictionaryAddAssociation d e).map (none, ·)
  | addAssociationIfNotExistent e =>
    (m.identityDictionaryAddAssociationIfNotExistent d e).map fun r => (some r.1, r.2)
  | atOrNil key => (m.identityDictionaryAtOrNil d key).map (some ·, m)
  | associationAt key => (m.identityDictionaryAssociationAt d key).map (some ·, m)

/-- Keys are oops, and associations are objects other than the dictionary and its array. -/
def Proper (m : ObjectMemory) (d : ℕ) : IdentityDictionaryCall → Prop
  | atPutWithAssociationClass key _ _ => m.Live key
  | addAssociation e => DictionaryEntry identityScheme m d e ∧ e ≠ nilOop
  | addAssociationIfNotExistent e => DictionaryEntry identityScheme m d e ∧ e ≠ nilOop
  | atOrNil _ => True
  | associationAt _ => True

/-- The step from `m` to `m'` changed the dictionary and its array only, and made `e` the
association of a key and left the other keys theirs. -/
def Binds (m : ObjectMemory) (d key e : ℕ) (m' : ObjectMemory) : Prop :=
  Frame m.limit (m.dictionaryCells d) m m' ∧
    m'.dictionaryBinding d = Function.update (m.dictionaryBinding d) key (some e)

/-- What a call does to a map from keys to associations, and what it returns. -/
def Effect (m : ObjectMemory) (d : ℕ) (result : Option ℕ) (m' : ObjectMemory) :
    IdentityDictionaryCall → Prop
  | atPutWithAssociationClass key value _ => result = none ∧
    match m.dictionaryBinding d key with
    | some e => m' = m.setSlot e Field.value value ∧ m'.dictionaryBinding d = m.dictionaryBinding d
    | none => ∃ e, NewAssociation m key value e m' ∧ Binds m d key e m'
  | addAssociation e => result = none ∧ Binds m d (m.slot e Field.key) e m'
  | addAssociationIfNotExistent e =>
    match m.dictionaryBinding d (m.slot e Field.key) with
    | some a => result = some a ∧ m' = m
    | none => result = some e ∧ Binds m d (m.slot e Field.key) e m'
  | atOrNil key => m' = m ∧
    result = some (((m.dictionaryBinding d key).map fun e => m.slot e Field.value).getD nilOop)
  | associationAt key => m' = m ∧ result = some ((m.dictionaryBinding d key).getD nilOop)

variable {L d : ℕ} {m m' : ObjectMemory} {g : ℕ → Option ℕ}

/-- One call keeps the invariant, whatever class indices the kernel classes have. -/
theorem run_tabled (h : Tabled identityScheme L m d g) (call : IdentityDictionaryCall)
    (hproper : call.Proper m d) :
    ∃ result m' g', call.run m d = some (result, m') ∧ Tabled identityScheme L m' d g' := by
  obtain ⟨n, c, hd, hroom⟩ := h.valid
  cases call with
  | atPutWithAssociationClass key value associationClass =>
    cases hkey : g key with
    | some e =>
      obtain ⟨hput, hd'⟩ := hd.atPut_of_some hkey value associationClass
      exact ⟨none, _, g, by rw [run, hput]; rfl,
        h.formats.setSlot (by decide), h.kernelClass_lt, h.le_limit, n, c, hd', hroom⟩
    | none =>
      obtain ⟨e, m', n', c', hput, hframe, hd', hroom', -⟩ := hd.atPut_of_none_made hroom h.formats
        h.kernelClass_notMem hproper hkey value associationClass
      exact ⟨none, m', _, by rw [run, hput]; rfl, h.of_insertion hframe hd' hroom'⟩
  | addAssociation e =>
    obtain ⟨m', hadd, -, htabled⟩ := h.addAssociation hproper.1 hproper.2
    have hadd' : m.identityDictionaryAddAssociation d e = some m' := hadd
    exact ⟨none, m', _, by rw [run, hadd']; rfl, htabled⟩
  | addAssociationIfNotExistent e =>
    obtain ⟨he, hne⟩ := hproper
    cases hkey : g (m.slot e Field.key) with
    | some a =>
      have hadd := hd.addAssociationIfNotExistent_of_some hne hkey
      exact ⟨some a, m, g, by rw [run, hadd]; rfl, h⟩
    | none =>
      obtain ⟨m', n', c', hadd, hframe, hd', hroom'⟩ :=
        hd.addAssociationIfNotExistent_of_none hroom h.formats h.kernelClass_notMem he hne hkey
      exact ⟨some e, m', _, by rw [run, hadd]; rfl, h.of_insertion hframe hd' hroom'⟩
  | atOrNil key => exact ⟨_, m, g, by rw [run, hd.atOrNil hroom key]; rfl, h⟩
  | associationAt key =>
    have hprobed : identityScheme.Probed m key := trivial
    have hat : m.identityDictionaryAssociationAt d key = some ((g key).getD nilOop) :=
      hd.associationAt hprobed hroom
    exact ⟨_, m, g, by rw [run, hat]; rfl, h⟩

/-- **One call** succeeds with its effect and keeps the invariant. -/
theorem run_spec (h : StandsFor identityScheme L m d g) (call : IdentityDictionaryCall)
    (hproper : call.Proper m d) :
    ∃ result m' g', call.run m d = some (result, m') ∧ call.Effect m d result m' ∧
      StandsFor identityScheme L m' d g' := by
  have hg := h.dictionaryBinding_eq
  obtain ⟨n, c, hd, hroom⟩ := h.valid
  cases call with
  | atPutWithAssociationClass key value associationClass =>
    cases hkey : g key with
    | some e =>
      obtain ⟨hput, -⟩ := hd.atPut_of_some hkey value associationClass
      have he := (hd.of_some hkey).1
      have hstands : StandsFor identityScheme L (m.setSlot e Field.value value) d g := by
        refine h.frame (Frame.setSlot_cell m.limit m e Field.value value) ?_ (by simp) ?_
        · rintro p rfl
          exact ⟨he.ne_dictionary, he.ne_array⟩
        · intro c hmem
          exact absurd (Prod.mk.inj hmem).2 (by decide)
      refine ⟨none, _, g, by rw [run, hput]; rfl, ⟨rfl, ?_⟩, hstands⟩
      rw [hg, hkey]
      exact ⟨rfl, hstands.dictionaryBinding_eq⟩
    | none =>
      obtain ⟨e, m', n', c', hput, hframe, hd', hroom', hnew⟩ := hd.atPut_of_none hroom h.intact
        h.kernelClass_notMem hproper hkey value associationClass
      have hstands := h.of_insertion hframe hd' hroom'
      refine ⟨none, m', _, by rw [run, hput]; rfl, ⟨rfl, ?_⟩, hstands⟩
      rw [hg, hkey]
      refine ⟨e, hnew, hframe, ?_⟩
      rw [hstands.dictionaryBinding_eq, hg]
  | addAssociation e =>
    obtain ⟨he, hne⟩ := hproper
    obtain ⟨m', hadd, hframe, hstands⟩ := h.addAssociation he hne
    have hadd' : m.identityDictionaryAddAssociation d e = some m' := hadd
    refine ⟨none, m', _, by rw [run, hadd']; rfl, ⟨rfl, hframe, ?_⟩, hstands⟩
    rw [hstands.dictionaryBinding_eq, hg]
    rfl
  | addAssociationIfNotExistent e =>
    obtain ⟨he, hne⟩ := hproper
    cases hkey : g (m.slot e Field.key) with
    | some a =>
      have hadd := hd.addAssociationIfNotExistent_of_some hne hkey
      refine ⟨some a, m, g, by rw [run, hadd]; rfl, ?_, h⟩
      simp only [Effect, hg, hkey, and_self]
    | none =>
      obtain ⟨m', n', c', hadd, hframe, hd', hroom'⟩ :=
        hd.addAssociationIfNotExistent_of_none hroom h.intact.formats h.kernelClass_notMem he hne
          hkey
      have hstands := h.of_insertion hframe hd' hroom'
      refine ⟨some e, m', _, by rw [run, hadd]; rfl, ?_, hstands⟩
      simp only [Effect, hg, hkey, true_and]
      refine ⟨hframe, ?_⟩
      rw [hstands.dictionaryBinding_eq, hg]
  | atOrNil key =>
    refine ⟨_, m, g, by rw [run, hd.atOrNil hroom key]; rfl, ⟨rfl, ?_⟩, h⟩
    rw [hg]
  | associationAt key =>
    have hprobed : identityScheme.Probed m key := trivial
    have hat : m.identityDictionaryAssociationAt d key = some ((g key).getD nilOop) :=
      hd.associationAt hprobed hroom
    refine ⟨_, m, g, by rw [run, hat]; rfl, ⟨rfl, ?_⟩, h⟩
    rw [hg]

/-- One step of a run on the dictionary `d`: a call, or something that happens elsewhere. -/
inductive Step (d : ℕ) : ObjectMemory → ObjectMemory → Prop
  | call {m m' : ObjectMemory} {result : Option ℕ} (call : IdentityDictionaryCall)
      (hproper : call.Proper m d) (h : call.run m d = some (result, m')) : Step d m m'
  | elsewhere {m m' : ObjectMemory} (h : Elsewhere d m m') : Step d m m'

/-- **Every state of a run** on a new dictionary stands for a map. -/
theorem standsFor_of_run {m₀ m₁ : ObjectMemory} (hk : KernelIntact m₀) {clazz n : ℕ} (hn : 1 ≤ n)
    (hnew : m₀.dictionaryNewWithCapacity clazz n = some (d, m₁))
    (hroom : Field.array < (m₁.header d).slotCount) (hrun : ReflTransGen (Step d) m₁ m) :
    ∃ g, StandsFor identityScheme m₀.limit m d g := by
  induction hrun with
  | refl => exact ⟨_, StandsFor.start hk hn hnew hroom⟩
  | tail _ hstep ih =>
    obtain ⟨g, hg⟩ := ih
    cases hstep with
    | call call hproper hcall =>
      obtain ⟨result, m', g', hcall', -, hg'⟩ := run_spec hg call hproper
      obtain ⟨-, rfl⟩ := Prod.mk.inj (Option.some.inj (hcall.symm.trans hcall'))
      exact ⟨g', hg'⟩
    | elsewhere helsewhere => exact ⟨g, hg.elsewhere helsewhere⟩

/-- **An identity dictionary is a map from keys to associations**, in every state of every run on a
new dictionary of any class with room for its fields and of any capacity but 0. It begins empty,
each call succeeds and does to it what it does to a map, and nothing else changes it. The tally
counts the bindings and a slot is free. -/
theorem effect_of_run {m₀ m₁ : ObjectMemory} (hk : KernelIntact m₀) {clazz n : ℕ} (hn : 1 ≤ n)
    (hnew : m₀.dictionaryNewWithCapacity clazz n = some (d, m₁))
    (hroom : Field.array < (m₁.header d).slotCount) (hrun : ReflTransGen (Step d) m₁ m) :
    (m₁.dictionaryBinding d = fun _ => none) ∧
      (∀ call : IdentityDictionaryCall, call.Proper m d →
        ∃ result m', call.run m d = some (result, m') ∧ call.Effect m d result m') ∧
      (∀ m', Elsewhere d m m' → m'.dictionaryBinding d = m.dictionaryBinding d) ∧
      (∃ keys : Finset ℕ, (∀ key, key ∈ keys ↔ (m.dictionaryBinding d key).isSome) ∧
        keys.card = decodeSmallInteger (m.slot d Field.tally)) ∧
      (∃ i < m.basicSize (m.slot d Field.array), m.slot (m.slot d Field.array) i = nilOop) ∧
      Field.array < (m.header d).slotCount := by
  obtain ⟨g, hg⟩ := standsFor_of_run hk hn hnew hroom hrun
  refine ⟨?_, ?_, ?_, ?_, hg.exists_free, hg.room⟩
  · exact (StandsFor.start hk hn hnew hroom).dictionaryBinding_eq
  · intro call hproper
    obtain ⟨result, m', -, hcall, heffect, -⟩ := run_spec hg call hproper
    exact ⟨result, m', hcall, heffect⟩
  · intro m' helsewhere
    rw [hg.dictionaryBinding_eq, (hg.elsewhere helsewhere).dictionaryBinding_eq]
  · rw [hg.dictionaryBinding_eq]
    exact hg.exists_keys

omit [KernelImage] in
/-- Storing under the SmallInteger 1 twice, in a dictionary of capacity 1: the first store makes an
association and grows the array, the second one changes the value of the association. -/
theorem effect_of_run_twice :
    letI := sequentialImage
    ∃ (m m' : ObjectMemory) (d e : ℕ), m.slot e Field.value = 17 ∧
      m.dictionaryBinding d 9 = some e ∧
      m.identityDictionaryAtPutWithAssociationClass d 9 25 nilOop = some m' ∧
      m' = m.setSlot e Field.value 25 := by
  let := sequentialImage
  have hk : KernelIntact World.sequential.spurInitialize.memory := World.sequential_intact
  obtain ⟨d, m₁, hnew, -, hroom⟩ := dictionaryNewWithCapacity_room hk 1
  have hproper : ∀ m value,
      (atPutWithAssociationClass 9 value nilOop).Proper m d := fun _ _ => Or.inl (by decide)
  obtain ⟨hempty, hcalls, -⟩ := effect_of_run hk (Nat.le_refl 1) hnew hroom .refl
  obtain ⟨result, m, hrun, -, heffect⟩ := hcalls _ (hproper m₁ 17)
  rw [hempty] at heffect
  obtain ⟨e, he, -, hbinding⟩ := heffect
  have hbound : m.dictionaryBinding d 9 = some e := by
    rw [hbinding, Function.update_self]
  obtain ⟨-, hcalls', -⟩ := effect_of_run hk (Nat.le_refl 1) hnew hroom
    (.single (.call _ (hproper m₁ 17) hrun))
  obtain ⟨result', m', hrun', -, heffect'⟩ := hcalls' _ (hproper m 25)
  rw [hbound] at heffect'
  obtain ⟨r, hput, hr⟩ := Option.map_eq_some_iff.mp hrun'
  obtain ⟨-, rfl⟩ := Prod.mk.inj hr
  exact ⟨m, r, d, e, he.value, hbound, hput, heffect'.1⟩

end IdentityDictionaryCall

end SlvmNative
