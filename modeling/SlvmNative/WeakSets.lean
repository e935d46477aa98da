import SlvmNative.HashedCollections

/-!
# Weak sets

`SLVM_WeakSet`: a set whose free slots hold a flag object of its own. An element is stored in the
first slot, from its home slot on, that holds the flag or an equal element.

## Main definitions

* `ObjectMemory.weakSetNew`, `weakSetScanFor`, `weakSetFind`, `weakSetAdd`
* `ObjectMemory.WeakSetValid` — the set stands for a map from contents to elements

## Main results

* `ObjectMemory.WeakSetValid.find` — looking up an element
* `ObjectMemory.WeakSetValid.add` — adding an element succeeds and changes one binding
* `ObjectMemory.weakSetNew_spec` — a new set is empty
-/

namespace SlvmNative

open LinearProbing

namespace ObjectMemory

/-! ### The operations -/

/-- `slvm_WeakSet_scanFor`: the index found, or nothing for -1. It fails where the hash function
does. -/
def weakSetScanFor (m : ObjectMemory) (set object : ℕ) (hash : ObjectMemory → ℕ → Option ℕ)
    (equals : ObjectMemory → ℕ → ℕ → Bool) : Option (Option ℕ) :=
  let array := m.slot set Field.array
  let arraySize := m.basicSize array
  let flag := m.slot set Field.flag
  if arraySize = 0 then some none
  else do
    let h ← hash m object
    return probe arraySize (h % arraySize) fun index =>
      m.slot array index == flag || equals m object (m.slot array index)

/-- `slvm_WeakSet_doAdd` -/
def weakSetDoAdd (m : ObjectMemory) (set object : ℕ) (hash : ObjectMemory → ℕ → Option ℕ)
    (equals : ObjectMemory → ℕ → ℕ → Bool) : Option ObjectMemory := do
  -- `assert(index >= 0)`
  let index ← ← m.weakSetScanFor set object hash equals
  if m.slot (m.slot set Field.array) index = object then return m
  else
    let m := m.setSlot (m.slot set Field.array) index object
    return m.setSlot set Field.tally (m.slot set Field.tally + encodeSmallIntegerOffset 1)

section

variable [KernelImage]

/-- `slvm_WeakSet_find` -/
def weakSetFind (m : ObjectMemory) (set object : ℕ) (hash : ObjectMemory → ℕ → Option ℕ)
    (equals : ObjectMemory → ℕ → ℕ → Bool) : Option ℕ := do
  match ← m.weakSetScanFor set object hash equals with
  | none => return nilOop
  | some index =>
    let result := m.slot (m.slot set Field.array) index
    return if result = m.slot set Field.flag then nilOop else result

/-- `slvm_WeakSet_newStorage` -/
def weakSetNewStorage (m : ObjectMemory) (set storageSize : ℕ) : Option (ℕ × ObjectMemory) := do
  let flag := m.slot set Field.flag
  let (result, m) ← m.kernelNew .Array storageSize
  return (result, m.fillSlots result storageSize flag)

/-- `slvm_WeakSet_new` -/
def weakSetNew (m : ObjectMemory) (n : ℕ) : Option (ℕ × ObjectMemory) := do
  let (result, m) ← m.kernelNew .WeakSet 0
  let (flag, m) ← m.kernelNew .Object 0
  let m := m.setSlot result Field.flag flag
  let m := m.setSlot result Field.tally (encodeSmallInteger 0)
  let (storage, m) ← m.weakSetNewStorage result n
  return (result, m.setSlot result Field.array storage)

/-- `slvm_WeakSet_doGrow` -/
def weakSetDoGrow (m : ObjectMemory) (set : ℕ) (hash : ObjectMemory → ℕ → Option ℕ)
    (equals : ObjectMemory → ℕ → ℕ → Bool) (newArraySize : ℕ) : Option ObjectMemory := do
  let flag := m.slot set Field.flag
  -- allocate the new array
  let oldArray := m.slot set Field.array
  let arraySize := m.basicSize oldArray
  let m := m.setSlot set Field.tally (encodeSmallInteger 0)
  let (storage, m) ← m.weakSetNewStorage set newArraySize
  let m := m.setSlot set Field.array storage
  -- reinsert the elements into the set
  (List.range arraySize).foldlM (fun m i =>
    let element := m.slot oldArray i
    if element = flag then some m else m.weakSetDoAdd set element hash equals) m

/-- `slvm_WeakSet_grow` -/
def weakSetGrow (m : ObjectMemory) (set : ℕ) (hash : ObjectMemory → ℕ → Option ℕ)
    (equals : ObjectMemory → ℕ → ℕ → Bool) : Option ObjectMemory := do
  -- try to recreate the set with the same size
  let arraySize := m.basicSize (m.slot set Field.array)
  let m ← m.weakSetDoGrow set hash equals arraySize
  if m.hashedCollectionFullCondition set then
    m.weakSetDoGrow set hash equals (doubledArraySize arraySize)
  else return m

/-- `slvm_WeakSet_add` -/
def weakSetAdd (m : ObjectMemory) (set object : ℕ) (hash : ObjectMemory → ℕ → Option ℕ)
    (equals : ObjectMemory → ℕ → ℕ → Bool) : Option ObjectMemory := do
  let m ← m.weakSetDoAdd set object hash equals
  if m.hashedCollectionFullCondition set then m.weakSetGrow set hash equals
  else return m

end

/-! ### The invariant -/

variable {β : Type} {K : KeyScheme β}

/-- The array of a set as a table of contents and elements. -/
def weakSetTable (K : KeyScheme β) (m : ObjectMemory) (set i : ℕ) : Option (β × ℕ) :=
  let element := m.slot (m.slot set Field.array) i
  if element = m.slot set Field.flag then none else some (K.content m element, element)

/-- A set of `n` slots and tally `c` that stands for the map `f`. The tally may count an element
that has been replaced by an equal one. -/
structure WeakSetValid (K : KeyScheme β) (m : ObjectMemory) (R : Set ℕ) (set n c : ℕ)
    (f : β → Option ℕ) : Prop where
  shape : HashedShape m R set n c
  pos : 0 < n
  occupied_le : occupied n (weakSetTable K m set) ≤ c
  tally_le : c ≤ n
  stored : ∀ i < n, ∀ k e, weakSetTable K m set i = some (k, e) → K.Stored m e ∧ m.Live e
  /-- The flag is a plain object. -/
  flag : m.slot set Field.flag < m.limit ∧
    (m.header (m.slot set Field.flag)).classIndex = KernelClass.Object.index
  represents : Represents n (fun k => K.hashOf m k % n) (weakSetTable K m set) f

theorem weakSetTable_eq_none {m : ObjectMemory} {set i : ℕ} :
    weakSetTable K m set i = none ↔
      m.slot (m.slot set Field.array) i = m.slot set Field.flag := by
  simp [weakSetTable]

theorem weakSetTable_eq_some {m : ObjectMemory} {set i e : ℕ} {k : β} :
    weakSetTable K m set i = some (k, e) ↔ m.slot (m.slot set Field.array) i = e ∧
      e ≠ m.slot set Field.flag ∧ K.content m e = k := by
  simp only [weakSetTable]
  split
  · rename_i h
    constructor
    · intro h'
      cases h'
    · rintro ⟨rfl, hne, -⟩
      exact absurd h hne
  · rename_i h
    constructor
    · intro h'
      obtain ⟨hk, rfl⟩ := Prod.mk.inj (Option.some.inj h')
      exact ⟨rfl, h, hk⟩
    · rintro ⟨rfl, -, rfl⟩
      rfl

namespace WeakSetValid

variable {m m' : ObjectMemory} {R R' : Set ℕ} {set n c object : ℕ} {f : β → Option ℕ}

/-- The test of the scan accepts what it should. -/
theorem accepts (h : WeakSetValid K m R set n c f) (hp : K.Probed m object) :
    Accepts n Eq (weakSetTable K m set) (K.content m object) fun index =>
      m.slot (m.slot set Field.array) index == m.slot set Field.flag ||
        K.equals m object (m.slot (m.slot set Field.array) index) := by
  intro i hi
  cases htable : weakSetTable K m set i with
  | none => simp [weakSetTable_eq_none.mp htable]
  | some entry =>
    obtain ⟨k, e⟩ := entry
    obtain ⟨hslot, hne, rfl⟩ := weakSetTable_eq_some.mp htable
    have hstored := (h.stored i hi _ e htable).1
    simp only [hslot, Bool.or_eq_true, beq_iff_eq, hne, false_or, K.equals_iff hp hstored]
    simp [eq_comm]

/-- **Scanning** finds where an element belongs, if the set has a free slot or the element. -/
theorem scanFor (h : WeakSetValid K m R set n c f) (hp : K.Probed m object)
    (hroom : c < n) [DecidableEq β] :
    ∃ i < n, m.weakSetScanFor set object K.hash K.equals = some (some i) ∧
      weakSetTable K m set i = (f (K.content m object)).map (Prod.mk (K.content m object)) ∧
      ∀ v, Represents n (fun k => K.hashOf m k % n)
        (Function.update (weakSetTable K m set) i (some (K.content m object, v)))
        (Function.update f (K.content m object) (some v)) := by
  have hhole := exists_hole (h.occupied_le.trans_lt hroom)
  obtain ⟨i, hi, hprobe, hslot, hupdate⟩ :=
    h.represents.scan hhole (h.accepts hp) (Nat.mod_lt _ h.pos)
  refine ⟨i, hi, ?_, hslot, hupdate⟩
  simp only [weakSetScanFor, h.shape.basicSize, if_neg h.pos.ne', K.hash_eq hp]
  exact congrArg some hprobe

/-- **`slvm_WeakSet_find`** -/
theorem find [KernelImage] [DecidableEq β] (h : WeakSetValid K m R set n c f)
    (hp : K.Probed m object) (hroom : c < n) :
    m.weakSetFind set object K.hash K.equals = some ((f (K.content m object)).getD nilOop) := by
  obtain ⟨i, -, hscan, hslot, -⟩ := h.scanFor hp hroom
  rw [weakSetFind, hscan]
  cases hf : f (K.content m object) with
  | none =>
    rw [hf] at hslot
    exact congrArg some (if_pos (weakSetTable_eq_none.mp hslot))
  | some v =>
    rw [hf] at hslot
    obtain ⟨hv, hne, -⟩ := weakSetTable_eq_some.mp hslot
    subst hv
    exact congrArg some (if_neg hne)

/-- The set survives a step that changes no cell of it. -/
theorem frame (h : WeakSetValid K m R set n c f) {F : Set (ℕ × ℕ)} (hf : Frame m.limit F m m')
    (hF : ∀ p ∈ F, p.1 ∉ R) (hR : ∀ o ∈ R, o < m.limit → o ∈ R') :
    WeakSetValid K m' R' set n c f := by
  have hset : ∀ i, m'.slot set i = m.slot set i := fun i =>
    hf.slot set h.shape.lt_limit i fun hmem => hF _ hmem h.shape.mem
  have harray : ∀ i, m'.slot (m.slot set Field.array) i = m.slot (m.slot set Field.array) i :=
    fun i => hf.slot _ h.shape.array_lt_limit i fun hmem => hF _ hmem h.shape.array_mem
  have htable : ∀ i < n, weakSetTable K m' set i = weakSetTable K m set i := by
    intro i hi
    cases ht : weakSetTable K m set i with
    | none =>
      rw [weakSetTable_eq_none, hset, hset, harray]
      exact weakSetTable_eq_none.mp ht
    | some entry =>
      obtain ⟨k, e⟩ := entry
      obtain ⟨hslot, hne, hk⟩ := weakSetTable_eq_some.mp ht
      obtain ⟨hstored, hlive⟩ := h.stored i hi k e ht
      rw [weakSetTable_eq_some, hset, hset, harray]
      refine ⟨hslot, hne, ?_⟩
      rw [K.content_congr (K.probed_of_stored hstored) (hf.sameBody hlive), hk]
  refine ⟨h.shape.frame hf (h.shape.not_mem_cells hF) hR, h.pos, ?_, h.tally_le, ?_, ?_, ?_⟩
  · rw [occupied_congr htable]
    exact h.occupied_le
  · intro i hi k e ht
    rw [htable i hi] at ht
    obtain ⟨hstored, hlive⟩ := h.stored i hi k e ht
    exact ⟨K.stored_congr hstored (hf.sameBody hlive), hf.live hlive⟩
  · rw [hset, hf.header _ h.flag.1]
    exact ⟨h.flag.1.trans_le hf.limit_le, h.flag.2⟩
  · refine (h.represents.congr_home ?_).congr htable
    rintro i hi ⟨k, e⟩ ht
    obtain ⟨hstored, hlive⟩ := h.stored i hi k e ht
    obtain ⟨-, -, rfl⟩ := weakSetTable_eq_some.mp ht
    exact congrArg (· % n) (K.hashOf_congr (K.probed_of_stored hstored) (hf.sameBody hlive))

/-- The elements of the set are what they are stored for. -/
theorem of_some (h : WeakSetValid K m R set n c f) {k : β} {e : ℕ} (hf : f k = some e) :
    K.Stored m e ∧ m.Live e ∧ K.content m e = k := by
  obtain ⟨i, hi, ht⟩ := h.represents.exists_slot hf
  obtain ⟨hstored, hlive⟩ := h.stored i hi k e ht
  exact ⟨hstored, hlive, (weakSetTable_eq_some.mp ht).2.2⟩

theorem mono (h : WeakSetValid K m R set n c f) (hR : R ⊆ R') : WeakSetValid K m R' set n c f :=
  ⟨h.shape.mono hR, h.pos, h.occupied_le, h.tally_le, h.stored, h.flag, h.represents⟩

end WeakSetValid

/-! ### Storing an element -/

theorem weakSetDoAdd_eq {m : ObjectMemory} {set object index : ℕ} (h : m.slot set Field.array ≠ set)
    (hscan : m.weakSetScanFor set object K.hash K.equals = some (some index)) :
    m.weakSetDoAdd set object K.hash K.equals =
      some (if m.slot (m.slot set Field.array) index = object then m
        else m.storeElement set index object) := by
  rw [weakSetDoAdd, hscan]
  simp only [Option.bind_eq_bind, Option.bind_some, Option.pure_def]
  split
  · rfl
  · rw [storeElement, setSlot_slot_of_ne _ _ _ _ h.symm]

section Store

variable {m : ObjectMemory} {set index object : ℕ}

/-- The table after a store. -/
theorem weakSetTable_store (h : m.slot set Field.array ≠ set)
    (hobject : object ≠ m.slot set Field.flag)
    {i : ℕ} (hbody : ∀ k e, weakSetTable K m set i = some (k, e) → K.Probed m e)
    (hprobed : K.Probed m object) :
    weakSetTable K (m.storeElement set index object) set i =
      Function.update (weakSetTable K m set) index (some (K.content m object, object)) i := by
  have hsame : ∀ e, SameBody m (m.storeElement set index object) e := fun e =>
    Or.inr ⟨rfl, rfl, rfl⟩
  have harray := @storeElement_collection m set index object h Field.array (by decide)
  have hflag := @storeElement_collection m set index object h Field.flag (by decide)
  by_cases hi : i = index
  · subst hi
    rw [Function.update_self, weakSetTable_eq_some, harray, hflag, storeElement_array h,
      Function.update_self]
    exact ⟨rfl, hobject, K.content_congr hprobed (hsame object)⟩
  · rw [Function.update_of_ne hi]
    cases ht : weakSetTable K m set i with
    | none =>
      rw [weakSetTable_eq_none, harray, hflag, storeElement_array h, Function.update_of_ne hi]
      exact weakSetTable_eq_none.mp ht
    | some entry =>
      obtain ⟨k, e⟩ := entry
      obtain ⟨hslot, hne, hk⟩ := weakSetTable_eq_some.mp ht
      rw [weakSetTable_eq_some, harray, hflag, storeElement_array h, Function.update_of_ne hi]
      exact ⟨hslot, hne, (K.content_congr (hbody k e ht) (hsame e)).trans hk⟩

end Store

namespace WeakSetValid

variable {m m' : ObjectMemory} {R R' : Set ℕ} {set n c object index : ℕ} {f : β → Option ℕ}
  [DecidableEq β]

omit [DecidableEq β] in
/-- The table of a valid set after a store. -/
theorem table_store (h : WeakSetValid K m R set n c f) (hobject : K.Stored m object)
    (hflag : object ≠ m.slot set Field.flag) (index : ℕ) :
    ∀ i < n, weakSetTable K (m.storeElement set index object) set i =
      Function.update (weakSetTable K m set) index (some (K.content m object, object)) i := by
  intro i hi
  refine weakSetTable_store h.shape.array_ne hflag (fun k e ht => ?_) (K.probed_of_stored hobject)
  exact K.probed_of_stored (h.stored i hi k e ht).1

/-- Storing an element where it belongs. -/
theorem store (h : WeakSetValid K m R set n c f) (hroom : c < n) (hobject : K.Stored m object)
    (hlive : m.Live object) (hflag : object ≠ m.slot set Field.flag) (hindex : index < n)
    (hupdate : Represents n (fun k => K.hashOf m k % n)
      (Function.update (weakSetTable K m set) index (some (K.content m object, object)))
      (Function.update f (K.content m object) (some object))) :
    WeakSetValid K (m.storeElement set index object) R set n (c + 1)
      (Function.update f (K.content m object) (some object)) := by
  have hsame : ∀ e, SameBody m (m.storeElement set index object) e := fun e =>
    Or.inr ⟨rfl, rfl, rfl⟩
  have htable := h.table_store hobject hflag index
  have hentries : ∀ i < n, ∀ k e, weakSetTable K (m.storeElement set index object) set i =
      some (k, e) → K.Stored m e ∧ m.Live e ∧ k = K.content m e := by
    intro i hi k e ht
    rw [htable i hi] at ht
    by_cases hii : i = index
    · rw [hii, Function.update_self] at ht
      obtain ⟨rfl, rfl⟩ := Prod.mk.inj (Option.some.inj ht)
      exact ⟨hobject, hlive, rfl⟩
    · rw [Function.update_of_ne hii] at ht
      obtain ⟨hstored, hlive'⟩ := h.stored i hi k e ht
      exact ⟨hstored, hlive', (weakSetTable_eq_some.mp ht).2.2.symm⟩
  refine ⟨h.shape.store index object, h.pos, ?_, hroom, fun i hi k e ht => ?_, ?_, ?_⟩
  · rw [occupied_congr htable]
    have hle := h.occupied_le
    cases ht : weakSetTable K m set index with
    | none =>
      rw [occupied_update_of_none hindex ht]
      omega
    | some entry =>
      rw [occupied_update_of_some ht]
      omega
  · obtain ⟨hstored, hlive', -⟩ := hentries i hi k e ht
    exact ⟨K.stored_congr hstored (hsame e), hlive'⟩
  · rw [storeElement_collection h.shape.array_ne (by decide)]
    exact h.flag
  · refine (hupdate.congr htable).congr_home ?_
    rintro i hi ⟨k, e⟩ ht
    obtain ⟨hstored, -, rfl⟩ := hentries i hi k e ht
    exact congrArg (· % n) (K.hashOf_congr (K.probed_of_stored hstored) (hsame e))

/-- **`slvm_WeakSet_doAdd`** stores the element, and counts it unless it is in the set itself. -/
theorem doAdd (h : WeakSetValid K m R set n c f) (hroom : c < n) (hobject : K.Stored m object)
    (hlive : m.Live object) (hflag : object ≠ m.slot set Field.flag) :
    ∃ m' c', m.weakSetDoAdd set object K.hash K.equals = some m' ∧ (m' = m ∨
        ∃ index, m' = m.storeElement set index object) ∧
      WeakSetValid K m' R set n c' (Function.update f (K.content m object) (some object)) ∧
      c' = if f (K.content m object) = some object then c else c + 1 := by
  obtain ⟨i, hi, hscan, hslot, hupdate⟩ := h.scanFor (K.probed_of_stored hobject) hroom
  rw [weakSetDoAdd_eq h.shape.array_ne hscan]
  by_cases heq : m.slot (m.slot set Field.array) i = object
  · -- the element is in the set
    rw [if_pos heq]
    have ht : weakSetTable K m set i = some (K.content m object, object) :=
      weakSetTable_eq_some.mpr ⟨heq, hflag, rfl⟩
    have hf : f (K.content m object) = some object := h.represents.eq_some_of_slot hi ht
    refine ⟨m, c, rfl, Or.inl rfl, ?_, (if_pos hf).symm⟩
    rwa [← hf, Function.update_eq_self]
  · rw [if_neg heq]
    refine ⟨_, c + 1, rfl, Or.inr ⟨i, rfl⟩, h.store hroom hobject hlive hflag hi (hupdate object),
      (if_neg fun hf => heq ?_).symm⟩
    rw [hf] at hslot
    exact (weakSetTable_eq_some.mp hslot).1

end WeakSetValid

/-! ### Growing -/

section Grow

variable [KernelImage]

/-- `slvm_WeakSet_newStorage` returns an array full of flags. -/
theorem weakSetNewStorage_spec {m : ObjectMemory} (h : KernelIntact m) (set size : ℕ) :
    ∃ storage m', m.weakSetNewStorage set size = some (storage, m') ∧
      Allocated m KernelClass.Array.index size storage m' ∧
      ∀ i < size, m'.slot storage i = m.slot set Field.flag := by
  obtain ⟨storage, m', hnew, halloc, -, -⟩ :=
    @KernelIntact.kernelNew_pointers _ _ h .Array (by decide) size
  have hsize : KernelClass.Array.info.fixedSize + size = size := Nat.zero_add size
  rw [hsize] at halloc
  refine ⟨storage, _, ?_, halloc.fillSlots size (m.slot set Field.flag),
    fun i hi => fillSlots_slot_of_lt _ _ _ _ hi⟩
  rw [weakSetNewStorage, hnew]
  rfl

/-- The set with a new array of `n'` free slots, where the reinsertion loop of `slvm_WeakSet_doGrow`
begins. -/
structure Emptied (m : ObjectMemory) (R : Set ℕ) (set n' : ℕ) (s : ObjectMemory) : Prop where
  shape : HashedShape s (R ∪ {p | m.limit ≤ p}) set n' 0
  free : ∀ i < n', s.slot (s.slot set Field.array) i = s.slot set Field.flag
  frame : Frame m.limit {p | p.1 ∈ R} m s
  flag : s.slot set Field.flag = m.slot set Field.flag
  oldArray : s.slot (m.slot set Field.array) = m.slot (m.slot set Field.array)
  array_ne : s.slot set Field.array ≠ m.slot set Field.array

/-- What `slvm_WeakSet_doGrow` does before its loop. -/
theorem HashedShape.emptied {m : ObjectMemory} {R : Set ℕ} {set n c : ℕ}
    (h : HashedShape m R set n c) (hk : KernelIntact m) (n' : ℕ) :
    ∃ storage s, (m.setSlot set Field.tally (encodeSmallInteger 0)).weakSetNewStorage set n' =
      some (storage, s) ∧ Emptied m R set n' (s.setSlot set Field.array storage) := by
  have hintact : KernelIntact (m.setSlot set Field.tally (encodeSmallInteger 0)) :=
    hk.setSlot (by decide)
  obtain ⟨storage, s, hnew, halloc, hfill⟩ := weakSetNewStorage_spec hintact set n'
  have hset := h.lt_limit
  have harray := h.array_lt_limit
  have hstorage : m.limit < storage := halloc.limit_lt
  have hslot : ∀ i, i ≠ Field.array → (s.setSlot set Field.array storage).slot set i =
      (m.setSlot set Field.tally (encodeSmallInteger 0)).slot set i := by
    intro i hi
    rw [setSlot_slot_of_ne_index _ _ _ _ hi]
    exact halloc.frame.slot set hset i (by simp)
  have hflag : (s.setSlot set Field.array storage).slot set Field.flag = m.slot set Field.flag := by
    rw [hslot _ (by decide), setSlot_slot_of_ne_index _ _ _ _ (by decide)]
  have hframe : Frame m.limit {p | p.1 ∈ R} m (s.setSlot set Field.array storage) :=
    ((Frame.setSlot m.limit m (Or.inl h.mem) _).trans
      (halloc.frame.mono (Nat.le_refl _) (by simp))).trans
      (Frame.setSlot m.limit s (Or.inl h.mem) _)
  refine ⟨storage, s, hnew, ⟨⟨Or.inl h.mem, ?_, ?_, ?_, ?_, ?_, ?_⟩, fun i hi => ?_, hframe, hflag,
    ?_, ?_⟩⟩
  · exact hset.trans_le hframe.limit_le
  · rw [setSlot_slot_self]
    exact Or.inr hstorage.le
  · rw [setSlot_slot_self]
    exact halloc.lt_limit
  · rw [setSlot_slot_self]
    omega
  · rw [setSlot_slot_self]
    exact halloc.basicSize
  · rw [hslot _ (by decide), setSlot_slot_self]
  · rw [setSlot_slot_self, hflag, setSlot_slot_of_ne _ _ _ _ (by omega : storage ≠ set), hfill i hi,
      setSlot_slot_of_ne_index _ _ _ _ (by decide)]
  · funext i
    rw [setSlot_slot_of_ne _ _ _ _ h.array_ne, halloc.frame.slot _ harray i (by simp),
      setSlot_slot_of_ne _ _ _ _ h.array_ne]
  · rw [setSlot_slot_self]
    omega

/-! The invariants of a set, each a property of memory, the objects of the set, the size of its
array and its tally: `V` before growing, and `W`, which says more, afterwards. -/

section Invariant

variable {set : ℕ} {hash : ObjectMemory → ℕ → Option ℕ} {equals : ObjectMemory → ℕ → ℕ → Bool}
  {V W : ObjectMemory → Set ℕ → ℕ → ℕ → Prop}

/-- **`slvm_WeakSet_grow`** establishes what `slvm_WeakSet_doGrow` does, and the set is not full
afterwards. -/
theorem weakSetGrow_of_doGrow
    (hshape : ∀ m R n c, V m R n c → HashedShape m R set n c ∧ 0 < n ∧ c ≤ n)
    (hmono : ∀ m R R' n c, R ⊆ R' → W m R n c → W m R' n c)
    (hweak : ∀ m R n c, W m R n c → V m R n c)
    (hdoGrow : ∀ m R n c n', V m R n c → KernelIntact m → n ≤ n' → ∃ m' c',
      m.weakSetDoGrow set hash equals n' = some m' ∧ Frame m.limit {p | p.1 ∈ R} m m' ∧
        W m' (R ∪ {p | m.limit ≤ p}) n' c' ∧ c' ≤ n)
    {m : ObjectMemory} {R : Set ℕ} {n c : ℕ} (h : V m R n c) (hk : KernelIntact m)
    (hR : ∀ k, kernelClass k ∉ R) :
    ∃ m' n' c', m.weakSetGrow set hash equals = some m' ∧ Frame m.limit {p | p.1 ∈ R} m m' ∧
      W m' (R ∪ {p | m.limit ≤ p}) n' c' ∧ c' < n' := by
  obtain ⟨m₁, c₁, hgrow₁, hframe₁, h₁, hc₁⟩ := hdoGrow m R n c n h hk (Nat.le_refl n)
  have hsize := (hshape m R n c h).1.basicSize
  have hpos := (hshape m R n c h).2.1
  have hfull := (hshape _ _ _ _ (hweak _ _ _ _ h₁)).1.fullCondition_iff hc₁
  by_cases hcond : m₁.hashedCollectionFullCondition set = true
  · have hk₁ : KernelIntact m₁ := hk.frame hframe₁ hk.lt_limit fun k => hR k
    have hdouble : n ≤ doubledArraySize n := by
      simp only [doubledArraySize]
      split <;> omega
    obtain ⟨m₂, c₂, hgrow₂, hframe₂, h₂, hc₂⟩ :=
      hdoGrow m₁ _ n c₁ _ (hweak _ _ _ _ h₁) hk₁ hdouble
    refine ⟨m₂, doubledArraySize n, c₂, ?_, ?_, hmono _ _ _ _ _ ?_ h₂, ?_⟩
    · rw [weakSetGrow, hsize, hgrow₁]
      simp only [Option.bind_eq_bind, Option.bind_some, hcond, if_true]
      exact hgrow₂
    · refine hframe₁.trans (hframe₂.mono hframe₁.limit_le ?_)
      intro p hp _ hcell
      rcases hcell with hmem | hmem
      · exact hmem
      · exact absurd hp (Nat.not_lt.mpr hmem)
    · rintro p (hp | hp)
      · exact hp
      · exact Or.inr (hframe₁.limit_le.trans hp)
    · simp only [doubledArraySize]
      split <;> omega
  · refine ⟨m₁, n, c₁, ?_, hframe₁, h₁, ?_⟩
    · rw [weakSetGrow, hsize, hgrow₁]
      simp only [Option.bind_eq_bind, Option.bind_some, hcond]
      rfl
    · rw [hfull] at hcond
      omega

/-- **`slvm_WeakSet_add`** establishes what `slvm_WeakSet_grow` does if the set is full once the
object has been stored, and nothing more is done otherwise. The set is not full afterwards. -/
theorem weakSetAdd_of_doAdd
    (hshape : ∀ m R n c, V m R n c → HashedShape m R set n c ∧ 0 < n ∧ c ≤ n)
    (hmono : ∀ m R R' n c, R ⊆ R' → V m R n c → V m R' n c)
    (hweak : ∀ m R n c, W m R n c → V m R n c)
    (hgrow : ∀ m R n c, V m R n c → KernelIntact m → (∀ k, kernelClass k ∉ R) → ∃ m' n' c',
      m.weakSetGrow set hash equals = some m' ∧ Frame m.limit {p | p.1 ∈ R} m m' ∧
        W m' (R ∪ {p | m.limit ≤ p}) n' c' ∧ c' < n')
    {m m₁ : ObjectMemory} {R : Set ℕ} {object n c : ℕ} (hset : HashedShape m R set n c)
    (hadd : m.weakSetDoAdd set object hash equals = some m₁)
    (hm₁ : m₁ = m ∨ ∃ index, m₁ = m.storeElement set index object) {c₁ : ℕ} (h₁ : V m₁ R n c₁)
    (hk : KernelIntact m) (hR : ∀ k, kernelClass k ∉ R) :
    ∃ m' n' c', m.weakSetAdd set object hash equals = some m' ∧
      Frame m.limit {p | p.1 ∈ R} m m' ∧ V m' (R ∪ {p | m.limit ≤ p}) n' c' ∧ c' < n' ∧
      if n < 4 ∨ n - c₁ < n / 4 then W m' (R ∪ {p | m.limit ≤ p}) n' c'
      else m' = m₁ ∧ n' = n ∧ c' = c₁ := by
  have hframe₁ : Frame m.limit {p | p.1 ∈ R} m m₁ ∧ m₁.limit = m.limit := by
    rcases hm₁ with rfl | ⟨index, rfl⟩
    · exact ⟨Frame.refl _ _ _, rfl⟩
    · refine ⟨(storeElement_frame m.limit).mono (Nat.le_refl _) fun p _ _ hcell => ?_, rfl⟩
      rcases hcell with hcell | hcell
      · exact (show p = set from hcell) ▸ hset.mem
      · exact (show p = m.slot set Field.array from hcell) ▸ hset.array_mem
  obtain ⟨hframe₁, hlimit⟩ := hframe₁
  have hfull := (hshape _ _ _ _ h₁).1.fullCondition_iff (hshape _ _ _ _ h₁).2.2
  by_cases hcond : m₁.hashedCollectionFullCondition set = true
  · have hk₁ : KernelIntact m₁ := hk.frame hframe₁ hk.lt_limit fun k => hR k
    obtain ⟨m₂, n₂, c₂, hgrow₂, hframe₂, h₂, hroom₂⟩ := hgrow m₁ R n c₁ h₁ hk₁ hR
    rw [hlimit] at hframe₂ h₂
    refine ⟨m₂, n₂, c₂, ?_, hframe₁.trans hframe₂, hweak _ _ _ _ h₂, hroom₂, ?_⟩
    · rw [weakSetAdd, hadd]
      simp only [Option.bind_eq_bind, Option.bind_some, hcond, if_true]
      exact hgrow₂
    · rw [if_pos (hfull.mp hcond)]
      exact h₂
  · refine ⟨m₁, n, c₁, ?_, hframe₁, hmono _ _ _ _ _ Set.subset_union_left h₁, ?_, ?_⟩
    · rw [weakSetAdd, hadd]
      simp only [Option.bind_eq_bind, Option.bind_some, hcond]
      rfl
    · rw [hfull] at hcond
      omega
    · rw [if_neg (mt hfull.mpr hcond)]
      exact ⟨rfl, rfl, rfl⟩

end Invariant

namespace WeakSetValid

variable {m m' : ObjectMemory} {R R' : Set ℕ} {set n c object index : ℕ} {f : β → Option ℕ}

/-- Half way through the reinsertion loop of `slvm_WeakSet_doGrow`, which began in the memory `m`
with the new array of `n'` slots. -/
structure Regrown (K : KeyScheme β) (m : ObjectMemory) (R : Set ℕ) (set n' i : ℕ)
    (s : ObjectMemory) : Prop where
  rehashed : ∃ g, WeakSetValid K s (R ∪ {p | m.limit ≤ p}) set n'
      (occupied i (weakSetTable K m set)) g ∧
    Rehashed (weakSetTable K m set) i n' (fun k => K.hashOf s k % n') (weakSetTable K s set) g
  frame : Frame m.limit {p | p.1 ∈ R} m s
  flag : s.slot set Field.flag = m.slot set Field.flag
  oldArray : s.slot (m.slot set Field.array) = m.slot (m.slot set Field.array)
  array_ne : s.slot set Field.array ≠ m.slot set Field.array

omit [KernelImage] in
/-- The loop starts with an empty table. -/
theorem regrown_start (h : WeakSetValid K m R set n c f) {n' : ℕ} (hn : 0 < n') {s : ObjectMemory}
    (hs : Emptied m R set n' s) : Regrown K m R set n' 0 s := by
  have htable : ∀ i < n', weakSetTable K s set i = none :=
    fun i hi => weakSetTable_eq_none.mpr (hs.free i hi)
  refine ⟨⟨fun _ => none, ⟨?_, hn, ?_, Nat.zero_le _, fun i hi k e ht => ?_, ?_, ?_⟩, ?_⟩, hs.frame,
    hs.flag, hs.oldArray, hs.array_ne⟩
  · rw [occupied_zero]
    exact hs.shape
  · rw [occupied_congr htable, occupied_none]
    exact Nat.zero_le _
  · rw [htable i hi] at ht
    cases ht
  · rw [hs.flag, hs.frame.header _ h.flag.1]
    exact ⟨h.flag.1.trans_le hs.frame.limit_le, h.flag.2⟩
  · exact (represents_none n' _).congr htable
  · exact (Rehashed.start _ n' _).congr htable

variable [DecidableEq β]

omit [KernelImage] in
/-- One round of the loop. -/
theorem regrown_step (h : WeakSetValid K m R set n c f) {n' i : ℕ} (hnn : n ≤ n') (hi : i < n)
    {s : ObjectMemory} (hs : Regrown K m R set n' i s) :
    ∃ s', (if s.slot (m.slot set Field.array) i = m.slot set Field.flag then some s
        else s.weakSetDoAdd set (s.slot (m.slot set Field.array) i) K.hash K.equals) = some s' ∧
      Regrown K m R set n' (i + 1) s' := by
  obtain ⟨g, hvalid, hrehashed⟩ := hs.rehashed
  cases ht : weakSetTable K m set i with
  | none =>
    have hslot := weakSetTable_eq_none.mp ht
    refine ⟨s, ?_, ⟨g, ?_, hrehashed.skip ht⟩, hs.frame, hs.flag, hs.oldArray, hs.array_ne⟩
    · rw [hs.oldArray, if_pos hslot]
    · rw [occupied_succ, ht]
      exact hvalid
  | some entry =>
    obtain ⟨k, e⟩ := entry
    obtain ⟨hslot, hne, hcontent⟩ := weakSetTable_eq_some.mp ht
    obtain ⟨hstored, hlive⟩ := h.stored i hi k e ht
    have hbody : SameBody m s e := hs.frame.sameBody hlive
    have hstored' : K.Stored s e := K.stored_congr hstored hbody
    have hcontent' : K.content s e = k :=
      (K.content_congr (K.probed_of_stored hstored) hbody).trans hcontent
    have hsucc : occupied (i + 1) (weakSetTable K m set) =
        occupied i (weakSetTable K m set) + 1 := by
      rw [occupied_succ, ht]
      rfl
    have hroom : occupied i (weakSetTable K m set) < n' :=
      (LinearProbing.occupied_le i _).trans_lt (hi.trans_le hnn)
    -- the element goes into a free slot: its key has not been inserted yet
    obtain ⟨j, hj, hscan, hjslot, hupdate⟩ := hvalid.scanFor (K.probed_of_stored hstored') hroom
    have hnone : g k = none := hrehashed.not_mem h.represents.isTable hi ht
    rw [hcontent', hnone, Option.map_none] at hjslot
    have hjflag : s.slot (s.slot set Field.array) j ≠ e := by
      rw [weakSetTable_eq_none.mp hjslot, hs.flag]
      exact hne.symm
    have heflag : e ≠ s.slot set Field.flag := by
      rw [hs.flag]
      exact hne
    have hadded := hvalid.store hroom hstored' (hs.frame.live hlive) heflag hj (hupdate e)
    have htable := hvalid.table_store hstored' heflag j
    have hstep := hrehashed.store h.represents.isTable hi ht hj hjslot (by
      have := hupdate e
      rwa [hcontent'] at this)
    rw [hcontent'] at hadded htable
    refine ⟨s.storeElement set j e, ?_,
      ⟨_, ?_, hadded.represents, hstep.entries, ?_⟩, ?_, ?_, ?_, ?_⟩
    · rw [hs.oldArray, hslot, if_neg hne, weakSetDoAdd_eq hvalid.shape.array_ne hscan,
        if_neg hjflag]
    · rw [hsucc]
      exact hadded
    · rw [occupied_congr htable]
      exact hstep.occupied
    · refine hs.frame.trans ((storeElement_frame m.limit).mono (Nat.le_refl _) ?_)
      intro p hp _ hcell
      rcases hcell with hcell | hcell
      · exact (show p = set from hcell) ▸ h.shape.mem
      · obtain rfl : p = s.slot set Field.array := hcell
        rcases hvalid.shape.array_mem with hmem | hmem
        · exact hmem
        · exact absurd hp (Nat.not_lt.mpr hmem)
    · rw [storeElement_collection hvalid.shape.array_ne (by decide), hs.flag]
    · rw [storeElement, setSlot_slot_of_ne _ _ _ _ h.shape.array_ne,
        setSlot_slot_of_ne _ _ _ _ hs.array_ne.symm, hs.oldArray]
    · rw [storeElement_collection hvalid.shape.array_ne (by decide)]
      exact hs.array_ne

/-- **`slvm_WeakSet_doGrow`** keeps the elements and counts them anew. -/
theorem doGrow (h : WeakSetValid K m R set n c f) (hk : KernelIntact m) {n' : ℕ} (hnn : n ≤ n') :
    ∃ m' c', m.weakSetDoGrow set K.hash K.equals n' = some m' ∧
      Frame m.limit {p | p.1 ∈ R} m m' ∧ WeakSetValid K m' (R ∪ {p | m.limit ≤ p}) set n' c' f ∧
      occupied n' (weakSetTable K m' set) = c' ∧ c' ≤ n := by
  obtain ⟨storage, s, hnew, hstart⟩ := h.shape.emptied hk n'
  obtain ⟨m', hloop, hend⟩ := foldlM_range (h.regrown_start (h.pos.trans_le hnn) hstart)
    fun i hi s hs => h.regrown_step hnn hi hs
  obtain ⟨g, hvalid, hrehashed⟩ := hend.rehashed
  obtain rfl := hrehashed.finish h.represents
  refine ⟨m', _, ?_, hend.frame, hvalid, hrehashed.occupied, LinearProbing.occupied_le _ _⟩
  rw [weakSetDoGrow, hnew, h.shape.basicSize]
  exact hloop

/-- **`slvm_WeakSet_grow`** keeps the elements and counts them anew, and the set is not full
afterwards. -/
theorem grow (h : WeakSetValid K m R set n c f) (hk : KernelIntact m)
    (hR : ∀ k, kernelClass k ∉ R) :
    ∃ m' n' c', m.weakSetGrow set K.hash K.equals = some m' ∧ Frame m.limit {p | p.1 ∈ R} m m' ∧
      (WeakSetValid K m' (R ∪ {p | m.limit ≤ p}) set n' c' f ∧
        occupied n' (weakSetTable K m' set) = c') ∧ c' < n' := by
  refine weakSetGrow_of_doGrow (V := fun m R n c => WeakSetValid K m R set n c f)
    (W := fun m R n c => WeakSetValid K m R set n c f ∧ occupied n (weakSetTable K m set) = c)
    (fun _ _ _ _ h => ⟨h.shape, h.pos, h.tally_le⟩) (fun _ _ _ _ _ hR h => ⟨h.1.mono hR, h.2⟩)
    (fun _ _ _ _ h => h.1) (fun m R n c n' h hk hnn => ?_) h hk hR
  obtain ⟨m', c', hgrow, hframe, hvalid, hcount, hle⟩ := h.doGrow hk hnn
  exact ⟨m', c', hgrow, hframe, ⟨hvalid, hcount⟩, hle⟩

/-- **`slvm_WeakSet_add`** succeeds, and the set is not full afterwards. If every element was
counted once, this is so again, unless the new element took the place of an equal one and the set
did not grow. -/
theorem add (h : WeakSetValid K m R set n c f) (hroom : c < n) (hk : KernelIntact m)
    (hR : ∀ k, kernelClass k ∉ R) (hobject : K.Stored m object) (hlive : m.Live object)
    (hflag : object ≠ m.slot set Field.flag) :
    ∃ m' n' c', m.weakSetAdd set object K.hash K.equals = some m' ∧
      Frame m.limit {p | p.1 ∈ R} m m' ∧
      WeakSetValid K m' (R ∪ {p | m.limit ≤ p}) set n' c'
        (Function.update f (K.content m object) (some object)) ∧ c' < n' ∧
      (¬ (n < 4 ∨ n - (c + 1) < n / 4) → n' = n) ∧
      (occupied n (weakSetTable K m set) = c →
        (occupied n' (weakSetTable K m' set) = c' ↔
          (∀ e, f (K.content m object) = some e → e = object) ∨
            n < 4 ∨ n - (c + 1) < n / 4)) := by
  obtain ⟨m₁, c₁, hadd, hm₁, hvalid₁, hc₁⟩ := h.doAdd hroom hobject hlive hflag
  obtain ⟨m', n', c', hadd', hframe, hvalid, hroom', hbranch⟩ := weakSetAdd_of_doAdd
    (V := fun m' R n c => WeakSetValid K m' R set n c
      (Function.update f (K.content m object) (some object)))
    (W := fun m' R n c => WeakSetValid K m' R set n c
      (Function.update f (K.content m object) (some object)) ∧
        occupied n (weakSetTable K m' set) = c)
    (fun _ _ _ _ h => ⟨h.shape, h.pos, h.tally_le⟩) (fun _ _ _ _ _ hR h => h.mono hR)
    (fun _ _ _ _ h => h.1) (fun _ _ _ _ h hk hR => h.grow hk hR) h.shape hadd hm₁ hvalid₁ hk hR
  refine ⟨m', n', c', hadd', hframe, hvalid, hroom', fun hfull => ?_, fun hcount => ?_⟩
  · have hle : c₁ ≤ c + 1 := by
      rw [hc₁]
      split <;> omega
    rw [if_neg (by omega)] at hbranch
    exact hbranch.2.1
  have hoccupied := h.represents.occupied_update hvalid.represents
  split_ifs at hbranch with hfull
  · -- the set has grown, and everything in it was counted anew
    refine iff_of_true hbranch.2 ?_
    rcases hf : f (K.content m object) with _ | e
    · exact Or.inl fun e he => absurd he (by simp)
    · by_cases he : e = object
      · exact Or.inl fun e' he' => (Option.some.inj he').symm.trans he
      · rw [hf, if_neg (fun hsome => he (Option.some.inj hsome))] at hc₁
        exact Or.inr (hc₁ ▸ hfull)
  · obtain ⟨-, -, rfl⟩ := hbranch
    rcases hf : f (K.content m object) with _ | e
    · refine iff_of_true ?_ (Or.inl fun e he => absurd he (by simp))
      rw [hoccupied, hf, hc₁, hf, hcount]
      simp
    · by_cases he : e = object
      · refine iff_of_true ?_ (Or.inl fun e' he' => (Option.some.inj he').symm.trans he)
        rw [hoccupied, hf, hc₁, hf, hcount]
        simp [he]
      · rw [hf, if_neg (fun hsome => he (Option.some.inj hsome))] at hc₁
        rw [hc₁] at hfull
        refine iff_of_false ?_ fun hor => hor.elim (fun hall => he (hall e rfl)) hfull
        rw [hoccupied, hf, hc₁, hcount]
        simp

end WeakSetValid

/-- **`slvm_WeakSet_new`** makes an empty set. -/
theorem weakSetNew_spec {m : ObjectMemory} (h : KernelIntact m) {n : ℕ} (hn : 0 < n) :
    ∃ set m', m.weakSetNew n = some (set, m') ∧ Frame m.limit ∅ m m' ∧ m.limit < set ∧
      WeakSetValid K m' {p | m.limit ≤ p} set n 0 fun _ => none := by
  have hempty : ∀ k : KernelClass, (kernelClass k, Field.format) ∉ (∅ : Set (ℕ × ℕ)) := by simp
  obtain ⟨set, m₁, hnew₁, halloc₁, -, -⟩ :=
    @KernelIntact.kernelNew_pointers _ _ h .WeakSet (by decide) 0
  have hk₁ : KernelIntact m₁ := h.frame halloc₁.frame h.lt_limit hempty
  obtain ⟨flag, m₂, hnew₂, halloc₂, -, -⟩ :=
    @KernelIntact.kernelNew_pointers _ _ hk₁ .Object (by decide) 0
  have hk₂ : KernelIntact m₂ := hk₁.frame halloc₂.frame hk₁.lt_limit hempty
  have hset₁ : set < m₁.limit := halloc₁.lt_limit
  have hflag₂ : flag < m₂.limit := halloc₂.lt_limit
  have hlt : m.limit < set ∧ m₁.limit < flag := ⟨halloc₁.limit_lt, halloc₂.limit_lt⟩
  have hle := halloc₂.frame.limit_le
  -- the fields of the set
  let m₃ := (m₂.setSlot set Field.flag flag).setSlot set Field.tally (encodeSmallInteger 0)
  have hframe₃ : Frame m.limit ∅ m m₃ :=
    ((halloc₁.frame.trans (halloc₂.frame.mono halloc₁.frame.limit_le (by simp))).trans
      (Frame.setSlot m.limit m₂ (Or.inr hlt.1.le) _)).trans
      (Frame.setSlot m.limit _ (Or.inr hlt.1.le) _)
  have hflag₃ : m₃.slot set Field.flag = flag := by
    rw [setSlot_slot_of_ne_index _ _ _ _ (by decide), setSlot_slot_self]
  have hk₃ : KernelIntact m₃ := h.frame hframe₃ h.lt_limit hempty
  obtain ⟨storage, m₄, hnew₄, halloc₄, hfill⟩ := weakSetNewStorage_spec hk₃ set n
  have hstorage : m₂.limit < storage := halloc₄.limit_lt
  have hslot : ∀ i, i ≠ Field.array → (m₄.setSlot set Field.array storage).slot set i =
      m₃.slot set i := by
    intro i hi
    rw [setSlot_slot_of_ne_index _ _ _ _ hi]
    exact halloc₄.frame.slot set (hset₁.trans_le hle) i (by simp)
  have hframe : Frame m.limit ∅ m (m₄.setSlot set Field.array storage) :=
    (hframe₃.trans (halloc₄.frame.mono hframe₃.limit_le (by simp))).trans
      (Frame.setSlot m.limit _ (Or.inr hlt.1.le) _)
  have htable : ∀ i < n, weakSetTable K (m₄.setSlot set Field.array storage) set i = none := by
    intro i hi
    rw [weakSetTable_eq_none, setSlot_slot_self, hslot _ (by decide), hflag₃,
      setSlot_slot_of_ne _ _ _ _ (by omega : storage ≠ set), hfill i hi, hflag₃]
  refine ⟨set, _, ?_, hframe, hlt.1, ⟨hlt.1.le, ?_, ?_, ?_, ?_, ?_, ?_⟩, hn, ?_, Nat.zero_le n,
    fun i hi k e ht => ?_, ?_, (represents_none n _).congr htable⟩
  · rw [weakSetNew, hnew₁]
    simp only [Option.bind_eq_bind, Option.bind_some, hnew₂]
    rw [hnew₄]
    rfl
  · exact (hset₁.trans_le hle).trans_le halloc₄.frame.limit_le
  · rw [setSlot_slot_self]
    exact (hframe₃.limit_le.trans halloc₄.limit_lt.le)
  · rw [setSlot_slot_self]
    exact halloc₄.lt_limit
  · rw [setSlot_slot_self]
    omega
  · rw [setSlot_slot_self]
    exact halloc₄.basicSize
  · rw [hslot _ (by decide), setSlot_slot_self]
  · rw [occupied_congr htable, occupied_none]
  · rw [htable i hi] at ht
    cases ht
  · rw [hslot _ (by decide), hflag₃]
    refine ⟨hflag₂.trans_le halloc₄.frame.limit_le, ?_⟩
    rw [setSlot_header, halloc₄.frame.header flag hflag₂]
    exact halloc₂.classIndex

end Grow

end ObjectMemory

end SlvmNative
