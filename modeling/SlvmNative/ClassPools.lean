import SlvmNative.KernelInitialization

/-!
# Class pools

The class variables of a class. `SLVM_KCLASS_VARIABLE_SET` puts them into the class pool by the
identity hash of their names, `slvm_dynrun_classSetMetadata` adds them by the string hash, and
`slvm_globals_fixClassVariable` looks them up by the string hash. The names are interned symbols,
so both ways of comparing them agree, but the two hashes of a name need not lead to the same slot.

## Main definitions

* `symbolScheme` — symbols by their contents, as a class pool compares them
* `ObjectMemory.HashesAgree` — the two hashes of a symbol lead to the same slot
* `PoolRun`, `PoolRun.Step` — the definitions of class variables on one class

## Main results

* `ObjectMemory.DictionaryValid.identityScanFor_eq` — where the hashes agree, so do the scans
* `PoolRun.found_of_run` — every class variable is found again as long as the hashes agree
-/

namespace SlvmNative

open LinearProbing Relation

/-- Byte symbols by their contents, the stored one compared with the one that is looked up. -/
def symbolScheme : KeyScheme (List UInt8) where
  hash := ObjectMemory.stringHash
  equals m key stored := ObjectMemory.stringEquals m stored key
  Probed := ObjectMemory.IsByteSymbol
  Stored := ObjectMemory.IsByteSymbol
  content := ObjectMemory.bytes
  hashOf _ := ObjectMemory.hashOfBytes
  probed_of_stored h := h
  hash_eq h := ObjectMemory.stringHash_eq h.isByteString
  equals_iff h _ := (ObjectMemory.stringEquals_iff h).trans eq_comm
  probed_congr h := h.congr
  stored_congr h := h.congr
  content_congr h := h.isByteString.bytes_congr
  hashOf_congr _ _ := rfl

namespace ObjectMemory

variable [KernelImage]

/-! ### One pool, two hashes -/

/-- The two hashes of a symbol lead to the same slot of an array of `n` elements. -/
def HashesAgree (m : ObjectMemory) (symbol n : ℕ) : Prop :=
  m.identityHash symbol % n = hashOfBytes (m.bytes symbol) % n

/-- The keys of the associations `g` are the symbols `interned`. -/
def KeysInterned (m : ObjectMemory) (interned : List UInt8 → Option ℕ)
    (g : List UInt8 → Option ℕ) : Prop :=
  ∀ k e, g k = some e → interned k = some (m.slot e Field.key)

omit [KernelImage] in
/-- Binding another interned name, where the associations there are keep their keys. -/
theorem KeysInterned.update {m m' : ObjectMemory} {interned g : List UInt8 → Option ℕ}
    (h : m.KeysInterned interned g)
    (hkept : ∀ k a, g k = some a → m'.slot a Field.key = m.slot a Field.key) {k : List UInt8}
    {e : ℕ} (he : interned k = some (m'.slot e Field.key)) :
    m'.KeysInterned interned (Function.update g k (some e)) := by
  intro l a ha
  by_cases hl : l = k
  · rw [hl, Function.update_self] at ha
    rw [hl, ← Option.some.inj ha]
    exact he
  · rw [Function.update_of_ne hl] at ha
    rw [hkept l a ha]
    exact h l a ha

/-- Where `slvm_IdentityDictionary_atPut` of a symbol is harmless: its hashes agree, and when the
pool grows those of all its keys do. -/
structure HashesFit (m : ObjectMemory) (dictionary symbol : ℕ) : Prop where
  now : m.HashesAgree symbol (m.basicSize (m.slot dictionary Field.array))
  grown : (∀ e, m.DictionaryHolds dictionary e → m.slot e Field.key ≠ symbol) →
    (m.setSlot dictionary Field.tally (m.slot dictionary Field.tally +
      encodeSmallIntegerOffset 1)).hashedCollectionFullCondition dictionary = true →
    ∀ key, (key = symbol ∨ ∃ e, m.DictionaryHolds dictionary e ∧ m.slot e Field.key = key) →
      m.HashesAgree key (doubledArraySize (m.basicSize (m.slot dictionary Field.array)))

omit [KernelImage] in
/-- A collection with its tally raised. -/
theorem HashedShape.raise {m : ObjectMemory} {R : Set ℕ} {d n c : ℕ} (h : HashedShape m R d n c) :
    HashedShape (m.setSlot d Field.tally (m.slot d Field.tally + encodeSmallIntegerOffset 1)) R d n
      (c + 1) := by
  have harray : (m.setSlot d Field.tally
      (m.slot d Field.tally + encodeSmallIntegerOffset 1)).slot d Field.array =
      m.slot d Field.array := setSlot_slot_of_ne_index _ _ _ _ (by decide) _
  refine ⟨h.mem, h.lt_limit, ?_, ?_, ?_, ?_, ?_⟩
  · rw [harray]; exact h.array_mem
  · rw [harray]; exact h.array_lt_limit
  · rw [harray]; exact h.array_ne
  · rw [harray]; exact h.basicSize
  · rw [setSlot_slot_self, h.tally, encodeSmallInteger_add_offset]

namespace DictionaryValid

variable {m : ObjectMemory} {R : Set ℕ} {d n c : ℕ} {interned g : List UInt8 → Option ℕ}

/-- **Where the hashes agree, so do the scans.** -/
theorem identityScanFor_eq (h : DictionaryValid symbolScheme m R d n c g)
    (hkeys : m.KeysInterned interned g) {symbol : ℕ} (hsymbol : m.IsByteSymbol symbol)
    (hinterned : interned (m.bytes symbol) = some symbol) (hagree : m.HashesAgree symbol n) :
    m.identityDictionaryScanFor d symbol =
      m.dictionaryScanFor d symbol symbolScheme.hash symbolScheme.storedEquals := by
  have hsize := h.shape.basicSize
  rw [h.scanFor_eq hsymbol]
  simp only [identityDictionaryScanFor, dictionaryScanFor, hsize, if_neg h.pos.ne',
    identityHashFunction]
  show some (probe n (m.identityHash symbol % n) _) =
    some (probe n (hashOfBytes (m.bytes symbol) % n) _)
  rw [hagree]
  refine congrArg some (probe_congr (Nat.mod_lt _ h.pos) fun i hi => ?_)
  cases ht : dictionaryTable symbolScheme m d i with
  | none =>
    have hnil := dictionaryTable_eq_none.mp ht
    simp only [hnil, beq_self_eq_true, Bool.true_or]
  | some entry =>
    obtain ⟨k, e⟩ := entry
    obtain ⟨hslot, hne, hk⟩ := dictionaryTable_eq_some.mp ht
    have hstored := (h.entry i hi k e ht).stored
    have hkey := hkeys k e (h.represents.eq_some_of_slot hi ht)
    have hequals := symbolScheme.equals_iff hsymbol hstored
    -- names with the same contents are the same symbol
    have hsame : m.slot e Field.key = symbol ↔ m.bytes symbol = m.bytes (m.slot e Field.key) := by
      constructor
      · rintro rfl
        rfl
      · intro hbytes
        have hk' : m.bytes (m.slot e Field.key) = k := hk
        rw [hbytes, hk', hkey] at hinterned
        exact Option.some.inj hinterned
    rw [hslot, Bool.eq_iff_iff, Bool.or_eq_true, Bool.or_eq_true, identityEquals, beq_iff_eq,
      beq_iff_eq, hequals, hsame]
    rfl

/-- One round of growing by the identity hash: an association of the old array is put where the
string hash puts it. -/
theorem identityAddAssociation_regrown (h : DictionaryValid symbolScheme m R d n c g)
    (hinterned : ∀ k symbol, interned k = some symbol → m.bytes symbol = k)
    (hkeys : m.KeysInterned interned g)
    (hagree : ∀ k e, g k = some e → m.HashesAgree (m.slot e Field.key) (doubledArraySize n))
    {i : ℕ} (hi : i < n) {s : ObjectMemory}
    (hs : Regrown symbolScheme m R d (doubledArraySize n) i s) {k : List UInt8} {e : ℕ}
    (ht : dictionaryTable symbolScheme m d i = some (k, e)) :
    ∃ s', s.identityDictionaryAddAssociation d e = some s' ∧
      Regrown symbolScheme m R d (doubledArraySize n) (i + 1) s' := by
  obtain ⟨hslot, hne, -⟩ := dictionaryTable_eq_some.mp ht
  obtain ⟨j, hscan, hjslot, hnotfull, hs'⟩ := h.regrown_store hi hs ht
  obtain ⟨g', hvalid, hrehashed⟩ := hs.rehashed
  have hg := h.represents.eq_some_of_slot hi ht
  have hkey : ∀ k e, g k = some e → s.slot e Field.key = m.slot e Field.key := fun k e hk =>
    hs.frame.slot e (h.of_some hk).1.lt_limit _ (h.of_some hk).1.ne_dictionary
  -- what is in the new array was in the old one
  have hkeys' : s.KeysInterned interned g' := by
    intro k' e' hk'
    obtain ⟨j', hj', ht'⟩ := (hrehashed.entries k' e').mp hk'
    have hg' := h.represents.eq_some_of_slot (hj'.trans hi) ht'
    rw [hkey k' e' hg']
    exact hkeys k' e' hg'
  have hentry := (h.of_some hg).1
  have hsame := hs.frame.sameBody hentry.live
  have hstored : m.IsByteSymbol (m.slot e Field.key) := hentry.stored
  have hbytes := hstored.isByteString.bytes_congr hsame
  have hscan' := hvalid.identityScanFor_eq hkeys' (hstored.congr hsame) (by
    rw [hbytes, hinterned _ _ (hkeys k e hg)]
    exact hkeys k e hg) (by
    rw [HashesAgree, hbytes, hsame.identityHash]
    exact hagree k e hg)
  rw [hkey k e hg] at hscan
  rw [hscan] at hscan'
  refine ⟨s.storeElement d j e, ?_, hs'⟩
  rw [identityDictionaryAddAssociation, dictionaryAddAssociation,
    dictionaryAddAssociationLoop, if_neg (by simp [hvalid.ne_nilOop, hne]), hkey k e hg]
  rw [identityDictionaryScanFor] at hscan'
  rw [hscan']
  show (if s.slot (s.slot d Field.array) j ≠ nilOop then _ else _) = _
  rw [if_neg (not_not.mpr (dictionaryTable_eq_none.mp hjslot)), dictionaryInsert, hnotfull]
  rfl

/-- **Growing by the identity hash** is growing by the string hash, where they agree modulo the new
capacity. -/
theorem grow_identity (h : DictionaryValid symbolScheme m R d n c g) (hk : KernelIntact m)
    (hinterned : ∀ k symbol, interned k = some symbol → m.bytes symbol = k)
    (hkeys : m.KeysInterned interned g)
    (hagree : ∀ k e, g k = some e → m.HashesAgree (m.slot e Field.key) (doubledArraySize n)) :
    ∃ m', m.dictionaryGrow d (fun m e => m.identityDictionaryAddAssociation d e) = some m' ∧
      Frame m.limit {p | p.1 = d} m m' ∧
      DictionaryValid symbolScheme m' (R ∪ {p | m.limit ≤ p}) d (doubledArraySize n) c g := by
  have hpos : 0 < doubledArraySize n := by
    simp only [doubledArraySize]
    split <;> omega
  obtain ⟨array, s, hnew, hstart⟩ := h.regrown_start hk.formats hpos
  have hround : ∀ i < n, ∀ s, Regrown symbolScheme m R d (doubledArraySize n) i s →
      ∃ s', (if s.slot (m.slot d Field.array) i = nilOop then some s
        else s.identityDictionaryAddAssociation d (s.slot (m.slot d Field.array) i)) = some s' ∧
      Regrown symbolScheme m R d (doubledArraySize n) (i + 1) s' := by
    intro i hi s hs
    rw [h.regrown_old hs]
    cases ht : dictionaryTable symbolScheme m d i with
    | none =>
      refine ⟨s, ?_, regrown_skip hs ht⟩
      rw [if_pos (dictionaryTable_eq_none.mp ht)]
    | some entry =>
      obtain ⟨hslot, hne, -⟩ := dictionaryTable_eq_some.mp ht
      rw [hslot, if_neg hne]
      exact h.identityAddAssociation_regrown hinterned hkeys hagree hi hs ht
  obtain ⟨m', hloop, hend⟩ := foldlM_range hstart hround
  obtain ⟨g', hvalid, hrehashed⟩ := hend.rehashed
  obtain rfl := hrehashed.finish h.represents
  rw [h.occupied_eq] at hvalid
  refine ⟨m', ?_, hend.frame, hvalid⟩
  rw [dictionaryGrow, h.shape.basicSize, hnew]
  exact hloop

/-- **`slvm_IdentityDictionary_atPut` of a name that is bound** stores into its association. -/
theorem identityAtPut_of_some (h : DictionaryValid symbolScheme m R d n c g)
    (hkeys : m.KeysInterned interned g) {symbol e : ℕ} (hsymbol : m.IsByteSymbol symbol)
    (hinterned : interned (m.bytes symbol) = some symbol) (hfits : m.HashesFit d symbol)
    (hg : g (m.bytes symbol) = some e) (value : ℕ) :
    m.identityDictionaryAtPut d symbol value = some (m.setSlot e Field.value value) ∧
      DictionaryValid symbolScheme (m.setSlot e Field.value value) R d n c g := by
  have hagree := hfits.now
  rw [h.shape.basicSize] at hagree
  obtain ⟨i, -, hscan, ht⟩ := h.scanFor_of_some hsymbol hg
  obtain ⟨hslot, hne, -⟩ := dictionaryTable_eq_some.mp ht
  have hscan' := (h.identityScanFor_eq hkeys hsymbol hinterned hagree).trans hscan
  have he := (h.of_some hg).1
  constructor
  · rw [identityDictionaryAtPut, identityDictionaryAtPutWithAssociationClass, if_neg h.ne_nilOop,
      hscan']
    simp only [Option.bind_eq_bind, Option.bind_some, hslot, hne, if_false]
    rfl
  · refine h.frame (Frame.setSlot_cell m.limit m e Field.value value) ?_ (by simp) fun o ho _ => ho
    rintro p rfl
    exact ⟨he.ne_dictionary, he.ne_array⟩

/-- What `slvm_IdentityDictionary_atPut` of a name that is not bound has done when it looks whether
the pool is full: the new association `e` has taken a free slot. -/
structure StoredNew (m : ObjectMemory) (R : Set ℕ) (d n c : ℕ) (g : List UInt8 → Option ℕ)
    (symbol value e : ℕ) (m₂ : ObjectMemory) : Prop where
  atPut : m.identityDictionaryAtPut d symbol value =
    if m₂.hashedCollectionFullCondition d then
      m₂.dictionaryGrow d fun m e => m.identityDictionaryAddAssociation d e
    else some m₂
  frame : Frame m.limit {p | p.1 = d ∨ p.1 = m.slot d Field.array} m m₂
  valid : DictionaryValid symbolScheme m₂ R d n (c + 1)
    (Function.update g (m.bytes symbol) (some e))
  new : NewAssociation m symbol value e m₂
  ne_dictionary : e ≠ d

theorem exists_storedNew (h : DictionaryValid symbolScheme m R d n c g) (hroom : c < n)
    (hk : KernelIntact m) (hkeys : m.KeysInterned interned g) {symbol : ℕ}
    (hsymbol : m.IsByteSymbol symbol) (hlive : m.Live symbol)
    (hinterned : interned (m.bytes symbol) = some symbol) (hagree : m.HashesAgree symbol n)
    (hg : g (m.bytes symbol) = none) (value : ℕ) :
    ∃ e m₂, StoredNew m R d n c g symbol value e m₂ := by
  obtain ⟨e, m₁, hmake, hframe₁, hnew⟩ :=
    associationMakeWithClass_spec hk (kernelClass .Association) symbol value
  obtain ⟨i, hi, hscan, hslot, hreached⟩ := h.scanFor_of_none hsymbol hroom hg
  have hscan' := (h.identityScanFor_eq hkeys hsymbol hinterned hagree).trans hscan
  have hdictionary := h.shape.lt_limit
  have harray₁ : m₁.slot d Field.array = m.slot d Field.array :=
    hframe₁.slot d hdictionary _ (by simp)
  -- making the association has not changed the dictionary
  have hvalid₁ : DictionaryValid symbolScheme m₁ R d n c g :=
    h.frame hframe₁ (by simp) (by simp) fun o ho _ => ho
  have htable₁ := h.table_frame hframe₁ (by simp) (by simp)
  have hsame := hframe₁.sameBody hlive
  have hlimit := hnew.limit_lt
  have hkey₁ : m₁.slot e Field.key = symbol := hnew.key
  have hcontent₁ : symbolScheme.content m₁ (m₁.slot e Field.key) = m.bytes symbol := by
    rw [hkey₁]
    exact hsymbol.isByteString.bytes_congr hsame
  have he : DictionaryEntry symbolScheme m₁ d e := by
    refine ⟨?_, ?_, hnew.lt_limit, by omega, ?_⟩
    · rw [hkey₁]
      exact hsymbol.congr hsame
    · rw [hkey₁]
      exact hframe₁.live hlive
    · have := h.shape.array_lt_limit
      omega
  have hne : e ≠ nilOop := by
    have := hk.lt_limit .nil
    unfold nilOop
    omega
  have hstored := hvalid₁.storeElement he hne (by rw [hcontent₁, hg]) hi
    (by rw [htable₁ i hi, hslot])
    (by rw [hcontent₁]; exact hreached.congr htable₁)
  rw [hcontent₁] at hstored
  have hframe₁₂ : Frame m₁.limit {p | p.1 = d ∨ p.1 = m.slot d Field.array} m₁
      (m₁.storeElement d i e) := harray₁ ▸ storeElement_frame m₁.limit
  have hnotcell : ∀ i, (e, i) ∉ {p : ℕ × ℕ | p.1 = d ∨ p.1 = m.slot d Field.array} := by
    rintro i (hcell | hcell)
    · exact he.ne_dictionary hcell
    · exact he.ne_array (hcell.trans harray₁.symm)
  refine ⟨e, m₁.storeElement d i e, ?_, ?_, hstored, hnew.frame hframe₁₂ hnotcell,
    he.ne_dictionary⟩
  · rw [identityDictionaryAtPut, identityDictionaryAtPutWithAssociationClass, if_neg h.ne_nilOop,
      hscan']
    simp only [Option.bind_eq_bind, Option.bind_some, dictionaryTable_eq_none.mp hslot, if_true,
      hmake]
    rfl
  · exact (hframe₁.mono (Nat.le_refl _) (by simp)).trans
      (hframe₁₂.mono hframe₁.limit_le fun _ _ _ hcell => hcell)

/-- The pool is full with the new association just in case it is with its tally raised. -/
theorem StoredNew.full_iff (h : DictionaryValid symbolScheme m R d n c g) {symbol value e : ℕ}
    {m₂ : ObjectMemory} (hs : StoredNew m R d n c g symbol value e m₂) :
    m₂.hashedCollectionFullCondition d = true ↔
      (m.setSlot d Field.tally
        (m.slot d Field.tally + encodeSmallIntegerOffset 1)).hashedCollectionFullCondition d =
          true := by
  have hcount := hs.valid.tally_le
  rw [hs.valid.shape.fullCondition_iff hcount, h.shape.raise.fullCondition_iff hcount]

/-- **Growing with the new association** keeps what is bound, where the hashes of all keys agree
modulo the new capacity. -/
theorem StoredNew.grow (h : DictionaryValid symbolScheme m R d n c g) {symbol value e : ℕ}
    {m₂ : ObjectMemory} (hs : StoredNew m R d n c g symbol value e m₂)
    (hk : KernelIntact m) (hR : ∀ k, kernelClass k ∉ R)
    (hcontent : ∀ k symbol, interned k = some symbol → m.IsByteSymbol symbol ∧
      m.Live symbol ∧ m.bytes symbol = k)
    (hkeys : m.KeysInterned interned g) (hinterned : interned (m.bytes symbol) = some symbol)
    (hagree : ∀ key, (key = symbol ∨ ∃ a, m.DictionaryHolds d a ∧ m.slot a Field.key = key) →
      m.HashesAgree key (doubledArraySize n)) :
    ∃ m', m₂.dictionaryGrow d (fun m e => m.identityDictionaryAddAssociation d e) = some m' ∧
      Frame m₂.limit {p | p.1 = d} m₂ m' ∧
      DictionaryValid symbolScheme m' (R ∪ {p | m₂.limit ≤ p}) d (doubledArraySize n) (c + 1)
        (Function.update g (m.bytes symbol) (some e)) := by
  have hsame : ∀ {k s}, interned k = some s → SameBody m m₂ s := fun hs' =>
    hs.frame.sameBody (hcontent _ _ hs').2.1
  have hbytes : ∀ k s, interned k = some s → m₂.bytes s = k := by
    intro k s hs'
    obtain ⟨hsymbol, -, hb⟩ := hcontent k s hs'
    rw [hsymbol.isByteString.bytes_congr (hsame hs'), hb]
  have hagree₂ : ∀ k s, interned k = some s → m.HashesAgree s (doubledArraySize n) →
      m₂.HashesAgree s (doubledArraySize n) := by
    intro k s hs' hagree
    rw [HashesAgree, (hsame hs').identityHash, hbytes k s hs', ← (hcontent k s hs').2.2]
    exact hagree
  have hkey : ∀ k a, g k = some a → m₂.slot a Field.key = m.slot a Field.key := by
    intro k a ha
    have hentry := (h.of_some ha).1
    refine hs.frame.slot a hentry.lt_limit _ ?_
    rintro (hcell | hcell)
    · exact hentry.ne_dictionary hcell
    · exact hentry.ne_array hcell
  have hk₂ : KernelIntact m₂ := by
    refine hk.frame hs.frame hk.lt_limit fun k hcell => ?_
    rcases hcell with hcell | hcell
    · exact hR k ((show kernelClass k = d from hcell) ▸ h.shape.mem)
    · exact hR k ((show kernelClass k = m.slot d Field.array from hcell) ▸ h.shape.array_mem)
  have hkeys₂ : m₂.KeysInterned interned (Function.update g (m.bytes symbol) (some e)) :=
    hkeys.update hkey (hs.new.key.symm ▸ hinterned)
  refine hs.valid.grow_identity hk₂ hbytes hkeys₂ fun k a ha => ?_
  refine hagree₂ k _ (hkeys₂ k a ha) (hagree _ ?_)
  -- the keys in the pool are the old ones and the symbol
  by_cases hks : k = m.bytes symbol
  · rw [hks, Function.update_self] at ha
    rw [← Option.some.inj ha]
    exact Or.inl hs.new.key
  · rw [Function.update_of_ne hks] at ha
    exact Or.inr ⟨a, h.holds_iff.mpr ⟨k, ha⟩, (hkey k a ha).symm⟩

/-- **`slvm_IdentityDictionary_atPut` of a name that is not bound** binds it to a new association,
where a lookup by the string hash finds it. -/
theorem identityAtPut_of_none (h : DictionaryValid symbolScheme m R d n c g) (hroom : c < n)
    (hk : KernelIntact m) (hR : ∀ k, kernelClass k ∉ R)
    (hcontent : ∀ k symbol, interned k = some symbol → m.IsByteSymbol symbol ∧
      m.Live symbol ∧ m.bytes symbol = k)
    (hkeys : m.KeysInterned interned g) {symbol : ℕ}
    (hinterned : interned (m.bytes symbol) = some symbol) (hfits : m.HashesFit d symbol)
    (hg : g (m.bytes symbol) = none) (value : ℕ) :
    ∃ e m' n' c', m.identityDictionaryAtPut d symbol value = some m' ∧
      Frame m.limit {p | p.1 = d ∨ p.1 = m.slot d Field.array} m m' ∧
      DictionaryValid symbolScheme m' (R ∪ {p | m.limit ≤ p}) d n' c'
        (Function.update g (m.bytes symbol) (some e)) ∧ c' < n' ∧
      NewAssociation m symbol value e m' := by
  have hagree := hfits.now
  rw [h.shape.basicSize] at hagree
  obtain ⟨hsymbol, hlive, -⟩ := hcontent _ _ hinterned
  obtain ⟨e, m₂, hs⟩ := h.exists_storedNew hroom hk hkeys hsymbol hlive hinterned hagree hg value
  have hcount := hs.valid.tally_le
  have hput := hs.atPut
  by_cases hcond : m₂.hashedCollectionFullCondition d = true
  · rw [if_pos hcond] at hput
    have hgrown := hfits.grown (fun a ha hkey => ?_) ((hs.full_iff h).mp hcond)
    · rw [h.shape.basicSize] at hgrown
      obtain ⟨m', hgrow, hframe', hvalid'⟩ :=
        hs.grow h hk hR hcontent hkeys hinterned hgrown
      refine ⟨e, m', _, _, hput.trans hgrow, hs.frame.trans (hframe'.mono hs.frame.limit_le
        fun _ _ _ hcell => Or.inl hcell), hvalid'.mono ?_, ?_,
        hs.new.frame hframe' fun _ hcell => hs.ne_dictionary hcell⟩
      · rintro p (hp | hp)
        · exact Or.inl hp
        · exact Or.inr (hs.frame.limit_le.trans hp)
      · simp only [doubledArraySize]
        split <;> omega
    · -- a key that is the symbol would be bound
      obtain ⟨k, hk⟩ := h.holds_iff.mp ha
      have hcontent' : m.bytes (m.slot a Field.key) = k := (h.of_some hk).2.2
      rw [← hcontent', hkey, hg] at hk
      cases hk
  · rw [if_neg hcond] at hput
    refine ⟨e, m₂, n, c + 1, hput, hs.frame, hs.valid.mono Set.subset_union_left, ?_, hs.new⟩
    rw [hs.valid.shape.fullCondition_iff hcount] at hcond
    omega

/-- **The first name that is put into a pool** by an identity hash that leads to another slot than
its string hash is not found again. -/
theorem identityAtPut_of_empty (h : DictionaryValid symbolScheme m R d n 0 fun _ => none)
    (hn : 4 ≤ n) (hk : KernelIntact m) {symbol : ℕ} (hsymbol : m.IsByteSymbol symbol)
    (hlive : m.Live symbol) (hdisagree : ¬ m.HashesAgree symbol n) (value : ℕ) :
    ∃ m', m.identityDictionaryAtPut d symbol value = some m' ∧
      Frame m.limit {p | p.1 = d ∨ p.1 = m.slot d Field.array} m m' ∧
      ∃ e, m'.DictionaryHolds d e ∧
        m'.dictionaryAssociationAt d (m'.slot e Field.key) stringHash stringEquals =
          some nilOop := by
  have hpos : 0 < n := h.pos
  have hnil : ∀ i < n, m.slot (m.slot d Field.array) i = nilOop := by
    intro i hi
    refine dictionaryTable_eq_none.mp (?_ : dictionaryTable symbolScheme m d i = none)
    cases ht : dictionaryTable symbolScheme m d i with
    | none => rfl
    | some entry =>
      have hg := h.represents.eq_some_of_slot hi ht
      cases hg
  obtain ⟨j, hj⟩ : ∃ j, j = m.identityHash symbol % n := ⟨_, rfl⟩
  have hjlt : j < n := hj ▸ Nat.mod_lt _ hpos
  have hscan : m.identityDictionaryScanFor d symbol = some (some j) := by
    simp only [identityDictionaryScanFor, dictionaryScanFor, h.shape.basicSize, if_neg hpos.ne',
      identityHashFunction]
    show some (probe n (m.identityHash symbol % n) _) = _
    rw [← hj]
    exact congrArg some (probe_of_start hjlt (by rw [hnil j hjlt, beq_self_eq_true, Bool.true_or]))
  obtain ⟨e, m₁, hmake, hframe₁, hnew⟩ :=
    associationMakeWithClass_spec hk (kernelClass .Association) symbol value
  have harray₁ : m₁.slot d Field.array = m.slot d Field.array :=
    hframe₁.slot d h.shape.lt_limit _ (by simp)
  have hlimit := hnew.limit_lt
  have hlt := h.shape.lt_limit
  have harray_lt := h.shape.array_lt_limit
  have hshape₁ : HashedShape m₁ R d n 0 :=
    h.shape.frame hframe₁ (by simp) fun o ho _ => ho
  have hshape₂ := hshape₁.store j e
  have hfull : ¬ (m₁.storeElement d j e).hashedCollectionFullCondition d = true := by
    rw [hshape₂.fullCondition_iff (by omega)]
    omega
  have hput : m.identityDictionaryAtPut d symbol value = some (m₁.storeElement d j e) := by
    rw [identityDictionaryAtPut, identityDictionaryAtPutWithAssociationClass, if_neg h.ne_nilOop,
      hscan]
    simp only [Option.bind_eq_bind, Option.bind_some, hnil j hjlt, if_true, hmake,
      identityDictionaryInsert, dictionaryInsert, if_neg hfull]
  obtain ⟨m', hm'⟩ : ∃ m', m' = m₁.storeElement d j e := ⟨_, rfl⟩
  rw [← hm'] at hput
  have harray₂ : m'.slot d Field.array = m.slot d Field.array := by
    rw [hm', storeElement_collection hshape₁.array_ne (by decide), harray₁]
  have helement : ∀ i, m'.slot (m.slot d Field.array) i =
      Function.update (m₁.slot (m.slot d Field.array)) j e i := by
    intro i
    rw [hm', ← harray₁]
    exact storeElement_array hshape₁.array_ne i
  have hsize : m'.basicSize (m'.slot d Field.array) = n := by
    rw [hm']
    exact hshape₂.basicSize
  have hkey : m'.slot e Field.key = symbol := by
    rw [hm', storeElement_of_ne (by omega) (by omega), hnew.key]
  have hsame : SameBody m m' symbol := by
    rw [hm']
    exact hframe₁.sameBody hlive
  have hne : e ≠ nilOop := by
    have := hk.lt_limit .nil
    unfold nilOop
    omega
  refine ⟨m', hput, ?_, e, ⟨hne, j, hsize.symm ▸ hjlt, ?_⟩, ?_⟩
  · rw [hm', ← harray₁]
    exact (hframe₁.mono (Nat.le_refl _) (by simp)).trans (storeElement_frame m.limit)
  · rw [harray₂, helement, Function.update_self]
  · obtain ⟨start, hstart⟩ : ∃ start, start = hashOfBytes (m.bytes symbol) % n := ⟨_, rfl⟩
    have hstartlt : start < n := hstart ▸ Nat.mod_lt _ hpos
    have hsne : start ≠ j := by
      rintro rfl
      exact hdisagree (hj.symm.trans hstart)
    have hfree : m'.slot (m'.slot d Field.array) start = nilOop := by
      rw [harray₂, helement, Function.update_of_ne hsne,
        hframe₁.slot _ harray_lt _ (by simp), hnil start hstartlt]
    have hscan' : m'.dictionaryScanFor d symbol stringHash stringEquals = some (some start) := by
      simp only [dictionaryScanFor, hsize, if_neg hpos.ne',
        stringHash_eq (hsymbol.congr hsame).isByteString, hsymbol.isByteString.bytes_congr hsame]
      show some (probe n (hashOfBytes (m.bytes symbol) % n) _) = _
      rw [← hstart]
      exact congrArg some (probe_of_start hstartlt
        (by rw [hfree, beq_self_eq_true, Bool.true_or]))
    rw [hkey, dictionaryAssociationAt, if_neg h.ne_nilOop, hscan']
    exact congrArg some hfree

end DictionaryValid

end ObjectMemory

/-! ### Runs -/

open ObjectMemory

/-- A state of a run, with the owners of the objects and the symbol of every content. -/
structure PoolRun where
  world : World
  owner : ℕ → Region
  interned : List UInt8 → Option ℕ

namespace PoolRun

variable [KernelImage]

/-- The class pool of `C`. -/
def pool (s : PoolRun) (C : ℕ) : ℕ := s.world.memory.slot C Field.classPool

/-- The same state over another memory, where what was allocated since belongs to `r`. -/
def withMemory (s : PoolRun) (m : ObjectMemory) (r : Region) : PoolRun :=
  ⟨s.world.withMemory m, claim s.owner s.world.memory.limit r, s.interned⟩

/-- The cells the rest of the program stores into: those of its own objects, but for the names of
the class variables. -/
def elsewhere (s : PoolRun) (C : ℕ) : Set (ℕ × ℕ) :=
  {p | s.owner p.1 = .object ∧
    ∀ e, s.world.memory.DictionaryHolds (s.pool C) e → p ≠ (e, Field.key)}

/-- An association of the program with an interned symbol as its key. -/
structure IsVariable (s : PoolRun) (e : ℕ) : Prop where
  object : s.owner e = .object
  lt_limit : e < s.world.memory.limit
  interned : s.interned (s.world.memory.bytes (s.world.memory.slot e Field.key)) =
    some (s.world.memory.slot e Field.key)

/-- The class variables of a definition are an array of such associations. -/
structure DeclaresVariables (s : PoolRun) (d : ClassDefinition) : Prop where
  object : s.owner d.classVariableAssociations = .object
  lt_limit : d.classVariableAssociations < s.world.memory.limit
  element : ∀ i < s.world.memory.basicSize d.classVariableAssociations,
    s.IsVariable (s.world.memory.slot d.classVariableAssociations i) ∧
      s.world.memory.slot d.classVariableAssociations i ≠ d.classVariableAssociations

/-- One step of a run in which class variables with `Allowed` names only are set by
`SLVM_KCLASS_VARIABLE_SET`, which interns the name first. -/
inductive Step (C : ℕ) (Allowed : PoolRun → ℕ → Prop) (s : PoolRun) : PoolRun → Prop
  | internCString {symbol : ℕ} {m : ObjectMemory} (cstring : List UInt8)
      (hintern : s.world.symbolInternCString cstring = some (symbol, s.world.withMemory m)) :
      Step C Allowed s { s.withMemory m .newSymbols with
        interned := Function.update s.interned (cStringBytes cstring) (some symbol) }
  | internString {string symbol : ℕ} {m : ObjectMemory}
      (hstring : s.world.memory.IsByteString string) (hlive : s.world.memory.Live string)
      (hintern : s.world.symbolInternString string = some (symbol, s.world.withMemory m)) :
      Step C Allowed s { s.withMemory m .newSymbols with
        interned := Function.update s.interned (s.world.memory.bytes string) (some symbol) }
  | variableSet {symbol value : ℕ} {m : ObjectMemory} (hallowed : Allowed s symbol)
      (hsymbol : s.interned (s.world.memory.bytes symbol) = some symbol)
      (hput : s.world.memory.identityDictionaryAtPut (s.pool C) symbol value = some m) :
      Step C Allowed s (s.withMemory m (.classPool C))
  | classSetMetadata {d : ClassDefinition} {m : ObjectMemory}
      (hd : d.classVariableAssociations = nilOop ∨ s.DeclaresVariables d)
      (hset : World.classSetMetadata s.world.memory C d = some m) :
      Step C Allowed s (s.withMemory m (.classPool C))
  | elsewhere {m : ObjectMemory}
      (hframe : Frame s.world.memory.limit (s.elsewhere C) s.world.memory m) :
      Step C Allowed s (s.withMemory m .object)

/-- The class `C` has just got a class pool, whatever the symbols and their identity hashes are. -/
def Start (C : ℕ) (s : PoolRun) : Prop :=
  ∃ w owner pool m, World.SymbolsValid w owner s.interned ∧ C < w.memory.limit ∧
    owner C = .behavior ∧ w.memory.dictionaryNew (kernelClass .Dictionary) = some (pool, m) ∧
    s.world = w.withMemory (m.setSlot C Field.classPool pool) ∧
    s.owner = claim owner w.memory.limit (.classPool C)

/-- Every association in the class pool of `C` is found again by the lookup of
`slvm_globals_fixClassVariable`. -/
def Found (C : ℕ) (s : PoolRun) : Prop :=
  ∀ e, s.world.memory.DictionaryHolds (s.pool C) e →
    s.world.memory.dictionaryAssociationAt (s.pool C) (s.world.memory.slot e Field.key) stringHash
      stringEquals = some e

/-! ### The invariant -/

/-- The class pool of `C` is a table by the string hash, with interned names. -/
structure Valid (C : ℕ) (s : PoolRun) : Prop where
  symbols : s.world.SymbolsValid s.owner s.interned
  class_lt : C < s.world.memory.limit
  class_owner : s.owner C = .behavior
  pool : ∃ n c g, DictionaryValid symbolScheme s.world.memory {o | s.owner o = .classPool C}
      (s.pool C) n c g ∧ c < n ∧ s.world.memory.KeysInterned s.interned g ∧
    ∀ k e, g k = some e → s.owner e = .classPool C ∨ s.owner e = .object

namespace Valid

variable {C : ℕ} {s : PoolRun}

/-- A valid pool finds its associations. -/
theorem found (h : Valid C s) : Found C s := by
  intro e he
  obtain ⟨n, c, g, hd, hroom, -, -⟩ := h.pool
  obtain ⟨k, hk⟩ := hd.holds_iff.mp he
  obtain ⟨hentry, -, hcontent⟩ := hd.of_some hk
  have hfind := hd.associationAt hentry.stored hroom
  rw [hcontent, hk] at hfind
  exact hfind

/-- No kernel class is in a region of the pool. -/
theorem kernelClass_notMem (h : Valid C s) (c : KernelClass) :
    kernelClass c ∉ {o | s.owner o = .classPool C} := by
  intro hc
  have hbehavior := h.symbols.kernelOwner (.kernelClass c)
  rw [show KernelImage.address (.kernelClass c) = kernelClass c from rfl,
    show s.owner (kernelClass c) = .classPool C from hc] at hbehavior
  cases hbehavior

/-- **The pool survives a step** that stores into none of its objects and into no name. -/
theorem frame (h : Valid C s) {m : ObjectMemory} {F : Set (ℕ × ℕ)} {s' : PoolRun}
    (hf : Frame s.world.memory.limit F s.world.memory m)
    (hsymbols : s'.world.SymbolsValid s'.owner s'.interned) (hmemory : s'.world.memory = m)
    (hinterned : ∀ k symbol, s.interned k = some symbol → s'.interned k = some symbol)
    (howner : ∀ o < s.world.memory.limit, s'.owner o = s.owner o)
    (hF : ∀ p ∈ F, s.owner p.1 ≠ .classPool C) (hcell : (C, Field.classPool) ∉ F)
    (hkey : ∀ e, s.world.memory.DictionaryHolds (s.pool C) e → (e, Field.key) ∉ F) :
    Valid C s' where
  symbols := hsymbols
  class_lt := hmemory ▸ h.class_lt.trans_le hf.limit_le
  class_owner := (howner C h.class_lt).trans h.class_owner
  pool := by
    obtain ⟨n, c, g, hd, hroom, hkeys, howners⟩ := h.pool
    have hpool : s'.pool C = s.pool C := by
      rw [PoolRun.pool, hmemory]
      exact hf.slot C h.class_lt _ hcell
    have hkey' : ∀ k e, g k = some e → (e, Field.key) ∉ F := fun k e hk =>
      hkey e (hd.holds_iff.mpr ⟨k, hk⟩)
    refine ⟨n, c, g, ?_, hroom, fun k e hk => ?_, fun k e hk => ?_⟩
    · rw [hpool, hmemory]
      exact hd.frame hf (hd.shape.not_mem_cells hF) hkey' fun o ho hlt => (howner o hlt).trans ho
    · rw [hmemory, hf.slot e (hd.of_some hk).1.lt_limit _ (hkey' k e hk)]
      exact hinterned k _ (hkeys k e hk)
    · rw [howner e (hd.of_some hk).1.lt_limit]
      exact howners k e hk

/-- Interning keeps the pool. -/
theorem intern (h : Valid C s) {m : ObjectMemory} {data : List UInt8} {symbol : ℕ}
    (hf : Frame s.world.memory.limit {p | s.owner p.1 = .newSymbols} s.world.memory m)
    (hsymbols : (s.world.withMemory m).SymbolsValid
      (claim s.owner s.world.memory.limit .newSymbols)
      (Function.update s.interned data (some symbol)))
    (hold : ∀ old, s.interned data = some old → symbol = old) :
    Valid C { s.withMemory m .newSymbols with
      interned := Function.update s.interned data (some symbol) } := by
  obtain ⟨n, c, g, hd, -, -, howners⟩ := h.pool
  refine h.frame hf hsymbols rfl (fun k old hk => ?_) (fun o ho => claim_of_lt ho _)
    (fun p hp => ?_) (fun hmem => ?_) fun e he hmem => ?_
  · by_cases hkd : k = data
    · rw [hkd] at hk ⊢
      rw [hold old hk]
      exact Function.update_self ..
    · exact (Function.update_of_ne hkd ..).trans hk
  · rw [show s.owner p.1 = .newSymbols from hp]
    simp
  · exact absurd (h.class_owner.symm.trans hmem) (by simp)
  · obtain ⟨k, hk⟩ := hd.holds_iff.mp he
    have hnew : s.owner e = .newSymbols := hmem
    rcases howners k e hk with howner | howner <;> rw [howner] at hnew <;> cases hnew

/-- The rest of the program keeps the pool. -/
theorem elsewhere (h : Valid C s) {m : ObjectMemory}
    (hf : Frame s.world.memory.limit (s.elsewhere C) s.world.memory m) :
    Valid C (s.withMemory m .object) := by
  have howner : ∀ o < s.world.memory.limit,
      claim s.owner s.world.memory.limit .object o = s.owner o := fun o ho => claim_of_lt ho _
  have hobject : ∀ p ∈ s.elsewhere C, s.owner p.1 = .object := fun p hp => hp.1
  refine h.frame hf (h.symbols.frame hf (fun p hp => ?_) (fun c hmem => ?_) howner) rfl
    (fun k symbol hk => hk) howner (fun p hp => ?_) (fun hmem => ?_) fun e he hmem => ?_
  · rw [hobject p hp]
    simp
  · have hbehavior := h.symbols.kernelOwner (.kernelClass c)
    exact absurd (hbehavior.symm.trans (hobject _ hmem)) (by simp)
  · rw [hobject p hp]
    simp
  · exact absurd (h.class_owner.symm.trans (hobject _ hmem)) (by simp)
  · exact hmem.2 e he rfl

/-- A step that changes the pool and objects of the program only. -/
theorem of_pool (h : Valid C s) {m : ObjectMemory} {F : Set (ℕ × ℕ)} {n c : ℕ}
    {g : List UInt8 → Option ℕ} (hf : Frame s.world.memory.limit F s.world.memory m)
    (hF : ∀ p ∈ F, s.owner p.1 = .classPool C ∨ s.owner p.1 = .object)
    (hd : DictionaryValid symbolScheme m
      ({o | s.owner o = .classPool C} ∪ {p | s.world.memory.limit ≤ p}) (s.pool C) n c g)
    (hroom : c < n) (hkeys : m.KeysInterned s.interned g)
    (howners : ∀ k e, g k = some e → s.owner e = .classPool C ∨ s.owner e = .object ∨
      s.world.memory.limit ≤ e) : Valid C (s.withMemory m (.classPool C)) := by
  have hclaim : ∀ o < s.world.memory.limit,
      claim s.owner s.world.memory.limit (.classPool C) o = s.owner o :=
    fun o ho => claim_of_lt ho _
  have hbehavior : ∀ o i, s.owner o = .behavior → (o, i) ∉ F := by
    intro o i ho hmem
    rcases hF _ hmem with howner | howner <;> exact absurd (ho.symm.trans howner) (by simp)
  refine ⟨h.symbols.frame hf (fun p hp => ?_) (fun c => ?_) hclaim,
    h.class_lt.trans_le hf.limit_le, (hclaim C h.class_lt).trans h.class_owner, n, c, g, ?_, hroom,
    hkeys, fun k e hk => ?_⟩
  · rcases hF p hp with howner | howner <;> rw [howner] <;> simp
  · exact hbehavior _ _ (h.symbols.kernelOwner (.kernelClass c))
  · have hpool : (s.withMemory m (.classPool C)).pool C = s.pool C :=
      hf.slot C h.class_lt _ (hbehavior C _ h.class_owner)
    rw [hpool]
    exact hd.mono (subset_claim _ _ _)
  · show claim _ _ _ e = _ ∨ claim _ _ _ e = _
    by_cases hlt : e < s.world.memory.limit
    · rw [hclaim e hlt]
      rcases howners k e hk with howner | howner | hge
      · exact Or.inl howner
      · exact Or.inr howner
      · omega
    · exact Or.inl (claim_of_ge (Nat.not_lt.mp hlt) _)

/-- The cells of the pool belong to it. -/
theorem cells (h : Valid C s) : ∀ p : ℕ × ℕ,
    p.1 = s.pool C ∨ p.1 = s.world.memory.slot (s.pool C) Field.array →
      s.owner p.1 = .classPool C := by
  obtain ⟨n, c, g, hd, -, -, -⟩ := h.pool
  rintro p (hp | hp)
  · rw [hp]
    exact hd.shape.mem
  · rw [hp]
    exact hd.shape.array_mem

/-- A step that changes the dictionary only leaves it in its place. -/
theorem pool_withMemory (h : Valid C s) {m : ObjectMemory} {r : Region}
    (hframe : Frame s.world.memory.limit
      {p | p.1 = s.pool C ∨ p.1 = s.world.memory.slot (s.pool C) Field.array} s.world.memory m) :
    (s.withMemory m r).pool C = s.pool C := by
  refine hframe.slot C h.class_lt _ fun hcell => ?_
  exact absurd (h.class_owner.symm.trans (h.cells _ hcell)) (by simp)

/-- **`SLVM_KCLASS_VARIABLE_SET`** of an interned name whose hashes fit. -/
theorem variableSet (h : Valid C s) {symbol value : ℕ} {m : ObjectMemory}
    (hfits : s.world.memory.HashesFit (s.pool C) symbol)
    (hsymbol : s.interned (s.world.memory.bytes symbol) = some symbol)
    (hput : s.world.memory.identityDictionaryAtPut (s.pool C) symbol value = some m) :
    Valid C (s.withMemory m (.classPool C)) := by
  obtain ⟨n, c, g, hd, hroom, hkeys, howners⟩ := h.pool
  have hcontent : ∀ k symbol, s.interned k = some symbol → s.world.memory.IsByteSymbol symbol ∧
      s.world.memory.Live symbol ∧ s.world.memory.bytes symbol = k := fun k symbol hk =>
    h.symbols.of_some hk
  obtain ⟨hbyte, -, -⟩ := hcontent _ _ hsymbol
  cases hg : g (s.world.memory.bytes symbol) with
  | some e =>
    obtain ⟨hput', hd'⟩ := hd.identityAtPut_of_some hkeys hbyte hsymbol hfits hg value
    rw [hput] at hput'
    obtain rfl := Option.some.inj hput'
    refine h.of_pool (Frame.setSlot_cell s.world.memory.limit s.world.memory e Field.value value)
      ?_ (hd'.mono Set.subset_union_left) hroom (fun k a hk => ?_) fun k a hk => ?_
    · rintro p rfl
      exact howners _ e hg
    · rw [setSlot_slot_of_ne_index _ _ _ _ (by decide)]
      exact hkeys k a hk
    · exact (howners k a hk).imp_right Or.inl
  | none =>
    obtain ⟨e, m', n', c', hput', hframe, hd', hroom', hnew⟩ := hd.identityAtPut_of_none hroom
      h.symbols.kernel h.kernelClass_notMem hcontent hkeys hsymbol hfits hg value
    rw [hput] at hput'
    obtain rfl := Option.some.inj hput'
    refine h.of_pool hframe (fun p hp => Or.inl (h.cells p hp)) hd' hroom'
      (hkeys.update (fun k a hk => ?_) (hnew.key.symm ▸ hsymbol)) fun k a hk => ?_
    · have hentry := (hd.of_some hk).1
      refine hframe.slot a hentry.lt_limit _ ?_
      rintro (hcell | hcell)
      · exact hentry.ne_dictionary hcell
      · exact hentry.ne_array hcell
    · by_cases hks : k = s.world.memory.bytes symbol
      · rw [hks, Function.update_self] at hk
        rw [← Option.some.inj hk]
        exact Or.inr (Or.inr hnew.limit_lt.le)
      · rw [Function.update_of_ne hks] at hk
        exact (howners k a hk).imp_right Or.inl

/-- Adding an association by the string hash, as every round of the loop in
`slvm_dynrun_classSetMetadata` does. -/
theorem addClassVariable (h : Valid C s) {classVariables i e : ℕ} {m : ObjectMemory}
    (he : s.world.memory.slot classVariables i = e) (hvar : s.IsVariable e)
    (hadd : World.addClassVariable C classVariables s.world.memory i = some m) :
    Valid C (s.withMemory m (.classPool C)) ∧
      Frame s.world.memory.limit {p | s.owner p.1 = .classPool C ∨ p = (e, Field.value)}
        s.world.memory m := by
  obtain ⟨n, c, g, hd, hroom, hkeys, howners⟩ := h.pool
  obtain ⟨hbyte, hlive, -⟩ := h.symbols.of_some hvar.interned
  have hstore := Frame.setSlot_cell s.world.memory.limit s.world.memory e Field.value nilOop
  have hregion : ∀ o, s.owner o = .classPool C → e ≠ o := by
    rintro o ho rfl
    exact absurd (hvar.object.symm.trans ho) (by simp)
  have heC : C ≠ e := by
    rintro rfl
    exact absurd (hvar.object.symm.trans h.class_owner) (by simp)
  have hne : e ≠ nilOop := by
    rintro rfl
    exact absurd (hvar.object.symm.trans (h.symbols.kernelOwner .nil)) (by simp)
  obtain ⟨m₁, hm₁⟩ : ∃ m₁, m₁ = s.world.memory.setSlot e Field.value nilOop := ⟨_, rfl⟩
  have hpool₁ : m₁.slot C Field.classPool = s.pool C := by
    rw [hm₁]
    exact congrFun (setSlot_slot_of_ne _ _ _ _ heC) _
  have hkey₁ : ∀ o, m₁.slot o Field.key = s.world.memory.slot o Field.key := fun o => by
    rw [hm₁]
    exact setSlot_slot_of_ne_index _ _ _ _ (by decide) o
  have hbytes₁ : m₁.bytes = s.world.memory.bytes := by rw [hm₁]; rfl
  have hlimit₁ : m₁.limit = s.world.memory.limit := by rw [hm₁]; rfl
  have hk₁ : KernelIntact m₁ := by
    rw [hm₁]
    exact h.symbols.kernel.setSlot (by decide)
  rw [← hm₁] at hstore
  have hd₁ : DictionaryValid symbolScheme m₁ {o | s.owner o = .classPool C} (s.pool C) n c g := by
    refine hd.frame hstore ?_ (by simp) fun o ho _ => ho
    rintro p rfl
    exact ⟨hregion _ hd.shape.mem, hregion _ hd.shape.array_mem⟩
  have hentry₁ : DictionaryEntry symbolScheme m₁ (s.pool C) e := by
    refine ⟨?_, ?_, hlimit₁ ▸ hvar.lt_limit, hregion _ hd₁.shape.mem, hregion _ hd₁.shape.array_mem⟩
    · rw [hkey₁]
      exact hbyte.congr (hstore.sameBody hlive)
    · rw [hkey₁]
      exact hstore.live hlive
  rw [World.addClassVariable, he, ← hm₁, hpool₁] at hadd
  obtain ⟨m', n', c', hadd', hframe, hd', hroom'⟩ :=
    hd₁.addAssociation hroom hk₁.formats h.kernelClass_notMem hentry₁ hne
  have hm : m = m' := Option.some.inj (hadd.symm.trans hadd')
  rw [← hm] at hframe hd'
  rw [hlimit₁] at hframe hd'
  have hcells : ∀ p : ℕ × ℕ, p.1 = s.pool C ∨ p.1 = m₁.slot (s.pool C) Field.array →
      s.owner p.1 = .classPool C := by
    rintro p (hp | hp)
    · rw [hp]
      exact hd₁.shape.mem
    · rw [hp]
      exact hd₁.shape.array_mem
  have hframe' : Frame s.world.memory.limit {p | s.owner p.1 = .classPool C ∨ p = (e, Field.value)}
      s.world.memory m := by
    refine (hstore.mono (Nat.le_refl _) fun o _ i hcell => Or.inr hcell).trans
      (hframe.mono (Nat.le_refl _) fun o _ i hcell => Or.inl (hcells _ hcell))
  -- the names are where they were
  have hkey : ∀ a, DictionaryEntry symbolScheme m₁ (s.pool C) a →
      m.slot a Field.key = s.world.memory.slot a Field.key := by
    intro a hentry
    rw [← hkey₁]
    refine hframe.slot a (hlimit₁ ▸ hentry.lt_limit) _ fun hcell => ?_
    rcases hcell with hcell | hcell
    · exact hentry.ne_dictionary hcell
    · exact hentry.ne_array hcell
  have hcontent : symbolScheme.content m₁ (m₁.slot e Field.key) =
      s.world.memory.bytes (s.world.memory.slot e Field.key) := by
    rw [hkey₁, ← hbytes₁]
    rfl
  rw [hcontent] at hd'
  refine ⟨h.of_pool hframe' (fun p hp => ?_) hd' hroom' (hkeys.update
    (fun k a hk => hkey a (hd₁.of_some hk).1) ((hkey e hentry₁).symm ▸ hvar.interned))
    fun k a hk => ?_, hframe'⟩
  · rcases hp with hp | rfl
    · exact Or.inl hp
    · exact Or.inr hvar.object
  · by_cases hks : k = s.world.memory.bytes (s.world.memory.slot e Field.key)
    · rw [hks, Function.update_self] at hk
      rw [← Option.some.inj hk]
      exact Or.inr (Or.inl hvar.object)
    · rw [Function.update_of_ne hks] at hk
      exact (howners k a hk).imp_right Or.inl

end Valid

/-- **A new class pool** is empty. -/
theorem valid_of_new {C pool : ℕ} {w : World} {owner : ℕ → Region}
    {interned : List UInt8 → Option ℕ} {m : ObjectMemory}
    (hsymbols : w.SymbolsValid owner interned) (hlt : C < w.memory.limit)
    (howner : owner C = .behavior)
    (hnew : w.memory.dictionaryNew (kernelClass .Dictionary) = some (pool, m)) :
    Valid C ⟨w.withMemory (m.setSlot C Field.classPool pool),
      claim owner w.memory.limit (.classPool C), interned⟩ ∧
    Frame w.memory.limit {(C, Field.classPool)} w.memory (m.setSlot C Field.classPool pool) ∧
    DictionaryValid symbolScheme (m.setSlot C Field.classPool pool)
      {o | claim owner w.memory.limit (.classPool C) o = .classPool C}
      ((m.setSlot C Field.classPool pool).slot C Field.classPool) 5 0 fun _ => none := by
  obtain ⟨pool', m', hnew', hd⟩ :=
    @dictionaryNewWithCapacity_spec _ _ hsymbols.kernel .Dictionary (by decide) 5
  have heq : w.memory.dictionaryNew (kernelClass .Dictionary) = some (pool', m') := hnew'
  rw [hnew] at heq
  obtain ⟨rfl, rfl⟩ := Prod.mk.inj (Option.some.inj heq)
  have hlimit := hd.limit_lt
  have hlimit' := hd.lt_array
  have hvalid : DictionaryValid symbolScheme m {p | w.memory.limit ≤ p} pool 5 0 fun _ => none :=
    hd.valid hsymbols.kernel (by decide)
  have hframe : Frame w.memory.limit {(C, Field.classPool)} w.memory
      (m.setSlot C Field.classPool pool) :=
    (hd.frame.mono (Nat.le_refl _) (by simp)).trans (Frame.setSlot_cell _ m C _ pool)
  have hclaim : ∀ o < w.memory.limit, claim owner w.memory.limit (.classPool C) o = owner o :=
    fun o ho => claim_of_lt ho _
  have hvalid' : DictionaryValid symbolScheme (m.setSlot C Field.classPool pool)
      {o | claim owner w.memory.limit (.classPool C) o = .classPool C} pool 5 0 fun _ => none := by
    refine hvalid.frame (Frame.setSlot_cell m.limit m C Field.classPool pool) ?_
      (fun k e hk => by cases hk) fun o ho _ => claim_of_ge ho _
    rintro p rfl
    refine ⟨?_, ?_⟩
    · show C ≠ pool
      omega
    · show C ≠ m.slot pool Field.array
      omega
  have hslot : (m.setSlot C Field.classPool pool).slot C Field.classPool = pool :=
    setSlot_slot_self ..
  refine ⟨⟨hsymbols.frame hframe ?_ ?_ hclaim, hlt.trans_le hframe.limit_le,
    (hclaim C hlt).trans howner, 5, 0, fun _ => none, ?_, by decide, fun k e hk => (by cases hk),
    fun k e hk => (by cases hk)⟩, hframe, hslot.symm ▸ hvalid'⟩
  · rintro p rfl
    rw [howner]
    simp
  · intro c hmem
    exact absurd (Prod.mk.inj hmem).2 (by decide)
  · rw [PoolRun.pool, show (w.withMemory (m.setSlot C Field.classPool pool)).memory =
      m.setSlot C Field.classPool pool from rfl, hslot]
    exact hvalid'

namespace Valid

variable {C : ℕ} {s : PoolRun}

/-- The names of a definition, a new pool and its shared pools are stored into the class. -/
theorem replacePool (h : Valid C s) {d : ClassDefinition} {pool : ℕ} {m m' : ObjectMemory}
    (hnew : ((s.world.memory.setSlot C Field.instanceVariables d.instanceVariableNames).setSlot C
      Field.category d.categoryName).dictionaryNew (kernelClass .Dictionary) = some (pool, m))
    (hm' : m' = (m.setSlot C Field.classPool pool).setSlot C Field.sharedPools
      d.poolDictionaries) :
    Valid C (s.withMemory m' (.classPool C)) ∧
      Frame s.world.memory.limit {p | p.1 = C} s.world.memory m' := by
  obtain ⟨m₁, hm₁⟩ : ∃ m₁, m₁ = (s.world.memory.setSlot C Field.instanceVariables
    d.instanceVariableNames).setSlot C Field.category d.categoryName := ⟨_, rfl⟩
  rw [← hm₁] at hnew
  have hlimit₁ : m₁.limit = s.world.memory.limit := by rw [hm₁]; rfl
  have hcell : ∀ {i}, i ≠ Field.format → (C, i) ∈ {p : ℕ × ℕ | p.1 = C ∧ p.2 ≠ Field.format} :=
    fun hi => ⟨rfl, hi⟩
  have hframe₁ : Frame s.world.memory.limit {p | p.1 = C ∧ p.2 ≠ Field.format}
      s.world.memory m₁ := by
    rw [hm₁]
    exact (Frame.setSlot _ _ (Or.inl (hcell (by decide))) _).trans
      (Frame.setSlot _ _ (Or.inl (hcell (by decide))) _)
  have hsymbols₁ : (s.world.withMemory m₁).SymbolsValid s.owner s.interned := by
    refine h.symbols.frame hframe₁ (fun p hp => ?_) (fun c hmem => hmem.2 rfl) fun o _ => rfl
    rw [hp.1, h.class_owner]
    simp
  obtain ⟨hvalid₂, hframe₂, -⟩ := valid_of_new hsymbols₁ (hlimit₁ ▸ h.class_lt) h.class_owner hnew
  have hlimit' : (s.world.withMemory m₁).memory.limit = s.world.memory.limit := hlimit₁
  rw [hlimit'] at hvalid₂ hframe₂
  have hstore := Frame.setSlot_cell (m.setSlot C Field.classPool pool).limit
    (m.setSlot C Field.classPool pool) C Field.sharedPools d.poolDictionaries
  rw [← hm'] at hstore
  constructor
  · refine hvalid₂.frame hstore (hvalid₂.symbols.frame hstore ?_ ?_ fun o _ => rfl) rfl
      (fun k symbol hk => hk) (fun o _ => rfl) ?_ ?_ ?_
    · rintro p rfl
      rw [hvalid₂.class_owner]
      simp
    · intro c hmem
      exact absurd (Prod.mk.inj hmem).2 (by decide)
    · rintro p rfl
      rw [hvalid₂.class_owner]
      simp
    · intro hmem
      exact absurd (Prod.mk.inj hmem).2 (by decide)
    · intro e _ hmem
      exact absurd (Prod.mk.inj hmem).2 (by decide)
  · rw [hm']
    refine Frame.trans ((hframe₁.mono (Nat.le_refl _) fun o _ i hcell => hcell.1).trans
      (hframe₂.mono (Nat.le_refl _) fun o _ i hcell => ?_)) (Frame.setSlot_object _ _ C _ _)
    exact (Prod.mk.inj hcell).1

/-- What storing the variables of a definition changes: the pool, the class, and the values of the
variables. -/
def declaredCells (C : ℕ) (s : PoolRun) (d : ClassDefinition) : Set (ℕ × ℕ) :=
  {p | s.owner p.1 = .classPool C ∨ p.1 = C ∨ (s.owner p.1 = .object ∧ p.2 = Field.value ∧
    p.1 ≠ d.classVariableAssociations)}

/-- **A round of the loop** in `slvm_dynrun_classSetMetadata`: the list of the variables and their
names stay as they are. -/
theorem addDeclared (h : Valid C s) {d : ClassDefinition} (hd : s.DeclaresVariables d) {i : ℕ}
    (hi : i < s.world.memory.basicSize d.classVariableAssociations) {t t' : ObjectMemory}
    (hvalid : Valid C (s.withMemory t (.classPool C)))
    (hframe : Frame s.world.memory.limit (declaredCells C s d) s.world.memory t)
    (hstep : World.addClassVariable C d.classVariableAssociations t i = some t') :
    Valid C (s.withMemory t' (.classPool C)) ∧
      Frame s.world.memory.limit (declaredCells C s d) s.world.memory t' := by
  obtain ⟨harray, harray_lt, helement⟩ := hd
  have hobjectC : ∀ o, s.owner o = .object → o ≠ C := by
    rintro o ho rfl
    exact absurd (ho.symm.trans h.class_owner) (by simp)
  obtain ⟨hvar, hne⟩ := helement i hi
  have hslot : t.slot d.classVariableAssociations i =
      s.world.memory.slot d.classVariableAssociations i := by
    refine hframe.slot _ harray_lt i ?_
    rintro (hcell | hcell | ⟨-, -, hcell⟩)
    · exact absurd (harray.symm.trans hcell) (by simp)
    · exact hobjectC _ harray hcell
    · exact hcell rfl
  generalize s.world.memory.slot d.classVariableAssociations i = e at hvar hne hslot
  have hkey : t.slot e Field.key = s.world.memory.slot e Field.key := by
    refine hframe.slot e hvar.lt_limit _ ?_
    rintro (hcell | hcell | ⟨-, hcell, -⟩)
    · exact absurd (hvar.object.symm.trans hcell) (by simp)
    · exact hobjectC _ hvar.object hcell
    · exact absurd (show Field.key = Field.value from hcell) (by decide)
  obtain ⟨hbyte, hlive, -⟩ := h.symbols.of_some hvar.interned
  have hclaim : claim s.owner s.world.memory.limit (.classPool C) e = s.owner e :=
    claim_of_lt hvar.lt_limit _
  have hvar' : (s.withMemory t (.classPool C)).IsVariable e := by
    refine ⟨hclaim.trans hvar.object, hvar.lt_limit.trans_le hframe.limit_le, ?_⟩
    show s.interned (t.bytes (t.slot e Field.key)) = some (t.slot e Field.key)
    rw [hkey, hbyte.isByteString.bytes_congr (hframe.sameBody hlive)]
    exact hvar.interned
  obtain ⟨hvalid', hframe'⟩ := hvalid.addClassVariable hslot hvar' hstep
  constructor
  · have howner : claim (claim s.owner s.world.memory.limit (.classPool C)) t.limit
        (.classPool C) = claim s.owner s.world.memory.limit (.classPool C) :=
      claim_claim hframe.limit_le _
    rw [withMemory] at hvalid' ⊢
    rw [← howner]
    exact hvalid'
  · refine hframe.trans (hframe'.mono hframe.limit_le fun o ho j hcell => ?_)
    rcases hcell with hcell | hcell
    · exact Or.inl ((claim_of_lt ho _).symm.trans hcell)
    · obtain ⟨rfl, rfl⟩ := Prod.mk.inj hcell
      exact Or.inr (Or.inr ⟨hvar.object, rfl, hne⟩)

/-- **`slvm_dynrun_classSetMetadata`** gives the class a new pool with the variables it declares. -/
theorem classSetMetadata (h : Valid C s) {d : ClassDefinition} {m : ObjectMemory}
    (hd : d.classVariableAssociations = nilOop ∨ s.DeclaresVariables d)
    (hset : World.classSetMetadata s.world.memory C d = some m) :
    Valid C (s.withMemory m (.classPool C)) := by
  rw [World.classSetMetadata] at hset
  simp only [Option.bind_eq_bind] at hset
  obtain ⟨⟨pool, m₁⟩, hnew, hset⟩ := Option.bind_eq_some_iff.mp hset
  obtain ⟨m₂, hm₂⟩ : ∃ m₂, m₂ = (m₁.setSlot C Field.classPool pool).setSlot C Field.sharedPools
    d.poolDictionaries := ⟨_, rfl⟩
  obtain ⟨hvalid₂, hframe₂⟩ := h.replacePool hnew hm₂
  simp only [← hm₂] at hset
  split_ifs at hset with hnil
  · exact Option.some.inj hset ▸ hvalid₂
  have hdeclares := hd.resolve_left hnil
  rw [hframe₂.basicSize hdeclares.lt_limit] at hset
  have hround : ∀ i ∈ List.range (s.world.memory.basicSize d.classVariableAssociations), ∀ t t',
      Valid C (s.withMemory t (.classPool C)) ∧
        Frame s.world.memory.limit (declaredCells C s d) s.world.memory t →
      World.addClassVariable C d.classVariableAssociations t i = some t' →
      Valid C (s.withMemory t' (.classPool C)) ∧
        Frame s.world.memory.limit (declaredCells C s d) s.world.memory t' :=
    fun i hi t t' ht hstep => h.addDeclared hdeclares (List.mem_range.mp hi) ht.1 ht.2 hstep
  exact (foldlM_invariant hround ⟨hvalid₂, hframe₂.mono (Nat.le_refl _) fun o _ i hcell =>
    Or.inr (Or.inl hcell)⟩ hset).1

/-- **A step** that fits keeps the invariant. -/
theorem step (h : Valid C s) {s' : PoolRun}
    (hstep : Step C (fun s symbol => s.world.memory.HashesFit (s.pool C) symbol) s s') :
    Valid C s' := by
  have hinj : ∀ {m m' : ObjectMemory}, s.world.withMemory m = s.world.withMemory m' → m = m' :=
    fun heq => congrArg World.memory heq
  cases hstep with
  | @internCString symbol m cstring hintern =>
    obtain ⟨symbol', m', hintern', hframe, hsymbols, hold⟩ := h.symbols.internCString cstring
    obtain ⟨rfl, hm⟩ := Prod.mk.inj (Option.some.inj (hintern.symm.trans hintern'))
    obtain rfl := hinj hm
    exact h.intern hframe hsymbols hold
  | @internString string symbol m hstring hlive hintern =>
    obtain ⟨symbol', m', hintern', hframe, hsymbols, hold⟩ := h.symbols.internString hstring hlive
    obtain ⟨rfl, hm⟩ := Prod.mk.inj (Option.some.inj (hintern.symm.trans hintern'))
    obtain rfl := hinj hm
    exact h.intern hframe hsymbols hold
  | variableSet hallowed hsymbol hput => exact h.variableSet hallowed hsymbol hput
  | classSetMetadata hd hset => exact h.classSetMetadata hd hset
  | elsewhere hframe => exact h.elsewhere hframe

end Valid

/-- `SLVM_KCLASS_VARIABLE_SET` is two steps: the name is interned, and the value put under it. -/
theorem Valid.run_of_kclassVariableSet {c : KernelClass} {s : PoolRun} {name : String} {value : ℕ}
    {w : World} (h : Valid (kernelClass c) s)
    (hset : s.world.kclassVariableSet c name value = some w) :
    ∃ s', s'.world = w ∧ ReflTransGen (Step (kernelClass c) fun _ _ => True) s s' := by
  obtain ⟨symbol, m, hintern, hframe, hsymbols, -⟩ := h.symbols.internCString (asciiBytes name)
  rw [World.kclassVariableSet, hintern] at hset
  simp only [Option.bind_eq_bind, Option.bind_some] at hset
  obtain ⟨m', hput, hw⟩ := Option.bind_eq_some_iff.mp hset
  have hpool : m.slot (kernelClass c) Field.classPool = s.pool (kernelClass c) := by
    refine hframe.slot _ h.class_lt _ fun hcell => ?_
    exact absurd (h.class_owner.symm.trans hcell) (by simp)
  obtain ⟨-, -, hbytes⟩ := hsymbols.of_some (Function.update_self ..)
  have hinterned : Function.update s.interned (cStringBytes (asciiBytes name)) (some symbol)
      (m.bytes symbol) = some symbol := by
    rw [show m.bytes symbol = cStringBytes (asciiBytes name) from hbytes, Function.update_self]
  have hput' : m.identityDictionaryAtPut (m.slot (kernelClass c) Field.classPool) symbol value =
      some m' := by
    rw [hpool]
    exact hput
  exact ⟨_, Option.some.inj hw, (ReflTransGen.single (Step.internCString _ hintern)).tail
    (Step.variableSet trivial hinterned hput')⟩

/-- A class pool that was just made is valid, and empty. -/
theorem Start.valid {C : ℕ} {s : PoolRun} (h : Start C s) :
    Valid C s ∧ DictionaryValid symbolScheme s.world.memory {o | s.owner o = .classPool C}
      (s.pool C) 5 0 fun _ => none := by
  obtain ⟨w, owner, pool, m, hsymbols, hlt, howner, hnew, hworld, hs⟩ := h
  obtain ⟨hvalid, -, hempty⟩ := valid_of_new hsymbols hlt howner hnew
  obtain ⟨world, owner', interned⟩ := s
  simp only at hworld hs
  subst hworld hs
  exact ⟨hvalid, hempty⟩

omit [KernelImage] in
/-- A new class pool of `Object`, next to the symbol `Foo` with any identity hash. -/
theorem exists_start (hash : ℕ) (hhash : hash < 2 ^ 22) :
    letI := sequentialImage
    ∃ (s : PoolRun) (symbol : ℕ), Start (kernelClass .Object) s ∧
      s.interned (s.world.memory.bytes symbol) = some symbol ∧
      s.world.memory.bytes symbol = [70, 111, 111] ∧
      s.world.memory.identityHash symbol = hash := by
  let := sequentialImage
  have hintact : KernelIntact World.sequential.spurInitialize.memory := World.sequential_intact
  obtain ⟨m₀, newSymbols, symbolTable, owner, -, hvalid, -⟩ :=
    World.initCollectionsKernel_spec hintact
  generalize { World.sequential.spurInitialize.withMemory m₀ with
    newSymbols := newSymbols, symbolTable := symbolTable } = w at hvalid
  obtain ⟨symbol, m₁, -, halloc, -, hbytes⟩ :=
    @KernelIntact.newBytes_spec _ _ hvalid.kernel .ByteSymbol rfl rfl [70, 111, 111]
  -- its identity hash is what the address makes it, and any other would do
  obtain ⟨m₂, hm₂⟩ : ∃ m₂, m₂ = m₁.setHeader symbol ((m₁.header symbol).withIdentityHash hash) :=
    ⟨_, rfl⟩
  have hheader : m₂.header symbol = (m₁.header symbol).withIdentityHash hash := by
    rw [hm₂, setHeader_header_self]
  have hframe₂ : Frame w.memory.limit ∅ w.memory m₂ := by
    rw [hm₂]
    exact halloc.frame.trans (Frame.setHeader _ m₁ halloc.limit_lt.le _)
  have hlt₂ : symbol < m₂.limit := by
    rw [hm₂]
    exact halloc.lt_limit
  have hbyte₂ : m₂.IsByteSymbol symbol := by
    refine ⟨halloc.pointers, ?_⟩
    rw [hheader, ObjectHeader.withIdentityHash_classIndex, halloc.classIndex]
  have hbytes₂ : m₂.bytes symbol = [70, 111, 111] := by
    have hsize : m₂.basicSize symbol = m₁.basicSize symbol := by
      simp only [basicSize, hheader, ObjectHeader.withIdentityHash_objectFormat,
        ObjectHeader.withIdentityHash_slotCount]
      rw [hm₂]
      rfl
    rw [bytes, hsize, ← hbytes, bytes, hm₂]
    rfl
  have hvalid₂ := @World.SymbolsValid.frame _ w owner _ hvalid m₂ ∅ owner hframe₂ (by simp)
    (by simp) fun _ _ => rfl
  obtain ⟨m₃, -, hframe₃, hvalid₃⟩ := hvalid₂.addSymbol hbyte₂ (Or.inr hlt₂)
  obtain ⟨pool, m₄, hnew, -⟩ :=
    @dictionaryNewWithCapacity_spec _ _ hvalid₃.kernel .Dictionary (by decide) 5
  have hlt₃ : symbol < m₃.limit := hlt₂.trans_le hframe₃.limit_le
  obtain ⟨-, hframe₄, -⟩ := valid_of_new hvalid₃ (hvalid₃.kernel.lt_limit (.kernelClass .Object))
    (hvalid₃.kernelOwner (.kernelClass .Object)) hnew
  have hstart : Start (kernelClass .Object)
      ⟨(w.withMemory m₃).withMemory (m₄.setSlot (kernelClass .Object) Field.classPool pool),
        claim (claim owner m₂.limit .newSymbols) m₃.limit (.classPool (kernelClass .Object)), _⟩ :=
    ⟨_, _, pool, m₄, hvalid₃, hvalid₃.kernel.lt_limit (.kernelClass .Object),
      hvalid₃.kernelOwner (.kernelClass .Object), hnew, rfl, rfl⟩
  have hinterned : Function.update (fun _ => none) ((w.withMemory m₂).memory.bytes symbol)
      (some symbol) (m₂.bytes symbol) = some symbol := Function.update_self ..
  obtain ⟨-, -, hbytes'⟩ := hstart.valid.1.symbols.of_some hinterned
  refine ⟨_, symbol, hstart, ?_, hbytes'.trans hbytes₂, ?_⟩
  · rw [hbytes']
    exact hinterned
  · show (m₄.setSlot (kernelClass .Object) Field.classPool pool).identityHash symbol = hash
    refine (hframe₄.identityHash (Or.inr hlt₃)).trans
      ((hframe₃.identityHash (Or.inr hlt₂)).trans ?_)
    show m₂.identityHash symbol = hash
    rw [identityHash, if_neg halloc.not_immediate, hheader,
      ObjectHeader.withIdentityHash_identityHash, Nat.mod_eq_of_lt hhash]

/-- A put into a new pool fits where the hashes of the name agree: the pool does not grow. -/
theorem hashesFit_of_empty {C : ℕ} {s : PoolRun}
    (hempty : DictionaryValid symbolScheme s.world.memory {o | s.owner o = .classPool C}
      (s.pool C) 5 0
      fun _ => none) {symbol : ℕ} (hagree : s.world.memory.HashesAgree symbol 5) :
    s.world.memory.HashesFit (s.pool C) symbol := by
  refine ⟨hempty.shape.basicSize.symm ▸ hagree, fun _ hfull => ?_⟩
  rw [hempty.shape.raise.fullCondition_iff (by decide)] at hfull
  exact absurd hfull (by decide)

/-- **Class variables are found again as long as the two hashes of their names agree.** In every
run in which `SLVM_KCLASS_VARIABLE_SET` is used for names only whose hashes lead to the same slot,
every association in the class pool is found by the lookup of `slvm_globals_fixClassVariable`. For
the first variable that is put into a new pool it is found if and only if they do. -/
theorem found_of_run {C : ℕ} {s : PoolRun} (h : Start C s) :
    (∀ s', ReflTransGen (Step C fun s symbol =>
        s.world.memory.HashesFit (s.pool C) symbol) s s' → Found C s') ∧
    ∀ symbol value m, s.interned (s.world.memory.bytes symbol) = some symbol →
      s.world.memory.identityDictionaryAtPut (s.pool C) symbol value = some m →
      (Found C (s.withMemory m (.classPool C)) ↔ s.world.memory.HashesAgree symbol
        (s.world.memory.basicSize (s.world.memory.slot (s.pool C) Field.array))) := by
  obtain ⟨hvalid, hempty⟩ := h.valid
  refine ⟨fun s' hrun => Valid.found ?_, fun symbol value m hsymbol hput => ?_⟩
  · induction hrun with
    | refl => exact hvalid
    | tail _ hstep ih => exact ih.step hstep
  · rw [hempty.shape.basicSize]
    obtain ⟨hbyte, hlive, -⟩ := hvalid.symbols.of_some hsymbol
    constructor
    · intro hfound
      by_contra hdisagree
      obtain ⟨m', hput', hframe, e, he, hlookup⟩ := hempty.identityAtPut_of_empty (by decide)
        hvalid.symbols.kernel hbyte hlive hdisagree value
      obtain rfl := Option.some.inj (hput.symm.trans hput')
      have hpool : (s.withMemory m (.classPool C)).pool C = s.pool C :=
        hvalid.pool_withMemory hframe
      have hfind := hfound e (by rw [hpool]; exact he)
      rw [hpool, show (s.withMemory m (.classPool C)).world.memory = m from rfl, hlookup] at hfind
      exact he.1 (Option.some.inj hfind).symm
    · intro hagree
      exact (hvalid.variableSet (hashesFit_of_empty hempty hagree) hsymbol hput).found

omit [KernelImage] in
/-- The class variable `Foo` of `Object` with the identity hash 4 is put into a pool of 5 slots, and
then `Bar` is interned. -/
theorem found_of_run_foo :
    letI := sequentialImage
    ∃ (s s₁ s₂ : PoolRun) (symbol e : ℕ), Start (kernelClass .Object) s ∧
      s₁.world.memory.bytes symbol = [70, 111, 111] ∧
      ReflTransGen (Step (kernelClass .Object) fun s symbol =>
        s.world.memory.HashesFit (s.pool (kernelClass .Object)) symbol) s s₁ ∧
      s₁.world.memory.DictionaryHolds (s₁.pool (kernelClass .Object)) e ∧
      s₁.world.memory.dictionaryAssociationAt (s₁.pool (kernelClass .Object)) symbol stringHash
        stringEquals = some e ∧
      ReflTransGen (Step (kernelClass .Object) fun s symbol =>
        s.world.memory.HashesFit (s.pool (kernelClass .Object)) symbol) s s₂ ∧
      s₂.interned [66, 97, 114] ≠ none ∧ Found (kernelClass .Object) s₂ := by
  let := sequentialImage
  obtain ⟨s, symbol, hstart, hinterned, hbytes, hhash⟩ := exists_start 4 (by decide)
  obtain ⟨hvalid, hempty⟩ := hstart.valid
  have hagree : s.world.memory.HashesAgree symbol 5 := by
    rw [HashesAgree, hbytes, hhash]
    decide +kernel
  have hfits := hashesFit_of_empty hempty hagree
  obtain ⟨e, m, n', c', hput, hframe, hd, -, hnew⟩ := hempty.identityAtPut_of_none (by decide)
    hvalid.symbols.kernel hvalid.kernelClass_notMem (fun k symbol hk => hvalid.symbols.of_some hk)
    (fun k a hk => by cases hk) hinterned hfits rfl 42
  have hrun : ReflTransGen (Step (kernelClass .Object) fun s symbol =>
      s.world.memory.HashesFit (s.pool (kernelClass .Object)) symbol) s _ :=
    ReflTransGen.single (Step.variableSet hfits hinterned hput)
  have hvalid₁ := hvalid.variableSet hfits hinterned hput
  have hpool : (s.withMemory m (.classPool (kernelClass .Object))).pool (kernelClass .Object) =
      s.pool (kernelClass .Object) := hvalid.pool_withMemory hframe
  have hheld : m.DictionaryHolds ((s.withMemory m (.classPool (kernelClass .Object))).pool
      (kernelClass .Object)) e := by
    rw [hpool]
    exact hd.holds_iff.mpr ⟨_, Function.update_self ..⟩
  obtain ⟨hfound, -⟩ := found_of_run hstart
  have hlookup := hfound _ hrun e hheld
  rw [show (s.withMemory m (.classPool (kernelClass .Object))).world.memory = m from rfl,
    hnew.key] at hlookup
  -- interning another name concerns the new symbols only
  obtain ⟨bar, m', hintern, -⟩ := hvalid₁.symbols.internCString [66, 97, 114]
  have hrun' := hrun.tail (Step.internCString [66, 97, 114] hintern)
  refine ⟨s, _, _, symbol, e, hstart, ?_, hrun, hheld, hlookup, hrun', ?_, hfound _ hrun'⟩
  · exact (hvalid₁.symbols.of_some hinterned).2.2.trans hbytes
  · rw [show cStringBytes [66, 97, 114] = [66, 97, 114] by decide]
    simp only [Function.update_self]
    exact Option.some_ne_none _

omit [KernelImage] in
/-- The string hash of `Foo` is 4 modulo 5; with the identity hash 3 it is not found again. -/
theorem found_of_run_counterexample :
    letI := sequentialImage
    ¬ ∀ (C : ℕ) (s s' : PoolRun), Start C s → ReflTransGen (Step C fun _ _ => True) s s' →
      Found C s' := by
  let := sequentialImage
  intro hall
  obtain ⟨s, symbol, hstart, hinterned, hbytes, hhash⟩ := exists_start 3 (by decide)
  obtain ⟨hvalid, hempty⟩ := hstart.valid
  obtain ⟨hbyte, hlive, -⟩ := hvalid.symbols.of_some hinterned
  have hdisagree : ¬ s.world.memory.HashesAgree symbol 5 := by
    rw [HashesAgree, hbytes, hhash]
    decide +kernel
  obtain ⟨m, hput, hframe, e, he, hlookup⟩ := hempty.identityAtPut_of_empty (by decide)
    hvalid.symbols.kernel hbyte hlive hdisagree nilOop
  have hpool : (s.withMemory m (.classPool (kernelClass .Object))).pool (kernelClass .Object) =
      s.pool (kernelClass .Object) := hvalid.pool_withMemory hframe
  have hfind := hall (kernelClass .Object) s _ hstart
    (ReflTransGen.single (Step.variableSet trivial hinterned hput)) e (by rw [hpool]; exact he)
  rw [hpool, show (s.withMemory m (.classPool (kernelClass .Object))).world.memory = m from rfl,
    hlookup] at hfind
  exact he.1 (Option.some.inj hfind).symm

end PoolRun

end SlvmNative
