import SlvmNative.StringComparison
import SlvmNative.Symbols

/-!
# Sets of strings

The two sets of symbols with whatever strings are in them. `slvm_String_equals` asks the second
string whether the first one is a symbol, so that with wide strings it is no equivalence: a string
may be taken for another one, and a set stands for no map from contents to symbols. Still every
operation on a set of strings succeeds, and finds and stores nothing but strings.

## Main definitions

* `ObjectMemory.StringSetFormed` — a set of strings, all from given ones
* `World.SymbolsFormed` — the two sets of symbols

## Main results

* `ObjectMemory.StringSetFormed.find`, `add` — the operations on such a set
* `World.SymbolsFormed.internString` — interning succeeds on every string
-/

namespace SlvmNative

open LinearProbing

namespace ObjectMemory

/-! ### Strings -/

/-- Every string has a hash. -/
theorem IsString.exists_hash {m : ObjectMemory} {o : ℕ} (h : m.IsString o) :
    ∃ hash, m.stringHash o = some hash := by
  rcases h with hbyte | hwide
  · exact ⟨_, stringHash_eq hbyte⟩
  · exact ⟨_, stringHash_of_isWideString hwide⟩

/-- The classes of strings. -/
theorem IsString.class_cases {m : ObjectMemory} {o : ℕ} (h : m.IsString o) :
    ((m.header o).classIndex = KernelClass.ByteString.index ∨
      (m.header o).classIndex = KernelClass.ByteSymbol.index) ∨
    (m.header o).classIndex = KernelClass.WideString.index ∨
      (m.header o).classIndex = KernelClass.WideSymbol.index :=
  h.imp And.right And.right

/-- No string is a static object of the kernel's. -/
theorem IsString.ne_nilOop [KernelImage] {m : ObjectMemory} (hk : KernelIntact m) {o : ℕ}
    (h : m.IsString o) : o ≠ nilOop := by
  rintro rfl
  have hclass := h.class_cases
  rw [nilOop, hk.header] at hclass
  exact absurd hclass (by decide)

/-! ### The invariant -/

/-- A set of `n` slots and tally `c` whose elements are strings among `S`. -/
structure StringSetFormed (m : ObjectMemory) (S R : Set ℕ) (set n c : ℕ) : Prop where
  shape : HashedShape m R set n c
  pos : 0 < n
  occupied_le : occupied n (weakSetTable identityScheme m set) ≤ c
  tally_le : c ≤ n
  stored : ∀ i < n, ∀ k e, weakSetTable identityScheme m set i = some (k, e) →
    m.IsString e ∧ m.Live e ∧ e ∈ S
  /-- The flag is a plain object. -/
  flag : m.slot set Field.flag < m.limit ∧
    (m.header (m.slot set Field.flag)).classIndex = KernelClass.Object.index

/-- A set that stands for a map from contents to symbols is one of strings. -/
theorem WeakSetValid.formed {m : ObjectMemory} {R S : Set ℕ} {set n c : ℕ}
    {f : List UInt8 → Option ℕ} (h : WeakSetValid stringScheme m R set n c f)
    (hS : ∀ data s, f data = some s → s ∈ S) : StringSetFormed m S R set n c where
  shape := h.shape
  pos := h.pos
  occupied_le := by
    have hsome : ∀ i, (weakSetTable identityScheme m set i).isSome =
        (weakSetTable stringScheme m set i).isSome := by
      intro i
      simp only [weakSetTable]
      split <;> rfl
    have heq : occupied n (weakSetTable identityScheme m set) =
        occupied n (weakSetTable stringScheme m set) := by
      unfold occupied
      congr 1
      exact Finset.filter_congr fun i _ => by rw [hsome i]
    exact heq ▸ h.occupied_le
  tally_le := h.tally_le
  stored i hi k e ht := by
    obtain ⟨hslot, hne, -⟩ := weakSetTable_eq_some.mp ht
    have ht' : weakSetTable stringScheme m set i = some (m.bytes e, e) :=
      weakSetTable_eq_some.mpr ⟨hslot, hne, rfl⟩
    obtain ⟨hstored, hlive⟩ := h.stored i hi _ e ht'
    exact ⟨Or.inl hstored.isByteString, hlive, hS _ e (h.represents.eq_some_of_slot hi ht')⟩
  flag := h.flag

namespace StringSetFormed

variable {m m' : ObjectMemory} {R R' S S' : Set ℕ} {set n c object : ℕ}

theorem mono (h : StringSetFormed m S R set n c) (hR : R ⊆ R') : StringSetFormed m S R' set n c :=
  ⟨h.shape.mono hR, h.pos, h.occupied_le, h.tally_le, h.stored, h.flag⟩

/-- The elements may be looked for among more strings. -/
theorem mono_elements (h : StringSetFormed m S R set n c) (hS : S ⊆ S') :
    StringSetFormed m S' R set n c := by
  refine ⟨h.shape, h.pos, h.occupied_le, h.tally_le, fun i hi k e ht => ?_, h.flag⟩
  obtain ⟨hstring, hlive, he⟩ := h.stored i hi k e ht
  exact ⟨hstring, hlive, hS he⟩

/-- No string is the flag of a set. -/
theorem ne_flag (h : StringSetFormed m S R set n c) (hstring : m.IsString object) :
    object ≠ m.slot set Field.flag := by
  rintro rfl
  have hclass := hstring.class_cases
  rw [h.flag.2] at hclass
  exact absurd hclass (by decide)

/-- **Scanning** succeeds if the set has a free slot. -/
theorem scanFor (h : StringSetFormed m S R set n c) (hstring : m.IsString object) (hroom : c < n) :
    ∃ i < n, m.weakSetScanFor set object stringHash stringEquals = some (some i) := by
  obtain ⟨hash, hhash⟩ := hstring.exists_hash
  obtain ⟨j, hj, hfree⟩ := exists_hole (h.occupied_le.trans_lt hroom)
  have hstop : (m.slot (m.slot set Field.array) j == m.slot set Field.flag ||
      m.stringEquals object (m.slot (m.slot set Field.array) j)) = true := by
    rw [weakSetTable_eq_none.mp hfree, beq_self_eq_true, Bool.true_or]
  obtain ⟨i, hi, hprobe, -⟩ := @exists_probe n (hash % n) j (fun index =>
    m.slot (m.slot set Field.array) index == m.slot set Field.flag ||
      m.stringEquals object (m.slot (m.slot set Field.array) index)) (Nat.mod_lt _ h.pos) hj hstop
  refine ⟨i, hi, ?_⟩
  simp only [weakSetScanFor, h.shape.basicSize, if_neg h.pos.ne', hhash]
  exact congrArg some hprobe

/-- **`slvm_WeakSet_find`** finds nothing or an element. -/
theorem find [KernelImage] (h : StringSetFormed m S R set n c) (hstring : m.IsString object)
    (hroom : c < n) :
    ∃ r, m.weakSetFind set object stringHash stringEquals = some r ∧
      (r = nilOop ∨ m.IsString r ∧ m.Live r ∧ r ∈ S) := by
  obtain ⟨i, hi, hscan⟩ := h.scanFor hstring hroom
  rw [weakSetFind, hscan]
  by_cases hflag : m.slot (m.slot set Field.array) i = m.slot set Field.flag
  · exact ⟨nilOop, congrArg some (if_pos hflag), Or.inl rfl⟩
  · exact ⟨_, congrArg some (if_neg hflag),
      Or.inr (h.stored i hi _ _ (weakSetTable_eq_some.mpr ⟨rfl, hflag, rfl⟩))⟩

/-- The set survives a step that changes no cell of it. -/
theorem frame (h : StringSetFormed m S R set n c) {F : Set (ℕ × ℕ)} (hf : Frame m.limit F m m')
    (hF : ∀ p ∈ F, p.1 ∉ R) (hR : ∀ o ∈ R, o < m.limit → o ∈ R') :
    StringSetFormed m' S R' set n c := by
  have hset : ∀ i, m'.slot set i = m.slot set i := fun i =>
    hf.slot set h.shape.lt_limit i fun hmem => hF _ hmem h.shape.mem
  have harray : ∀ i, m'.slot (m.slot set Field.array) i = m.slot (m.slot set Field.array) i :=
    fun i => hf.slot _ h.shape.array_lt_limit i fun hmem => hF _ hmem h.shape.array_mem
  have htable : weakSetTable identityScheme m' set = weakSetTable identityScheme m set := by
    funext i
    simp only [weakSetTable, hset, harray]
    rfl
  refine ⟨h.shape.frame hf (h.shape.not_mem_cells hF) hR, h.pos, ?_, h.tally_le,
    fun i hi k e ht => ?_, ?_⟩
  · rw [htable]
    exact h.occupied_le
  · rw [htable] at ht
    obtain ⟨hstring, hlive, he⟩ := h.stored i hi k e ht
    exact ⟨hstring.congr (hf.sameBody hlive), hf.live hlive, he⟩
  · rw [hset, hf.header _ h.flag.1]
    exact ⟨h.flag.1.trans_le hf.limit_le, h.flag.2⟩

/-- Storing a string anywhere. -/
theorem store (h : StringSetFormed m S R set n c) (hroom : c < n) (hstring : m.IsString object)
    (hlive : m.Live object) (hobject : object ∈ S) {index : ℕ} (hindex : index < n) :
    StringSetFormed (m.storeElement set index object) S R set n (c + 1) := by
  have htable : weakSetTable identityScheme (m.storeElement set index object) set =
      Function.update (weakSetTable identityScheme m set) index (some (object, object)) := by
    funext i
    exact weakSetTable_store h.shape.array_ne (h.ne_flag hstring) (fun _ _ _ => trivial) trivial
  refine ⟨h.shape.store index object, h.pos, ?_, hroom, fun i hi k e ht => ?_, ?_⟩
  · rw [htable]
    have hle := h.occupied_le
    cases ht : weakSetTable identityScheme m set index with
    | none =>
      rw [occupied_update_of_none hindex ht]
      omega
    | some entry =>
      rw [occupied_update_of_some ht]
      omega
  · rw [htable] at ht
    by_cases hii : i = index
    · rw [hii, Function.update_self] at ht
      obtain ⟨-, rfl⟩ := Prod.mk.inj (Option.some.inj ht)
      exact ⟨hstring, hlive, hobject⟩
    · rw [Function.update_of_ne hii] at ht
      exact h.stored i hi k e ht
  · rw [storeElement_collection h.shape.array_ne (by decide)]
    exact h.flag

/-- **`slvm_WeakSet_doAdd`** stores a string, unless the string itself is there. -/
theorem doAdd (h : StringSetFormed m S R set n c) (hroom : c < n) (hstring : m.IsString object)
    (hlive : m.Live object) (hobject : object ∈ S) :
    ∃ m' c', m.weakSetDoAdd set object stringHash stringEquals = some m' ∧ (m' = m ∨
        ∃ index, m' = m.storeElement set index object) ∧
      StringSetFormed m' S R set n c' ∧ c' ≤ c + 1 := by
  obtain ⟨i, hi, hscan⟩ := h.scanFor hstring hroom
  have hadd : m.weakSetDoAdd set object stringHash stringEquals =
      some (if m.slot (m.slot set Field.array) i = object then m
        else m.storeElement set i object) :=
    @weakSetDoAdd_eq _ stringScheme m set object i h.shape.array_ne hscan
  rw [hadd]
  by_cases heq : m.slot (m.slot set Field.array) i = object
  · rw [if_pos heq]
    exact ⟨m, c, rfl, Or.inl rfl, h, Nat.le_succ c⟩
  · rw [if_neg heq]
    exact ⟨_, c + 1, rfl, Or.inr ⟨i, rfl⟩, h.store hroom hstring hlive hobject hi, Nat.le_refl _⟩

/-! ### Growing -/

variable [KernelImage]

/-- Half way through the reinsertion loop of `slvm_WeakSet_doGrow`, which began in the memory `m`
with the new array of `n'` slots. -/
structure Regrown (m : ObjectMemory) (S R : Set ℕ) (set n' i : ℕ) (s : ObjectMemory) : Prop where
  formed : ∃ c ≤ i, StringSetFormed s S (R ∪ {p | m.limit ≤ p}) set n' c
  frame : Frame m.limit {p | p.1 ∈ R} m s
  flag : s.slot set Field.flag = m.slot set Field.flag
  oldArray : s.slot (m.slot set Field.array) = m.slot (m.slot set Field.array)
  array_ne : s.slot set Field.array ≠ m.slot set Field.array

omit [KernelImage] in
/-- The loop starts with an empty table. -/
theorem regrown_start (h : StringSetFormed m S R set n c) {n' : ℕ} (hn : 0 < n')
    {s : ObjectMemory} (hs : Emptied m R set n' s) : Regrown m S R set n' 0 s := by
  have htable : ∀ i < n', weakSetTable identityScheme s set i = none :=
    fun i hi => weakSetTable_eq_none.mpr (hs.free i hi)
  refine ⟨⟨0, Nat.le_refl 0, hs.shape, hn, ?_, Nat.zero_le _, fun i hi k e ht => ?_, ?_⟩, hs.frame,
    hs.flag, hs.oldArray, hs.array_ne⟩
  · rw [occupied_congr htable, occupied_none]
  · rw [htable i hi] at ht
    cases ht
  · rw [hs.flag, hs.frame.header _ h.flag.1]
    exact ⟨h.flag.1.trans_le hs.frame.limit_le, h.flag.2⟩

omit [KernelImage] in
/-- One round of the loop. A string may take the place of one it is taken for. -/
theorem regrown_step (h : StringSetFormed m S R set n c) {n' i : ℕ} (hnn : n ≤ n') (hi : i < n)
    {s : ObjectMemory} (hs : Regrown m S R set n' i s) :
    ∃ s', (if s.slot (m.slot set Field.array) i = m.slot set Field.flag then some s
        else s.weakSetDoAdd set (s.slot (m.slot set Field.array) i) stringHash stringEquals) =
          some s' ∧ Regrown m S R set n' (i + 1) s' := by
  obtain ⟨c', hle, hformed⟩ := hs.formed
  rw [hs.oldArray]
  by_cases hslot : m.slot (m.slot set Field.array) i = m.slot set Field.flag
  · rw [if_pos hslot]
    exact ⟨s, rfl, ⟨⟨c', hle.trans (Nat.le_succ i), hformed⟩, hs.frame, hs.flag, hs.oldArray,
      hs.array_ne⟩⟩
  · rw [if_neg hslot]
    obtain ⟨hstring, hlive, he⟩ :=
      h.stored i hi _ _ (weakSetTable_eq_some.mpr ⟨rfl, hslot, rfl⟩)
    obtain ⟨s', c'', hadd, hs', hformed', hle'⟩ := hformed.doAdd (by omega)
      (hstring.congr (hs.frame.sameBody hlive)) (hs.frame.live hlive) he
    rcases hs' with rfl | ⟨index, rfl⟩
    · exact ⟨s', hadd, ⟨⟨c'', by omega, hformed'⟩, hs.frame, hs.flag, hs.oldArray, hs.array_ne⟩⟩
    · refine ⟨_, hadd, ⟨⟨c'', by omega, hformed'⟩, ?_, ?_, ?_, ?_⟩⟩
      · refine hs.frame.trans ((storeElement_frame m.limit).mono (Nat.le_refl _) ?_)
        intro p hp _ hcell
        rcases hcell with hcell | hcell
        · exact (show p = set from hcell) ▸ h.shape.mem
        · obtain rfl : p = s.slot set Field.array := hcell
          rcases hformed.shape.array_mem with hmem | hmem
          · exact hmem
          · exact absurd hp (Nat.not_lt.mpr hmem)
      · rw [storeElement_collection hformed.shape.array_ne (by decide), hs.flag]
      · rw [storeElement_of_ne h.shape.array_ne hs.array_ne.symm, hs.oldArray]
      · rw [storeElement_collection hformed.shape.array_ne (by decide)]
        exact hs.array_ne

/-- **`slvm_WeakSet_doGrow`** -/
theorem doGrow (h : StringSetFormed m S R set n c) (hk : KernelIntact m) {n' : ℕ} (hnn : n ≤ n') :
    ∃ m' c', m.weakSetDoGrow set stringHash stringEquals n' = some m' ∧
      Frame m.limit {p | p.1 ∈ R} m m' ∧
      StringSetFormed m' S (R ∪ {p | m.limit ≤ p}) set n' c' ∧ c' ≤ n := by
  obtain ⟨storage, s, hnew, hstart⟩ := h.shape.emptied hk n'
  obtain ⟨m', hloop, hend⟩ := foldlM_range (h.regrown_start (h.pos.trans_le hnn) hstart)
    fun i hi s hs => h.regrown_step hnn hi hs
  obtain ⟨c', hle, hformed⟩ := hend.formed
  refine ⟨m', c', ?_, hend.frame, hformed, hle⟩
  rw [weakSetDoGrow, hnew, h.shape.basicSize]
  exact hloop

/-- **`slvm_WeakSet_grow`** -/
theorem grow (h : StringSetFormed m S R set n c) (hk : KernelIntact m)
    (hR : ∀ k, kernelClass k ∉ R) :
    ∃ m' n' c', m.weakSetGrow set stringHash stringEquals = some m' ∧
      Frame m.limit {p | p.1 ∈ R} m m' ∧
      StringSetFormed m' S (R ∪ {p | m.limit ≤ p}) set n' c' ∧ c' < n' :=
  weakSetGrow_of_doGrow (V := fun m R n c => StringSetFormed m S R set n c)
    (fun _ _ _ _ h => ⟨h.shape, h.pos, h.tally_le⟩) (fun _ _ _ _ _ hR h => h.mono hR)
    (fun _ _ _ _ h => h) (fun _ _ _ _ _ h hk hnn => h.doGrow hk hnn) h hk hR

/-- **`slvm_WeakSet_add`** of a string succeeds, and the set is not full afterwards. -/
theorem add (h : StringSetFormed m S R set n c) (hroom : c < n) (hk : KernelIntact m)
    (hR : ∀ k, kernelClass k ∉ R) (hstring : m.IsString object) (hlive : m.Live object)
    (hobject : object ∈ S) :
    ∃ m' n' c', m.weakSetAdd set object stringHash stringEquals = some m' ∧
      Frame m.limit {p | p.1 ∈ R} m m' ∧
      StringSetFormed m' S (R ∪ {p | m.limit ≤ p}) set n' c' ∧ c' < n' := by
  obtain ⟨m₁, c₁, hadd, hm₁, hformed₁, -⟩ := h.doAdd hroom hstring hlive hobject
  obtain ⟨m', n', c', hadd', hframe, hformed, hroom', -⟩ := weakSetAdd_of_doAdd
    (V := fun m R n c => StringSetFormed m S R set n c)
    (fun _ _ _ _ h => ⟨h.shape, h.pos, h.tally_le⟩) (fun _ _ _ _ _ hR h => h.mono hR)
    (fun _ _ _ _ h => h) (fun _ _ _ _ h hk hR => h.grow hk hR) h.shape hadd hm₁ hformed₁ hk hR
  exact ⟨m', n', c', hadd', hframe, hformed, hroom'⟩

end StringSetFormed

/-- `SLVM_KNEW` of any class whose instances are no methods. -/
theorem KernelIntact.exists_kernelNew [KernelImage] {m : ObjectMemory} (h : KernelIntact m)
    {c : KernelClass} (hc : c.info.format < ObjectFormat.mixedObject) (v : ℕ) :
    ∃ o m', m.kernelNew c v = some (o, m') ∧ Allocated m c.index (m'.basicSize o) o m' := by
  have hsome : ∃ r, m.kernelNew c v = some r := by
    simp only [kernelNew, basicNew, h.decodeFormat_kernelClass, kernelClass_ne_nilOop,
      Nat.not_le.mpr hc, or_self, if_false]
    split
    · exact ⟨_, rfl⟩
    · exact ⟨_, rfl⟩
  obtain ⟨⟨o, m'⟩, hnew⟩ := hsome
  have halloc := basicNew_allocated hnew
  rw [h.identityHash_kernelClass] at halloc
  exact ⟨o, m', hnew, halloc⟩

end ObjectMemory

open ObjectMemory

namespace World

variable [KernelImage]

/-- Making a symbol of a string: the string itself if it is a symbol, or else a new object. -/
theorem symbolFromString_formed {m : ObjectMemory} (h : KernelIntact m) {string : ℕ}
    (hstring : m.IsString string) (hlive : m.Live string) :
    ∃ symbol m', symbolFromString m string = some (symbol, m') ∧ Frame m.limit ∅ m m' ∧
      m'.IsString symbol ∧ m'.Live symbol ∧ (symbol = string ∨ m.limit < symbol ∧
        (m.header string).classIndex ≠ KernelClass.ByteSymbol.index ∧
        (m.header string).classIndex ≠ KernelClass.WideSymbol.index) := by
  by_cases hsymbol : (m.header string).classIndex = KernelClass.ByteSymbol.index ∨
      (m.header string).classIndex = KernelClass.WideSymbol.index
  · exact ⟨string, m, if_pos hsymbol, Frame.refl _ _ _, hstring, hlive, Or.inl rfl⟩
  · obtain ⟨hbyte, hwide⟩ := not_or.mp hsymbol
    by_cases hclass : (m.header string).classIndex = KernelClass.ByteString.index
    · obtain ⟨symbol, m', hnew, halloc, -, -⟩ :=
        @KernelIntact.newBytes_spec _ _ h .ByteSymbol rfl rfl (m.bytes string)
      refine ⟨symbol, m', ?_, halloc.frame, Or.inl ⟨halloc.pointers, Or.inr halloc.classIndex⟩,
        Or.inr halloc.lt_limit, Or.inr ⟨halloc.limit_lt, hbyte, hwide⟩⟩
      rw [symbolFromString, if_neg hsymbol, if_pos hclass, hnew]
    · have hwideString : (m.header string).classIndex = KernelClass.WideString.index := by
        rcases hstring.class_cases with (hc | hc) | (hc | hc)
        · exact absurd hc hclass
        · exact absurd hc hbyte
        · exact hc
        · exact absurd hc hwide
      obtain ⟨symbol, m', hnew, halloc⟩ :=
        @KernelIntact.exists_kernelNew _ _ h .WideSymbol (by decide) (m.basicSize string)
      refine ⟨symbol, m'.writeBytes symbol ((List.range (m.basicSize string * 4)).map
        (m.byte string)), ?_, ?_, Or.inr ⟨halloc.pointers, Or.inr halloc.classIndex⟩,
        Or.inr halloc.lt_limit, Or.inr ⟨halloc.limit_lt, hbyte, hwide⟩⟩
      · rw [symbolFromString, if_neg hsymbol, if_neg hclass, if_pos hwideString]
        simp only [hnew]
        rfl
      · exact halloc.frame.trans (Frame.writeBytes m.limit m' halloc.limit_lt.le _)

/-- Both sets of symbols hold strings among `S`. -/
structure SymbolsFormed (w : World) (owner : ℕ → Region) (S : Set ℕ) : Prop where
  kernel : KernelIntact w.memory
  kernelOwner : ∀ o, owner (KernelImage.address o) = .behavior
  newSymbols : ∃ n c, StringSetFormed w.memory S {o | owner o = .newSymbols} w.newSymbols n c ∧
    c < n
  symbolTable : ∃ n c, StringSetFormed w.memory S {o | owner o = .symbolTable} w.symbolTable n c ∧
    c < n

/-- Symbols that stand for a map are formed. -/
theorem SymbolsValid.formed {w : World} {owner : ℕ → Region} {f : List UInt8 → Option ℕ}
    (h : SymbolsValid w owner f) {S : Set ℕ} (hS : ∀ data s, f data = some s → s ∈ S) :
    SymbolsFormed w owner S where
  kernel := h.kernel
  kernelOwner := h.kernelOwner
  newSymbols := by
    obtain ⟨n, c, hset, hroom⟩ := h.newSymbols
    exact ⟨n, c, hset.formed hS, hroom⟩
  symbolTable := by
    obtain ⟨n, c, hset, hroom⟩ := h.symbolTable
    exact ⟨n, c, hset.formed (by simp), hroom⟩

namespace SymbolsFormed

variable {w : World} {owner : ℕ → Region} {S S' : Set ℕ}

theorem mono (h : SymbolsFormed w owner S) (hS : S ⊆ S') : SymbolsFormed w owner S' where
  kernel := h.kernel
  kernelOwner := h.kernelOwner
  newSymbols := by
    obtain ⟨n, c, hset, hroom⟩ := h.newSymbols
    exact ⟨n, c, hset.mono_elements hS, hroom⟩
  symbolTable := by
    obtain ⟨n, c, hset, hroom⟩ := h.symbolTable
    exact ⟨n, c, hset.mono_elements hS, hroom⟩

/-- The symbols survive a step that stores into neither of the sets. -/
theorem frame (h : SymbolsFormed w owner S) {m : ObjectMemory} {F : Set (ℕ × ℕ)}
    {owner' : ℕ → Region} (hf : Frame w.memory.limit F w.memory m)
    (hF : ∀ p ∈ F, owner p.1 ≠ .newSymbols ∧ owner p.1 ≠ .symbolTable)
    (hkernel : ∀ c, (kernelClass c, Field.format) ∉ F)
    (howner : ∀ o < w.memory.limit, owner' o = owner o) :
    SymbolsFormed (w.withMemory m) owner' S where
  kernel := h.kernel.frame hf h.kernel.lt_limit hkernel
  kernelOwner o := (howner _ (h.kernel.lt_limit o)).trans (h.kernelOwner o)
  newSymbols := by
    obtain ⟨n, c, hset, hroom⟩ := h.newSymbols
    refine ⟨n, c, hset.frame hf (fun p hp => (hF p hp).1) fun o ho hlt => ?_, hroom⟩
    exact (howner o hlt).trans ho
  symbolTable := by
    obtain ⟨n, c, hset, hroom⟩ := h.symbolTable
    refine ⟨n, c, hset.frame hf (fun p hp => (hF p hp).2) fun o ho hlt => ?_, hroom⟩
    exact (howner o hlt).trans ho

/-- Adding a symbol. -/
theorem addSymbol (h : SymbolsFormed w owner S) {symbol : ℕ} (hstring : w.memory.IsString symbol)
    (hlive : w.memory.Live symbol) :
    ∃ m, w.memory.weakSetAdd w.newSymbols symbol stringHash stringEquals = some m ∧
      Frame w.memory.limit {p | owner p.1 = .newSymbols} w.memory m ∧
      SymbolsFormed (w.withMemory m) (claim owner w.memory.limit .newSymbols)
        (insert symbol S) := by
  obtain ⟨n, c, hset, hroom⟩ := (h.mono (Set.subset_insert symbol S)).newSymbols
  have hkernel : ∀ c : KernelClass, kernelClass c ∉ {o | owner o = Region.newSymbols} := by
    intro c hc
    have hobject := h.kernelOwner (.kernelClass c)
    exact absurd ((show owner (kernelClass c) = .newSymbols from hc).symm.trans hobject) (by simp)
  obtain ⟨m, n', c', hadd, hframe, hset', hroom'⟩ :=
    hset.add hroom h.kernel hkernel hstring hlive (Set.mem_insert symbol S)
  refine ⟨m, hadd, hframe, ?_, fun o => ?_, ⟨n', c', hset'.mono (subset_claim _ _ _), hroom'⟩, ?_⟩
  · exact h.kernel.frame hframe h.kernel.lt_limit fun c => hkernel c
  · rw [claim_of_lt (h.kernel.lt_limit o)]
    exact h.kernelOwner o
  · obtain ⟨n, c, htable, hroom⟩ := (h.mono (Set.subset_insert symbol S)).symbolTable
    refine ⟨n, c, htable.frame hframe (fun p hp hp' => ?_) fun o ho hlt => ?_, hroom⟩
    · exact absurd ((show owner p.1 = .newSymbols from hp).symm.trans hp') (by simp)
    · exact (claim_of_lt hlt _).trans ho

/-- **`slvm_Symbol_internString`** succeeds on every string. What it returns was in the sets before,
is the string itself, or is new; it is not new if the string is a symbol. -/
theorem internString (h : SymbolsFormed w owner S) {string : ℕ}
    (hstring : w.memory.IsString string) (hlive : w.memory.Live string) :
    ∃ symbol m, w.symbolInternString string = some (symbol, w.withMemory m) ∧
      Frame w.memory.limit {p | owner p.1 = .newSymbols} w.memory m ∧
      SymbolsFormed (w.withMemory m) (claim owner w.memory.limit .newSymbols) (insert symbol S) ∧
      oopIsPointers symbol ∧ (symbol ∈ S ∨ symbol = string ∨ w.memory.limit < symbol ∧
        (w.memory.header string).classIndex ≠ KernelClass.ByteSymbol.index ∧
        (w.memory.header string).classIndex ≠ KernelClass.WideSymbol.index) := by
  obtain ⟨n, c, hset, hroom⟩ := h.newSymbols
  obtain ⟨n', c', htable, hroom'⟩ := h.symbolTable
  obtain ⟨old, hfind, hold⟩ := htable.find hstring hroom'
  obtain ⟨old', hfind', hold'⟩ := hset.find hstring hroom
  have hclaim : ∀ o < w.memory.limit, claim owner w.memory.limit .newSymbols o = owner o :=
    fun o ho => claim_of_lt ho _
  -- a string one of the sets finds is the result
  have hfound : ∀ r, (w.memory.IsString r ∧ w.memory.Live r ∧ r ∈ S) →
      w.symbolInternString string = some (r, w) →
      ∃ symbol m, w.symbolInternString string = some (symbol, w.withMemory m) ∧
        Frame w.memory.limit {p | owner p.1 = .newSymbols} w.memory m ∧
        SymbolsFormed (w.withMemory m) (claim owner w.memory.limit .newSymbols) (insert symbol S) ∧
        oopIsPointers symbol ∧ (symbol ∈ S ∨ symbol = string ∨ w.memory.limit < symbol ∧
          (w.memory.header string).classIndex ≠ KernelClass.ByteSymbol.index ∧
          (w.memory.header string).classIndex ≠ KernelClass.WideSymbol.index) := by
    intro r hr hintern
    refine ⟨r, w.memory, hintern, Frame.refl _ _ _, ?_, hr.1.pointers, Or.inl hr.2.2⟩
    exact (h.frame (Frame.refl _ ∅ _) (by simp) (by simp) hclaim).mono (Set.subset_insert r S)
  rw [symbolInternString, hfind, hfind'] at hfound ⊢
  rcases hold with rfl | hold
  · rcases hold' with rfl | hold'
    · simp only [Option.bind_eq_bind, Option.bind_some, ne_eq, not_true_eq_false, if_false]
      obtain ⟨symbol, m, hnew, hframe, hsymbol, hlive', hwhich⟩ :=
        symbolFromString_formed h.kernel hstring hlive
      obtain ⟨m', hadd, hframe', hformed'⟩ :=
        (h.frame hframe (by simp) (by simp) hclaim).addSymbol hsymbol hlive'
      rw [show (w.withMemory m).memory = m from rfl] at hadd hframe' hformed'
      rw [claim_claim hframe.limit_le] at hformed'
      refine ⟨symbol, m', ?_, ?_, hformed', hsymbol.pointers, Or.inr hwhich⟩
      · rw [hnew]
        simp only [Option.bind_some,
          show m.weakSetAdd w.newSymbols symbol stringHash stringEquals = some m' from hadd]
        rfl
      · refine (hframe.mono (Nat.le_refl _) (by simp)).trans (hframe'.mono hframe.limit_le ?_)
        intro o ho i hcell
        exact (hclaim o ho).symm.trans hcell
    · have hne := hold'.1.ne_nilOop h.kernel
      refine hfound old' hold' ?_
      simp only [Option.bind_eq_bind, Option.bind_some, ne_eq, not_true_eq_false, if_false, hne,
        not_false_eq_true, if_true]
      rfl
  · have hne := hold.1.ne_nilOop h.kernel
    refine hfound old hold ?_
    simp only [Option.bind_eq_bind, Option.bind_some, ne_eq, hne, not_false_eq_true, if_true]
    rfl

end SymbolsFormed

end World

end SlvmNative
