import SlvmNative.Dictionaries
import SlvmNative.Symbols

/-!
# Globals

The system dictionary, which binds the names of the classes and the global variables of the static
heaps. A name that C code binds first gets a new association; a name that a static heap binds first
keeps the variable of that heap.

## Main definitions

* `World.globalsAtPut`, `globalsAtOrNil`, `globalsAddIfNotExistent`
* `World.GlobalsValid` — the symbols and the globals are valid side by side

## Main results

* `World.GlobalsValid.atOrNil`, `atPut`, `addIfNotExistent` — what the operations do
-/

namespace SlvmNative

open ObjectMemory

namespace World

variable [KernelImage]

/-! ### The operations -/

/-- `slvm_globals_atOrNil` -/
def globalsAtOrNil (w : World) (symbol : ℕ) : Option ℕ :=
  w.memory.identityDictionaryAtOrNil w.globals symbol

/-- `slvm_globals_atPut` -/
def globalsAtPut (w : World) (symbol value : ℕ) : Option World :=
  (w.memory.systemDictionaryAtPut w.globals symbol value).map w.withMemory

/-- `slvm_globals_addIfNotExistent` -/
def globalsAddIfNotExistent (w : World) (var : ℕ) : Option (ℕ × World) :=
  (w.memory.identityDictionaryAddAssociationIfNotExistent w.globals var).map
    fun (result, m) => (result, w.withMemory m)

/-! ### The invariant -/

/-- The symbols stand for `f` and the globals bind the associations `g`, which are globals' own or
objects of a static heap. -/
structure GlobalsValid (w : World) (owner : ℕ → Region) (f : List UInt8 → Option ℕ)
    (g : ℕ → Option ℕ) : Prop where
  symbols : SymbolsValid w owner f
  globals : ∃ n c, DictionaryValid identityScheme w.memory {o | owner o = .globals}
    w.globals n c g ∧
    c < n
  bound : ∀ k e, g k = some e → owner e = .globals ∨ owner e = .object

namespace GlobalsValid

variable {w : World} {owner owner' : ℕ → Region} {f : List UInt8 → Option ℕ} {g : ℕ → Option ℕ}

/-- What an association in the globals is. -/
theorem entry (h : GlobalsValid w owner f g) {k e : ℕ} (hg : g k = some e) :
    e < w.memory.limit ∧ e ≠ nilOop ∧ w.memory.slot e Field.key = k ∧ w.memory.Live k := by
  obtain ⟨n, c, hd, -⟩ := h.globals
  obtain ⟨hentry, hne, hk⟩ := hd.of_some hg
  have hkey : w.memory.slot e Field.key = k := hk
  exact ⟨hentry.lt_limit, hne, hkey, hkey ▸ hentry.live⟩

/-- No association is bound under two names. -/
theorem key_unique (h : GlobalsValid w owner f g) {k k' e : ℕ} (hg : g k = some e)
    (hg' : g k' = some e) : k = k' := by
  rw [← (h.entry hg).2.2.1, (h.entry hg').2.2.1]

/-- The globals survive a step that stores into none of their regions and into no key. -/
theorem frame (h : GlobalsValid w owner f g) {m : ObjectMemory} {F : Set (ℕ × ℕ)}
    (hf : Frame w.memory.limit F w.memory m)
    (hF : ∀ p ∈ F, owner p.1 ≠ .newSymbols ∧ owner p.1 ≠ .symbolTable ∧ owner p.1 ≠ .globals)
    (hkey : ∀ k e, g k = some e → (e, Field.key) ∉ F)
    (hkernel : ∀ c, (kernelClass c, Field.format) ∉ F)
    (howner : ∀ o < w.memory.limit, owner' o = owner o) :
    GlobalsValid (w.withMemory m) owner' f g where
  symbols := h.symbols.frame hf (fun p hp => ⟨(hF p hp).1, (hF p hp).2.1⟩) hkernel howner
  globals := by
    obtain ⟨n, c, hd, hroom⟩ := h.globals
    refine ⟨n, c, hd.frame hf (hd.shape.not_mem_cells fun p hp => (hF p hp).2.2) hkey
      fun o ho hlt => ?_, hroom⟩
    exact (howner o hlt).trans ho
  bound k e hg := by
    rw [howner e (h.entry hg).1]
    exact h.bound k e hg

/-- No static object is in the region of a data structure. -/
theorem kernelClass_not_mem (h : GlobalsValid w owner f g) {r : Region} (hr : r ≠ .behavior)
    (c : KernelClass) : kernelClass c ∉ {o | owner o = r} := by
  intro hc
  have hbehavior := h.symbols.kernelOwner (.kernelClass c)
  exact hr ((show owner (kernelClass c) = r from hc).symm.trans hbehavior)

/-- A step that stores into one region, which is not that of the globals, only. -/
theorem frame_region (h : GlobalsValid w owner f g) {m : ObjectMemory} {r : Region}
    (hf : Frame w.memory.limit {p | owner p.1 = r} w.memory m) (hr : r ≠ .newSymbols)
    (hr' : r ≠ .symbolTable) (hglobals : r ≠ .globals) (hobject : r ≠ .object)
    (hbehavior : r ≠ .behavior) (howner : ∀ o < w.memory.limit, owner' o = owner o) :
    GlobalsValid (w.withMemory m) owner' f g := by
  refine h.frame hf (fun p hp => ?_) (fun k e hg hcell => ?_)
    (fun c => h.kernelClass_not_mem hbehavior c) howner
  · have hp' : owner p.1 = r := hp
    rw [hp']
    exact ⟨hr, hr', hglobals⟩
  · have he : owner e = r := hcell
    rcases h.bound k e hg with hb | hb
    · exact hglobals (he.symm.trans hb)
    · exact hobject (he.symm.trans hb)

/-- A step that changed nothing there was. -/
theorem frame_empty (h : GlobalsValid w owner f g) {m : ObjectMemory}
    (hf : Frame w.memory.limit ∅ w.memory m) (howner : ∀ o < w.memory.limit, owner' o = owner o) :
    GlobalsValid (w.withMemory m) owner' f g :=
  h.frame hf (by simp) (by simp) (by simp) howner

/-- The globals depend on memory and on their roots only. -/
theorem of_roots (h : GlobalsValid w owner f g) {w' : World} (hmemory : w'.memory = w.memory)
    (hnew : w'.newSymbols = w.newSymbols) (htable : w'.symbolTable = w.symbolTable)
    (hglobals : w'.globals = w.globals) : GlobalsValid w' owner f g := by
  obtain ⟨⟨hkernel, howner, hn, hs⟩, hg, hbound⟩ := h
  rw [← hmemory] at hkernel hn hs hg
  rw [← hnew] at hn
  rw [← htable] at hs
  rw [← hglobals] at hg
  exact ⟨⟨hkernel, howner, hn, hs⟩, hg, hbound⟩

/-! ### Interning -/

/-- Interning keeps the globals. -/
theorem of_symbols (h : GlobalsValid w owner f g) {m : ObjectMemory}
    {f' : List UInt8 → Option ℕ}
    (hf : Frame w.memory.limit {p | owner p.1 = .newSymbols} w.memory m)
    (hs : SymbolsValid (w.withMemory m) (claim owner w.memory.limit .newSymbols) f') :
    GlobalsValid (w.withMemory m) (claim owner w.memory.limit .newSymbols) f' g where
  symbols := hs
  globals := by
    obtain ⟨n, c, hd, hroom⟩ := h.globals
    refine ⟨n, c, hd.frame hf (hd.shape.not_mem_cells fun p hp hp' => ?_) (fun k e hg hcell => ?_)
      fun o ho hlt => ?_, hroom⟩
    · exact absurd ((show owner p.1 = .newSymbols from hp).symm.trans hp') (by simp)
    · have he : owner e = .newSymbols := hcell
      rcases h.bound k e hg with hb | hb
      · exact absurd (he.symm.trans hb) (by simp)
      · exact absurd (he.symm.trans hb) (by simp)
    · exact (claim_of_lt hlt _).trans ho
  bound k e hg := by
    rw [claim_of_lt (h.entry hg).1]
    exact h.bound k e hg

/-- `slvm_Symbol_internString` next to the globals. -/
theorem internString (h : GlobalsValid w owner f g) {string : ℕ}
    (hstring : w.memory.IsByteString string) (hlive : w.memory.Live string) :
    ∃ symbol m, w.symbolInternString string = some (symbol, w.withMemory m) ∧
      Frame w.memory.limit {p | owner p.1 = .newSymbols} w.memory m ∧
      GlobalsValid (w.withMemory m) (claim owner w.memory.limit .newSymbols)
        (Function.update f (w.memory.bytes string) (some symbol)) g ∧
      ∀ old, f (w.memory.bytes string) = some old → symbol = old := by
  obtain ⟨symbol, m, hintern, hframe, hvalid, hold⟩ := h.symbols.internString hstring hlive
  exact ⟨symbol, m, hintern, hframe, h.of_symbols hframe hvalid, hold⟩

/-- `slvm_Symbol_internCString` next to the globals. -/
theorem internCString (h : GlobalsValid w owner f g) (cstring : List UInt8) :
    ∃ symbol m, w.symbolInternCString cstring = some (symbol, w.withMemory m) ∧
      Frame w.memory.limit {p | owner p.1 = .newSymbols} w.memory m ∧
      GlobalsValid (w.withMemory m) (claim owner w.memory.limit .newSymbols)
        (Function.update f (cStringBytes cstring) (some symbol)) g ∧
      ∀ old, f (cStringBytes cstring) = some old → symbol = old := by
  obtain ⟨symbol, m, hintern, hframe, hvalid, hold⟩ := h.symbols.internCString cstring
  exact ⟨symbol, m, hintern, hframe, h.of_symbols hframe hvalid, hold⟩

/-! ### The dictionary -/

/-- **`slvm_globals_atOrNil`** -/
theorem atOrNil (h : GlobalsValid w owner f g) (symbol : ℕ) :
    w.globalsAtOrNil symbol =
      some (((g symbol).map fun e => w.memory.slot e Field.value).getD nilOop) := by
  obtain ⟨n, c, hd, hroom⟩ := h.globals
  exact hd.atOrNil hroom symbol

/-- An insertion into the globals. -/
theorem of_dictionary (h : GlobalsValid w owner f g) {m : ObjectMemory} {k e n c : ℕ}
    (hf : Frame w.memory.limit {p | owner p.1 = .globals} w.memory m)
    (hd : DictionaryValid identityScheme m
      ({o | owner o = .globals} ∪ {p | w.memory.limit ≤ p}) w.globals n c
      (Function.update g k (some e))) (hroom : c < n)
    (he : w.memory.limit ≤ e ∨ owner e = .globals ∨ owner e = .object) :
    GlobalsValid (w.withMemory m) (claim owner w.memory.limit .globals) f
      (Function.update g k (some e)) where
  symbols := by
    refine h.symbols.frame hf (fun p hp => ?_) (fun c => h.kernelClass_not_mem (by simp) c)
      fun o ho => claim_of_lt ho _
    have hp' : owner p.1 = .globals := hp
    rw [hp']
    simp
  globals := ⟨n, c, hd.mono (subset_claim _ _ _), hroom⟩
  bound k' e' hg := by
    by_cases hk : k' = k
    · rw [hk, Function.update_self] at hg
      obtain rfl := Option.some.inj hg
      by_cases hlt : e < w.memory.limit
      · rw [claim_of_lt hlt]
        exact he.resolve_left (by omega)
      · exact Or.inl (claim_of_ge (Nat.not_lt.mp hlt) _)
    · rw [Function.update_of_ne hk] at hg
      rw [claim_of_lt (h.entry hg).1]
      exact h.bound k' e' hg

/-- The cells of the dictionary belong to the globals. -/
theorem cells_subset {R : Set ℕ} {m : ObjectMemory} {d n c L : ℕ} {m' : ObjectMemory}
    (hd : DictionaryValid identityScheme m R d n c g)
    (hf : Frame L {p | p.1 = d ∨ p.1 = m.slot d Field.array} m m') :
    Frame L {p | p.1 ∈ R} m m' := by
  refine hf.mono (Nat.le_refl _) fun p _ _ hcell => ?_
  rcases hcell with hcell | hcell
  · exact (show p = d from hcell) ▸ hd.shape.mem
  · exact (show p = m.slot d Field.array from hcell) ▸ hd.shape.array_mem

/-- The associations of the dictionary are none of the objects it stores into. -/
theorem slot_of_cells {R : Set ℕ} {m : ObjectMemory} {d n c : ℕ} {m' : ObjectMemory}
    (hd : DictionaryValid identityScheme m R d n c g)
    (hf : Frame m.limit {p | p.1 = d ∨ p.1 = m.slot d Field.array} m m') {k e : ℕ}
    (hg : g k = some e) : m'.slot e = m.slot e := by
  obtain ⟨he, -, -⟩ := hd.of_some hg
  funext i
  refine hf.slot e he.lt_limit i fun hcell => ?_
  rcases hcell with hcell | hcell
  · exact he.ne_dictionary hcell
  · exact he.ne_array hcell

/-- **`slvm_globals_atPut`** of a bound name stores into its association. -/
theorem atPut_of_some (h : GlobalsValid w owner f g) {symbol e : ℕ} (hg : g symbol = some e)
    (value : ℕ) :
    w.globalsAtPut symbol value =
        some (w.withMemory (w.memory.setSlot e Field.value value)) ∧
      GlobalsValid (w.withMemory (w.memory.setSlot e Field.value value)) owner f g := by
  obtain ⟨n, c, hd, hroom⟩ := h.globals
  obtain ⟨hput, hd'⟩ := hd.atPut_of_some hg value (kernelClass .GlobalVariable)
  have hframe := Frame.setSlot_cell w.memory.limit w.memory e Field.value value
  refine ⟨?_, ⟨h.symbols.frame hframe ?_ ?_ fun _ _ => rfl, ⟨n, c, hd', hroom⟩, h.bound⟩⟩
  · rw [globalsAtPut, systemDictionaryAtPut, hput]
    rfl
  · rintro p rfl
    rcases h.bound symbol e hg with hb | hb <;> rw [hb] <;> simp
  · intro c hcell
    exact absurd (Prod.mk.inj hcell).2 (by decide)

/-- **`slvm_globals_atPut`** of an unbound name binds it to a new association. -/
theorem atPut_of_none (h : GlobalsValid w owner f g) {symbol : ℕ} (hlive : w.memory.Live symbol)
    (hg : g symbol = none) (value : ℕ) :
    ∃ e m, w.globalsAtPut symbol value = some (w.withMemory m) ∧
      Frame w.memory.limit {p | owner p.1 = .globals} w.memory m ∧
      GlobalsValid (w.withMemory m) (claim owner w.memory.limit .globals) f
        (Function.update g symbol (some e)) ∧
      NewAssociation w.memory symbol value e m ∧
      ∀ k e', g k = some e' → m.slot e' = w.memory.slot e' := by
  obtain ⟨n, c, hd, hroom⟩ := h.globals
  obtain ⟨e, m, n', c', hput, hframe, hd', hroom', hnew⟩ := hd.atPut_of_none hroom h.symbols.kernel
    (fun c => h.kernelClass_not_mem (by simp) c) hlive hg value (kernelClass .GlobalVariable)
  have hframe' := cells_subset hd hframe
  refine ⟨e, m, ?_, hframe', h.of_dictionary hframe' hd' hroom' (Or.inl hnew.limit_lt.le), hnew,
    fun k e' hk => slot_of_cells hd hframe hk⟩
  rw [globalsAtPut, systemDictionaryAtPut, hput]
  rfl

/-- **`slvm_globals_addIfNotExistent`** of a variable whose name is bound returns what it is bound
to. -/
theorem addIfNotExistent_of_some (h : GlobalsValid w owner f g) {var e : ℕ}
    (hne : var ≠ nilOop) (hg : g (w.memory.slot var Field.key) = some e) :
    w.globalsAddIfNotExistent var = some (e, w) := by
  obtain ⟨n, c, hd, hroom⟩ := h.globals
  rw [globalsAddIfNotExistent, hd.addAssociationIfNotExistent_of_some hne hg]
  rfl

/-- **`slvm_globals_addIfNotExistent`** of a variable whose name is unbound binds the name to it. -/
theorem addIfNotExistent_of_none (h : GlobalsValid w owner f g) {var : ℕ}
    (hobject : owner var = .object) (hlt : var < w.memory.limit)
    (hne : var ≠ nilOop) (hlive : w.memory.Live (w.memory.slot var Field.key))
    (hg : g (w.memory.slot var Field.key) = none) :
    ∃ m, w.globalsAddIfNotExistent var = some (var, w.withMemory m) ∧
      Frame w.memory.limit {p | owner p.1 = .globals} w.memory m ∧
      GlobalsValid (w.withMemory m) (claim owner w.memory.limit .globals) f
        (Function.update g (w.memory.slot var Field.key) (some var)) ∧
      ∀ k e, g k = some e → m.slot e = w.memory.slot e := by
  obtain ⟨n, c, hd, hroom⟩ := h.globals
  have hregion : ∀ o, owner o = .globals → var ≠ o := by
    rintro o ho rfl
    exact absurd (hobject.symm.trans ho) (by simp)
  have hentry : DictionaryEntry identityScheme w.memory w.globals var :=
    ⟨trivial, hlive, hlt, hregion _ hd.shape.mem, hregion _ hd.shape.array_mem⟩
  obtain ⟨m, n', c', hadd, hframe, hd', hroom'⟩ := hd.addAssociationIfNotExistent_of_none hroom
    h.symbols.kernel.formats (fun c => h.kernelClass_not_mem (by simp) c) hentry hne hg
  have hframe' := cells_subset hd hframe
  refine ⟨m, ?_, hframe', h.of_dictionary hframe' hd' hroom' (Or.inr (Or.inr hobject)),
    fun k e hk => slot_of_cells hd hframe hk⟩
  rw [globalsAddIfNotExistent, hadd]
  rfl

end GlobalsValid

end World

end SlvmNative
