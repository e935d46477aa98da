import SlvmNative.WeakSets
import SlvmNative.World
import Mathlib.Logic.Relation

/-!
# Symbols

Interning of strings. A string is looked up in two weak sets, `symbolTable` and `newSymbols`, and
added to the second one, as a symbol, if neither has it. The runtime's data structures share one
memory; which of them an object belongs to is kept in a ghost map from objects to regions, so that
an operation on one of them leaves the others alone.

## Main definitions

* `World.symbolInternString`, `World.symbolInternCString`, `World.initCollectionsKernel`
* `Region`, `claim` — which data structure an object belongs to
* `World.SymbolsValid` — the two sets stand for one map from contents to symbols
* `InternRun` — runs of intern calls

## Main results

* `World.SymbolsValid.internString` — interning succeeds and returns the symbol of the contents
* `InternRun.interned_of_run` — symbols are unique, and stay so
-/

namespace SlvmNative

open ObjectMemory Relation

/-! ### Regions -/

/-- The data structures of the runtime. -/
inductive Region
  | newSymbols
  | symbolTable
  | globals
  /-- The method dictionary of a behavior. -/
  | methodDict (behavior : ℕ)
  /-- The class pool of a class. -/
  | classPool (behavior : ℕ)
  /-- The static objects of the runtime and the behaviors registered since. -/
  | behavior
  /-- Everything else. -/
  | object
  deriving DecidableEq

/-- The owners after an operation of `r` that began when the heap ended at `limit`: what was
allocated since belongs to `r`. -/
def claim (owner : ℕ → Region) (limit : ℕ) (r : Region) (o : ℕ) : Region :=
  if o < limit then owner o else r

theorem claim_of_lt {owner : ℕ → Region} {limit o : ℕ} (h : o < limit) (r : Region) :
    claim owner limit r o = owner o := if_pos h

theorem claim_of_ge {owner : ℕ → Region} {limit o : ℕ} (h : limit ≤ o) (r : Region) :
    claim owner limit r o = r := if_neg (Nat.not_lt.mpr h)

theorem claim_claim {owner : ℕ → Region} {limit limit' : ℕ} (h : limit ≤ limit') (r : Region) :
    claim (claim owner limit r) limit' r = claim owner limit r := by
  funext o
  by_cases ho : o < limit'
  · exact claim_of_lt ho r
  · rw [claim_of_ge (Nat.not_lt.mp ho), claim_of_ge (h.trans (Nat.not_lt.mp ho))]

/-- The objects of a region after it claimed what was allocated. -/
theorem subset_claim (owner : ℕ → Region) (limit : ℕ) (r : Region) :
    {o | owner o = r} ∪ {o | limit ≤ o} ⊆ {o | claim owner limit r o = r} := by
  rintro o (ho | ho)
  · by_cases hlt : o < limit
    · exact (claim_of_lt hlt r).trans ho
    · exact claim_of_ge (Nat.not_lt.mp hlt) r
  · exact claim_of_ge ho r

namespace World

variable [KernelImage]

/-! ### The operations -/

/-- The part of `slvm_Symbol_internString` that makes a symbol of a string: the string itself if it
is one already. -/
def symbolFromString (m : ObjectMemory) (string : ℕ) : Option (ℕ × ObjectMemory) :=
  let classIndex := (m.header string).classIndex
  if classIndex = KernelClass.ByteSymbol.index ∨ classIndex = KernelClass.WideSymbol.index then
    some (string, m)
  else if classIndex = KernelClass.ByteString.index then
    m.newBytes .ByteSymbol (m.bytes string)
  else if classIndex = KernelClass.WideString.index then
    let symbolSize := m.basicSize string
    (m.kernelNew .WideSymbol symbolSize).map fun (wideSymbol, m') =>
      (wideSymbol, m'.writeBytes wideSymbol ((List.range (symbolSize * 4)).map (m.byte string)))
  else none

/-- `slvm_Symbol_internString` -/
def symbolInternString (w : World) (string : ℕ) : Option (ℕ × World) := do
  let old ← w.memory.weakSetFind w.symbolTable string stringHash stringEquals
  if old ≠ nilOop then return (old, w)
  let old ← w.memory.weakSetFind w.newSymbols string stringHash stringEquals
  if old ≠ nilOop then return (old, w)
  let (symbol, m) ← symbolFromString w.memory string
  let m ← m.weakSetAdd w.newSymbols symbol stringHash stringEquals
  return (symbol, w.withMemory m)

/-- `slvm_Symbol_internCString` -/
def symbolInternCString (w : World) (cstring : List UInt8) : Option (ℕ × World) := do
  let (string, m) ← w.memory.symbolConvertCString cstring
  (w.withMemory m).symbolInternString string

/-- `slvm_internal_init_collections_kernel` -/
def initCollectionsKernel (w : World) : Option World := do
  let (newSymbols, m) ← w.memory.weakSetNew 128
  let (symbolTable, m) ← m.weakSetNew 16
  return { w.withMemory m with newSymbols := newSymbols, symbolTable := symbolTable }

/-! ### The invariant -/

/-- The symbols are in `newSymbols`, one for each content `f` has; `symbolTable` is empty. -/
structure SymbolsValid (w : World) (owner : ℕ → Region) (f : List UInt8 → Option ℕ) : Prop where
  kernel : KernelIntact w.memory
  kernelOwner : ∀ o, owner (KernelImage.address o) = .behavior
  newSymbols : ∃ n c, WeakSetValid stringScheme w.memory {o | owner o = .newSymbols} w.newSymbols
    n c f ∧ c < n
  symbolTable : ∃ n c, WeakSetValid stringScheme w.memory {o | owner o = .symbolTable}
    w.symbolTable n c (fun _ => none) ∧ c < n

/-- No byte symbol is nil. -/
theorem ne_nilOop_of_isByteSymbol {m : ObjectMemory} (h : KernelIntact m) {o : ℕ}
    (ho : m.IsByteSymbol o) : o ≠ nilOop := by
  rintro rfl
  have hclass := ho.2
  rw [nilOop, h.header] at hclass
  exact absurd hclass (by decide)

omit [KernelImage] in
/-- No byte symbol is the flag of a set. -/
theorem ne_flag_of_isByteSymbol {m : ObjectMemory} {R : Set ℕ} {set n c o : ℕ}
    {f : List UInt8 → Option ℕ} (h : WeakSetValid stringScheme m R set n c f)
    (ho : m.IsByteSymbol o) : o ≠ m.slot set Field.flag := by
  rintro rfl
  exact absurd (ho.2.symm.trans h.flag.2) (by decide)

/-- A symbol with the contents of a string: the string itself, or a new object. -/
theorem symbolFromString_spec {m : ObjectMemory} (h : KernelIntact m) {string : ℕ}
    (hstring : m.IsByteString string) (hlive : m.Live string) :
    ∃ symbol m', symbolFromString m string = some (symbol, m') ∧ Frame m.limit ∅ m m' ∧
      m'.IsByteSymbol symbol ∧ m'.Live symbol ∧ m'.bytes symbol = m.bytes string := by
  rcases hstring.2 with hclass | hclass
  · -- a byte string is converted
    obtain ⟨symbol, m', hnew, halloc, -, hbytes⟩ :=
      @KernelIntact.newBytes_spec _ _ h .ByteSymbol rfl rfl (m.bytes string)
    refine ⟨symbol, m', ?_, halloc.frame, ⟨halloc.pointers, halloc.classIndex⟩,
      Or.inr halloc.lt_limit, hbytes⟩
    rw [symbolFromString, if_neg (by rw [hclass]; decide), if_pos hclass, hnew]
  · exact ⟨string, m, if_pos (Or.inl hclass), Frame.refl _ _ _, ⟨hstring.1, hclass⟩, hlive, rfl⟩

namespace SymbolsValid

variable {w : World} {owner : ℕ → Region} {f : List UInt8 → Option ℕ}

/-- The symbol of a content is a byte symbol with that content. -/
theorem of_some (h : SymbolsValid w owner f) {data : List UInt8} {symbol : ℕ}
    (hf : f data = some symbol) :
    w.memory.IsByteSymbol symbol ∧ w.memory.Live symbol ∧ w.memory.bytes symbol = data := by
  obtain ⟨n, c, hset, -⟩ := h.newSymbols
  exact hset.of_some hf

/-- The symbols survive a step that stores into neither of the sets. -/
theorem frame (h : SymbolsValid w owner f) {m : ObjectMemory} {F : Set (ℕ × ℕ)}
    {owner' : ℕ → Region} (hf : Frame w.memory.limit F w.memory m)
    (hF : ∀ p ∈ F, owner p.1 ≠ .newSymbols ∧ owner p.1 ≠ .symbolTable)
    (hkernel : ∀ c, (kernelClass c, Field.format) ∉ F)
    (howner : ∀ o < w.memory.limit, owner' o = owner o) :
    SymbolsValid (w.withMemory m) owner' f where
  kernel := h.kernel.frame hf h.kernel.lt_limit hkernel
  kernelOwner o := (howner _ (h.kernel.lt_limit o)).trans (h.kernelOwner o)
  newSymbols := by
    obtain ⟨n, c, hset, hroom⟩ := h.newSymbols
    refine ⟨n, c, hset.frame hf (fun p hp => (hF p hp).1) fun o ho hlt => ?_, hroom⟩
    exact (howner o hlt).trans ho
  symbolTable := by
    obtain ⟨n, c, hset, hroom⟩ := h.symbolTable
    refine ⟨n, c, hset.frame hf (fun p hp => (hF p hp).2) fun o ho hlt => ?_, hroom⟩
    exact (howner o hlt).trans ho

/-- Adding a symbol. -/
theorem addSymbol (h : SymbolsValid w owner f) {symbol : ℕ} (hsymbol : w.memory.IsByteSymbol symbol)
    (hlive : w.memory.Live symbol) :
    ∃ m, w.memory.weakSetAdd w.newSymbols symbol stringHash stringEquals = some m ∧
      Frame w.memory.limit {p | owner p.1 = .newSymbols} w.memory m ∧
      SymbolsValid (w.withMemory m) (claim owner w.memory.limit .newSymbols)
        (Function.update f (w.memory.bytes symbol) (some symbol)) := by
  obtain ⟨n, c, hset, hroom⟩ := h.newSymbols
  have hkernel : ∀ c : KernelClass, kernelClass c ∉ {o | owner o = Region.newSymbols} := by
    intro c hc
    have hobject := h.kernelOwner (.kernelClass c)
    exact absurd ((show owner (kernelClass c) = .newSymbols from hc).symm.trans hobject) (by simp)
  obtain ⟨m, n', c', hadd, hframe, hset', hroom', -⟩ :=
    hset.add hroom h.kernel hkernel hsymbol hlive (ne_flag_of_isByteSymbol hset hsymbol)
  refine ⟨m, hadd, hframe, ?_, fun o => ?_, ⟨n', c', hset'.mono (subset_claim _ _ _), hroom'⟩, ?_⟩
  · exact h.kernel.frame hframe h.kernel.lt_limit fun c => hkernel c
  · rw [claim_of_lt (h.kernel.lt_limit o)]
    exact h.kernelOwner o
  · obtain ⟨n, c, htable, hroom⟩ := h.symbolTable
    refine ⟨n, c, htable.frame hframe (fun p hp hp' => ?_) fun o ho hlt => ?_, hroom⟩
    · exact absurd ((show owner p.1 = .newSymbols from hp).symm.trans hp') (by simp)
    · exact (claim_of_lt hlt _).trans ho

/-- **`slvm_Symbol_internString`** succeeds on byte strings, and returns the symbol of its content:
the one there was before, if any. -/
theorem internString (h : SymbolsValid w owner f) {string : ℕ}
    (hstring : w.memory.IsByteString string) (hlive : w.memory.Live string) :
    ∃ symbol m, w.symbolInternString string = some (symbol, w.withMemory m) ∧
      Frame w.memory.limit {p | owner p.1 = .newSymbols} w.memory m ∧
      SymbolsValid (w.withMemory m) (claim owner w.memory.limit .newSymbols)
        (Function.update f (w.memory.bytes string) (some symbol)) ∧
      ∀ old, f (w.memory.bytes string) = some old → symbol = old := by
  obtain ⟨n, c, hset, hroom⟩ := h.newSymbols
  obtain ⟨n', c', htable, hroom'⟩ := h.symbolTable
  have hfind : w.memory.weakSetFind w.newSymbols string stringHash stringEquals =
      some ((f (w.memory.bytes string)).getD nilOop) := hset.find hstring hroom
  have hfind' : w.memory.weakSetFind w.symbolTable string stringHash stringEquals = some nilOop :=
    htable.find hstring hroom'
  have hclaim : ∀ r, ∀ o < w.memory.limit, claim owner w.memory.limit r o = owner o :=
    fun r o ho => claim_of_lt ho r
  cases hf : f (w.memory.bytes string) with
  | some old =>
    obtain ⟨hsymbol, -, -⟩ := h.of_some hf
    have hne := ne_nilOop_of_isByteSymbol h.kernel hsymbol
    rw [hf, Option.getD_some] at hfind
    refine ⟨old, w.memory, ?_, Frame.refl _ _ _, ?_, fun _ h => Option.some.inj h⟩
    · rw [symbolInternString, hfind', hfind]
      simp only [Option.bind_eq_bind, Option.bind_some, ne_eq, not_true_eq_false, if_false, hne,
        not_false_eq_true, if_true]
      rfl
    · rw [← hf, Function.update_eq_self]
      exact h.frame (Frame.refl _ ∅ _) (by simp) (by simp) (hclaim _)
  | none =>
    rw [hf, Option.getD_none] at hfind
    obtain ⟨symbol, m, hnew, hframe, hsymbol, hlive', hbytes⟩ :=
      symbolFromString_spec h.kernel hstring hlive
    have hvalid := h.frame hframe (by simp) (by simp) (hclaim .newSymbols)
    obtain ⟨m', hadd, hframe', hvalid'⟩ := hvalid.addSymbol hsymbol hlive'
    rw [show (w.withMemory m).memory = m from rfl] at hadd hframe' hvalid'
    rw [hbytes, claim_claim hframe.limit_le] at hvalid'
    refine ⟨symbol, m', ?_, ?_, hvalid', fun _ h => by cases h⟩
    · rw [symbolInternString, hfind', hfind]
      simp only [Option.bind_eq_bind, Option.bind_some, ne_eq, not_true_eq_false, if_false, hnew]
      simp only [show m.weakSetAdd w.newSymbols symbol stringHash stringEquals = some m' from hadd,
        Option.bind_some]
      rfl
    · refine (hframe.mono (Nat.le_refl _) (by simp)).trans (hframe'.mono hframe.limit_le ?_)
      intro o ho i hcell
      exact (hclaim .newSymbols o ho).symm.trans hcell

/-- **`slvm_Symbol_internCString`** succeeds and returns the symbol of the C string. -/
theorem internCString (h : SymbolsValid w owner f) (cstring : List UInt8) :
    ∃ symbol m, w.symbolInternCString cstring = some (symbol, w.withMemory m) ∧
      Frame w.memory.limit {p | owner p.1 = .newSymbols} w.memory m ∧
      SymbolsValid (w.withMemory m) (claim owner w.memory.limit .newSymbols)
        (Function.update f (cStringBytes cstring) (some symbol)) ∧
      ∀ old, f (cStringBytes cstring) = some old → symbol = old := by
  obtain ⟨string, m, hnew, halloc, -, hbytes⟩ :=
    @KernelIntact.newBytes_spec _ _ h.kernel .ByteSymbol rfl rfl (cStringBytes cstring)
  have hstring : m.IsByteSymbol string := ⟨halloc.pointers, halloc.classIndex⟩
  have hclaim : ∀ o < w.memory.limit, claim owner w.memory.limit .newSymbols o = owner o :=
    fun o ho => claim_of_lt ho _
  have hvalid := h.frame halloc.frame (by simp) (by simp) hclaim
  obtain ⟨symbol, m', hintern, hframe', hvalid', hold⟩ :=
    hvalid.internString hstring.isByteString (Or.inr halloc.lt_limit)
  rw [show (w.withMemory m).memory = m from rfl] at hframe' hvalid' hold
  rw [hbytes, claim_claim halloc.frame.limit_le] at hvalid'
  rw [hbytes] at hold
  refine ⟨symbol, m', ?_, ?_, hvalid', hold⟩
  · rw [symbolInternCString, symbolConvertCString, hnew]
    exact hintern
  · refine (halloc.frame.mono (Nat.le_refl _) (by simp)).trans
      (hframe'.mono halloc.frame.limit_le ?_)
    intro o ho i hcell
    exact (hclaim o ho).symm.trans hcell

end SymbolsValid

/-- The regions when the runtime has been loaded. -/
def loadedOwner (o : ℕ) : Region :=
  if (KernelImage.objectAt o).isSome then .behavior else .object

theorem loadedOwner_address (o : StaticObject) :
    loadedOwner (KernelImage.address o) = .behavior := by
  simp [loadedOwner]

/-- **`slvm_internal_init_collections_kernel`** makes two empty sets. -/
theorem initCollectionsKernel_spec {w : World} (h : KernelIntact w.memory) :
    ∃ m newSymbols symbolTable owner, w.initCollectionsKernel =
        some { w.withMemory m with newSymbols := newSymbols, symbolTable := symbolTable } ∧
      SymbolsValid { w.withMemory m with newSymbols := newSymbols, symbolTable := symbolTable }
        owner (fun _ => none) ∧
      Frame w.memory.limit ∅ w.memory m ∧ ∀ o < w.memory.limit, owner o = loadedOwner o := by
  obtain ⟨newSymbols, m₁, hnew₁, hframe₁, -, hset₁⟩ :=
    @weakSetNew_spec _ stringScheme _ _ h 128 (by decide)
  have hk₁ : KernelIntact m₁ := h.frame hframe₁ h.lt_limit (by simp)
  obtain ⟨symbolTable, m₂, hnew₂, hframe₂, -, hset₂⟩ :=
    @weakSetNew_spec _ stringScheme _ _ hk₁ 16 (by decide)
  have hk₂ : KernelIntact m₂ := hk₁.frame hframe₂ hk₁.lt_limit (by simp)
  let owner := claim (claim loadedOwner w.memory.limit .newSymbols) m₁.limit .symbolTable
  have howner : ∀ o < w.memory.limit, owner o = loadedOwner o := by
    intro o ho
    exact (claim_of_lt (ho.trans_le hframe₁.limit_le) _).trans (claim_of_lt ho _)
  refine ⟨m₂, newSymbols, symbolTable, owner, ?_,
    ⟨hk₂, fun o => ?_, ⟨128, 0, ?_, by decide⟩, ⟨16, 0, ?_, by decide⟩⟩,
    hframe₁.trans (hframe₂.mono hframe₁.limit_le (by simp)), howner⟩
  · rw [initCollectionsKernel, hnew₁]
    simp only [Option.bind_eq_bind, Option.bind_some, hnew₂]
    rfl
  · rw [howner _ (h.lt_limit o), loadedOwner_address]
  · refine hset₁.frame hframe₂ (by simp) fun o ho hlt => ?_
    exact (claim_of_lt hlt _).trans (claim_of_ge ho _)
  · exact hset₂.mono fun o ho => claim_of_ge ho _

end World

/-! ### Runs of intern calls -/

/-- A state of a run, with the contents of the argument and the result of every call so far. -/
structure InternRun where
  world : World
  calls : List (List UInt8 × ℕ)

namespace InternRun

variable [KernelImage]

/-- One step of a run: a call, or the creation of a byte string or byte symbol. -/
inductive Step : InternRun → InternRun → Prop
  | internCString {s : InternRun} {symbol : ℕ} {w : World} (cstring : List UInt8)
      (h : s.world.symbolInternCString cstring = some (symbol, w)) :
      Step s ⟨w, s.calls ++ [(cStringBytes cstring, symbol)]⟩
  /-- Any byte string or byte symbol there is. -/
  | internString {s : InternRun} {string symbol : ℕ} {w : World}
      (hstring : s.world.memory.IsByteString string) (hlive : s.world.memory.Live string)
      (h : s.world.symbolInternString string = some (symbol, w)) :
      Step s ⟨w, s.calls ++ [(s.world.memory.bytes string, symbol)]⟩
  | newBytes {s : InternRun} {c : KernelClass} {o : ℕ} {m : ObjectMemory}
      (hc : c = .ByteString ∨ c = .ByteSymbol) (data : List UInt8)
      (h : s.world.memory.newBytes c data = some (o, m)) :
      Step s ⟨s.world.withMemory m, s.calls⟩

/-- A state of a run that begins after `slvm_internal_init_collections_kernel`. -/
def Reachable (s : InternRun) : Prop :=
  ∃ w w' : World, KernelLoaded w.memory ∧ w.spurInitialize.initCollectionsKernel = some w' ∧
    ReflTransGen Step ⟨w', []⟩ s

/-- The invariant of a run: all results so far are the symbols of their contents. -/
def Valid (s : InternRun) : Prop :=
  ∃ owner f, s.world.SymbolsValid owner f ∧ ∀ call ∈ s.calls, f call.1 = some call.2

/-- What a call leaves behind. -/
theorem Valid.call {s : InternRun} {owner' : ℕ → Region} {f : List UInt8 → Option ℕ}
    {w : World} {data : List UInt8} {symbol : ℕ}
    (hcalls : ∀ call ∈ s.calls, f call.1 = some call.2)
    (hvalid : w.SymbolsValid owner' (Function.update f data (some symbol)))
    (hold : ∀ old, f data = some old → symbol = old) : Valid ⟨w, s.calls ++ [(data, symbol)]⟩ := by
  refine ⟨owner', _, hvalid, fun call hcall => ?_⟩
  rcases List.mem_append.mp hcall with hcall | hcall
  · by_cases hdata : call.1 = data
    · have hf := hcalls call hcall
      rw [hdata] at hf ⊢
      rw [Function.update_self, hold _ hf]
    · rw [Function.update_of_ne hdata]
      exact hcalls call hcall
  · rw [List.mem_singleton.mp hcall, Function.update_self]

/-- **One step** keeps the invariant. -/
theorem Valid.step {s s' : InternRun} (h : s.Valid) (hstep : Step s s') : s'.Valid := by
  obtain ⟨owner, f, hvalid, hcalls⟩ := h
  cases hstep with
  | internCString cstring hs =>
    obtain ⟨symbol, m, hintern, -, hvalid', hold⟩ := hvalid.internCString cstring
    rw [hintern] at hs
    obtain ⟨rfl, rfl⟩ := Prod.mk.inj (Option.some.inj hs)
    exact Valid.call hcalls hvalid' hold
  | internString hstring hlive hs =>
    obtain ⟨symbol, m, hintern, -, hvalid', hold⟩ := hvalid.internString hstring hlive
    rw [hintern] at hs
    obtain ⟨rfl, rfl⟩ := Prod.mk.inj (Option.some.inj hs)
    exact Valid.call hcalls hvalid' hold
  | newBytes _ data hs =>
    exact ⟨owner, f, hvalid.frame (newBytes_frame hs) (by simp) (by simp) fun _ _ => rfl, hcalls⟩

/-- **Every state of a run is valid.** -/
theorem valid_of_run {s : InternRun} (h : Reachable s) : s.Valid := by
  obtain ⟨w, w', hloaded, hinit, hrun⟩ := h
  induction hrun with
  | refl =>
    have hintact : KernelIntact w.spurInitialize.memory :=
      KernelLoaded.intact ⟨hloaded.header, hloaded.slot, hloaded.lt_heapStart⟩
    obtain ⟨m, newSymbols, symbolTable, owner, hw₁, hvalid, -⟩ :=
      World.initCollectionsKernel_spec hintact
    rw [hinit] at hw₁
    obtain rfl := Option.some.inj hw₁
    exact ⟨owner, _, hvalid, fun _ h => absurd h List.not_mem_nil⟩
  | tail _ hstep ih => exact ih.step hstep

/-- **Symbols are unique.** In every state of a run two calls have returned the same symbol just in
case their arguments had the same bytes, every symbol returned so far is a byte symbol with the
bytes of the argument, and the next call succeeds. -/
theorem interned_of_run (s : InternRun) (h : Reachable s) :
    (∀ a ∈ s.calls, ∀ b ∈ s.calls, a.2 = b.2 ↔ a.1 = b.1) ∧
      (∀ a ∈ s.calls, s.world.memory.IsByteSymbol a.2 ∧ s.world.memory.bytes a.2 = a.1) ∧
      (∀ cstring, (s.world.symbolInternCString cstring).isSome) ∧
      ∀ string, s.world.memory.IsByteString string → s.world.memory.Live string →
        (s.world.symbolInternString string).isSome := by
  obtain ⟨owner, f, hvalid, hcalls⟩ := valid_of_run h
  refine ⟨fun a ha b hb => ?_, fun a ha => ?_, fun cstring => ?_, fun string hstring hlive => ?_⟩
  · constructor
    · intro heq
      have hbytes := (hvalid.of_some (hcalls a ha)).2.2
      rw [heq, (hvalid.of_some (hcalls b hb)).2.2] at hbytes
      exact hbytes.symm
    · intro heq
      have hfa := hcalls a ha
      rw [heq, hcalls b hb] at hfa
      exact (Option.some.inj hfa).symm
  · obtain ⟨hsymbol, -, hbytes⟩ := hvalid.of_some (hcalls a ha)
    exact ⟨hsymbol, hbytes⟩
  · obtain ⟨symbol, m, hintern, -⟩ := hvalid.internCString cstring
    rw [hintern]
    rfl
  · obtain ⟨symbol, m, hintern, -⟩ := hvalid.internString hstring hlive
    rw [hintern]
    rfl

omit [KernelImage] in
theorem interned_of_run_sequential :
    letI := sequentialImage
    ∃ s : InternRun, s.calls.map Prod.fst = [asciiBytes "value", asciiBytes "value"] ∧
      ((∀ a ∈ s.calls, ∀ b ∈ s.calls, a.2 = b.2 ↔ a.1 = b.1) ∧
        (∀ a ∈ s.calls, s.world.memory.IsByteSymbol a.2 ∧ s.world.memory.bytes a.2 = a.1) ∧
        (∀ cstring, (s.world.symbolInternCString cstring).isSome) ∧
        ∀ string, s.world.memory.IsByteString string → s.world.memory.Live string →
          (s.world.symbolInternString string).isSome) := by
  let := sequentialImage
  have hintact : KernelIntact World.sequential.spurInitialize.memory := World.sequential_intact
  obtain ⟨m₀, newSymbols, symbolTable, owner, hinit, hvalid, -⟩ :=
    World.initCollectionsKernel_spec hintact
  generalize { World.sequential.spurInitialize.withMemory m₀ with
    newSymbols := newSymbols, symbolTable := symbolTable } = w at hinit hvalid
  obtain ⟨a, m, ha, -, hvalid₁, -⟩ := hvalid.internCString (asciiBytes "value")
  obtain ⟨b, m', hb, -⟩ := hvalid₁.internCString (asciiBytes "value")
  have hstep : Step ⟨w, []⟩ ⟨w.withMemory m, [] ++ [(cStringBytes (asciiBytes "value"), a)]⟩ :=
    Step.internCString _ ha
  have hinterned := interned_of_run _
    ⟨World.sequential, w, World.sequential_loaded, hinit,
      (ReflTransGen.single hstep).tail (Step.internCString _ hb)⟩
  have hbytes : cStringBytes (asciiBytes "value") = asciiBytes "value" := by decide +kernel
  rw [hbytes] at hinterned
  exact ⟨_, by simp, hinterned⟩

end InternRun

end SlvmNative
