import SlvmNative.StaticHeaps
import SlvmNative.GlobalsRuns

/-!
# The names of static heaps

What `slvm_internal_fixStaticHeap` does to a heap of small objects: every reference to a symbol of
the heap becomes one to the interned symbol, and every reference to a global variable of the heap
one to the association the globals have for its name. Nothing else changes, and doing it again
changes nothing at all. The second half is only right because the first comes before it: the
globals look up names by identity.

## Main definitions

* `HeapInformation.Placed` — the addresses where an object can be, beside those of a heap
* `World.NameStep`, `NameReachable` — runs of interning and of the globals before the heap is fixed
* `World.NamesValid` — the invariant of such a run

## Main results

* `World.NamesValid.step` — what one step of a run keeps
* `World.fixStaticHeap_of_run` — fixing up a heap, and fixing it up again
-/

namespace SlvmNative

open ObjectMemory Relation

/-! ### Static memory -/

namespace ObjectMemory

/-- The step from `m` to `m'` changed nothing below the compacting heap but forwarding pointers. -/
structure StaticKept (m m' : ObjectMemory) : Prop where
  heapStart : m'.heapStart = m.heapStart
  limit_le : m.limit ≤ m'.limit
  header : ∀ x < m.heapStart, m'.header x = m.header x
  byte : ∀ x < m.heapStart, m'.byte x = m.byte x
  sizeWord : ∀ x < m.heapStart, m'.sizeWord x = m.sizeWord x
  slot : ∀ x < m.heapStart, m'.slot x = m.slot x

theorem heapStart_le_limit (m : ObjectMemory) : m.heapStart ≤ m.limit := Nat.le_add_right _ _

namespace StaticKept

variable {m m₁ m₂ : ObjectMemory}

theorem refl (m : ObjectMemory) : StaticKept m m :=
  ⟨rfl, Nat.le_refl _, fun _ _ => rfl, fun _ _ => rfl, fun _ _ => rfl, fun _ _ => rfl⟩

theorem trans (h₁ : StaticKept m m₁) (h₂ : StaticKept m₁ m₂) : StaticKept m m₂ where
  heapStart := h₂.heapStart.trans h₁.heapStart
  limit_le := h₁.limit_le.trans h₂.limit_le
  header x hx := (h₂.header x (h₁.heapStart.symm ▸ hx)).trans (h₁.header x hx)
  byte x hx := (h₂.byte x (h₁.heapStart.symm ▸ hx)).trans (h₁.byte x hx)
  sizeWord x hx := (h₂.sizeWord x (h₁.heapStart.symm ▸ hx)).trans (h₁.sizeWord x hx)
  slot x hx := (h₂.slot x (h₁.heapStart.symm ▸ hx)).trans (h₁.slot x hx)

/-- A step that stores into the compacting heap only. -/
theorem of_frame {F : Set (ℕ × ℕ)} (hf : Frame m.limit F m m₁) (hF : ∀ p ∈ F, m.heapStart ≤ p.1) :
    StaticKept m m₁ where
  heapStart := hf.heapStart
  limit_le := hf.limit_le
  header x hx := hf.header x (hx.trans_le m.heapStart_le_limit)
  byte x hx := hf.byte x (hx.trans_le m.heapStart_le_limit)
  sizeWord x hx := hf.sizeWord x (hx.trans_le m.heapStart_le_limit)
  slot x hx := by
    funext i
    exact hf.slot x (hx.trans_le m.heapStart_le_limit) i fun hmem =>
      absurd (hF _ hmem) (Nat.not_le.mpr hx)

theorem setForwardingWord (m : ObjectMemory) (a v : ℕ) : StaticKept m (m.setForwardingWord a v) :=
  ⟨rfl, Nat.le_refl _, fun _ _ => rfl, fun _ _ => rfl, fun _ _ => rfl, fun _ _ => rfl⟩

theorem basicSize (h : StaticKept m m₁) {x : ℕ} (hx : x < m.heapStart) :
    m₁.basicSize x = m.basicSize x := by
  simp only [ObjectMemory.basicSize, h.header x hx, h.sizeWord (x - 8) (by omega)]

theorem bytes (h : StaticKept m m₁) {x : ℕ} (hx : x < m.heapStart) : m₁.bytes x = m.bytes x := by
  rw [ObjectMemory.bytes, ObjectMemory.bytes, h.basicSize hx, h.byte x hx]

theorem live (h : StaticKept m m₁) {x : ℕ} (hx : m.Live x) : m₁.Live x :=
  hx.imp_right fun hlt => hlt.trans_le h.limit_le

end StaticKept

/-- The step from `m` to `m'` changed no header. -/
structure HeadersKept (m m' : ObjectMemory) : Prop where
  limit_le : m.limit ≤ m'.limit
  header : ∀ x < m.limit, m'.header x = m.header x

namespace HeadersKept

variable {m m₁ m₂ : ObjectMemory}

theorem refl (m : ObjectMemory) : HeadersKept m m := ⟨Nat.le_refl _, fun _ _ => rfl⟩

theorem trans (h₁ : HeadersKept m m₁) (h₂ : HeadersKept m₁ m₂) : HeadersKept m m₂ where
  limit_le := h₁.limit_le.trans h₂.limit_le
  header x hx := (h₂.header x (hx.trans_le h₁.limit_le)).trans (h₁.header x hx)

theorem of_frame {F : Set (ℕ × ℕ)} (hf : Frame m.limit F m m₁) : HeadersKept m m₁ :=
  ⟨hf.limit_le, hf.header⟩

end HeadersKept

end ObjectMemory

/-- An identity dictionary does not depend on forwarding pointers. -/
theorem ObjectMemory.DictionaryValid.setForwardingWord [KernelImage] {m : ObjectMemory} {R : Set ℕ}
    {dictionary n c : ℕ} {g : ℕ → Option ℕ}
    (h : DictionaryValid identityScheme m R dictionary n c g) (a v : ℕ) :
    DictionaryValid identityScheme (m.setForwardingWord a v) R dictionary n c g := by
  obtain ⟨⟨hmem, hlt, hamem, halt, hne, hsize, htally⟩, hpos, hnil, hoccupied, hentry,
    hrepresents⟩ := h
  refine ⟨⟨hmem, hlt, hamem, halt, hne, hsize, htally⟩, hpos, hnil, hoccupied,
    fun i hi k e ht => ?_, hrepresents⟩
  obtain ⟨hstored, hlive, hlimit, hdictionary, harray⟩ := hentry i hi k e ht
  exact ⟨hstored, hlive, hlimit, hdictionary, harray⟩

/-- The addresses where an object can be: not null, and within a heap only those of its objects. -/
def HeapInformation.Placed (heap : HeapInformation) (objects : List HeapObject) (x : ℕ) : Prop :=
  x ≠ 0 ∧ (heap.start ≤ x → x < heap.finish → ∃ o ∈ objects, o.header = x)

namespace World

/-- The bindings `g'` are those of `g` and new ones, of associations in `S`. -/
structure BindingsAdded (S : ℕ → Prop) (g g' : ℕ → Option ℕ) : Prop where
  kept : ∀ k e, g k = some e → g' k = some e
  new : ∀ k e, g' k = some e → g k = some e ∨ S e

namespace BindingsAdded

variable {S S' : ℕ → Prop} {g g' g'' : ℕ → Option ℕ}

theorem refl (S : ℕ → Prop) (g : ℕ → Option ℕ) : BindingsAdded S g g :=
  ⟨fun _ _ h => h, fun _ _ h => Or.inl h⟩

theorem trans (h : BindingsAdded S g g') (h' : BindingsAdded S g' g'') : BindingsAdded S g g'' where
  kept k e hk := h'.kept k e (h.kept k e hk)
  new k e hk := (h'.new k e hk).elim (h.new k e) Or.inr

theorem mono (h : BindingsAdded S g g') (hS : ∀ e, S e → S' e) : BindingsAdded S' g g' where
  kept := h.kept
  new k e hk := (h.new k e hk).imp_right (hS e)

/-- One new binding. -/
theorem update {k : ℕ} (hk : g k = none) (e : ℕ) :
    BindingsAdded (· = e) g (Function.update g k (some e)) where
  kept k' a hk' := by
    rw [Function.update_of_ne, hk']
    rintro rfl
    rw [hk] at hk'
    cases hk'
  new k' a hk' := by
    by_cases heq : k' = k
    · rw [heq, Function.update_self] at hk'
      exact Or.inr (Option.some.inj hk').symm
    · rw [Function.update_of_ne heq] at hk'
      exact Or.inl hk'

end BindingsAdded

variable [KernelImage]

/-! ### Forwarding pointers -/

/-- The symbols do not depend on forwarding pointers. -/
theorem SymbolsValid.setForwardingWord {w : World} {owner : ℕ → Region}
    {f : List UInt8 → Option ℕ} (h : SymbolsValid w owner f) (a v : ℕ) :
    SymbolsValid (w.setForwardingWord a v) owner f where
  kernel := ⟨h.kernel.header, h.kernel.format, h.kernel.lt_limit⟩
  kernelOwner := h.kernelOwner
  newSymbols := by
    obtain ⟨n, c, ⟨⟨hmem, hlt, hamem, halt, hne, hsize, htally⟩, hpos, hoccupied, hle,
      hstored, hflag,
      hrepresents⟩, hroom⟩ := h.newSymbols
    exact ⟨n, c, ⟨⟨hmem, hlt, hamem, halt, hne, hsize, htally⟩, hpos, hoccupied, hle,
      hstored, hflag,
      hrepresents⟩, hroom⟩
  symbolTable := by
    obtain ⟨n, c, ⟨⟨hmem, hlt, hamem, halt, hne, hsize, htally⟩, hpos, hoccupied, hle,
      hstored, hflag,
      hrepresents⟩, hroom⟩ := h.symbolTable
    exact ⟨n, c, ⟨⟨hmem, hlt, hamem, halt, hne, hsize, htally⟩, hpos, hoccupied, hle,
      hstored, hflag,
      hrepresents⟩, hroom⟩

/-- Nor do the globals. -/
theorem GlobalsValid.setForwardingWord {w : World} {owner : ℕ → Region}
    {f : List UInt8 → Option ℕ} {g : ℕ → Option ℕ} (h : GlobalsValid w owner f g) (a v : ℕ) :
    GlobalsValid (w.setForwardingWord a v) owner f g where
  symbols := h.symbols.setForwardingWord a v
  globals := by
    obtain ⟨n, c, hd, hroom⟩ := h.globals
    exact ⟨n, c, hd.setForwardingWord a v, hroom⟩
  bound := h.bound

/-! ### Interning an object that is there -/

/-- Where the two sets find a string. -/
theorem SymbolsValid.find {w : World} {owner : ℕ → Region} {f : List UInt8 → Option ℕ}
    (h : SymbolsValid w owner f) {string : ℕ} (hstring : w.memory.IsByteString string) :
    w.memory.weakSetFind w.symbolTable string stringHash stringEquals = some nilOop ∧
      w.memory.weakSetFind w.newSymbols string stringHash stringEquals =
        some ((f (w.memory.bytes string)).getD nilOop) := by
  obtain ⟨n, c, hset, hroom⟩ := h.newSymbols
  obtain ⟨n', c', htable, hroom'⟩ := h.symbolTable
  exact ⟨htable.find hstring hroom', hset.find hstring hroom⟩

/-- The symbol made of a string that is not interned is the string itself or a new object. -/
theorem SymbolsValid.internString_new {w w' : World} {owner : ℕ → Region}
    {f : List UInt8 → Option ℕ} (h : SymbolsValid w owner f) {string symbol : ℕ}
    (hstring : w.memory.IsByteString string) (hnone : f (w.memory.bytes string) = none)
    (hintern : w.symbolInternString string = some (symbol, w')) :
    (symbol = string ∧ w.memory.IsByteSymbol string) ∨
      (w.memory.limit < symbol ∧ ¬ w.memory.IsByteSymbol string) := by
  obtain ⟨hfind', hfind⟩ := h.find hstring
  rw [hnone, Option.getD_none] at hfind
  rw [symbolInternString, hfind', hfind] at hintern
  simp only [Option.bind_eq_bind, Option.bind_some, ne_eq, not_true_eq_false, if_false,
    Option.bind_eq_some_iff] at hintern
  obtain ⟨⟨symbol', m⟩, hnew, m', -, hresult⟩ := hintern
  obtain ⟨rfl, -⟩ := Prod.mk.inj (Option.some.inj hresult)
  by_cases hsymbol : w.memory.IsByteSymbol string
  · rw [symbolFromString, if_pos (Or.inl hsymbol.2)] at hnew
    exact Or.inl ⟨(Prod.mk.inj (Option.some.inj hnew)).1.symm, hsymbol⟩
  · have hclass : (w.memory.header string).classIndex = KernelClass.ByteString.index :=
      hstring.2.resolve_right fun hclass => hsymbol ⟨hstring.1, hclass⟩
    obtain ⟨created, m₁, hnew', halloc, -, -⟩ :=
      @KernelIntact.newBytes_spec _ _ h.kernel .ByteSymbol rfl rfl (w.memory.bytes string)
    rw [symbolFromString, if_neg (by rw [hclass]; decide), if_pos hclass, hnew'] at hnew
    obtain ⟨rfl, -⟩ := Prod.mk.inj (Option.some.inj hnew)
    exact Or.inr ⟨halloc.limit_lt, hsymbol⟩

/-- Interning what is interned returns it, and changes nothing. -/
theorem SymbolsValid.internString_old {w : World} {owner : ℕ → Region}
    {f : List UInt8 → Option ℕ} (h : SymbolsValid w owner f) {string old : ℕ}
    (hstring : w.memory.IsByteString string) (hold : f (w.memory.bytes string) = some old) :
    w.symbolInternString string = some (old, w) := by
  obtain ⟨hfind', hfind⟩ := h.find hstring
  have hne := ne_nilOop_of_isByteSymbol h.kernel (h.of_some hold).1
  rw [hold, Option.getD_some] at hfind
  rw [symbolInternString, hfind', hfind]
  simp only [Option.bind_eq_bind, Option.bind_some, ne_eq, not_true_eq_false, if_false, hne,
    not_false_eq_true, if_true]
  rfl

/-- A symbol that interning returns. -/
def IsInterned (w : World) (symbol : ℕ) : Prop :=
  w.memory.IsByteSymbol symbol ∧
    w.memory.weakSetFind w.newSymbols symbol stringHash stringEquals = some symbol

theorem SymbolsValid.isInterned_iff {w : World} {owner : ℕ → Region}
    {f : List UInt8 → Option ℕ} (h : SymbolsValid w owner f) {symbol : ℕ} :
    w.IsInterned symbol ↔ ∃ data, f data = some symbol := by
  constructor
  · rintro ⟨hsymbol, hfound⟩
    have hsome := Option.some.inj ((h.find hsymbol.isByteString).2.symm.trans hfound)
    cases hf : f (w.memory.bytes symbol) with
    | none =>
      rw [hf, Option.getD_none] at hsome
      exact absurd hsome.symm (ne_nilOop_of_isByteSymbol h.kernel hsymbol)
    | some s =>
      rw [hf, Option.getD_some] at hsome
      exact ⟨_, hsome ▸ hf⟩
  · rintro ⟨data, hf⟩
    obtain ⟨hsymbol, -, hbytes⟩ := h.of_some hf
    have hfind := (h.find hsymbol.isByteString).2
    rw [hbytes, hf, Option.getD_some] at hfind
    exact ⟨hsymbol, hfind⟩

/-! ### Runs before the heap is fixed -/

/-- A global variable of a static heap. -/
structure IsStaticVariable (w : World) (var : ℕ) : Prop where
  static : var < w.memory.heapStart
  pointers : oopIsPointers var
  object : KernelImage.objectAt var = none
  classIndex : (w.memory.header var).classIndex = KernelClass.GlobalVariable.index

/-- A name: an oop there is, and in the heap that is to be fixed only an interned symbol. -/
structure IsName (w : World) (heap : HeapInformation) (symbol : ℕ) : Prop where
  live : w.memory.Live symbol
  interned : heap.start ≤ symbol → symbol < heap.finish → w.IsInterned symbol

/-- The cells the rest of the program stores into: static objects, but none of the names in the
globals and of what the kernel relies on. -/
def staticElsewhere (w : World) : Set (ℕ × ℕ) :=
  {p | p.1 < w.memory.heapStart ∧ (∀ e, w.GlobalsStored e → p ≠ (e, Field.key)) ∧
    ∀ c, p ≠ (kernelClass c, Field.format)}

/-- One step of a run of interning and of the globals, next to a heap with these objects. -/
inductive NameStep (heap : HeapInformation) (objects : List HeapObject) (w : World) : World → Prop
  | internCString {symbol : ℕ} {w' : World} (cstring : List UInt8)
      (hintern : w.symbolInternCString cstring = some (symbol, w')) : NameStep heap objects w w'
  | internString {string symbol : ℕ} {w' : World} (hstring : w.memory.IsByteString string)
      (hlive : w.memory.Live string) (hplaced : heap.Placed objects string)
      (hintern : w.symbolInternString string = some (symbol, w')) : NameStep heap objects w w'
  | atPut {symbol value : ℕ} {w' : World} (hname : w.IsName heap symbol)
      (hput : w.globalsAtPut symbol value = some w') : NameStep heap objects w w'
  | addIfNotExistent {var result : ℕ} {w' : World} (hvar : w.IsStaticVariable var)
      (hplaced : heap.Placed objects var) (hname : w.IsName heap (w.memory.slot var Field.key))
      (hadd : w.globalsAddIfNotExistent var = some (result, w')) : NameStep heap objects w w'
  | elsewhere {m : ObjectMemory}
      (hframe : Frame w.memory.limit w.staticElsewhere w.memory m) :
      NameStep heap objects w (w.withMemory m)

/-- The sets of symbols and the dictionary of the globals have just been made. -/
def NameStart (w : World) : Prop :=
  ∃ w₀ w₁ : World, ∃ globals m, KernelLoaded w₀.memory ∧
    w₀.spurInitialize.initCollectionsKernel = some w₁ ∧
    w₁.memory.systemDictionaryNew = some (globals, m) ∧
    w = { w₁.withMemory m with globals := globals }

/-- A state of a run of interning and of the globals, next to a heap with these objects. -/
def NameReachable (heap : HeapInformation) (objects : List HeapObject) (w : World) : Prop :=
  ∃ w₀, w₀.NameStart ∧ heap.finish ≤ w₀.memory.heapStart ∧
    ReflTransGen (NameStep heap objects) w₀ w

/-- The invariant of such a run: the symbols stand for `f` and the globals for `g`, and what they
hold are objects, with their names. -/
structure NamesValid (heap : HeapInformation) (objects : List HeapObject) (w : World)
    (owner : ℕ → Region) (f : List UInt8 → Option ℕ) (g : ℕ → Option ℕ) : Prop where
  globals : GlobalsValid w owner f g
  below : heap.finish ≤ w.memory.heapStart
  static : ∀ o < w.memory.heapStart, owner o = loadedOwner o
  symbol : ∀ data s, f data = some s → heap.Placed objects s
  association : ∀ k e, g k = some e → heap.Placed objects e ∧ oopIsPointers e ∧
    (e < w.memory.heapStart → (w.memory.header e).classIndex = KernelClass.GlobalVariable.index)
  name : ∀ k e, g k = some e → heap.start ≤ k → k < heap.finish → ∃ data, f data = some k

theorem loadedOwner_eq (o : ℕ) : loadedOwner o = .behavior ∨ loadedOwner o = .object := by
  rw [loadedOwner]
  split
  · exact Or.inl rfl
  · exact Or.inr rfl

namespace NamesValid

variable {heap : HeapInformation} {objects : List HeapObject} {w w' : World}
  {owner : ℕ → Region} {f : List UInt8 → Option ℕ} {g : ℕ → Option ℕ}

/-- The data structures are in the compacting heap. -/
theorem heapStart_le (h : NamesValid heap objects w owner f g) {r : Region} (hr : r ≠ .behavior)
    (hr' : r ≠ .object) {x : ℕ} (hx : owner x = r) : w.memory.heapStart ≤ x := by
  by_contra hlt
  rcases loadedOwner_eq x with hb | hb
  · exact hr (hx.symm.trans ((h.static x (Nat.not_le.mp hlt)).trans hb))
  · exact hr' (hx.symm.trans ((h.static x (Nat.not_le.mp hlt)).trans hb))

/-- A new object is outside every static heap. -/
theorem placed_of_limit_lt (h : NamesValid heap objects w owner f g) {x : ℕ}
    (hx : w.memory.limit < x) : heap.Placed objects x := by
  have hbelow := h.below
  have hle := w.memory.heapStart_le_limit
  refine ⟨by omega, fun _ hfinish => ?_⟩
  omega

theorem static_claim (h : NamesValid heap objects w owner f g) (r : Region) :
    ∀ o < w.memory.heapStart, claim owner w.memory.limit r o = loadedOwner o := by
  intro o ho
  rw [claim_of_lt (ho.trans_le w.memory.heapStart_le_limit)]
  exact h.static o ho

/-- The associations after a step that changed no header. -/
theorem association_frame (h : NamesValid heap objects w owner f g) {m : ObjectMemory}
    {F : Set (ℕ × ℕ)} (hf : Frame w.memory.limit F w.memory m) {k e : ℕ} (hg : g k = some e) :
    heap.Placed objects e ∧ oopIsPointers e ∧
      (e < m.heapStart → (m.header e).classIndex = KernelClass.GlobalVariable.index) := by
  obtain ⟨hplaced, hpointers, hclass⟩ := h.association k e hg
  refine ⟨hplaced, hpointers, fun hlt => ?_⟩
  rw [hf.heapStart] at hlt
  rw [hf.header e (hlt.trans_le w.memory.heapStart_le_limit)]
  exact hclass hlt

/-- A step that stores into a data structure changes no static memory. -/
theorem staticKept (h : NamesValid heap objects w owner f g) {m : ObjectMemory} {r : Region}
    (hf : Frame w.memory.limit {p | owner p.1 = r} w.memory m) (hr : r ≠ .behavior)
    (hr' : r ≠ .object) : StaticKept w.memory m :=
  StaticKept.of_frame hf fun _ hp => h.heapStart_le hr hr' hp

/-- What interning leaves behind. -/
theorem of_intern (h : NamesValid heap objects w owner f g) {m : ObjectMemory}
    {data : List UInt8} {s : ℕ} (hf : Frame w.memory.limit {p | owner p.1 = .newSymbols} w.memory m)
    (hv : GlobalsValid (w.withMemory m) (claim owner w.memory.limit .newSymbols)
      (Function.update f data (some s)) g)
    (hs : heap.Placed objects s) (hold : ∀ old, f data = some old → s = old) :
    NamesValid heap objects (w.withMemory m) (claim owner w.memory.limit .newSymbols)
      (Function.update f data (some s)) g where
  globals := hv
  below := h.below.trans_eq hf.heapStart.symm
  static o ho := h.static_claim _ o (hf.heapStart ▸ ho)
  symbol data' s' hsome := by
    by_cases hdata : data' = data
    · rw [hdata, Function.update_self] at hsome
      exact Option.some.inj hsome ▸ hs
    · rw [Function.update_of_ne hdata] at hsome
      exact h.symbol data' s' hsome
  association _ _ hg := h.association_frame hf hg
  name k e hg hstart hfinish := by
    obtain ⟨data', hdata'⟩ := h.name k e hg hstart hfinish
    by_cases hdata : data' = data
    · refine ⟨data, ?_⟩
      rw [Function.update_self, hold k (hdata ▸ hdata')]
    · exact ⟨data', by rw [Function.update_of_ne hdata, hdata']⟩

/-- **`slvm_Symbol_internString`** of a symbol that is there: the symbol itself is interned, unless
another one with its bytes is. -/
theorem internString (h : NamesValid heap objects w owner f g) {string : ℕ}
    (hstring : w.memory.IsByteString string) (hlive : w.memory.Live string)
    (hplaced : heap.Placed objects string) :
    ∃ symbol m, w.symbolInternString string = some (symbol, w.withMemory m) ∧
      Frame w.memory.limit {p | owner p.1 = .newSymbols} w.memory m ∧
      NamesValid heap objects (w.withMemory m) (claim owner w.memory.limit .newSymbols)
        (Function.update f (w.memory.bytes string) (some symbol)) g ∧
      (∀ old, f (w.memory.bytes string) = some old → symbol = old) ∧
      (f (w.memory.bytes string) = none → w.memory.IsByteSymbol string → symbol = string) := by
  obtain ⟨symbol, m, hintern, hframe, hvalid, hold⟩ := h.globals.internString hstring hlive
  have hnew := fun hnone => h.globals.symbols.internString_new hstring hnone hintern
  refine ⟨symbol, m, hintern, hframe, h.of_intern hframe hvalid ?_ hold, hold, ?_⟩
  · cases hf : f (w.memory.bytes string) with
    | some old => exact hold old hf ▸ h.symbol _ _ hf
    | none =>
      rcases hnew hf with ⟨hsame, -⟩ | ⟨hlt, -⟩
      · exact hsame ▸ hplaced
      · exact h.placed_of_limit_lt hlt
  · intro hnone hsymbol
    rcases hnew hnone with ⟨hsame, -⟩ | ⟨-, hnot⟩
    · exact hsame
    · exact absurd hsymbol hnot

/-- **`slvm_Symbol_internCString`** -/
theorem internCString (h : NamesValid heap objects w owner f g) (cstring : List UInt8) :
    ∃ symbol m, w.symbolInternCString cstring = some (symbol, w.withMemory m) ∧
      Frame w.memory.limit {p | owner p.1 = .newSymbols} w.memory m ∧
      NamesValid heap objects (w.withMemory m) (claim owner w.memory.limit .newSymbols)
        (Function.update f (cStringBytes cstring) (some symbol)) g := by
  obtain ⟨symbol, m, hintern, hframe, hvalid, hold⟩ := h.globals.internCString cstring
  refine ⟨symbol, m, hintern, hframe, h.of_intern hframe hvalid ?_ hold⟩
  cases hf : f (cStringBytes cstring) with
  | some old => exact hold old hf ▸ h.symbol _ _ hf
  | none =>
    obtain ⟨string, m₁, hnew, halloc, -, hbytes⟩ :=
      @KernelIntact.newBytes_spec _ _ h.globals.symbols.kernel .ByteSymbol rfl rfl
        (cStringBytes cstring)
    have hstring : m₁.IsByteSymbol string := ⟨halloc.pointers, halloc.classIndex⟩
    have hvalid₁ : SymbolsValid (w.withMemory m₁) owner f :=
      h.globals.symbols.frame halloc.frame (by simp) (by simp) fun _ _ => rfl
    rw [symbolInternCString, symbolConvertCString, hnew] at hintern
    have hnone : f ((w.withMemory m₁).memory.bytes string) = none := (congrArg f hbytes).trans hf
    rcases hvalid₁.internString_new hstring.isByteString hnone hintern with ⟨hsame, -⟩ | ⟨hlt, -⟩
    · exact h.placed_of_limit_lt (hsame ▸ halloc.limit_lt)
    · exact h.placed_of_limit_lt (halloc.frame.limit_le.trans_lt hlt)

/-- What binding a name leaves behind. -/
theorem of_binding (h : NamesValid heap objects w owner f g) {m : ObjectMemory} {k e : ℕ}
    (hf : Frame w.memory.limit {p | owner p.1 = .globals} w.memory m)
    (hv : GlobalsValid (w.withMemory m) (claim owner w.memory.limit .globals) f
      (Function.update g k (some e)))
    (he : heap.Placed objects e ∧ oopIsPointers e ∧
      (e < m.heapStart → (m.header e).classIndex = KernelClass.GlobalVariable.index))
    (hk : heap.start ≤ k → k < heap.finish → ∃ data, f data = some k) :
    NamesValid heap objects (w.withMemory m) (claim owner w.memory.limit .globals) f
      (Function.update g k (some e)) where
  globals := hv
  below := h.below.trans_eq hf.heapStart.symm
  static o ho := h.static_claim _ o (hf.heapStart ▸ ho)
  symbol := h.symbol
  association k' e' hg := by
    by_cases hkk : k' = k
    · rw [hkk, Function.update_self] at hg
      exact Option.some.inj hg ▸ he
    · rw [Function.update_of_ne hkk] at hg
      exact h.association_frame hf hg
  name k' e' hg := by
    by_cases hkk : k' = k
    · exact hkk ▸ hk
    · rw [Function.update_of_ne hkk] at hg
      exact h.name k' e' hg

/-- Names in the heap stand for their bytes. -/
theorem exists_data (h : NamesValid heap objects w owner f g) {symbol : ℕ}
    (hname : w.IsName heap symbol) (hstart : heap.start ≤ symbol) (hfinish : symbol < heap.finish) :
    ∃ data, f data = some symbol :=
  h.globals.symbols.isInterned_iff.mp (hname.interned hstart hfinish)

/-- **`slvm_globals_atPut`** of a new name binds it to a new association. -/
theorem atPut_of_none (h : NamesValid heap objects w owner f g) {symbol : ℕ}
    (hname : w.IsName heap symbol) (hg : g symbol = none) (value : ℕ) :
    ∃ e m, w.globalsAtPut symbol value = some (w.withMemory m) ∧
      Frame w.memory.limit {p | owner p.1 = .globals} w.memory m ∧
      NewAssociation w.memory symbol value e m ∧
      NamesValid heap objects (w.withMemory m) (claim owner w.memory.limit .globals) f
        (Function.update g symbol (some e)) := by
  obtain ⟨e, m, hput, hframe, hvalid, hnew, -⟩ := h.globals.atPut_of_none hname.live hg value
  refine ⟨e, m, hput, hframe, hnew, h.of_binding hframe hvalid
    ⟨h.placed_of_limit_lt hnew.limit_lt, hnew.pointers, fun hlt => ?_⟩ (h.exists_data hname)⟩
  have hlimit := hnew.limit_lt
  have hle := w.memory.heapStart_le_limit
  have hstart := hframe.heapStart
  omega

/-- **`slvm_globals_atPut`** -/
theorem atPut (h : NamesValid heap objects w owner f g) {symbol value : ℕ}
    (hname : w.IsName heap symbol) (hput : w.globalsAtPut symbol value = some w') :
    ∃ owner' g', NamesValid heap objects w' owner' f g' := by
  cases hg : g symbol with
  | some e =>
    obtain ⟨hput', hvalid⟩ := h.globals.atPut_of_some hg value
    rw [hput'] at hput
    obtain rfl := Option.some.inj hput
    exact ⟨owner, g, hvalid, h.below, h.static, h.symbol, h.association, h.name⟩
  | none =>
    obtain ⟨e, m, hput', -, -, hvalid⟩ := h.atPut_of_none hname hg value
    rw [hput'] at hput
    obtain rfl := Option.some.inj hput
    exact ⟨_, _, hvalid⟩

/-- A global variable of a static heap is none of the runtime's objects. -/
theorem ne_nilOop (_h : NamesValid heap objects w owner f g) {var : ℕ}
    (hvar : w.IsStaticVariable var) : var ≠ nilOop := by
  rintro rfl
  have hobject := hvar.object
  rw [nilOop, objectAt_address] at hobject
  cases hobject

/-- **`slvm_globals_addIfNotExistent`** of a global variable of a static heap returns what the
globals hold for its name from then on. -/
theorem addIfNotExistent (h : NamesValid heap objects w owner f g) {var : ℕ}
    (hvar : w.IsStaticVariable var) (hplaced : heap.Placed objects var)
    (hname : w.IsName heap (w.memory.slot var Field.key)) :
    ∃ e m owner' g', w.globalsAddIfNotExistent var = some (e, w.withMemory m) ∧
      Frame w.memory.limit {p | owner p.1 = .globals} w.memory m ∧
      NamesValid heap objects (w.withMemory m) owner' f g' ∧
      BindingsAdded (· = var) g g' ∧ g' (w.memory.slot var Field.key) = some e := by
  have hne := h.ne_nilOop hvar
  cases hg : g (w.memory.slot var Field.key) with
  | some e =>
    exact ⟨e, w.memory, owner, g, h.globals.addIfNotExistent_of_some hne hg, Frame.refl _ _ _, h,
      BindingsAdded.refl _ _, hg⟩
  | none =>
    have hobject : owner var = .object := by
      rw [h.static var hvar.static, loadedOwner, hvar.object]
      rfl
    obtain ⟨m, hadd, hframe, hvalid, -⟩ := h.globals.addIfNotExistent_of_none hobject
      (hvar.static.trans_le w.memory.heapStart_le_limit) hne hname.live hg
    have hlt := hvar.static.trans_le w.memory.heapStart_le_limit
    refine ⟨var, m, _, _, hadd, hframe, h.of_binding hframe hvalid ⟨hplaced, hvar.pointers,
      fun _ => ?_⟩ (h.exists_data hname), BindingsAdded.update hg var, Function.update_self ..⟩
    rw [hframe.header var hlt]
    exact hvar.classIndex

/-- **A step that stores into static objects** only, but into no name. -/
theorem of_static (h : NamesValid heap objects w owner f g) {m : ObjectMemory} {F : Set (ℕ × ℕ)}
    (hf : Frame w.memory.limit F w.memory m) (hF : ∀ p ∈ F, p.1 < w.memory.heapStart)
    (hkey : ∀ k e, g k = some e → (e, Field.key) ∉ F)
    (hkernel : ∀ c, (kernelClass c, Field.format) ∉ F) :
    NamesValid heap objects (w.withMemory m) owner f g where
  globals := by
    refine h.globals.frame hf (fun p hp => ?_) hkey hkernel fun _ _ => rfl
    have hstatic := h.static p.1 (hF p hp)
    rcases loadedOwner_eq p.1 with hb | hb <;> rw [hstatic, hb] <;> simp
  below := h.below.trans_eq hf.heapStart.symm
  static o ho := h.static o (hf.heapStart ▸ ho)
  symbol := h.symbol
  association _ _ hg := h.association_frame hf hg
  name := h.name

/-- The names do not depend on forwarding pointers. -/
theorem setForwardingWord (h : NamesValid heap objects w owner f g) (a v : ℕ) :
    NamesValid heap objects (w.setForwardingWord a v) owner f g :=
  ⟨h.globals.setForwardingWord a v, h.below, h.static, h.symbol, h.association, h.name⟩

theorem stored_iff (h : NamesValid heap objects w owner f g) {e : ℕ} :
    w.GlobalsStored e ↔ ∃ k, g k = some e := by
  obtain ⟨n, c, hd, -⟩ := h.globals.globals
  exact hd.holds_iff

/-- **One step of a run** keeps the invariant. -/
theorem step (h : NamesValid heap objects w owner f g) (hstep : NameStep heap objects w w') :
    ∃ owner' f' g', NamesValid heap objects w' owner' f' g' := by
  cases hstep with
  | internCString cstring hintern =>
    obtain ⟨symbol, m, hintern', -, hvalid⟩ := h.internCString cstring
    rw [hintern'] at hintern
    obtain ⟨rfl, rfl⟩ := Prod.mk.inj (Option.some.inj hintern)
    exact ⟨_, _, _, hvalid⟩
  | internString hstring hlive hplaced hintern =>
    obtain ⟨symbol, m, hintern', -, hvalid, -, -⟩ := h.internString hstring hlive hplaced
    rw [hintern'] at hintern
    obtain ⟨rfl, rfl⟩ := Prod.mk.inj (Option.some.inj hintern)
    exact ⟨_, _, _, hvalid⟩
  | atPut hname hput =>
    obtain ⟨owner', g', hvalid⟩ := h.atPut hname hput
    exact ⟨owner', f, g', hvalid⟩
  | addIfNotExistent hvar hplaced hname hadd =>
    obtain ⟨e, m, owner', g', hadd', -, hvalid, -, -⟩ := h.addIfNotExistent hvar hplaced hname
    rw [hadd'] at hadd
    obtain ⟨rfl, rfl⟩ := Prod.mk.inj (Option.some.inj hadd)
    exact ⟨owner', f, g', hvalid⟩
  | elsewhere hframe =>
    refine ⟨owner, f, g, h.of_static hframe (fun p hp => hp.1) (fun k e hg hmem => ?_)
      fun c hmem => ?_⟩
    · exact hmem.2.1 e (h.stored_iff.mpr ⟨k, hg⟩) rfl
    · exact hmem.2.2 c rfl

/-- The empty sets and the empty dictionary. -/
theorem of_start (hstart : w.NameStart) (hbelow : heap.finish ≤ w.memory.heapStart) :
    ∃ owner, NamesValid heap objects w owner (fun _ => none) fun _ => none := by
  obtain ⟨w₀, w₁, d, m, hloaded, hinit, hnew, rfl⟩ := hstart
  have hintact : KernelIntact w₀.spurInitialize.memory :=
    KernelLoaded.intact ⟨hloaded.header, hloaded.slot, hloaded.lt_heapStart⟩
  obtain ⟨m₁, newSymbols, symbolTable, owner, hinit', hsymbols, hframe₁, howner⟩ :=
    initCollectionsKernel_spec hintact
  rw [hinit] at hinit'
  obtain rfl := Option.some.inj hinit'
  obtain ⟨d', m', hnew', hd⟩ := @dictionaryNewWithCapacity_spec _ m₁ hsymbols.kernel
    .SystemDictionary (by decide) 5
  have hmade : m₁.systemDictionaryNew = some (d, m) := hnew
  obtain ⟨rfl, rfl⟩ := Prod.mk.inj (Option.some.inj (hmade.symm.trans hnew'))
  have hclaim : ∀ o < m₁.limit, claim owner m₁.limit .globals o = owner o :=
    fun o ho => claim_of_lt ho _
  have hframe := hd.frame
  have hstart : m.heapStart = w₀.memory.heapStart := hframe.heapStart.trans hframe₁.heapStart
  have hsymbols₁ := hsymbols.frame hframe (by simp) (by simp) hclaim
  have hglobals : GlobalsValid { w₀.spurInitialize with
      memory := m, newSymbols := newSymbols, symbolTable := symbolTable, globals := d }
      (claim owner m₁.limit .globals) (fun _ => none) fun _ => none := by
    exact ⟨⟨hsymbols₁.kernel, hsymbols₁.kernelOwner, hsymbols₁.newSymbols, hsymbols₁.symbolTable⟩,
      ⟨5, 0, (hd.valid hsymbols.kernel (by decide)).mono fun o ho => claim_of_ge ho _, by decide⟩,
      by simp⟩
  refine ⟨_, hglobals, hbelow, fun o ho => ?_, by simp, by simp, by simp⟩
  have hlt : o < w₀.spurInitialize.memory.limit := by
    have hlimit : w₀.spurInitialize.memory.limit = w₀.memory.heapStart := Nat.add_zero _
    rw [hlimit, ← hstart]
    exact ho
  rw [hclaim o (hlt.trans_le hframe₁.limit_le)]
  exact howner o hlt

end NamesValid

/-- **Every state of a run** is valid. -/
theorem NameReachable.valid {heap : HeapInformation} {objects : List HeapObject} {w : World}
    (h : NameReachable heap objects w) : ∃ owner f g, NamesValid heap objects w owner f g := by
  obtain ⟨w₀, hstart, hbelow, hrun⟩ := h
  induction hrun with
  | refl =>
    obtain ⟨owner, hvalid⟩ := NamesValid.of_start hstart hbelow
    exact ⟨owner, _, _, hvalid⟩
  | tail _ hstep ih =>
    obtain ⟨owner, f, g, hvalid⟩ := ih
    exact hvalid.step hstep

end World

end SlvmNative
