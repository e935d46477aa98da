import SlvmNative.Registration

/-!
# Initialization of the kernel

What `slvm_dynrun_initialize` does before any package is loaded: the sets of symbols, the globals,
the names, class pools and method dictionaries of the kernel classes, and the primitives. The
functions the primitives stand for are C code; where the linker puts them is a parameter.

The execution stack, which `slvm_dynrun_initialize` initializes too, is a memory of its own
(`ExecutionStack`), and so is the list of the static heaps.

## Main definitions

* `World.initClasses`, `World.kclassAddPrimitive`, `World.kclassVariableSet`
* `World.dynrunInitialize`

## Main results

* `World.initClasses_spec` — the kernel classes get their names, pools and method dictionaries
* `World.KernelValid.kclassAddPrimitive`, `kclassVariableSet`
-/

namespace SlvmNative

open ObjectMemory Inheritance

namespace World

variable [KernelImage]

/-! ### The operations -/

/-- `slvm_PrimitiveMethod_make` -/
def primitiveMethodMake (m : ObjectMemory) (function : ℕ) : Option (ℕ × ObjectMemory) := do
  let (result, m) ← m.kernelNew .PrimitiveMethod 8
  return (result, m.setSlot result Field.entryPoint function)

/-- `SLVM_KCLASS_ADD_PRIMITIVE`, its arguments evaluated in the order they are written. -/
def kclassAddPrimitive (w : World) (c : KernelClass) (selector : String) (function : ℕ) :
    Option World := do
  let methodDict := w.memory.slot (kernelClass c) Field.methodDict
  let (selector, w) ← w.symbolInternCString (asciiBytes selector)
  let (method, m) ← primitiveMethodMake w.memory function
  let m ← m.methodDictionaryAtPut methodDict selector method
  return w.withMemory m

/-- `SLVM_KCLASS_VARIABLE_SET`, its arguments evaluated in the order they are written. -/
def kclassVariableSet (w : World) (c : KernelClass) (classVariableName : String)
    (classVariableValue : ℕ) : Option World := do
  let classPool := w.memory.slot (kernelClass c) Field.classPool
  let (name, w) ← w.symbolInternCString (asciiBytes classVariableName)
  let m ← w.memory.identityDictionaryAtPut classPool name classVariableValue
  return w.withMemory m

/-- One use of `COMPACT_CLASS_INDEX` in `slvm_internal_init_classes`. -/
def initClass (w : World) (c : KernelClass) : Option World := do
  let (name, w) ← w.symbolInternCString (asciiBytes c.info.name)
  let w := w.setSlot (kernelClass c) Field.name name
  let (classPool, m) ← w.memory.dictionaryNew (kernelClass .Dictionary)
  let w := w.withMemory (m.setSlot (kernelClass c) Field.classPool classPool)
  let w := w.setSlot (kernelClass c) Field.environment w.globals
  let (methodDict, m) ← w.memory.methodDictionaryNew
  let w := w.withMemory (m.setSlot (kernelClass c) Field.methodDict methodDict)
  w.globalsAtPut (w.memory.slot (kernelClass c) Field.name) (kernelClass c)

/-- `slvm_internal_init_classes` -/
def initClasses (w : World) : Option World := do
  let (globals, m) ← w.memory.systemDictionaryNew
  KernelClass.all.foldlM initClass { w.withMemory m with globals := globals }

/-- Primitives: the class, the selector and the name of the function. -/
abbrev Primitives := List (KernelClass × String × String)

/-- The primitives of `slvm_internal_init_kernel`. -/
def kernelPrimitives : Primitives :=
  [(.ProtoObject, "asString", "asString"), (.ProtoObject, "class", "class"),
   (.ProtoObject, "basicSize", "basicSize"), (.Object, "value", "value"),
   (.Behavior, "basicNew", "basicNew"), (.Behavior, "basicNew:", "basicNewWithSize"),
   (.Behavior, "registerAsBehavior", "registerAsBehavior")]

/-- The closure activation message with a number of arguments. -/
def valueSelector (argumentCount : ℕ) : String :=
  if argumentCount = 0 then "value" else String.join (List.replicate argumentCount "value:")

/-- The primitives of `slvm_internal_init_context`: up to 15 arguments. -/
def contextPrimitives : Primitives :=
  (List.range 16).map fun argumentCount =>
    (.BlockClosure, valueSelector argumentCount, "activateClosure")

/-- The primitives of `slvm_internal_init_collections`. -/
def collectionsPrimitives : Primitives := [(.String, "printToStdout", "printToStdout")]

/-- The primitives of `slvm_internal_init_magnitude`. -/
def magnitudePrimitives : Primitives :=
  [(.SmallInteger, "+", "plus"), (.SmallInteger, "-", "minus"), (.SmallInteger, "*", "multiply"),
   (.SmallInteger, ">", "greaterThan"), (.SmallInteger, "<", "lessThan"),
   (.SmallInteger, "asString", "asString")]

/-- Adding primitives one after the other, with the addresses of their functions. -/
def addPrimitives (address : KernelClass → String → ℕ) (w : World) (primitives : Primitives) :
    Option World :=
  primitives.foldlM (fun w (c, selector, name) =>
    w.kclassAddPrimitive c selector (address c name)) w

/-- `slvm_internal_init_collections` -/
def initCollections (address : KernelClass → String → ℕ) (w : World) : Option World := do
  let w ← w.kclassVariableSet .Symbol "NewSymbols" w.newSymbols
  let w ← w.kclassVariableSet .Symbol "SymbolTable" w.symbolTable
  addPrimitives address w collectionsPrimitives

/-- `slvm_dynrun_initialize`, up to the static heaps. -/
def dynrunInitialize (address : KernelClass → String → ℕ) (w : World) : Option World := do
  let w ← w.spurInitialize.initCollectionsKernel
  let w ← w.initClasses
  -- the main packages
  let w ← addPrimitives address w kernelPrimitives
  let w ← addPrimitives address w contextPrimitives
  let w ← initCollections address w
  addPrimitives address w magnitudePrimitives

namespace KernelValid

variable {w : World} {owner : ℕ → Region} {f : List UInt8 → Option ℕ} {g : ℕ → Option ℕ}
  {h : Hierarchy} {O : Set ℕ}

/-! ### Symbols -/

/-- Interning keeps the runtime in order. -/
theorem of_symbols (hv : KernelValid w owner f g h O) {m : ObjectMemory}
    {f' : List UInt8 → Option ℕ}
    (hframe : Frame w.memory.limit {p | owner p.1 = .newSymbols} w.memory m)
    (hglobals : GlobalsValid (w.withMemory m) (claim owner w.memory.limit .newSymbols) f' g) :
    KernelValid (w.withMemory m) (claim owner w.memory.limit .newSymbols) f' g h O := by
  have howner : ∀ o < w.memory.limit, claim owner w.memory.limit .newSymbols o = owner o :=
    fun o ho => claim_of_lt ho _
  refine hv.step hglobals (hv.behaviors.frame_region hframe (by simp) (by simp) howner)
    (fun k e hg => ?_) rfl (fun _ _ hCM => hCM) hframe.limit_le howner
  refine hframe.slot e (hv.globals.entry hg).1 _ fun hmem => ?_
  have he : owner e = .newSymbols := hmem
  rcases hv.globals.bound k e hg with hr | hr <;> exact absurd (hr.symm.trans he) (by simp)

/-- `slvm_Symbol_internCString` in a kernel. -/
theorem internCString (hv : KernelValid w owner f g h O) (cstring : List UInt8) :
    ∃ symbol m, w.symbolInternCString cstring = some (symbol, w.withMemory m) ∧
      Frame w.memory.limit {p | owner p.1 = .newSymbols} w.memory m ∧
      KernelValid (w.withMemory m) (claim owner w.memory.limit .newSymbols)
        (Function.update f (cStringBytes cstring) (some symbol)) g h O ∧
      symbol ≠ nilOop ∧ m.Live symbol ∧
      ∀ old, f (cStringBytes cstring) = some old → symbol = old := by
  obtain ⟨symbol, m, hintern, hframe, hglobals, hold⟩ := hv.globals.internCString cstring
  obtain ⟨hsymbol, hlive, -⟩ := hglobals.symbols.of_some (Function.update_self ..)
  exact ⟨symbol, m, hintern, hframe, hv.of_symbols hframe hglobals,
    ne_nilOop_of_isByteSymbol hglobals.symbols.kernel hsymbol, hlive, hold⟩

/-- `slvm_Symbol_internString` in a kernel. -/
theorem internString (hv : KernelValid w owner f g h O) {string : ℕ}
    (hstring : w.memory.IsByteString string) (hlive : w.memory.Live string) :
    ∃ symbol m f', w.symbolInternString string = some (symbol, w.withMemory m) ∧
      Frame w.memory.limit {p | owner p.1 = .newSymbols} w.memory m ∧
      KernelValid (w.withMemory m) (claim owner w.memory.limit .newSymbols) f' g h O := by
  obtain ⟨symbol, m, hintern, hframe, hglobals, -⟩ := hv.globals.internString hstring hlive
  exact ⟨symbol, m, _, hintern, hframe, hv.of_symbols hframe hglobals⟩

omit [KernelImage] in
/-- Interning a name and then changing another region does not change the behaviors. -/
theorem frame_of_interned {L : ℕ} {m m₁ m₂ : ObjectMemory} {r : Region}
    (h₁ : Frame m.limit {p | owner p.1 = .newSymbols} m m₁) (hL : m.limit ≤ L)
    (h₂ : Frame L {p | claim owner m.limit .newSymbols p.1 = r} m₁ m₂) (hr : r ≠ .behavior) :
    Frame m.limit {p | owner p.1 ≠ .behavior} m m₂ := by
  refine (h₁.mono (Nat.le_refl _) fun o ho i hmem => ?_).trans (h₂.mono hL fun o ho i hmem => ?_)
  · have hregion : owner o = .newSymbols := hmem
    intro hbehavior
    exact absurd (hregion.symm.trans hbehavior) (by simp)
  · have hregion : claim owner m.limit .newSymbols o = r := hmem
    rw [claim_of_lt ho] at hregion
    exact fun hbehavior => hr (hregion.symm.trans hbehavior)

/-! ### Primitives -/

/-- `slvm_PrimitiveMethod_make` makes a new object. -/
theorem primitiveMethodMake_spec {m : ObjectMemory} (hk : KernelIntact m) (function : ℕ) :
    ∃ method m', primitiveMethodMake m function = some (method, m') ∧ Frame m.limit ∅ m m' ∧
      m.limit < method ∧ method ≠ nilOop := by
  obtain ⟨method, m', hnew, halloc, -, -⟩ :=
    @KernelIntact.kernelNew_bytes _ _ hk .PrimitiveMethod rfl rfl 8
  have hlimit := halloc.limit_lt
  refine ⟨method, m'.setSlot method Field.entryPoint function, ?_, ?_, hlimit, ?_⟩
  · rw [primitiveMethodMake, hnew]
    rfl
  · exact halloc.frame.trans (Frame.setSlot m.limit m' (Or.inr hlimit.le) function)
  · rintro rfl
    have := hk.lt_limit .nil
    rw [nilOop] at hlimit
    omega

/-- **`SLVM_KCLASS_ADD_PRIMITIVE`** registers a method. -/
theorem kclassAddPrimitive (hv : KernelValid w owner f g h O) {c : KernelClass}
    (hc : kernelClass c ∈ h.installed) (selector : String) (function : ℕ) :
    ∃ w₁ m₂ m owner' f' symbol method,
      w.symbolInternCString (asciiBytes selector) = some (symbol, w₁) ∧
      primitiveMethodMake w₁.memory function = some (method, m₂) ∧
      w.kclassAddPrimitive c selector function = some (w.withMemory m) ∧
      Frame w.memory.limit {p | owner p.1 ≠ .behavior} w.memory m ∧
      KernelValid (w.withMemory m) owner' f' g (h.register (kernelClass c) symbol method) O := by
  obtain ⟨symbol, m₁, hintern, hframe₁, hv₁, hne, hlive, -⟩ :=
    hv.internCString (asciiBytes selector)
  obtain ⟨method, m₂, hmake, hframe₂, -, hmethod⟩ :=
    primitiveMethodMake_spec hv₁.globals.symbols.kernel function
  have hv₂ := @frame_empty _ _ _ (claim owner w.memory.limit .newSymbols) _ _ _ _ hv₁ _ hframe₂
    fun _ _ => rfl
  obtain ⟨m₃, hput, hframe₃, hbehaviors⟩ := hv₂.behaviors.registerMethod
    hv₂.globals.symbols.kernel hc hne (hframe₂.live hlive) hmethod
  -- the dictionary is read before the symbol is made
  obtain ⟨hbehavior, hlt, -, -⟩ := hv.behaviors.behavior _ (h.isBehavior_kernelClass c)
  have hdict : m₂.slot (kernelClass c) Field.methodDict =
      w.memory.slot (kernelClass c) Field.methodDict := by
    rw [hframe₂.slot _ (hlt.trans_le hframe₁.limit_le) _ (by simp)]
    refine hframe₁.slot _ hlt _ fun hmem => ?_
    exact absurd ((show owner (kernelClass c) = .newSymbols from hmem).symm.trans hbehavior)
      (by simp)
  have howner : ∀ o < m₂.limit, claim (claim owner w.memory.limit .newSymbols) m₂.limit
      (.methodDict (kernelClass c)) o = claim owner w.memory.limit .newSymbols o :=
    fun o ho => claim_of_lt ho _
  have hglobals := hv₂.globals.frame_region hframe₃ (by simp) (by simp) (by simp) (by simp)
    (by simp) howner
  have hle : w.memory.limit ≤ m₂.limit := hframe₁.limit_le.trans hframe₂.limit_le
  have hframe₂₃ := (hframe₂.mono hframe₁.limit_le (by simp)).trans
    (hframe₃.mono hle fun _ _ _ hmem => hmem)
  have hframe := frame_of_interned hframe₁ (Nat.le_refl _) hframe₂₃ (by simp)
  refine ⟨_, m₂, m₃, _, _, symbol, method, hintern, hmake, ?_, hframe,
    hv₂.step hglobals hbehaviors (fun k e hg => ?_) rfl (fun _ _ hCM => hCM) hframe₃.limit_le
      howner⟩
  · rw [World.kclassAddPrimitive, hintern]
    simp only [Option.bind_eq_bind, Option.bind_some, show (w.withMemory m₁).memory = m₁ from rfl]
      at hmake ⊢
    rw [hmake]
    simp only [Option.bind_some, ← hdict]
    exact congrArg (Option.bind · _) hput
  · refine hframe₃.slot e (hv₂.globals.entry hg).1 _ fun hmem => ?_
    have he : claim owner w.memory.limit .newSymbols e = .methodDict (kernelClass c) := hmem
    rcases hv₂.globals.bound k e hg with hr | hr <;> exact absurd (hr.symm.trans he) (by simp)

/-! ### Class variables -/

/-- **`SLVM_KCLASS_VARIABLE_SET`** of a class that has a class pool. -/
theorem kclassVariableSet (hv : KernelValid w owner f g h O) {c : KernelClass} (hc : c ∈ h.pooled)
    (classVariableName : String) (value : ℕ) :
    ∃ m owner' f', w.kclassVariableSet c classVariableName value = some (w.withMemory m) ∧
      Frame w.memory.limit {p | owner p.1 ≠ .behavior} w.memory m ∧
      KernelValid (w.withMemory m) owner' f' g h O := by
  obtain ⟨symbol, m₁, hintern, hframe₁, hv₁, -, hlive, -⟩ :=
    hv.internCString (asciiBytes classVariableName)
  obtain ⟨m₂, hput, hframe₂, hbehaviors⟩ :=
    hv₁.behaviors.setClassVariable hv₁.globals.symbols.kernel hc hlive value
  obtain ⟨hbehavior, hlt, -, -⟩ := hv.behaviors.behavior _ (h.isBehavior_kernelClass c)
  have hpool : m₁.slot (kernelClass c) Field.classPool =
      w.memory.slot (kernelClass c) Field.classPool := by
    refine hframe₁.slot _ hlt _ fun hmem => ?_
    exact absurd ((show owner (kernelClass c) = .newSymbols from hmem).symm.trans hbehavior)
      (by simp)
  have howner : ∀ o < m₁.limit, claim (claim owner w.memory.limit .newSymbols) m₁.limit
      (.classPool (kernelClass c)) o = claim owner w.memory.limit .newSymbols o :=
    fun o ho => claim_of_lt ho _
  have hglobals := hv₁.globals.frame_region hframe₂ (by simp) (by simp) (by simp) (by simp)
    (by simp) howner
  refine ⟨m₂, _, _, ?_, frame_of_interned hframe₁ hframe₁.limit_le hframe₂ (by simp),
    hv₁.step hglobals hbehaviors (fun k e hg => ?_) rfl (fun _ _ hCM => hCM)
      hframe₂.limit_le howner⟩
  · rw [World.kclassVariableSet, hintern]
    simp only [Option.bind_eq_bind, Option.bind_some, ← hpool]
    exact congrArg (Option.bind · _) hput
  · refine hframe₂.slot e (hv₁.globals.entry hg).1 _ fun hmem => ?_
    have he : claim owner w.memory.limit .newSymbols e = .classPool (kernelClass c) := hmem
    rcases hv₁.globals.bound k e hg with hr | hr <;> exact absurd (hr.symm.trans he) (by simp)

/-- Giving a kernel class its class pool. -/
theorem installClassPool (hv : KernelValid w owner f g h O) (c : KernelClass) :
    ∃ d m, w.memory.dictionaryNew (kernelClass .Dictionary) = some (d, m) ∧
      Frame w.memory.limit {(kernelClass c, Field.classPool)} w.memory
        (m.setSlot (kernelClass c) Field.classPool d) ∧
      KernelValid (w.withMemory (m.setSlot (kernelClass c) Field.classPool d))
        (claim owner w.memory.limit (.classPool (kernelClass c))) f g (h.addPool c) O := by
  have hk := hv.globals.symbols.kernel
  obtain ⟨d, m, hnew, hd⟩ := @dictionaryNewWithCapacity_spec _ _ hk .Dictionary (by decide) 5
  have hbehaviors := hv.behaviors.setClassPool (c := c) hd.frame (hd.valid hk (by decide))
    (by decide)
  have hframe : Frame w.memory.limit {(kernelClass c, Field.classPool)} w.memory
      (m.setSlot (kernelClass c) Field.classPool d) :=
    (hd.frame.mono (Nat.le_refl _) (by simp)).trans (Frame.setSlot_cell _ m _ _ d)
  have hc := h.isBehavior_kernelClass c
  have hcell : ∀ {x i}, (x, i) ∈ ({(kernelClass c, Field.classPool)} : Set (ℕ × ℕ)) →
      x = kernelClass c ∧ i = Field.classPool := fun hmem => Prod.mk.inj hmem
  have howner : ∀ o < w.memory.limit,
      claim owner w.memory.limit (.classPool (kernelClass c)) o = owner o :=
    fun o ho => claim_of_lt ho _
  have hglobals := hv.globals.frame hframe (fun p hp => by
    obtain rfl : p = (kernelClass c, Field.classPool) := hp
    rw [(hv.behaviors.behavior _ hc).1]
    simp) (fun k e hg hmem => hv.ne_of_bound hg hc (hcell hmem).1)
    (fun c' hmem => absurd (hcell hmem).2 (by decide)) howner
  exact ⟨d, m, hnew, hframe, hv.step hglobals hbehaviors
    (fun k e hg => hframe.slot e (hv.globals.entry hg).1 _
      fun hmem => hv.ne_of_bound hg hc (hcell hmem).1)
    rfl (fun _ _ hCM => hCM) hframe.limit_le howner⟩

/-! ### Kernel classes -/

/-- The name of a kernel class, as it is interned. -/
def kernelClassName (c : KernelClass) : List UInt8 := cStringBytes (asciiBytes c.info.name)

omit [KernelImage] in
theorem kernelClassName_injective : Function.Injective kernelClassName := by
  intro c c' hname
  have hnodup : (KernelClass.all.map kernelClassName).Nodup := by decide +kernel
  exact List.inj_on_of_nodup_map hnodup c.mem_all c'.mem_all hname

/-- **One kernel class**: it gets its name, class pool and method dictionary, and is bound. -/
theorem initClass (hv : KernelValid w owner f g h O) (c : KernelClass)
    (hnone : h.methods (kernelClass c) = fun _ => none) :
    ∃ w' owner' g' name, w.initClass c = some w' ∧
      KernelValid w' owner' (Function.update f (kernelClassName c) (some name)) g'
        (((h.addPool c).install (kernelClass c)).bind name (some (kernelClass c))) O ∧
      ∀ old, f (kernelClassName c) = some old → name = old := by
  have hc := h.isBehavior_kernelClass c
  obtain ⟨name, m₁, hintern, hframe₁, hv₁, -, hlive, hold⟩ :=
    hv.internCString (asciiBytes c.info.name)
  have hnameLoose : Loose h O (kernelClass c, Field.name) := Or.inr (Or.inr ⟨⟨c, rfl⟩, Or.inl rfl⟩)
  have henvLoose : Loose (h.addPool c) O (kernelClass c, Field.environment) :=
    Or.inr (Or.inr ⟨⟨c, rfl⟩, Or.inr rfl⟩)
  have hv₂ := hv₁.setSlot hnameLoose name
  obtain ⟨pool, m₃, hpool, hframe₃, hv₃⟩ := hv₂.installClassPool c
  have hv₄ := hv₃.setSlot henvLoose w.globals
  obtain ⟨dict, m₅, hdict, hframe₅, hv₅⟩ := hv₄.installMethodDict hc hnone
  have hlt := (hv₂.behaviors.behavior _ hc).2.1
  -- the name is still there
  have hname : (m₅.setSlot (kernelClass c) Field.methodDict dict).slot (kernelClass c) Field.name =
      name := by
    rw [hframe₅.slot _ (hv₄.behaviors.behavior _ hc).2.1 _
      fun hmem => absurd (Prod.mk.inj hmem).2 (by decide)]
    refine (setSlot_slot_of_ne_index _ _ _ _ (by decide) _).trans ?_
    rw [show (((w.withMemory m₁).setSlot (kernelClass c) Field.name name).withMemory
      (m₃.setSlot (kernelClass c) Field.classPool pool)).memory =
      m₃.setSlot (kernelClass c) Field.classPool pool from rfl]
    rw [hframe₃.slot _ hlt _ fun hmem => absurd (Prod.mk.inj hmem).2 (by decide)]
    exact setSlot_slot_self _ _ _ _
  have hlimit : m₁.limit ≤ (m₅.setSlot (kernelClass c) Field.methodDict dict).limit :=
    hframe₃.limit_le.trans hframe₅.limit_le
  have hlive₅ : (m₅.setSlot (kernelClass c) Field.methodDict dict).Live name :=
    hlive.imp_right fun hlt => hlt.trans_le hlimit
  have hisClass : ((h.addPool c).install (kernelClass c)).IsClass (kernelClass c) :=
    ⟨_, Or.inl ⟨c, rfl, rfl⟩⟩
  obtain ⟨m₆, owner₆, g₆, hput, -, hv₆, -⟩ := hv₅.globalsAtPut hlive₅ (some (kernelClass c))
    fun C hC => Option.some.inj hC ▸ hisClass
  refine ⟨_, owner₆, g₆, name, ?_, hv₆, hold⟩
  rw [World.initClass, hintern]
  simp only [Option.bind_eq_bind, Option.bind_some, World.setSlot,
    World.withMemory] at hpool hdict ⊢
  simp only [hpool, Option.bind_some, hdict, hname]
  exact hput

/-- The kernel classes of a list have been initialized. -/
structure Initialized (f : List UInt8 → Option ℕ) (h : Hierarchy)
    (l : List KernelClass) : Prop where
  installed : ∀ b, b ∈ h.installed ↔ ∃ c ∈ l, b = kernelClass c
  pooled : ∀ c ∈ l, c ∈ h.pooled
  /-- Each is bound under its own name. -/
  named : ∀ c ∈ l, ∃ k, f (kernelClassName c) = some k ∧ h.named k = some (kernelClass c)
  /-- No other name is bound. -/
  of_named : ∀ k C, h.named k = some C → ∃ c ∈ l, f (kernelClassName c) = some k
  methods : h.methods = Hierarchy.kernel.methods
  superclass : h.superclass = Hierarchy.kernel.superclass
  registered : h.registered = []
  classes : h.classes = []

/-- **The loop over the kernel classes.** -/
theorem initClasses_loop (l done : List KernelClass) (hv : KernelValid w owner f g h O)
    (hdone : Initialized f h done) (hnodup : (done ++ l).Nodup) :
    ∃ w' owner' f' g' h', l.foldlM World.initClass w = some w' ∧ KernelValid w' owner' f' g' h' O ∧
      Initialized f' h' (done ++ l) := by
  induction l generalizing done w owner f g h with
  | nil =>
    rw [List.append_nil]
    exact ⟨w, owner, f, g, h, rfl, hv, hdone⟩
  | cons c l ih =>
    have hnone : h.methods (kernelClass c) = fun _ => none := by
      rw [hdone.methods]
      rfl
    obtain ⟨w₁, owner₁, g₁, name, hinit, hv₁, hold⟩ := hv.initClass c hnone
    have hc : c ∉ done := by
      intro hmem
      rw [List.nodup_append] at hnodup
      exact hnodup.2.2 c hmem c List.mem_cons_self rfl
    have hdone₁ : Initialized (Function.update f (kernelClassName c) (some name))
        (((h.addPool c).install (kernelClass c)).bind name (some (kernelClass c)))
        (done ++ [c]) := by
      refine ⟨fun b => ?_, fun c' hc' => ?_, fun c' hc' => ?_, fun k C hC => ?_, hdone.methods,
        hdone.superclass, hdone.registered, hdone.classes⟩
      · simp only [Hierarchy.bind, Hierarchy.install, Hierarchy.addPool, Set.mem_insert_iff,
          hdone.installed, List.mem_append, List.mem_singleton]
        constructor
        · rintro (rfl | ⟨c', hc', rfl⟩)
          · exact ⟨c, Or.inr rfl, rfl⟩
          · exact ⟨c', Or.inl hc', rfl⟩
        · rintro ⟨c', hc' | rfl, rfl⟩
          · exact Or.inr ⟨c', hc', rfl⟩
          · exact Or.inl rfl
      · rcases List.mem_append.mp hc' with hc' | hc'
        · exact Or.inr (hdone.pooled c' hc')
        · exact Or.inl (List.mem_singleton.mp hc')
      · by_cases hcc : c' = c
        · subst hcc
          exact ⟨name, Function.update_self .., Function.update_self ..⟩
        · have hc'done : c' ∈ done := (List.mem_append.mp hc').resolve_right fun hmem =>
            hcc (List.mem_singleton.mp hmem)
          obtain ⟨k, hk, hnamed⟩ := hdone.named c' hc'done
          have hname : kernelClassName c' ≠ kernelClassName c := fun heq =>
            hcc (kernelClassName_injective heq)
          -- a symbol has one content
          have hkname : k ≠ name := by
            rintro rfl
            have hbytes := (hv₁.globals.symbols.of_some (Function.update_self ..)).2.2
            have hfk : Function.update f (kernelClassName c) (some k) (kernelClassName c') =
                some k := by
              rw [Function.update_of_ne hname, hk]
            exact hname ((hv₁.globals.symbols.of_some hfk).2.2.symm.trans hbytes)
          refine ⟨k, ?_, ?_⟩
          · rw [Function.update_of_ne hname, hk]
          · show Function.update h.named name (some (kernelClass c)) k = _
            rw [Function.update_of_ne hkname, hnamed]
      · by_cases hk : k = name
        · exact ⟨c, List.mem_append_right _ (List.mem_singleton_self c),
            hk ▸ Function.update_self ..⟩
        · change Function.update h.named name (some (kernelClass c)) k = some C at hC
          rw [Function.update_of_ne hk] at hC
          obtain ⟨c', hc', hkc'⟩ := hdone.of_named k C hC
          have hname : kernelClassName c' ≠ kernelClassName c := fun heq =>
            hc (kernelClassName_injective heq ▸ hc')
          exact ⟨c', List.mem_append_left _ hc', by rw [Function.update_of_ne hname, hkc']⟩
    obtain ⟨w', owner', f', g', h', hloop, hv', hdone'⟩ :=
      ih (done ++ [c]) hv₁ hdone₁ (by rwa [List.append_assoc, List.singleton_append])
    rw [List.append_assoc, List.singleton_append] at hdone'
    refine ⟨w', owner', f', g', h', ?_, hv', hdone'⟩
    rw [List.foldlM_cons, hinit]
    exact hloop

end KernelValid

/-! ### The whole initialization -/

/-- The objects there are when the runtime is loaded, its own static objects apart: those of the
static heaps. -/
def loadedObjects (m : ObjectMemory) : Set ℕ :=
  {o | o < m.heapStart ∧ KernelImage.objectAt o = none}

theorem initClasses_eq {w : World} {globals : ℕ} {m : ObjectMemory}
    (h : w.memory.systemDictionaryNew = some (globals, m)) :
    w.initClasses =
      KernelClass.all.foldlM initClass { w.withMemory m with globals := globals } := by
  rw [initClasses, h]
  rfl

/-- **The kernel classes get their names, pools and method dictionaries.** -/
theorem initClasses_spec {w : World} (h : KernelLoaded w.memory) :
    ∃ w₀ w', w.spurInitialize.initCollectionsKernel = some w₀ ∧ w₀.initClasses = some w' ∧
      ∃ owner f g hierarchy, KernelValid w' owner f g hierarchy (loadedObjects w.memory) ∧
        KernelValid.Initialized f hierarchy KernelClass.all := by
  have hloaded : KernelLoaded w.spurInitialize.memory := ⟨h.header, h.slot, h.lt_heapStart⟩
  obtain ⟨m, newSymbols, symbolTable, owner, hinit, hsymbols, hframe, howner⟩ :=
    initCollectionsKernel_spec hloaded.intact
  have hk : KernelIntact m := hsymbols.kernel
  obtain ⟨d, m', hnew, hd⟩ := @dictionaryNewWithCapacity_spec _ _ hk .SystemDictionary (by decide) 5
  obtain ⟨w₁, hw₁⟩ : ∃ w₁ : World, w₁ = { w.spurInitialize.withMemory m' with
    newSymbols := newSymbols, symbolTable := symbolTable, globals := d } := ⟨_, rfl⟩
  have howner' : ∀ o < m.limit, claim owner m.limit .globals o = owner o :=
    fun o ho => claim_of_lt ho _
  have hsymbols₁ := hsymbols.frame hd.frame (by simp) (by simp) howner'
  have hglobals : GlobalsValid w₁ (claim owner m.limit .globals) (fun _ => none) fun _ => none := by
    subst hw₁
    exact ⟨⟨hsymbols₁.kernel, hsymbols₁.kernelOwner, hsymbols₁.newSymbols, hsymbols₁.symbolTable⟩,
      ⟨5, 0, (hd.valid hk (by decide)).mono fun o ho => claim_of_ge ho _, by decide⟩, by simp⟩
  have htable : w₁.ClassTableValid [] := by
    obtain ⟨h₁, h₂, h₃, h₄⟩ := spurInitialize_classTableValid w
    subst hw₁
    exact ⟨h₁, h₂, h₃, h₄⟩
  have hmemory : w₁.memory = m' := by rw [hw₁]; rfl
  have hslot : ∀ o, w₁.memory.slot (KernelImage.address o) = staticSlot o := by
    intro o
    rw [hmemory, ← hloaded.slot o]
    funext i
    have hlt := hloaded.intact.lt_limit o
    rw [hd.frame.slot _ (hlt.trans_le hframe.limit_le) i (by simp)]
    exact hframe.slot _ hlt i (by simp)
  have hbehaviors : BehaviorsValid w₁ (claim owner m.limit .globals) Hierarchy.kernel :=
    BehaviorsValid.start htable hglobals.symbols.kernel hslot hglobals.symbols.kernelOwner
  have hv : KernelValid w₁ (claim owner m.limit .globals) (fun _ => none) (fun _ => none)
      Hierarchy.kernel (loadedObjects w.memory) := by
    refine ⟨hglobals, hbehaviors, fun _ => rfl, fun k C hC => (by cases hC), fun o ho => ?_⟩
    have hlt : o < w.spurInitialize.memory.limit := ho.1.trans_le (Nat.le_add_right _ _)
    have hlt' := hlt.trans_le hframe.limit_le
    refine ⟨?_, ?_, fun k hk => by cases hk⟩
    · rw [howner' o hlt', howner o hlt, loadedOwner, ho.2]
      rfl
    · rw [hmemory]
      exact hlt'.trans_le hd.frame.limit_le
  have hstart : KernelValid.Initialized (fun _ => none) Hierarchy.kernel [] :=
    ⟨fun b => by simp [Hierarchy.kernel], by simp, by simp, fun k C hC => (by cases hC), rfl, rfl,
      rfl, rfl⟩
  obtain ⟨w', owner₂, f₂, g₂, h₂, hloop, hv₂, hdone⟩ :=
    hv.initClasses_loop KernelClass.all [] hstart (by decide)
  refine ⟨_, w', hinit, ?_, owner₂, f₂, g₂, h₂, hv₂, hdone⟩
  have hnew' : ({ w.spurInitialize.withMemory m with
      newSymbols := newSymbols, symbolTable := symbolTable } : World).memory.systemDictionaryNew =
      some (d, m') := hnew
  rw [initClasses_eq hnew', ← hloop, hw₁]
  rfl

end World

end SlvmNative
