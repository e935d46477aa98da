import SlvmNative.DictionaryRuns
import SlvmNative.MethodDictionaryRuns

/-!
# Registration of keys

The identity hash of a behavior is its class index, and `slvm_objectmodel_registerBehavior` stores
one into it. It is also where the scans of identity dictionaries and method dictionaries begin, and
nothing rehashes the dictionaries that have the behavior for a key. The scan for it then begins at
another slot of the same array.

## The condition that decides it

From the slot the class index leads to, the scan goes on to the first slot that is free or holds
the behavior. So the behavior is found if and only if no slot in between is free. If it is not
found it is looked up as nil, which is what it may be bound to. No other key is concerned.

## Main definitions

* `World.behaviorPrimitiveRegisterAsBehavior`, `World.Registers`
* `World.FoundInIdentityDictionary`, `World.FoundInMethodDictionary` — the condition
* `IdentityKeyRun`, `MethodKeyRun` — runs of a dictionary with registrations of any behaviors

## Main results

* `ObjectMemory.identityDictionaryAtOrNil_setIdentityHash_of_ne` — other keys, in any memory
* `ObjectMemory.Tabled.setIdentityHash`, `MethodDictionaryRun.Formed.setIdentityHash` — what keeps
  a dictionary what it is
* `World.atOrNil_registerBehavior_iff` — what a registration changes
-/

namespace SlvmNative

open LinearProbing ObjectMemory Relation

/-! ### Registrations -/

namespace World

variable [KernelImage]

/-- `slvm_Behavior_primitive_registerAsBehavior` -/
def behaviorPrimitiveRegisterAsBehavior (w : World) (receiver : ℕ) : Option (ℕ × World) := do
  let w ← w.registerBehavior receiver
  return (receiver, w)

/-- The behavior `b` is registered, by the runtime or by the primitive. -/
inductive Registers (w : World) (b : ℕ) (w' : World) : Prop
  | registerBehavior (h : w.registerBehavior b = some w')
  | primitive (h : w.behaviorPrimitiveRegisterAsBehavior b = some (b, w'))

omit [KernelImage] in
/-- The class index the next behavior gets. -/
def nextClassIndex (w : World) : ℕ := (w.classTableBaseSize + w.classTableSize) % 2 ^ 32

end World

namespace ObjectMemory

/-- The store of a registration into the header of the behavior. -/
def setIdentityHash (m : ObjectMemory) (o hash : ℕ) : ObjectMemory :=
  m.setHeader o ((m.header o).withIdentityHash hash)

section

variable (m : ObjectMemory) (o hash : ℕ)

@[simp] theorem setIdentityHash_slot : (m.setIdentityHash o hash).slot = m.slot := rfl

@[simp] theorem setIdentityHash_limit : (m.setIdentityHash o hash).limit = m.limit := rfl

@[simp] theorem setIdentityHash_basicSize (p : ℕ) :
    (m.setIdentityHash o hash).basicSize p = m.basicSize p := by
  by_cases hp : p = o
  · subst hp
    simp only [basicSize, setIdentityHash, setHeader_header_self,
      ObjectHeader.withIdentityHash_objectFormat, ObjectHeader.withIdentityHash_slotCount]
    rfl
  · simp only [basicSize, setIdentityHash, setHeader_header_of_ne _ _ hp]
    rfl

theorem setIdentityHash_identityHash_of_ne {p : ℕ} (hp : p ≠ o) :
    (m.setIdentityHash o hash).identityHash p = m.identityHash p := by
  rw [identityHash, identityHash, setIdentityHash, setHeader_header_of_ne _ _ hp]

theorem setIdentityHash_identityHash_self (ho : oopIsPointers o) :
    (m.setIdentityHash o hash).identityHash o = hash % 2 ^ 22 := by
  rw [identityHash, if_neg (not_oopIsImmediate.mpr ho), setIdentityHash, setHeader_header_self,
    ObjectHeader.withIdentityHash_identityHash]

end

end ObjectMemory

variable [KernelImage]

theorem World.Registers.memory_eq {w w' : World} {b : ℕ} (h : w.Registers b w') :
    w'.memory = w.memory.setIdentityHash b w.nextClassIndex := by
  have hregister : w.registerBehavior b = some w' := by
    cases h with
    | registerBehavior h => exact h
    | primitive h =>
      obtain ⟨w₁, h₁, h₂⟩ := Option.bind_eq_some_iff.mp h
      rw [h₁, (Prod.mk.inj (Option.some.inj h₂)).2]
  simp only [World.registerBehavior] at hregister
  split_ifs at hregister
  all_goals
    split at hregister
    · cases hregister
    · obtain rfl := Option.some.inj hregister
      rfl

namespace ObjectMemory

theorem KernelFormats.setIdentityHash {m : ObjectMemory} (h : KernelFormats m) (o hash : ℕ) :
    KernelFormats (m.setIdentityHash o hash) :=
  ⟨h.format, h.lt_limit⟩

/-- From the slot that `hash` leads to, the key comes before any free slot of the identity
dictionary. -/
def IdentityDictionaryFinds (m : ObjectMemory) (d hash key : ℕ) : Prop :=
  let arraySize := m.basicSize (m.slot d Field.array)
  Finds arraySize (dictionaryTable identityScheme m d) (hash % arraySize) key

/-- The same for a method dictionary. -/
def MethodDictionaryFinds (m : ObjectMemory) (d hash key : ℕ) : Prop :=
  let arraySize := m.basicSize (m.slot d Field.keys)
  Finds arraySize (methodTable m d) (hash % arraySize) key

/-! ### Other keys -/

section OtherKeys

variable (m : ObjectMemory) (d : ℕ) {key b : ℕ} (hash : ℕ)

/-- **Another key** of an identity dictionary, in any memory. -/
theorem identityDictionaryAtOrNil_setIdentityHash_of_ne (hkey : key ≠ b) :
    (m.setIdentityHash b hash).identityDictionaryAtOrNil d key =
      m.identityDictionaryAtOrNil d key := by
  simp only [identityDictionaryAtOrNil, identityDictionaryScanFor, dictionaryScanFor,
    identityHashFunction, setIdentityHash_slot, setIdentityHash_basicSize,
    setIdentityHash_identityHash_of_ne m b hash hkey]
  rfl

/-- **Another key** of a method dictionary, in any memory. -/
theorem methodDictionaryAtOrNil_setIdentityHash_of_ne (hkey : key ≠ b) :
    (m.setIdentityHash b hash).methodDictionaryAtOrNil d key =
      m.methodDictionaryAtOrNil d key := by
  simp only [methodDictionaryAtOrNil, methodDictionaryScanFor, setIdentityHash_slot,
    setIdentityHash_basicSize, setIdentityHash_identityHash_of_ne m b hash hkey]

end OtherKeys

/-! ### The behavior as a key of an identity dictionary -/

section IdentityDictionary

variable {m : ObjectMemory} {R : Set ℕ} {L d n c b e : ℕ} {g : ℕ → Option ℕ} (hash : ℕ)

theorem DictionaryValid.finds_iff (h : DictionaryValid identityScheme m R d n c g) :
    m.IdentityDictionaryFinds d hash b ↔
      Finds n (dictionaryTable identityScheme m d) (hash % n) b := by
  rw [IdentityDictionaryFinds, h.shape.basicSize]

/-- The keys are found from their home slots, if the behavior is found from its new one. -/
theorem DictionaryValid.setIdentityHash (h : DictionaryValid identityScheme m R d n c g)
    (hb : oopIsPointers b)
    (hfound : ∀ e, g b = some e → m.IdentityDictionaryFinds d (hash % 2 ^ 22) b) :
    DictionaryValid identityScheme (m.setIdentityHash b hash) R d n c g where
  shape := by
    have hshape := h.shape
    exact ⟨hshape.mem, hshape.lt_limit, hshape.array_mem, hshape.array_lt_limit, hshape.array_ne,
      (setIdentityHash_basicSize m b hash _).trans hshape.basicSize, hshape.tally⟩
  pos := h.pos
  ne_nilOop := h.ne_nilOop
  occupied_eq := h.occupied_eq
  entry i hi k a ht := by
    have hentry := h.entry i hi k a ht
    exact ⟨trivial, hentry.live, hentry.lt_limit, hentry.ne_dictionary, hentry.ne_array⟩
  represents := by
    refine h.represents.rehome fun k a hk => ?_
    by_cases hkb : k = b
    · subst hkb
      have hself := setIdentityHash_identityHash_self m k hash hb
      rw [show identityScheme.hashOf (m.setIdentityHash k hash) k = _ from hself]
      exact (h.finds_iff _).mp (hfound a hk)
    · have hother := setIdentityHash_identityHash_of_ne m b hash hkb
      rw [show identityScheme.hashOf (m.setIdentityHash b hash) k = _ from hother]
      exact h.represents.finds_home hk

/-- The scan for the behavior stops at a free slot, if it is not found from its new home slot. -/
theorem DictionaryValid.scanFor_setIdentityHash_of_not
    (h : DictionaryValid identityScheme m R d n c g) (hroom : c < n) (hb : oopIsPointers b)
    (hnot : ¬ m.IdentityDictionaryFinds d (hash % 2 ^ 22) b) :
    ∃ i < n, (m.setIdentityHash b hash).identityDictionaryScanFor d b = some (some i) ∧
      m.slot (m.slot d Field.array) i = nilOop := by
  have hprobed : identityScheme.Probed m b := trivial
  rw [h.finds_iff] at hnot
  obtain ⟨i, hi, hprobe, hnone⟩ := probe_of_not_finds (h.accepts hprobed)
    (Nat.mod_lt (hash % 2 ^ 22) h.pos) (exists_hole (h.occupied_eq ▸ hroom)) hnot
  refine ⟨i, hi, ?_, dictionaryTable_eq_none.mp hnone⟩
  simp only [identityDictionaryScanFor, dictionaryScanFor, identityHashFunction,
    setIdentityHash_slot, setIdentityHash_basicSize, h.shape.basicSize, if_neg h.pos.ne',
    setIdentityHash_identityHash_self m b hash hb]
  exact congrArg some hprobe

/-- **The lookup of the behavior** after its registration. -/
theorem DictionaryValid.atOrNil_setIdentityHash_iff
    (h : DictionaryValid identityScheme m R d n c g) (hroom : c < n) (hb : oopIsPointers b)
    (hg : g b = some e) :
    (m.setIdentityHash b hash).identityDictionaryAtOrNil d b = m.identityDictionaryAtOrNil d b ↔
      m.slot e Field.value = nilOop ∨ m.IdentityDictionaryFinds d (hash % 2 ^ 22) b := by
  have hbefore := h.atOrNil hroom b
  rw [hg] at hbefore
  by_cases hfound : m.IdentityDictionaryFinds d (hash % 2 ^ 22) b
  · have hafter := (h.setIdentityHash hash hb fun _ _ => hfound).atOrNil hroom b
    rw [hg] at hafter
    rw [hbefore, hafter]
    exact iff_of_true rfl (Or.inr hfound)
  · obtain ⟨i, -, hscan, hslot⟩ := h.scanFor_setIdentityHash_of_not hash hroom hb hfound
    have hafter : (m.setIdentityHash b hash).identityDictionaryAtOrNil d b = some nilOop := by
      rw [identityDictionaryAtOrNil, if_neg h.ne_nilOop, hscan]
      exact congrArg some (if_pos hslot)
    rw [hbefore, hafter]
    constructor
    · intro heq
      exact Or.inl (Option.some.inj heq).symm
    · intro hor
      exact congrArg some (hor.resolve_right hfound).symm

/-- **The dictionary survives** the registration of a behavior that stays found. -/
theorem Tabled.setIdentityHash (h : Tabled identityScheme L m d g) (hb : oopIsPointers b)
    (hstays : m.dictionaryBinding d b = none ∨ m.IdentityDictionaryFinds d (hash % 2 ^ 22) b) :
    Tabled identityScheme L (m.setIdentityHash b hash) d g := by
  obtain ⟨n, c, hd, hroom⟩ := h.valid
  rw [h.dictionaryBinding_eq] at hstays
  refine ⟨h.formats.setIdentityHash b hash, h.kernelClass_lt, h.le_limit, n, c,
    hd.setIdentityHash hash hb fun e he => hstays.resolve_left ?_, hroom⟩
  rw [he]
  exact Option.some_ne_none e

end IdentityDictionary

/-! ### The behavior as a key of a method dictionary -/

section MethodDictionary

variable {m : ObjectMemory} {R : Set ℕ} {d n c b v : ℕ} {f : ℕ → Option ℕ} (hash : ℕ)

theorem MethodDictionaryValid.finds_iff (h : MethodDictionaryValid m R d n c f) :
    m.MethodDictionaryFinds d hash b ↔ Finds n (methodTable m d) (hash % n) b := by
  rw [MethodDictionaryFinds, h.keys_basicSize]

/-- The selectors are found from their home slots, if the behavior is found from its new one. -/
theorem MethodDictionaryValid.setIdentityHash (h : MethodDictionaryValid m R d n c f)
    (hb : oopIsPointers b)
    (hfound : ∀ v, f b = some v → m.MethodDictionaryFinds d (hash % 2 ^ 22) b) :
    MethodDictionaryValid (m.setIdentityHash b hash) R d n c f where
  shape := by
    have hshape := h.shape
    exact ⟨hshape.mem, hshape.lt_limit, hshape.array_mem, hshape.array_lt_limit, hshape.array_ne,
      (setIdentityHash_basicSize m b hash _).trans hshape.basicSize, hshape.tally⟩
  ne_nilOop := h.ne_nilOop
  keys_mem := h.keys_mem
  keys_lt_limit := h.keys_lt_limit
  keys_ne := h.keys_ne
  keys_ne_array := h.keys_ne_array
  keys_basicSize := (setIdentityHash_basicSize m b hash _).trans h.keys_basicSize
  occupied_eq := h.occupied_eq
  free := h.free
  live := h.live
  represents := by
    refine h.represents.rehome fun k w hk => ?_
    by_cases hkb : k = b
    · subst hkb
      rw [setIdentityHash_identityHash_self m k hash hb]
      exact (h.finds_iff _).mp (hfound w hk)
    · rw [setIdentityHash_identityHash_of_ne m b hash hkb]
      exact h.represents.finds_home hk

/-- **The lookup of the behavior** after its registration. -/
theorem MethodDictionaryValid.atOrNil_setIdentityHash_iff (h : MethodDictionaryValid m R d n c f)
    (hroom : c < n) (hb : oopIsPointers b) (hf : f b = some v) :
    (m.setIdentityHash b hash).methodDictionaryAtOrNil d b = m.methodDictionaryAtOrNil d b ↔
      v = nilOop ∨ m.MethodDictionaryFinds d (hash % 2 ^ 22) b := by
  have hbefore := h.atOrNil hroom b
  rw [hf] at hbefore
  by_cases hfound : m.MethodDictionaryFinds d (hash % 2 ^ 22) b
  · have hafter := (h.setIdentityHash hash hb fun _ _ => hfound).atOrNil hroom b
    rw [hf] at hafter
    rw [hbefore, hafter]
    exact iff_of_true rfl (Or.inr hfound)
  · have hpos : 0 < n := Nat.zero_lt_of_lt hroom
    have hafter : (m.setIdentityHash b hash).methodDictionaryAtOrNil d b = some nilOop := by
      obtain ⟨i, hi, hprobe, hnone⟩ :=
        probe_of_not_finds (MethodDictionaryValid.accepts m d n b)
          (Nat.mod_lt (hash % 2 ^ 22) hpos) (exists_hole (h.occupied_eq ▸ hroom))
          (mt (h.finds_iff _).mpr hfound)
      have hscan : (m.setIdentityHash b hash).methodDictionaryScanFor d b = some i := by
        simp only [methodDictionaryScanFor, setIdentityHash_slot, setIdentityHash_basicSize,
          h.keys_basicSize, if_neg hpos.ne', setIdentityHash_identityHash_self m b hash hb]
        exact hprobe
      rw [methodDictionaryAtOrNil, if_neg h.ne_nilOop, hscan]
      -- the method in a free slot is nil
      exact congrArg some (h.free i hi hnone)
    rw [hbefore, hafter]
    constructor
    · intro heq
      exact Or.inl (Option.some.inj heq).symm
    · intro hor
      exact congrArg some (hor.resolve_right hfound).symm

end MethodDictionary

end ObjectMemory

/-- **The dictionary survives** the registration of a behavior that stays found. -/
theorem MethodDictionaryRun.Formed.setIdentityHash {s : MethodDictionaryRun} (h : s.Formed) {b : ℕ}
    (hash : ℕ) (hb : oopIsPointers b)
    (hstays : s.puts.lookup b = none ∨
      s.memory.MethodDictionaryFinds s.dictionary (hash % 2 ^ 22) b) :
    MethodDictionaryRun.Formed { s with memory := s.memory.setIdentityHash b hash } := by
  obtain ⟨n, hd, hroomy⟩ := h.dictionary
  refine ⟨h.formats.setIdentityHash b hash, h.kernelClass_notMem, n,
    hd.setIdentityHash hash hb fun v hv => hstays.resolve_left ?_, hroomy⟩
  rw [hv]
  exact Option.some_ne_none v

/-! ### Runs -/

/-- The condition on a registration: the behavior is no key of the identity dictionary, or the slot
of its key comes before any free slot when the scan begins where its class index leads to. -/
def World.StaysInIdentityDictionary (w : World) (d b : ℕ) : Prop :=
  w.memory.dictionaryBinding d b = none ∨
    w.memory.IdentityDictionaryFinds d (w.nextClassIndex % 2 ^ 22) b

/-- One step of a run on the identity dictionary `d`. -/
inductive IdentityKeyStep (d : ℕ) : World → World → Prop
  | call {w : World} {m : ObjectMemory} {result : Option ℕ} (call : IdentityDictionaryCall)
      (hproper : call.Proper w.memory d) (h : call.run w.memory d = some (result, m)) :
      IdentityKeyStep d w (w.withMemory m)
  /-- The class table is free to change as well. -/
  | elsewhere {w w' : World} (h : Elsewhere d w.memory w'.memory) : IdentityKeyStep d w w'
  | register {w w' : World} {b : ℕ} (hb : oopIsPointers b)
      (hstays : w.StaysInIdentityDictionary d b) (h : w.Registers b w') : IdentityKeyStep d w w'

/-- A state of a run that begins with a new dictionary of any class. -/
def IdentityKeyReachable (d : ℕ) (w : World) : Prop :=
  ∃ (m₀ : ObjectMemory) (w₁ : World) (clazz n : ℕ), KernelFormats m₀ ∧ 1 ≤ n ∧
    m₀.dictionaryNewWithCapacity clazz n = some (d, w₁.memory) ∧
    ReflTransGen (IdentityKeyStep d) w₁ w

/-- One step keeps the dictionary what it is. -/
theorem IdentityKeyStep.tabled {d L : ℕ} {w w' : World} {g : ℕ → Option ℕ}
    (hstep : IdentityKeyStep d w w') (h : Tabled identityScheme L w.memory d g) :
    ∃ g', Tabled identityScheme L w'.memory d g' := by
  cases hstep with
  | @call m result call hproper hcall =>
    obtain ⟨result', m', g', hcall', hg'⟩ := IdentityDictionaryCall.run_tabled h call hproper
    obtain ⟨-, rfl⟩ := Prod.mk.inj (Option.some.inj (hcall.symm.trans hcall'))
    exact ⟨g', hg'⟩
  | elsewhere helsewhere => exact ⟨g, h.elsewhere helsewhere⟩
  | register hb hstays hregisters =>
    rw [hregisters.memory_eq]
    exact ⟨g, h.setIdentityHash w.nextClassIndex hb hstays⟩

/-- Every state of a run stands for a map. -/
theorem IdentityKeyReachable.tabled {d : ℕ} {w : World} (h : IdentityKeyReachable d w) :
    ∃ L g, Tabled identityScheme L w.memory d g := by
  obtain ⟨m₀, w₁, clazz, n, hk, hn, hnew, hrun⟩ := h
  refine ⟨m₀.limit, ?_⟩
  induction hrun with
  | refl => exact ⟨_, Tabled.start hk hn hnew⟩
  | tail _ hstep ih =>
    obtain ⟨g, hg⟩ := ih
    exact hstep.tabled hg

/-- The state of a run on a method dictionary. -/
structure MethodKeyRun where
  world : World
  dictionary : ℕ
  /-- The keys and values put so far, the last first. -/
  puts : List (ℕ × ℕ)

namespace MethodKeyRun

omit [KernelImage] in
/-- What of it concerns the dictionary. -/
def toRun (s : MethodKeyRun) : MethodDictionaryRun := ⟨s.world.memory, s.dictionary, s.puts⟩

/-- The condition on a registration, as for an identity dictionary. -/
def Stays (s : MethodKeyRun) (b : ℕ) : Prop :=
  s.puts.lookup b = none ∨
    s.world.memory.MethodDictionaryFinds s.dictionary (s.world.nextClassIndex % 2 ^ 22) b

/-- One step of a run. -/
inductive Step : MethodKeyRun → MethodKeyRun → Prop
  | atPut {s : MethodKeyRun} {key value : ℕ} {m : ObjectMemory} (hkey : key ≠ nilOop)
      (hlive : s.world.memory.Live key)
      (h : s.world.memory.methodDictionaryAtPut s.dictionary key value = some m) :
      Step s { s with world := s.world.withMemory m, puts := (key, value) :: s.puts }
  | elsewhere {s : MethodKeyRun} {w : World}
      (h : Frame s.world.memory.limit
        {p | p.1 ∉ s.toRun.objects ∧ ∀ c, p ≠ (kernelClass c, Field.format)}
        s.world.memory w.memory) :
      Step s { s with world := w }
  | register {s : MethodKeyRun} {w : World} {b : ℕ} (hb : oopIsPointers b) (hstays : s.Stays b)
      (h : s.world.Registers b w) : Step s { s with world := w }

/-- A state of a run that begins with a new dictionary of any capacity. -/
def Reachable (s : MethodKeyRun) : Prop :=
  ∃ (m₀ : ObjectMemory) (w : World) (n d : ℕ), KernelFormats m₀ ∧
    m₀.methodDictionaryNewWithCapacity n = some (d, w.memory) ∧ ReflTransGen Step ⟨w, d, []⟩ s

/-- One step keeps the dictionary what it is. -/
theorem Step.formed {s s' : MethodKeyRun} (hstep : Step s s') (h : s.toRun.Formed) :
    s'.toRun.Formed := by
  cases hstep with
  | @atPut key value m hkey hlive hput =>
    obtain ⟨m', hput', -, hformed⟩ := h.atPut hkey hlive value
    obtain rfl := Option.some.inj (hput.symm.trans hput')
    exact hformed
  | elsewhere helsewhere => exact h.elsewhere helsewhere
  | @register w b hb hstays hregisters =>
    have hformed := h.setIdentityHash s.world.nextClassIndex hb hstays
    rw [toRun, hregisters.memory_eq]
    exact hformed

/-- Every state of a run stands for what was put. -/
theorem Reachable.formed {s : MethodKeyRun} (h : s.Reachable) : s.toRun.Formed := by
  obtain ⟨m₀, w, n, d, hk, hnew, hrun⟩ := h
  induction hrun with
  | refl => exact (MethodDictionaryRun.Formed.start hk hnew).2
  | tail _ hstep ih => exact hstep.formed ih

end MethodKeyRun

namespace World

/-- A new behavior is put into a new identity dictionary of `n` slots, for the SmallInteger 1, and
is registered then. The state before the registration and the one after it, the dictionary and the
behavior. -/
def putAndRegister (w : World) (n : ℕ) : Option (World × World × ℕ × ℕ) := do
  let (b, m) ← w.memory.basicNew (kernelClass .Behavior) 0
  let (d, m) ← m.dictionaryNewWithCapacity (kernelClass .IdentityDictionary) n
  let m ← m.identityDictionaryAtPut d b 9
  let (_, w') ← (w.withMemory m).behaviorPrimitiveRegisterAsBehavior b
  return (w.withMemory m, w', d, b)

theorem putAndRegister_reachable {w before after : World} {n d b : ℕ}
    (hk : KernelFormats w.memory) (hn : 1 ≤ n)
    (h : w.putAndRegister n = some (before, after, d, b)) :
    IdentityKeyReachable d before ∧ oopIsPointers b ∧ before.Registers b after := by
  simp only [putAndRegister, Option.bind_eq_bind, Option.bind_eq_some_iff] at h
  obtain ⟨⟨b', m₁⟩, hbasic, ⟨d', m₂⟩, hnew, m₃, hput, ⟨r, w'⟩, hregister, heq⟩ := h
  obtain ⟨rfl, rfl, rfl, rfl⟩ : w.withMemory m₃ = before ∧ w' = after ∧ d' = d ∧ b' = b := by
    simpa using heq
  have halloc := basicNew_allocated hbasic
  have hk₁ : KernelFormats m₁ := hk.frame halloc.frame hk.lt_limit (by simp)
  have htabled : Tabled identityScheme m₁.limit m₂ d' _ := Tabled.start hk₁ hn hnew
  have hproper : (IdentityDictionaryCall.atPutWithAssociationClass b' 9
      (kernelClass .Association)).Proper m₂ d' :=
    Or.inr (halloc.lt_limit.trans_le htabled.le_limit)
  have hcall : (IdentityDictionaryCall.atPutWithAssociationClass b' 9
      (kernelClass .Association)).run m₂ d' = some (none, m₃) := by
    have hput' : m₂.identityDictionaryAtPutWithAssociationClass d' b' 9
        (kernelClass .Association) = some m₃ := hput
    rw [IdentityDictionaryCall.run, hput']
    rfl
  have hreceiver : r = b' := by
    obtain ⟨w₁, -, h₁⟩ := Option.bind_eq_some_iff.mp hregister
    exact (Prod.mk.inj (Option.some.inj h₁)).1.symm
  refine ⟨⟨m₁, w.withMemory m₂, _, n, hk₁, hn, hnew, .single (.call _ hproper hcall)⟩,
    halloc.pointers, .primitive ?_⟩
  rw [← hreceiver]
  exact hreceiver ▸ hregister

/-- **What the registration of a behavior changes.** It changes the lookup of no other key, in any
dictionary of any state. The lookup of the behavior itself stays the same if and only if the
behavior is bound to nil or found from the slot its class index leads to, in every state of every
run whose registrations leave every key found. -/
theorem atOrNil_registerBehavior_iff :
    (∀ (w w' : World) (d key b : ℕ), w.Registers b w' → key ≠ b →
      w'.memory.identityDictionaryAtOrNil d key = w.memory.identityDictionaryAtOrNil d key ∧
      w'.memory.methodDictionaryAtOrNil d key = w.memory.methodDictionaryAtOrNil d key) ∧
    (∀ (w w' : World) (d b e : ℕ), IdentityKeyReachable d w → oopIsPointers b →
      w.Registers b w' → w.memory.dictionaryBinding d b = some e →
      (w'.memory.identityDictionaryAtOrNil d b = w.memory.identityDictionaryAtOrNil d b ↔
        w.memory.slot e Field.value = nilOop ∨ w.StaysInIdentityDictionary d b)) ∧
    ∀ (s : MethodKeyRun) (w' : World) (b v : ℕ), s.Reachable → oopIsPointers b →
      s.world.Registers b w' → s.puts.lookup b = some v →
      (w'.memory.methodDictionaryAtOrNil s.dictionary b =
          s.world.memory.methodDictionaryAtOrNil s.dictionary b ↔
        v = nilOop ∨ s.Stays b) := by
  refine ⟨fun w w' d key b hregisters hkey => ?_, fun w w' d b e hreach hb hregisters he => ?_,
    fun s w' b v hreach hb hregisters hv => ?_⟩
  · rw [hregisters.memory_eq]
    exact ⟨identityDictionaryAtOrNil_setIdentityHash_of_ne _ d _ hkey,
      methodDictionaryAtOrNil_setIdentityHash_of_ne _ d _ hkey⟩
  · obtain ⟨L, g, htabled⟩ := hreach.tabled
    obtain ⟨n, c, hd, hroom⟩ := htabled.valid
    have hg : g b = some e := by rw [← htabled.dictionaryBinding_eq, he]
    rw [hregisters.memory_eq, hd.atOrNil_setIdentityHash_iff _ hroom hb hg,
      StaysInIdentityDictionary, he, or_iff_right (Option.some_ne_none e)]
  · obtain ⟨n, hd, hroomy⟩ := hreach.formed.dictionary
    have hroom : s.toRun.keyCount < n := by
      refine (hroomy.resolve_left fun hnil => ?_).lt
      rw [show s.puts = [] from hnil] at hv
      cases hv
    have hlookup := hd.atOrNil_setIdentityHash_iff s.world.nextClassIndex hroom hb hv
    rw [hregisters.memory_eq, MethodKeyRun.Stays, hv, or_iff_right (Option.some_ne_none v)]
    exact hlookup

omit [KernelImage] in
/-- In a dictionary of four slots the behavior at address 65544 is in slot 0, and its class index
512 leads there. -/
theorem atOrNil_registerBehavior_iff_four :
    letI := sequentialImage
    ∃ before after d b, sequential.spurInitialize.putAndRegister 4 = some (before, after, d, b) ∧
      after.memory.identityDictionaryAtOrNil d b = before.memory.identityDictionaryAtOrNil d b := by
  let := sequentialImage
  have hfacts : (sequential.spurInitialize.putAndRegister 4).map (fun r =>
      (dictionaryTable identityScheme r.1.memory r.2.2.1 0, r.1.memory.dictionaryBinding r.2.2.1
        r.2.2.2, r.1.memory.basicSize (r.1.memory.slot r.2.2.1 Field.array),
        r.1.nextClassIndex, r.2.2.2)) =
      some (some (65544, 65672), some 65672, 4, 512, 65544) := by
    decide +kernel
  obtain ⟨⟨before, after, d, b⟩, hrun, hfacts⟩ := Option.map_eq_some_iff.mp hfacts
  obtain ⟨htable, hbinding, hsize, hindex, hb⟩ :
      dictionaryTable identityScheme before.memory d 0 = some (65544, 65672) ∧
        before.memory.dictionaryBinding d b = some 65672 ∧
        before.memory.basicSize (before.memory.slot d Field.array) = 4 ∧
        before.nextClassIndex = 512 ∧ b = 65544 := by
    simpa using hfacts
  have hk : KernelFormats sequential.spurInitialize.memory := sequential_intact.formats
  obtain ⟨hreach, hpointers, hregisters⟩ := putAndRegister_reachable hk (by decide) hrun
  have hstays : before.StaysInIdentityDictionary d b := by
    refine Or.inr ⟨0, 65672, by rw [hb, htable], 0, ?_, ?_, by simp⟩
    · simp [hsize]
    · simp [hsize, hindex]
  exact ⟨before, after, d, b, hrun, (atOrNil_registerBehavior_iff.2.1 before after d b 65672 hreach
    hpointers hregisters hbinding).mpr (Or.inr hstays)⟩

omit [KernelImage] in
/-- In a dictionary of five slots the behavior is in slot 1, and its class index 512 leads to slot
2, which is free: what it was bound to is lost. -/
theorem registerBehavior_loses_key :
    letI := sequentialImage
    ∃ before after d b, IdentityKeyReachable d before ∧ oopIsPointers b ∧
      before.Registers b after ∧ (before.memory.dictionaryBinding d b).isSome ∧
      before.memory.identityDictionaryAtOrNil d b = some 9 ∧
      after.memory.identityDictionaryAtOrNil d b = some nilOop ∧ nilOop ≠ 9 := by
  let := sequentialImage
  have hfacts : (sequential.spurInitialize.putAndRegister 5).map (fun r =>
      ((r.1.memory.dictionaryBinding r.2.2.1 r.2.2.2).isSome,
        r.1.memory.identityDictionaryAtOrNil r.2.2.1 r.2.2.2,
        r.2.1.memory.identityDictionaryAtOrNil r.2.2.1 r.2.2.2)) =
      some (true, some 9, some nilOop) := by
    decide +kernel
  obtain ⟨⟨before, after, d, b⟩, hrun, hfacts⟩ := Option.map_eq_some_iff.mp hfacts
  obtain ⟨hbinding, hbefore, hafter⟩ :
      (before.memory.dictionaryBinding d b).isSome = true ∧
        before.memory.identityDictionaryAtOrNil d b = some 9 ∧
        after.memory.identityDictionaryAtOrNil d b = some nilOop := by
    simpa only [Prod.mk.injEq] using hfacts
  have hk : KernelFormats sequential.spurInitialize.memory := sequential_intact.formats
  obtain ⟨hreach, hpointers, hregisters⟩ := putAndRegister_reachable hk (by decide) hrun
  exact ⟨before, after, d, b, hreach, hpointers, hregisters, hbinding, hbefore, hafter,
    by decide +kernel⟩

end World

end SlvmNative
