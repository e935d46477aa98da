import SlvmNative.Library.LinkedList
import Mathlib.Data.Nat.Bitwise

/-!
# Registration of static heaps

The list of the static heaps and their initialization. A heap may be registered before the kernel is
initialized, when the loop over the list initializes it; or afterwards, also from inside the package
registration of another heap while that loop is under way, when it is initialized at once. What
fixing up and registering a package do to the objects is left out here; the calls are recorded.

## Main definitions

* `HeapRegistry`, `HeapRegistry.registerStaticHeap`, `runCall`, `runLoop`
* `HeapRegistry.Step` — registrations in any order, and what the initialization does next
* `HeapRegistry.Valid` — how far the initialization of every heap is

## Main results

* `HeapRegistry.initialized_of_run` — every heap is initialized exactly once, in order
* `HeapRegistry.exists_return` — the initialization returns
-/

namespace SlvmNative

open LinkedList Relation

/-! ### The model -/

/-- `SHF_MayNeedFixingUp` -/
abbrev heapMayNeedFixingUp : ℕ := 2 ^ 1

/-- `SHF_HasPackageRegistration` -/
abbrev heapHasPackageRegistration : ℕ := 2 ^ 2

/-- `SHF_Initialized` -/
abbrev heapInitialized : ℕ := 2 ^ 10

/-- The test of a flag. -/
def hasFlag (flags flag : ℕ) : Prop := flags &&& flag ≠ 0

instance (flags flag : ℕ) : Decidable (hasFlag flags flag) := inferInstanceAs (Decidable (_ ≠ _))

/-- The calls that initialize a heap. -/
inductive HeapEvent
  /-- `slvm_internal_fixStaticHeap` -/
  | fixUp (heap : ℕ)
  /-- The call of `packageRegistration`. -/
  | packageRegistration (heap : ℕ)
  /-- Its return. -/
  | packageRegistered (heap : ℕ)
  /-- `slvm_internal_fixStaticHeapPass2` -/
  | fixUpPass2 (heap : ℕ)
  deriving DecidableEq

/-- The heap of an event. -/
def HeapEvent.heap : HeapEvent → ℕ
  | fixUp heap | packageRegistration heap | packageRegistered heap | fixUpPass2 heap => heap

/-- Where a call of `slvm_internal_init_staticHeap` is: at its first line, at its four conditional
parts or inside the callback, and at its last line. -/
inductive InitPoint
  | entry | fixUp | package | inPackage | pass2 | finish
  deriving DecidableEq

/-- A call of `slvm_internal_init_staticHeap` that has not returned. -/
structure InitCall where
  heap : ℕ
  point : InitPoint

/-- The loop of `slvm_internal_init_staticHeaps`. -/
inductive InitLoop
  | notRunning
  /-- At the test of the loop, with the current node. -/
  | test (currentNode : Option ℕ)
  /-- In the body of the loop, the call included. -/
  | body (currentNode : ℕ)

/-- The static heaps, and the calls under way. -/
structure HeapRegistry where
  /-- The list `staticHeaps`. -/
  staticHeaps : Links ℕ Unit
  /-- The flags of the heap at an address. -/
  flags : ℕ → ℕ
  /-- `slvm_spur_initialize` has created the compacting heap. -/
  spurInitialized : Bool
  kernelInitialized : Bool
  loop : InitLoop
  /-- The innermost first. -/
  calls : List InitCall
  /-- The heaps registered so far, in order. -/
  registered : List ℕ
  /-- What has happened so far. -/
  trace : List HeapEvent

namespace HeapRegistry

/-- The registry before anything was registered. -/
def start (flags : ℕ → ℕ) : HeapRegistry where
  staticHeaps := Links.empty
  flags := flags
  spurInitialized := false
  kernelInitialized := false
  loop := .notRunning
  calls := []
  registered := []
  trace := []

/-- `slvm_dynrun_registerStaticHeap`, up to the call that initializes the heap. -/
def registerStaticHeap (s : HeapRegistry) (heap : ℕ) : HeapRegistry :=
  { s with
    staticHeaps := s.staticHeaps.addNode () heap
    registered := s.registered ++ [heap]
    calls := if s.kernelInitialized then ⟨heap, .entry⟩ :: s.calls else s.calls }

/-- `slvm_spur_create_compactingHeap` -/
def createCompactingHeap (s : HeapRegistry) (compactingHeap : ℕ) : HeapRegistry :=
  { s with
    flags := Function.update s.flags compactingHeap heapInitialized
    staticHeaps := s.staticHeaps.addNode () compactingHeap
    registered := s.registered ++ [compactingHeap]
    spurInitialized := true }

/-- The end of `slvm_dynrun_initialize`, up to the loop over the static heaps. -/
def initStaticHeaps (s : HeapRegistry) : HeapRegistry :=
  { s with
    kernelInitialized := true
    loop := .test (s.staticHeaps.first ()) }

/-- What the innermost call of `slvm_internal_init_staticHeap` does next. Inside the callback that
is to return from it. -/
def runCall (s : HeapRegistry) (call : InitCall) (rest : List InitCall) : HeapRegistry :=
  let heap := call.heap
  match call.point with
  | .entry =>
    if hasFlag (s.flags heap) heapInitialized then { s with calls := rest }
    else { s with calls := ⟨heap, .fixUp⟩ :: rest }
  | .fixUp =>
    { s with
      calls := ⟨heap, .package⟩ :: rest
      trace := s.trace ++ if hasFlag (s.flags heap) heapMayNeedFixingUp then [.fixUp heap] else [] }
  | .package =>
    if hasFlag (s.flags heap) heapHasPackageRegistration then
      { s with
        calls := ⟨heap, .inPackage⟩ :: rest
        trace := s.trace ++ [.packageRegistration heap] }
    else { s with calls := ⟨heap, .pass2⟩ :: rest }
  | .inPackage =>
    { s with
      calls := ⟨heap, .pass2⟩ :: rest
      trace := s.trace ++ [.packageRegistered heap] }
  | .pass2 =>
    { s with
      calls := ⟨heap, .finish⟩ :: rest
      trace := s.trace ++
        if hasFlag (s.flags heap) heapMayNeedFixingUp then [.fixUpPass2 heap] else [] }
  | .finish =>
    { s with
      flags := Function.update s.flags heap (s.flags heap ||| heapInitialized)
      calls := rest }

/-- What the loop over the static heaps does next, when no call is under way. -/
def runLoop (s : HeapRegistry) : HeapRegistry :=
  match s.loop with
  | .notRunning => s
  | .test none => { s with loop := .notRunning }
  | .test (some heap) => { s with loop := .body heap, calls := [⟨heap, .entry⟩] }
  | .body heap => { s with loop := .test (s.staticHeaps.next heap) }

/-- The program runs, or a callback. -/
def MayRegister (s : HeapRegistry) : Prop :=
  (s.calls = [] ∧ s.loop = .notRunning) ∨ ∃ heap rest, s.calls = ⟨heap, .inPackage⟩ :: rest

/-- One step. Each heap is registered once. -/
inductive Step (compactingHeap : ℕ) : HeapRegistry → HeapRegistry → Prop
  | register {s : HeapRegistry} {heap : ℕ} (hnew : heap ∉ s.registered)
      (hne : heap ≠ compactingHeap) (hmay : s.MayRegister) :
      Step compactingHeap s (s.registerStaticHeap heap)
  | createCompactingHeap {s : HeapRegistry} (hnot : s.spurInitialized = false) :
      Step compactingHeap s (s.createCompactingHeap compactingHeap)
  | initStaticHeaps {s : HeapRegistry} (hspur : s.spurInitialized = true)
      (hnot : s.kernelInitialized = false) : Step compactingHeap s s.initStaticHeaps
  | runCall {s : HeapRegistry} {call : InitCall} {rest : List InitCall}
      (hcalls : s.calls = call :: rest) : Step compactingHeap s (s.runCall call rest)
  | runLoop {s : HeapRegistry} (hcalls : s.calls = []) (hloop : s.loop ≠ .notRunning) :
      Step compactingHeap s s.runLoop

/-- What the initialization does next, if nothing else is registered. -/
def next (s : HeapRegistry) : HeapRegistry :=
  match s.calls with
  | call :: rest => s.runCall call rest
  | [] => s.runLoop

/-- A state of a run. The compacting heap is a static variable, and so its flags are zero. -/
def Reachable (compactingHeap : ℕ) (flags : ℕ → ℕ) (s : HeapRegistry) : Prop :=
  flags compactingHeap = 0 ∧ ReflTransGen (Step compactingHeap) (start flags) s

/-! ### How far a heap is -/

/-- The fix-up of a heap, if it asks for it. -/
def fixUpEvents (heap flags : ℕ) : List HeapEvent :=
  if hasFlag flags heapMayNeedFixingUp then [.fixUp heap] else []

/-- The package registration of a heap, if it has one. -/
def packageEvents (heap flags : ℕ) : List HeapEvent :=
  if hasFlag flags heapHasPackageRegistration then
    [.packageRegistration heap, .packageRegistered heap]
  else []

/-- The second pass over a heap, if it asks for it. -/
def pass2Events (heap flags : ℕ) : List HeapEvent :=
  if hasFlag flags heapMayNeedFixingUp then [.fixUpPass2 heap] else []

/-- What the initialization of a heap with given flags consists of. -/
def initEvents (heap flags : ℕ) : List HeapEvent :=
  if hasFlag flags heapInitialized then []
  else fixUpEvents heap flags ++ packageEvents heap flags ++ pass2Events heap flags

/-- What happens to a heap with given flags before its initialization gets to a point. -/
def eventsBefore (heap flags : ℕ) : InitPoint → List HeapEvent
  | .entry | .fixUp => []
  | .package => fixUpEvents heap flags
  | .inPackage => fixUpEvents heap flags ++ [.packageRegistration heap]
  | .pass2 => fixUpEvents heap flags ++ packageEvents heap flags
  | .finish => fixUpEvents heap flags ++ packageEvents heap flags ++ pass2Events heap flags

/-- How far the initialization of a heap is. -/
inductive Progress
  | unregistered
  | pending
  | at (point : InitPoint)
  | done
  deriving DecidableEq

/-- What has happened to a heap. -/
def Progress.events (heap flags : ℕ) : Progress → List HeapEvent
  | unregistered | pending => []
  | .at point => eventsBefore heap flags point
  | done => initEvents heap flags

/-- The tests a heap with given flags passes on the way to a point. -/
def Passes (flags : ℕ) : InitPoint → Prop
  | .entry => True
  | .inPackage => ¬ hasFlag flags heapInitialized ∧ hasFlag flags heapHasPackageRegistration
  | _ => ¬ hasFlag flags heapInitialized

/-- The heaps the loop has still to visit are `todo`. -/
inductive LoopValid (s : HeapRegistry) : List ℕ → Prop
  | notRunning (h : s.loop = .notRunning) : LoopValid s []
  | test {todo visited : List ℕ} (h : s.loop = .test todo.head?) (hcalls : s.calls = [])
      (hregistered : s.registered = visited ++ todo) : LoopValid s todo
  | body {todo visited : List ℕ} {heap : ℕ} (h : s.loop = .body heap)
      (hregistered : s.registered = visited ++ heap :: todo) : LoopValid s todo

/-- The invariant of a run: every heap has made some progress, and what has happened to it is what
should have happened so far. -/
structure Valid (compactingHeap : ℕ) (initial : ℕ → ℕ) (s : HeapRegistry) (todo : List ℕ)
    (progress : ℕ → Progress) : Prop where
  isList : s.staticHeaps.IsList () s.registered
  events : ∀ heap, s.trace.filter (fun e => e.heap = heap) =
    (progress heap).events heap (initial heap)
  flags : ∀ heap, s.flags heap =
    if progress heap = .done then initial heap ||| heapInitialized else initial heap
  unregistered : ∀ heap, progress heap = .unregistered ↔ heap ∉ s.registered
  passes : ∀ heap point, progress heap = .at point → Passes (initial heap) point
  calls : ∀ call ∈ s.calls, progress call.heap = .at call.point ∨
    (call.point = .entry ∧ progress call.heap = .done)
  active : ∀ heap point, progress heap = .at point → ⟨heap, point⟩ ∈ s.calls
  nodup : (s.calls.map InitCall.heap).Nodup
  /-- The loop gets to every heap that was registered before the kernel was initialized. -/
  pending : s.kernelInitialized = true → ∀ heap, progress heap = .pending → heap ∈ todo
  loop : s.LoopValid todo
  before : s.kernelInitialized = false → s.calls = [] ∧ s.loop = .notRunning ∧ s.trace = []
  spur : s.spurInitialized = false →
    compactingHeap ∉ s.registered ∧ s.kernelInitialized = false

/-- How many steps a call has still to do. -/
def callSteps : InitPoint → ℕ
  | .entry => 6
  | .fixUp => 5
  | .package => 4
  | .inPackage => 3
  | .pass2 => 2
  | .finish => 1

/-- How many steps the loop has still to do, those of its calls included, for so many heaps. -/
def loopSteps (todo : ℕ) : InitLoop → ℕ
  | .notRunning => 0
  | .test _ => 8 * todo + 1
  | .body _ => 8 * todo + 2

/-- How many steps the initialization has still to do, at most. -/
def stepsLeft (s : HeapRegistry) (todo : List ℕ) : ℕ :=
  (s.calls.map fun call => callSteps call.point).sum + loopSteps todo.length s.loop

/-- A step of a call gets closer to the end of the call, or returns. -/
theorem runCall_calls (s : HeapRegistry) (call : InitCall) (rest : List InitCall) :
    (s.runCall call rest).loop = s.loop ∧ ((s.runCall call rest).calls = rest ∨
      ∃ point, (s.runCall call rest).calls = ⟨call.heap, point⟩ :: rest ∧
        callSteps point < callSteps call.point) := by
  obtain ⟨heap, point⟩ := call
  cases point with
  | entry =>
    simp only [runCall]
    split
    · exact ⟨rfl, Or.inl rfl⟩
    · exact ⟨rfl, Or.inr ⟨.fixUp, rfl, Nat.lt_succ_self 5⟩⟩
  | fixUp => exact ⟨rfl, Or.inr ⟨.package, rfl, Nat.lt_succ_self 4⟩⟩
  | package =>
    simp only [runCall]
    split
    · exact ⟨rfl, Or.inr ⟨.inPackage, rfl, Nat.lt_succ_self 3⟩⟩
    · exact ⟨rfl, Or.inr ⟨.pass2, rfl, Nat.lt_of_succ_lt (Nat.lt_succ_self 3)⟩⟩
  | inPackage => exact ⟨rfl, Or.inr ⟨.pass2, rfl, Nat.lt_succ_self 2⟩⟩
  | pass2 => exact ⟨rfl, Or.inr ⟨.finish, rfl, Nat.lt_succ_self 1⟩⟩
  | finish => exact ⟨rfl, Or.inl rfl⟩

theorem hasFlag_iff {flags i : ℕ} : hasFlag flags (2 ^ i) ↔ flags.testBit i = true := by
  rw [hasFlag, Nat.and_comm, Nat.two_pow_and]
  cases flags.testBit i <;> simp

theorem hasFlag_or (flags : ℕ) : hasFlag (flags ||| heapInitialized) heapInitialized := by
  rw [hasFlag_iff, Nat.testBit_or, Nat.testBit_two_pow_self, Bool.or_true]

theorem or_eq_self {flags : ℕ} (h : hasFlag flags heapInitialized) :
    flags ||| heapInitialized = flags := by
  rw [hasFlag_iff] at h
  refine Nat.eq_of_testBit_eq fun i => ?_
  rw [Nat.testBit_or, Nat.testBit_two_pow]
  by_cases hi : 10 = i
  · rw [← hi, h, Bool.true_or]
  · rw [decide_eq_false hi, Bool.or_false]

/-- The loop does not notice what the calls do. -/
theorem LoopValid.congr {s s' : HeapRegistry} {todo : List ℕ} (h : s.LoopValid todo)
    (hloop : s'.loop = s.loop) (hregistered : s'.registered = s.registered)
    (hcalls : s.calls = [] → s'.calls = []) : s'.LoopValid todo := by
  cases h with
  | notRunning h => exact LoopValid.notRunning (hloop.trans h)
  | test h hnil hlist =>
    exact LoopValid.test (hloop.trans h) (hcalls hnil) (hregistered.trans hlist)
  | body h hlist => exact LoopValid.body (hloop.trans h) (hregistered.trans hlist)

namespace Valid

variable {compactingHeap : ℕ} {initial : ℕ → ℕ} {s : HeapRegistry} {todo : List ℕ}
  {progress : ℕ → Progress}

theorem start (compactingHeap : ℕ) (initial : ℕ → ℕ) :
    Valid compactingHeap initial (HeapRegistry.start initial) [] fun _ => .unregistered where
  isList := Links.empty_isList ()
  events _ := rfl
  flags _ := rfl
  unregistered _ := iff_of_true rfl List.not_mem_nil
  passes _ _ h := by cases h
  calls _ h := absurd h List.not_mem_nil
  active _ _ h := by cases h
  nodup := List.nodup_nil
  pending _ _ h := by cases h
  loop := LoopValid.notRunning rfl
  before _ := ⟨rfl, rfl, rfl⟩
  spur _ := ⟨List.not_mem_nil, rfl⟩

/-- A heap that has got somewhere is registered. -/
theorem mem_registered (h : Valid compactingHeap initial s todo progress) {heap : ℕ}
    (hheap : progress heap ≠ .unregistered) : heap ∈ s.registered := by
  by_contra hnot
  exact hheap ((h.unregistered heap).mpr hnot)

/-- No heap is initialized by two calls. -/
theorem ne_of_mem_rest (h : Valid compactingHeap initial s todo progress) {call : InitCall}
    {rest : List InitCall} (hcalls : s.calls = call :: rest) : ∀ c ∈ rest, c.heap ≠ call.heap := by
  intro c hc heq
  have hnodup := h.nodup
  rw [hcalls, List.map_cons, List.nodup_cons] at hnodup
  exact hnodup.1 (List.mem_map.mpr ⟨c, hc, heq⟩)

/-- No heap is initialized before the kernel. -/
theorem kernelInitialized_of_call (h : Valid compactingHeap initial s todo progress)
    {call : InitCall} {rest : List InitCall} (hcalls : s.calls = call :: rest) :
    s.kernelInitialized = true := by
  by_contra hk
  rw [(h.before (Bool.eq_false_of_not_eq_true hk)).1] at hcalls
  cases hcalls

end Valid

/-! ### One heap gets on -/

/-- What the invariant says about a heap whose progress is `p`. -/
structure HeapValid (initial : ℕ → ℕ) (s : HeapRegistry) (todo : List ℕ) (heap : ℕ) (p : Progress) :
    Prop where
  events : s.trace.filter (fun e => e.heap = heap) = p.events heap (initial heap)
  flags : s.flags heap = if p = .done then initial heap ||| heapInitialized else initial heap
  unregistered : p = .unregistered ↔ heap ∉ s.registered
  passes : ∀ point, p = .at point → Passes (initial heap) point
  active : ∀ point, p = .at point → ⟨heap, point⟩ ∈ s.calls
  pending : s.kernelInitialized = true → p = .pending → heap ∈ todo

/-- A heap that the step from `s` to `s'` is not about. -/
structure KeepsHeap (s : HeapRegistry) (todo : List ℕ) (s' : HeapRegistry) (todo' : List ℕ)
    (heap : ℕ) : Prop where
  trace : s'.trace.filter (fun e => e.heap = heap) = s.trace.filter (fun e => e.heap = heap)
  flags : s'.flags heap = s.flags heap
  registered : heap ∈ s'.registered ↔ heap ∈ s.registered
  calls : ∀ point, ⟨heap, point⟩ ∈ s.calls → ⟨heap, point⟩ ∈ s'.calls
  kernelInitialized : s'.kernelInitialized = s.kernelInitialized
  todo : heap ∈ todo → heap ∈ todo'

theorem HeapValid.keep {initial : ℕ → ℕ} {s s' : HeapRegistry} {todo todo' : List ℕ} {heap : ℕ}
    {p : Progress} (h : HeapValid initial s todo heap p) (hkeep : KeepsHeap s todo s' todo' heap) :
    HeapValid initial s' todo' heap p where
  events := hkeep.trace.trans h.events
  flags := hkeep.flags.trans h.flags
  unregistered := h.unregistered.trans (not_congr hkeep.registered.symm)
  passes := h.passes
  active point hat := hkeep.calls point (h.active point hat)
  pending hkernel hp := hkeep.todo (h.pending (hkeep.kernelInitialized ▸ hkernel) hp)

/-- New events of one heap are not among those of another. -/
theorem filter_append_of_ne {trace new : List HeapEvent} {heap x : ℕ}
    (hnew : ∀ e ∈ new, e.heap = heap)
    (hx : x ≠ heap) : (trace ++ new).filter (fun e => e.heap = x) =
      trace.filter fun e => e.heap = x := by
  have hnone : new.filter (fun e => e.heap = x) = [] :=
    List.filter_eq_nil_iff.mpr fun e he => by simp [hnew e he, Ne.symm hx]
  rw [List.filter_append, hnone, List.append_nil]

namespace Valid

variable {compactingHeap : ℕ} {initial : ℕ → ℕ} {s : HeapRegistry} {todo : List ℕ}
  {progress : ℕ → Progress}

theorem heap (h : Valid compactingHeap initial s todo progress) (x : ℕ) :
    HeapValid initial s todo x (progress x) where
  events := h.events x
  flags := h.flags x
  unregistered := h.unregistered x
  passes := h.passes x
  active := h.active x
  pending hkernel hp := h.pending hkernel x hp

/-- **One heap gets on**, and the others are where they were. -/
theorem update (h : Valid compactingHeap initial s todo progress) {s' : HeapRegistry}
    {todo' : List ℕ} {heap : ℕ} {p : Progress} (hheap : HeapValid initial s' todo' heap p)
    (hother : ∀ x, x ≠ heap → KeepsHeap s todo s' todo' x)
    (hlist : s'.staticHeaps.IsList () s'.registered)
    (hcalls : ∀ call ∈ s'.calls, Function.update progress heap p call.heap = .at call.point ∨
      (call.point = .entry ∧ Function.update progress heap p call.heap = .done))
    (hnodup : (s'.calls.map InitCall.heap).Nodup) (hloop : s'.LoopValid todo')
    (hbefore : s'.kernelInitialized = false →
      s'.calls = [] ∧ s'.loop = .notRunning ∧ s'.trace = [])
    (hspur : s'.spurInitialized = false →
      compactingHeap ∉ s'.registered ∧ s'.kernelInitialized = false) :
    Valid compactingHeap initial s' todo' (Function.update progress heap p) := by
  have hall : ∀ x, HeapValid initial s' todo' x (Function.update progress heap p x) := by
    intro x
    by_cases hx : x = heap
    · rw [hx, Function.update_self]
      exact hheap
    · rw [Function.update_of_ne hx]
      exact (h.heap x).keep (hother x hx)
  exact {
    isList := hlist
    events := fun x => (hall x).events
    flags := fun x => (hall x).flags
    unregistered := fun x => (hall x).unregistered
    passes := fun x => (hall x).passes
    calls := hcalls
    active := fun x => (hall x).active
    nodup := hnodup
    pending := fun hkernel x => (hall x).pending hkernel
    loop := hloop
    before := hbefore
    spur := hspur }

/-- The calls of other heaps do not notice. -/
theorem calls_update (h : Valid compactingHeap initial s todo progress) {heap : ℕ} (p : Progress)
    {calls : List InitCall} (hsub : ∀ call ∈ calls, call ∈ s.calls ∧ call.heap ≠ heap) :
    ∀ call ∈ calls, Function.update progress heap p call.heap = .at call.point ∨
      (call.point = .entry ∧ Function.update progress heap p call.heap = .done) := by
  intro call hcall
  rw [Function.update_of_ne (hsub call hcall).2]
  exact h.calls call (hsub call hcall).1

/-! ### Registering a heap -/

/-- No call initializes a heap that is not registered. -/
theorem ne_of_not_registered (h : Valid compactingHeap initial s todo progress) {heap : ℕ}
    (hnew : heap ∉ s.registered) : ∀ call ∈ s.calls, call.heap ≠ heap := by
  have hunregistered := (h.unregistered heap).mpr hnew
  rintro call hcall rfl
  rcases h.calls call hcall with hat | ⟨-, hdone⟩
  · rw [hunregistered] at hat
    cases hat
  · rw [hunregistered] at hdone
    cases hdone

/-- A loop that is running gets to a heap registered now, too. -/
theorem exists_todo (h : Valid compactingHeap initial s todo progress) (heap : ℕ)
    (hmay : s.MayRegister) : ∃ todo', (∀ x ∈ todo, x ∈ todo') ∧
      (s.registerStaticHeap heap).LoopValid todo' := by
  cases h.loop with
  | notRunning hloop => exact ⟨[], fun x hx => hx, LoopValid.notRunning hloop⟩
  | test hloop hcalls =>
    rcases hmay with ⟨-, hnot⟩ | ⟨x, rest, hcall⟩
    · rw [hloop] at hnot
      cases hnot
    · rw [hcalls] at hcall
      cases hcall
  | @body _ visited x hloop hlist =>
    refine ⟨todo ++ [heap], fun x hx => List.mem_append_left _ hx,
      LoopValid.body hloop (?_ : _ = visited ++ x :: (todo ++ [heap]))⟩
    show s.registered ++ [heap] = _
    rw [hlist, List.append_assoc, List.cons_append]

/-- **A heap is registered.** -/
theorem registerStaticHeap (h : Valid compactingHeap initial s todo progress) {heap : ℕ}
    (hnew : heap ∉ s.registered) (hne : heap ≠ compactingHeap) (hmay : s.MayRegister) :
    ∃ todo' progress',
      Valid compactingHeap initial (s.registerStaticHeap heap) todo' progress' := by
  have hnotcall := h.ne_of_not_registered hnew
  have hold := h.heap heap
  rw [(h.unregistered heap).mpr hnew] at hold
  have hregistered : heap ∈ (s.registerStaticHeap heap).registered :=
    List.mem_append_right _ (List.mem_singleton_self heap)
  obtain ⟨todo', htodo', hloop'⟩ := h.exists_todo heap hmay
  have hother : ∀ x, x ≠ heap → KeepsHeap s todo (s.registerStaticHeap heap) todo' x := by
    intro x hx
    refine ⟨rfl, rfl, ?_, fun point hmem => ?_, rfl, htodo' x⟩
    · show x ∈ s.registered ++ [heap] ↔ _
      simp [hx]
    · show _ ∈ if s.kernelInitialized then _ else _
      split
      · exact List.mem_cons_of_mem _ hmem
      · exact hmem
  have hspur : (s.registerStaticHeap heap).spurInitialized = false →
      compactingHeap ∉ (s.registerStaticHeap heap).registered ∧
        (s.registerStaticHeap heap).kernelInitialized = false := by
    intro hspur
    obtain ⟨hmem, hkernel⟩ := h.spur hspur
    refine ⟨fun hc => ?_, hkernel⟩
    rcases List.mem_append.mp hc with hc | hc
    · exact hmem hc
    · exact hne (List.mem_singleton.mp hc).symm
  cases hkernel : s.kernelInitialized with
  | false =>
    have hcalls : (s.registerStaticHeap heap).calls = s.calls := by
      rw [HeapRegistry.registerStaticHeap, hkernel]
      rfl
    have hheap : HeapValid initial (s.registerStaticHeap heap) todo' heap .pending := by
      refine ⟨hold.events, hold.flags, iff_of_false (by simp) fun hnot => hnot hregistered,
        fun point hat => (by cases hat), fun point hat => (by cases hat), fun hk => ?_⟩
      rw [show s.kernelInitialized = true from hk] at hkernel
      cases hkernel
    refine ⟨todo', _, h.update hheap hother (h.isList.addNode hnew) ?_ (hcalls ▸ h.nodup) hloop'
      (fun hk => ?_) hspur⟩
    · rw [hcalls]
      exact h.calls_update _ fun call hcall => ⟨hcall, hnotcall call hcall⟩
    · rw [hcalls]
      exact h.before hkernel
  | true =>
    have hcalls : (s.registerStaticHeap heap).calls = ⟨heap, .entry⟩ :: s.calls := by
      rw [HeapRegistry.registerStaticHeap, hkernel]
      rfl
    have hheap : HeapValid initial (s.registerStaticHeap heap) todo' heap (.at .entry) := by
      refine ⟨hold.events, hold.flags, iff_of_false (by simp) fun hnot => hnot hregistered,
        fun point hat => ?_, fun point hat => ?_, fun _ hp => (by cases hp)⟩
      · rw [← Progress.at.inj hat]
        trivial
      · rw [hcalls, ← Progress.at.inj hat]
        exact List.mem_cons_self
    refine ⟨todo', _, h.update hheap hother (h.isList.addNode hnew) (fun call hcall => ?_) ?_
      hloop' (fun hk => ?_) hspur⟩
    · rw [hcalls] at hcall
      rcases List.mem_cons.mp hcall with rfl | hcall
      · exact Or.inl (Function.update_self ..)
      · exact h.calls_update _ (fun call hcall => ⟨hcall, hnotcall call hcall⟩) call hcall
    · rw [hcalls, List.map_cons, List.nodup_cons]
      refine ⟨fun hmem => ?_, h.nodup⟩
      obtain ⟨call, hcall, heq⟩ := List.mem_map.mp hmem
      exact hnotcall call hcall heq
    · rw [show s.kernelInitialized = false from hk] at hkernel
      cases hkernel

/-- **The compacting heap is registered**, initialized already. -/
theorem createCompactingHeap (h : Valid compactingHeap initial s todo progress)
    (hspur : s.spurInitialized = false) (hzero : initial compactingHeap = 0) :
    ∃ progress', Valid compactingHeap initial (s.createCompactingHeap compactingHeap) []
      progress' := by
  obtain ⟨hnew, hkernel⟩ := h.spur hspur
  obtain ⟨hcalls, hloop, htrace⟩ := h.before hkernel
  have hheap : HeapValid initial (s.createCompactingHeap compactingHeap)
      [] compactingHeap .done := by
    refine ⟨?_, ?_, iff_of_false (by simp) (by simp [HeapRegistry.createCompactingHeap]),
      fun point hat => (by cases hat), fun point hat => (by cases hat), fun _ hp => (by cases hp)⟩
    · rw [show (s.createCompactingHeap compactingHeap).trace = [] from htrace, hzero]
      rfl
    · rw [if_pos rfl, hzero, Nat.zero_or]
      exact Function.update_self ..
  refine ⟨_, h.update hheap (fun x hx => ?_) (h.isList.addNode hnew) (fun call hcall => ?_) h.nodup
    (LoopValid.notRunning hloop) (fun _ => ⟨hcalls, hloop, htrace⟩) fun hs => (by cases hs)⟩
  · refine ⟨rfl, Function.update_of_ne hx .., ?_, fun _ hmem => hmem, rfl, fun hmem => ?_⟩
    · show x ∈ s.registered ++ [compactingHeap] ↔ _
      simp [hx]
    · cases h.loop with
      | notRunning => exact hmem
      | test htest =>
        rw [htest] at hloop
        cases hloop
      | body hbody =>
        rw [hbody] at hloop
        cases hloop
  · rw [show (s.createCompactingHeap compactingHeap).calls = [] from hcalls] at hcall
    cases hcall

/-! ### The steps of the initialization -/

/-- **The loop over the static heaps begins.** -/
theorem initStaticHeaps (h : Valid compactingHeap initial s todo progress)
    (hspur : s.spurInitialized = true) (hkernel : s.kernelInitialized = false) :
    Valid compactingHeap initial s.initStaticHeaps s.registered progress where
  isList := h.isList
  events := h.events
  flags := h.flags
  unregistered := h.unregistered
  passes := h.passes
  calls := h.calls
  active := h.active
  nodup := h.nodup
  pending _ heap hpending := h.mem_registered (by rw [hpending]; simp)
  loop := LoopValid.test (congrArg InitLoop.test h.isList.first_eq) (h.before hkernel).1
    (List.nil_append s.registered).symm
  before hnot := by cases hnot
  spur hnot := by
    rw [show s.spurInitialized = false from hnot] at hspur
    cases hspur

/-- The innermost call gets from one point to another. -/
theorem move (h : Valid compactingHeap initial s todo progress) {heap : ℕ} {point : InitPoint}
    (point' : InitPoint) (new : List HeapEvent) {rest : List InitCall}
    (hcalls : s.calls = ⟨heap, point⟩ :: rest) (hat : progress heap = .at point)
    (hpasses : Passes (initial heap) point') (hnew : ∀ e ∈ new, e.heap = heap)
    (hevents : eventsBefore heap (initial heap) point' =
      eventsBefore heap (initial heap) point ++ new) :
    Valid compactingHeap initial
      { s with calls := ⟨heap, point'⟩ :: rest, trace := s.trace ++ new } todo
      (Function.update progress heap (.at point')) := by
  have hrest := h.ne_of_mem_rest hcalls
  have hkernel := h.kernelInitialized_of_call hcalls
  have hnodup := h.nodup
  rw [hcalls] at hnodup
  have hold := h.heap heap
  rw [hat] at hold
  refine h.update ⟨?_, ?_, ?_, fun p hp => ?_, fun p hp => ?_, fun _ hp => (by cases hp)⟩
    (fun x hx => ⟨filter_append_of_ne hnew hx, rfl, Iff.rfl, fun p hmem => ?_, rfl, id⟩) h.isList
    (fun call hcall => ?_) hnodup (h.loop.congr rfl rfl fun hnil => ?_) (fun hk => ?_) h.spur
  · have hall : new.filter (fun e => e.heap = heap) = new :=
      List.filter_eq_self.mpr fun e he => decide_eq_true (hnew e he)
    rw [List.filter_append, hold.events, hall]
    exact hevents.symm
  · rw [if_neg (by simp)]
    exact hold.flags.trans (if_neg (by simp))
  · refine iff_of_false (by simp) fun hnot => ?_
    cases hold.unregistered.mpr hnot
  · rw [← Progress.at.inj hp]
    exact hpasses
  · rw [← Progress.at.inj hp]
    exact List.mem_cons_self
  · rw [hcalls] at hmem
    exact List.mem_cons_of_mem _ ((List.mem_cons.mp hmem).resolve_left fun heq =>
      hx (congrArg InitCall.heap heq))
  · rcases List.mem_cons.mp hcall with rfl | hcall
    · exact Or.inl (Function.update_self ..)
    · exact h.calls_update _ (fun call hcall =>
        ⟨hcalls ▸ List.mem_cons_of_mem _ hcall, hrest call hcall⟩) call hcall
  · rw [hcalls] at hnil
    cases hnil
  · rw [show s.kernelInitialized = false from hk] at hkernel
    cases hkernel

/-- The innermost call returns, and the heap is initialized. -/
theorem leave (h : Valid compactingHeap initial s todo progress) {heap : ℕ} {point : InitPoint}
    {rest : List InitCall} {flags : ℕ → ℕ} (hcalls : s.calls = ⟨heap, point⟩ :: rest)
    (hprogress : progress heap = .done ∨ (progress heap = .at point ∧
      eventsBefore heap (initial heap) point = initEvents heap (initial heap)))
    (hflags : flags heap = initial heap ||| heapInitialized)
    (hother : ∀ x, x ≠ heap → flags x = s.flags x) :
    Valid compactingHeap initial { s with flags := flags, calls := rest } todo
      (Function.update progress heap .done) := by
  have hrest := h.ne_of_mem_rest hcalls
  have hkernel := h.kernelInitialized_of_call hcalls
  have hnodup := h.nodup
  rw [hcalls] at hnodup
  have hne : progress heap ≠ .unregistered := by
    rcases hprogress with hdone | ⟨hat, -⟩
    · rw [hdone]
      simp
    · rw [hat]
      simp
  refine h.update ⟨?_, ?_, ?_, fun p hp => (by cases hp), fun p hp => (by cases hp),
    fun _ hp => (by cases hp)⟩ (fun x hx => ⟨rfl, hother x hx, Iff.rfl, fun p hmem => ?_, rfl, id⟩)
    h.isList (h.calls_update _ fun call hcall => ?_) (List.nodup_cons.mp hnodup).2
    (h.loop.congr rfl rfl fun hnil => ?_) (fun hk => ?_) h.spur
  · rw [h.events]
    rcases hprogress with hdone | ⟨hat, hevents⟩
    · rw [hdone]
    · rw [hat]
      exact hevents
  · rw [if_pos rfl]
    exact hflags
  · exact iff_of_false (by simp) fun hnot => hne ((h.unregistered heap).mpr hnot)
  · rw [hcalls] at hmem
    exact (List.mem_cons.mp hmem).resolve_left fun heq => hx (congrArg InitCall.heap heq)
  · exact ⟨hcalls ▸ List.mem_cons_of_mem _ hcall, hrest call hcall⟩
  · rw [hcalls] at hnil
    cases hnil
  · rw [show s.kernelInitialized = false from hk] at hkernel
    cases hkernel

/-- **The innermost call does its next step.** -/
theorem runCall (h : Valid compactingHeap initial s todo progress) {call : InitCall}
    {rest : List InitCall} (hcalls : s.calls = call :: rest) :
    ∃ progress', Valid compactingHeap initial (s.runCall call rest) todo progress' := by
  obtain ⟨heap, point⟩ := call
  have hcall : progress heap = .at point ∨ (point = .entry ∧ progress heap = .done) :=
    h.calls _ (hcalls ▸ List.mem_cons_self)
  by_cases hentry : point = .entry
  · subst hentry
    have hflags : s.flags heap = initial heap ∨
        s.flags heap = initial heap ||| heapInitialized := by
      rw [h.flags]
      split
      · exact Or.inr rfl
      · exact Or.inl rfl
    by_cases hinit : hasFlag (s.flags heap) heapInitialized
    · rw [HeapRegistry.runCall, if_pos hinit]
      have hor : s.flags heap = initial heap ||| heapInitialized := by
        rcases hflags with hflags | hflags
        · rw [hflags] at hinit
          rw [hflags, or_eq_self hinit]
        · exact hflags
      refine ⟨_, h.leave hcalls ?_ hor fun _ _ => rfl⟩
      rcases hcall with hat | ⟨-, hdone⟩
      · right
        have hinitial : hasFlag (initial heap) heapInitialized := by
          rwa [h.flags, hat, if_neg (by simp)] at hinit
        exact ⟨hat, by rw [initEvents, if_pos hinitial]; rfl⟩
      · exact Or.inl hdone
    · rw [HeapRegistry.runCall, if_neg hinit]
      have hnot : progress heap ≠ .done := by
        intro hdone
        rw [h.flags, if_pos hdone] at hinit
        exact hinit (hasFlag_or _)
      have hat : progress heap = .at .entry :=
        hcall.resolve_right fun hdone => hnot hdone.2
      rw [h.flags, if_neg hnot] at hinit
      have hmove := h.move .fixUp [] hcalls hat hinit (by simp) rfl
      rw [List.append_nil] at hmove
      exact ⟨_, hmove⟩
  · have hat : progress heap = .at point := hcall.resolve_right fun hdone => hentry hdone.1
    have hpasses := h.passes heap point hat
    have hflags : s.flags heap = initial heap := by rw [h.flags, hat, if_neg (by simp)]
    cases point with
    | entry => exact absurd rfl hentry
    | fixUp =>
      refine ⟨_, h.move .package _ hcalls hat hpasses ?_ ?_⟩
      · intro e he
        split at he
        · rw [List.mem_singleton.mp he]
          rfl
        · cases he
      · rw [hflags]
        rfl
    | package =>
      by_cases hpackage : hasFlag (s.flags heap) heapHasPackageRegistration
      · rw [HeapRegistry.runCall, if_pos hpackage]
        rw [hflags] at hpackage
        refine ⟨_, h.move .inPackage _ hcalls hat ⟨hpasses, hpackage⟩ ?_ rfl⟩
        intro e he
        rw [List.mem_singleton.mp he]
        rfl
      · rw [HeapRegistry.runCall, if_neg hpackage]
        rw [hflags] at hpackage
        have hmove := h.move .pass2 [] hcalls hat hpasses (by simp) (by
          simp only [eventsBefore, packageEvents, if_neg hpackage, List.append_nil])
        rw [List.append_nil] at hmove
        exact ⟨_, hmove⟩
    | inPackage =>
      refine ⟨_, h.move .pass2 _ hcalls hat hpasses.1 ?_ ?_⟩
      · intro e he
        rw [List.mem_singleton.mp he]
        rfl
      · simp only [eventsBefore, packageEvents, if_pos hpasses.2, List.append_assoc]
        rfl
    | pass2 =>
      refine ⟨_, h.move .finish _ hcalls hat hpasses ?_ ?_⟩
      · intro e he
        split at he
        · rw [List.mem_singleton.mp he]
          rfl
        · cases he
      · rw [hflags]
        rfl
    | finish =>
      refine ⟨_, h.leave hcalls (Or.inr ⟨hat, ?_⟩) ?_ ?_⟩
      · rw [initEvents, if_neg hpasses]
        rfl
      · rw [Function.update_self, hflags]
      · intro x hx
        exact Function.update_of_ne hx ..

/-- A loop over the static heaps that is not in its body runs in no call. -/
theorem not_at_of_calls (h : Valid compactingHeap initial s todo progress) (hcalls : s.calls = [])
    (heap : ℕ) (point : InitPoint) : progress heap ≠ .at point := by
  intro hat
  have hmem := h.active heap point hat
  rw [hcalls] at hmem
  cases hmem

/-- The loop calls the initialization of the next heap. -/
theorem enter (h : Valid compactingHeap initial s todo progress) {heap : ℕ} {rest visited : List ℕ}
    (hcalls : s.calls = []) (hloop : s.loop ≠ .notRunning) (htodo : todo = heap :: rest)
    (hregistered : s.registered = visited ++ heap :: rest) :
    ∃ progress', Valid compactingHeap initial
      { s with loop := .body heap, calls := [⟨heap, .entry⟩] } rest progress' := by
  have hkernel : s.kernelInitialized = true := by
    by_contra hk
    exact hloop (h.before (Bool.eq_false_of_not_eq_true hk)).2.1
  have hmem : heap ∈ s.registered := by
    rw [hregistered]
    exact List.mem_append_right visited List.mem_cons_self
  -- nothing has happened to a heap that is not initialized yet
  obtain ⟨p, hheap, hp⟩ : ∃ p, HeapValid initial
      { s with loop := .body heap, calls := [⟨heap, .entry⟩] } rest heap p ∧
      (p = .at .entry ∨ p = .done) := by
    have hold := h.heap heap
    cases hprogress : progress heap with
    | unregistered => exact absurd hmem ((h.unregistered heap).mp hprogress)
    | pending =>
      rw [hprogress] at hold
      refine ⟨.at .entry, ⟨hold.events, hold.flags, iff_of_false (by simp) fun hnot => hnot hmem,
        fun point hat => ?_, fun point hat => ?_, fun _ hp => (by cases hp)⟩, Or.inl rfl⟩
      · rw [← Progress.at.inj hat]
        trivial
      · rw [← Progress.at.inj hat]
        exact List.mem_singleton_self _
    | «at» point => exact absurd hprogress (h.not_at_of_calls hcalls heap point)
    | done =>
      rw [hprogress] at hold
      exact ⟨.done, ⟨hold.events, hold.flags, hold.unregistered, fun point hat => (by cases hat),
        fun point hat => (by cases hat), fun _ hp => (by cases hp)⟩, Or.inr rfl⟩
  refine ⟨_, h.update hheap (fun x hx =>
    ⟨rfl, rfl, Iff.rfl, fun point hat => ?_, rfl, fun hin => ?_⟩)
    h.isList (fun call hcall => ?_) (List.pairwise_singleton _ heap)
    (LoopValid.body rfl hregistered) (fun hk => ?_) h.spur⟩
  · rw [hcalls] at hat
    cases hat
  · rw [htodo] at hin
    exact (List.mem_cons.mp hin).resolve_left hx
  · rw [List.mem_singleton.mp hcall, Function.update_self]
    exact hp.imp_right fun hdone => ⟨rfl, hdone⟩
  · rw [show s.kernelInitialized = false from hk] at hkernel
    cases hkernel

/-- **The loop over the static heaps does its next step.** -/
theorem runLoop (h : Valid compactingHeap initial s todo progress) (hcalls : s.calls = [])
    (hloop : s.loop ≠ .notRunning) :
    ∃ todo' progress', Valid compactingHeap initial s.runLoop todo' progress' ∧
      s.runLoop.stepsLeft todo' < s.stepsLeft todo := by
  have hbefore : s.kernelInitialized = false → False := fun hk => hloop (h.before hk).2.1
  cases h.loop with
  | notRunning hnot => exact absurd hnot hloop
  | @test _ visited htest _ hregistered =>
    cases htodo : todo with
    | nil =>
      rw [htodo] at htest
      have hrun : s.runLoop = { s with loop := .notRunning } := by
        rw [HeapRegistry.runLoop, htest]
        rfl
      refine ⟨[], progress, ?_, ?_⟩
      · rw [hrun]
        exact { h with
          pending := fun hk heap hheap => htodo ▸ h.pending hk heap hheap
          loop := LoopValid.notRunning rfl
          before := fun hk => (hbefore hk).elim }
      · rw [hrun, stepsLeft, stepsLeft, hcalls, htest]
        exact Nat.zero_lt_succ _
    | cons heap rest =>
      rw [htodo] at htest hregistered
      have hrun : s.runLoop = { s with loop := .body heap, calls := [⟨heap, .entry⟩] } := by
        rw [HeapRegistry.runLoop, htest]
        rfl
      obtain ⟨progress', h'⟩ := h.enter hcalls hloop htodo hregistered
      refine ⟨rest, progress', ?_, ?_⟩
      · rw [hrun]
        exact h'
      · rw [hrun, stepsLeft, stepsLeft, hcalls, htest]
        show 6 + (8 * rest.length + 2) < 0 + (8 * (rest.length + 1) + 1)
        omega
  | @body _ visited heap hbody hregistered =>
    have hlist := h.isList
    rw [hregistered] at hlist
    have hnext : s.staticHeaps.next heap = todo.head? := hlist.around.2.2.2.1
    have hrun : s.runLoop = { s with loop := .test todo.head? } := by
      rw [HeapRegistry.runLoop, hbody, ← hnext]
    refine ⟨todo, progress, ?_, ?_⟩
    · rw [hrun]
      refine { h with
        loop := LoopValid.test rfl hcalls (?_ : _ = (visited ++ [heap]) ++ todo)
        before := fun hk => (hbefore hk).elim }
      show s.registered = _
      rw [hregistered, List.append_assoc]
      rfl
    · rw [hrun, stepsLeft, stepsLeft, hcalls, hbody]
      exact Nat.lt_succ_self _

/-- A step of a call takes at least one off the steps that are left. -/
theorem stepsLeft_runCall {call : InitCall} {rest : List InitCall} (hcalls : s.calls = call :: rest)
    (todo : List ℕ) : (s.runCall call rest).stepsLeft todo < s.stepsLeft todo := by
  have hleft : s.stepsLeft todo = callSteps call.point +
      ((rest.map fun call => callSteps call.point).sum + loopSteps todo.length s.loop) := by
    rw [stepsLeft, hcalls, List.map_cons, List.sum_cons, Nat.add_assoc]
  have hpos : 0 < callSteps call.point := by cases call.point <;> exact Nat.zero_lt_succ _
  obtain ⟨hloop, hcase⟩ := s.runCall_calls call rest
  rw [hleft, stepsLeft, hloop]
  rcases hcase with hrest | ⟨point, hpoint, hlt⟩
  · rw [hrest]
    omega
  · rw [hpoint, List.map_cons, List.sum_cons, Nat.add_assoc]
    exact Nat.add_lt_add_right hlt _

/-- **The initialization does its next step.** -/
theorem next (h : Valid compactingHeap initial s todo progress)
    (hrunning : s.calls ≠ [] ∨ s.loop ≠ .notRunning) :
    ∃ todo' progress', Valid compactingHeap initial s.next todo' progress' ∧
      s.next.stepsLeft todo' < s.stepsLeft todo := by
  cases hcalls : s.calls with
  | nil =>
    have hloop := hrunning.resolve_left fun hne => hne hcalls
    have hnext : s.next = s.runLoop := by rw [HeapRegistry.next, hcalls]
    rw [hnext]
    exact h.runLoop hcalls hloop
  | cons call rest =>
    have hnext : s.next = s.runCall call rest := by rw [HeapRegistry.next, hcalls]
    obtain ⟨progress', h'⟩ := h.runCall hcalls
    rw [hnext]
    exact ⟨todo, progress', h', stepsLeft_runCall hcalls todo⟩

end Valid

/-! ### Runs -/

variable {compactingHeap : ℕ} {initial : ℕ → ℕ} {s s' : HeapRegistry}

/-- **A step keeps the invariant.** -/
theorem Step.valid (hstep : Step compactingHeap s s') (hzero : initial compactingHeap = 0)
    {todo : List ℕ} {progress : ℕ → Progress}
    (h : Valid compactingHeap initial s todo progress) :
    ∃ todo' progress', Valid compactingHeap initial s' todo' progress' := by
  cases hstep with
  | register hnew hne hmay => exact h.registerStaticHeap hnew hne hmay
  | createCompactingHeap hnot => exact ⟨[], h.createCompactingHeap hnot hzero⟩
  | initStaticHeaps hspur hnot => exact ⟨_, _, h.initStaticHeaps hspur hnot⟩
  | runCall hcalls => exact ⟨_, h.runCall hcalls⟩
  | runLoop hcalls hloop =>
    obtain ⟨todo', progress', h', -⟩ := h.runLoop hcalls hloop
    exact ⟨todo', progress', h'⟩

/-- **Every reachable state is valid.** -/
theorem valid_of_run (hs : Reachable compactingHeap initial s) :
    ∃ todo progress, Valid compactingHeap initial s todo progress := by
  obtain ⟨hzero, hrun⟩ := hs
  induction hrun with
  | refl => exact ⟨_, _, Valid.start compactingHeap initial⟩
  | tail _ hstep ih =>
    obtain ⟨todo, progress, h⟩ := ih
    exact hstep.valid hzero h

theorem Reachable.tail (hs : Reachable compactingHeap initial s)
    (hstep : Step compactingHeap s s') : Reachable compactingHeap initial s' :=
  ⟨hs.1, hs.2.tail hstep⟩

theorem Reachable.next (hs : Reachable compactingHeap initial s) :
    Reachable compactingHeap initial s.next := by
  cases hcalls : s.calls with
  | nil =>
    have hnext : s.next = s.runLoop := by rw [HeapRegistry.next, hcalls]
    rw [hnext]
    by_cases hloop : s.loop = .notRunning
    · have hrun : s.runLoop = s := by rw [HeapRegistry.runLoop, hloop]
      rwa [hrun]
    · exact hs.tail (Step.runLoop hcalls hloop)
  | cons call rest =>
    have hnext : s.next = s.runCall call rest := by rw [HeapRegistry.next, hcalls]
    rw [hnext]
    exact hs.tail (Step.runCall hcalls)

theorem Reachable.iterate (hs : Reachable compactingHeap initial s) (n : ℕ) :
    Reachable compactingHeap initial (HeapRegistry.next^[n] s) := by
  induction n generalizing s with
  | zero => exact hs
  | succ n ih => exact ih hs.next

/-- **The initialization returns**, from any state of a run, when nothing else is registered. -/
theorem exists_return {todo : List ℕ} {progress : ℕ → Progress}
    (h : Valid compactingHeap initial s todo progress) :
    ∃ n, (next^[n] s).calls = [] ∧ (next^[n] s).loop = .notRunning := by
  induction hn : s.stepsLeft todo using Nat.strong_induction_on generalizing s todo progress with
  | _ k ih =>
    by_cases hdone : s.calls = [] ∧ s.loop = .notRunning
    · exact ⟨0, hdone⟩
    · have hrunning : s.calls ≠ [] ∨ s.loop ≠ .notRunning := by
        by_cases hcalls : s.calls = []
        · exact Or.inr fun hloop => hdone ⟨hcalls, hloop⟩
        · exact Or.inl hcalls
      obtain ⟨todo', progress', h', hlt⟩ := h.next hrunning
      obtain ⟨n, hreturn⟩ := ih _ (hn ▸ hlt) h' rfl
      exact ⟨n + 1, hreturn⟩

/-- What has happened to a heap is the beginning of its initialization. -/
theorem Progress.events_prefix (heap flags : ℕ) (progress : Progress)
    (hpasses : ∀ point, progress = .at point → Passes flags point) :
    progress.events heap flags <+: initEvents heap flags := by
  cases progress with
  | unregistered | pending => exact List.nil_prefix
  | done => exact List.prefix_refl _
  | «at» point =>
    have hpass := hpasses point rfl
    cases point with
    | entry => exact List.nil_prefix
    | fixUp => exact List.nil_prefix
    | package =>
      rw [initEvents, if_neg hpass, List.append_assoc]
      exact List.prefix_append ..
    | inPackage =>
      rw [initEvents, if_neg hpass.1, packageEvents, if_pos hpass.2, List.append_assoc,
        List.cons_append]
      exact (List.prefix_append_right_inj _).mpr (List.prefix_append [_] _)
    | pass2 =>
      rw [initEvents, if_neg hpass]
      exact List.prefix_append ..
    | finish =>
      rw [initEvents, if_neg hpass]
      exact List.prefix_refl _

/-- **Every static heap is initialized exactly once, in order.** What happens to a heap is the
fix-up, the package registration and the second pass it asks for, none of them before the kernel is
initialized. The initialization returns, and then every registered heap is initialized; one that is
registered while the callback of another heap runs is so when its own call has returned. -/
theorem initialized_of_run (hs : Reachable compactingHeap initial s) :
    (s.kernelInitialized = false → s.trace = []) ∧
    (∀ heap, s.trace.filter (fun e => e.heap = heap) <+: initEvents heap (initial heap)) ∧
    (∀ heap, heap ∉ s.registered → s.trace.filter (fun e => e.heap = heap) = []) ∧
    (s.kernelInitialized = true → s.loop = .notRunning → ∀ heap ∈ s.registered,
      (∀ call ∈ s.calls, call.heap ≠ heap) → hasFlag (s.flags heap) heapInitialized ∧
        s.trace.filter (fun e => e.heap = heap) = initEvents heap (initial heap)) ∧
    ∃ n, Reachable compactingHeap initial (next^[n] s) ∧ (next^[n] s).calls = [] ∧
      (next^[n] s).loop = .notRunning := by
  obtain ⟨todo, progress, h⟩ := valid_of_run hs
  refine ⟨fun hk => (h.before hk).2.2, fun heap => ?_, fun heap hheap => ?_,
    fun hk hloop heap hheap hcalls => ?_, ?_⟩
  · rw [h.events]
    exact Progress.events_prefix heap _ _ (h.passes heap)
  · rw [h.events, (h.unregistered heap).mpr hheap]
    rfl
  · have hdone : progress heap = .done := by
      cases hprogress : progress heap with
      | unregistered => exact absurd hheap ((h.unregistered heap).mp hprogress)
      | pending =>
        have hmem := h.pending hk heap hprogress
        cases h.loop with
        | notRunning => cases hmem
        | test htest => rw [hloop] at htest; cases htest
        | body hbody => rw [hloop] at hbody; cases hbody
      | «at» point => exact absurd rfl (hcalls _ (h.active heap point hprogress))
      | done => rfl
    constructor
    · rw [h.flags, if_pos hdone]
      exact hasFlag_or _
    · rw [h.events, hdone]
      rfl
  · obtain ⟨n, hreturn⟩ := exists_return h
    exact ⟨n, hs.iterate n, hreturn⟩

/-- The flags of heaps that ask for everything, the compacting heap apart. -/
def nestedFlags (heap : ℕ) : ℕ :=
  if heap = 0 then 0 else heapMayNeedFixingUp ||| heapHasPackageRegistration

/-- The heap 1 is registered before the kernel is initialized, and the heap 2 by its callback. -/
def nestedRun : HeapRegistry :=
  let s := (start nestedFlags).createCompactingHeap 0
  let s := (s.registerStaticHeap 1).initStaticHeaps
  (next^[7] s).registerStaticHeap 2

theorem nestedRun_reachable : Reachable 0 nestedFlags nestedRun := by
  have h0 : Reachable 0 nestedFlags (start nestedFlags) := ⟨rfl, ReflTransGen.refl⟩
  have h1 := h0.tail (Step.createCompactingHeap rfl)
  have h2 := h1.tail (@Step.register 0 _ 1 (by decide) (by decide) (Or.inl ⟨rfl, rfl⟩))
  have h3 := (h2.tail (Step.initStaticHeaps rfl rfl)).iterate 7
  exact h3.tail (Step.register (by decide) (by decide) (Or.inr ⟨1, [], rfl⟩))

/-- Both heaps are initialized, the second one while the callback of the first one runs. -/
theorem initialized_of_run_nested :
    nestedRun.trace = [.fixUp 1, .packageRegistration 1] ∧
      nestedRun.trace.filter (fun e => e.heap = 1) <+: initEvents 1 (nestedFlags 1) ∧
      ∃ n, Reachable 0 nestedFlags (next^[n] nestedRun) ∧ (next^[n] nestedRun).calls = [] ∧
        (next^[n] nestedRun).loop = .notRunning :=
  ⟨by decide, (initialized_of_run nestedRun_reachable).2.1 1,
    (initialized_of_run nestedRun_reachable).2.2.2.2⟩

end HeapRegistry

end SlvmNative
