import SlvmNative.World
import Mathlib.Logic.Relation

/-!
# The class table

The table is read as two levels of 4096 and 1024 entries, but its writer and its readers split an
index at bit 12 and mask the element with 1023, so that all indices below 4096 share the 1024
entries of the first page. With at most 512 registered behaviors every index in use is below
1024, and then the table is what it is meant to be; the behavior registered after 513 others takes
the entry of `SmallInteger`.

## Main definitions

* `classTablePage` — the first page after a sequence of registrations
* `World.ClassTableValid` — the table holds exactly that
* `ClassTableRun`, `ClassTableRun.Step` — registrations, instantiations and stores in any order

## Main results

* `ClassTableRun.Valid.step`, `ClassTableRun.valid_of_run` — what one step and what a run keep
* `ClassTableRun.getClassFromOop_of_run` — objects keep their class up to 512 registrations
* `ClassTableRun.exists_lost_smallInteger` — and lose it after that
-/

namespace SlvmNative

open Relation

variable [KernelImage]

/-! ### The first page -/

namespace World

theorem compactClassIndex_self (page : ℕ → ℕ) (c : KernelClass) (i : ℕ) :
    compactClassIndex page (c, i) i = kernelClass c := by
  have h : i ≠ 256 + i := by omega
  simp only [compactClassIndex]
  rw [Function.update_of_ne h, Function.update_self]

theorem compactClassIndex_meta (page : ℕ → ℕ) (c : KernelClass) (i : ℕ) :
    compactClassIndex page (c, i) (256 + i) = kernelMetaclass c :=
  Function.update_self ..

theorem compactClassIndex_of_ne (page : ℕ → ℕ) {entry : KernelClass × ℕ} {i : ℕ} (h : i ≠ entry.2)
    (hmeta : i ≠ 256 + entry.2) : compactClassIndex page entry i = page i := by
  rw [compactClassIndex, Function.update_of_ne hmeta, Function.update_of_ne h]

/-- Entering classes leaves every index alone that none of them has. -/
theorem foldl_compactClassIndex_of_notMem (l : List (KernelClass × ℕ)) (page : ℕ → ℕ) {i : ℕ}
    (h : ∀ entry ∈ l, i ≠ entry.2 ∧ i ≠ 256 + entry.2) :
    l.foldl compactClassIndex page i = page i := by
  induction l generalizing page with
  | nil => rfl
  | cons entry l ih =>
    have hhead := h entry List.mem_cons_self
    rw [List.foldl_cons, ih _ fun e he => h e (List.mem_cons_of_mem _ he),
      compactClassIndex_of_ne _ hhead.1 hhead.2]

/-- Entering classes under distinct indices below 256 enters each of them, with its metaclass. -/
theorem foldl_compactClassIndex_of_mem {l : List (KernelClass × ℕ)} (page : ℕ → ℕ)
    (hlt : ∀ entry ∈ l, entry.2 < 256) (hnodup : (l.map Prod.snd).Nodup) {c : KernelClass} {i : ℕ}
    (h : (c, i) ∈ l) :
    l.foldl compactClassIndex page i = kernelClass c ∧
      l.foldl compactClassIndex page (256 + i) = kernelMetaclass c := by
  obtain ⟨l₁, l₂, rfl⟩ := List.append_of_mem h
  have hi := hlt _ h
  have hlater : ∀ entry ∈ l₂, entry.2 ≠ i ∧ entry.2 < 256 := by
    intro entry he
    rw [List.map_append, List.map_cons, List.nodup_append] at hnodup
    have hnot := (List.nodup_cons.mp hnodup.2.1).1
    refine ⟨?_, hlt entry (by simp [he])⟩
    rintro hsame
    exact hnot (List.mem_map.mpr ⟨entry, he, hsame⟩)
  rw [List.foldl_append, List.foldl_cons]
  constructor
  · rw [foldl_compactClassIndex_of_notMem, compactClassIndex_self]
    intro entry he
    have := hlater entry he
    omega
  · rw [foldl_compactClassIndex_of_notMem, compactClassIndex_meta]
    intro entry he
    have := hlater entry he
    omega

theorem classTableFirstPage_of_mem {c : KernelClass} {i : ℕ}
    (h : (c, i) ∈ KernelClass.compactIndices) :
    classTableFirstPage i = kernelClass c ∧ classTableFirstPage (256 + i) = kernelMetaclass c :=
  foldl_compactClassIndex_of_mem _ (by decide) (by decide) h

theorem classTableFirstPage_index (c : KernelClass) :
    classTableFirstPage c.index = kernelClass c :=
  (classTableFirstPage_of_mem c.mem_compactIndices).1

theorem classTableFirstPage_metaIndex (c : KernelClass) :
    classTableFirstPage c.metaIndex = kernelMetaclass c :=
  (classTableFirstPage_of_mem c.mem_compactIndices).2

/-! ### The table after a sequence of registrations -/

/-- The first page once the behaviors of a list have been registered in order: they follow the
512 indices of the kernel classes and metaclasses. -/
def classTablePage (registered : List ℕ) (i : ℕ) : ℕ :=
  if i < 512 then classTableFirstPage i else registered.getD (i - 512) nilOop

/-- The class table holds the kernel classes and the behaviors registered so far. -/
structure ClassTableValid (w : World) (registered : List ℕ) : Prop where
  base : w.classTableBaseSize = 512
  size : w.classTableSize = registered.length
  pageCount : w.classTablePageCount = 1
  page : w.classTable 0 = some (classTablePage registered)

theorem classTablePage_nil : classTablePage [] = classTableFirstPage := by
  funext i
  rw [classTablePage]
  split_ifs with h
  · rfl
  · -- no class is entered above 511
    rw [List.getD_nil, classTableFirstPage, foldl_compactClassIndex_of_notMem]
    intro entry he
    have hlt : ∀ entry ∈ KernelClass.compactIndices, entry.2 < 256 := by decide
    have := hlt entry he
    omega

theorem classTablePage_append (registered : List ℕ) (b : ℕ) :
    classTablePage (registered ++ [b]) =
      Function.update (classTablePage registered) (512 + registered.length) b := by
  funext i
  by_cases hi : i = 512 + registered.length
  · subst hi
    rw [Function.update_self, classTablePage, if_neg (by omega), Nat.add_sub_cancel_left]
    simp
  · rw [Function.update_of_ne hi]
    simp only [classTablePage]
    split_ifs with h
    · rfl
    · rcases Nat.lt_or_ge (i - 512) registered.length with hlt | hge
      · rw [List.getD_append _ _ _ _ hlt]
      · rw [List.getD_append_right _ _ _ _ hge, List.getD_eq_default _ _ hge,
          List.getD_eq_default _ _ (by simp only [List.length_singleton]; omega)]

theorem spurInitialize_classTableValid (w : World) : ClassTableValid w.spurInitialize [] where
  base := rfl
  size := rfl
  pageCount := rfl
  page := by simp only [spurInitialize, Function.update_self, classTablePage_nil]

namespace ClassTableValid

variable {w : World} {registered : List ℕ}

theorem classAt (h : ClassTableValid w registered) {i : ℕ} (hi : i < 1024) :
    w.classAt i = some (classTablePage registered i) := by
  have hpage : i >>> 12 = 0 := by rw [Nat.shiftRight_eq_div_pow]; omega
  have helement : i &&& 1023 = i := by
    rw [show (1023 : ℕ) = 2 ^ 10 - 1 from rfl, Nat.and_two_pow_sub_one_eq_mod,
      Nat.mod_eq_of_lt hi]
  rw [World.classAt, hpage, helement, h.page, Option.map_some]

theorem classAt_index (h : ClassTableValid w registered) (c : KernelClass) :
    w.classAt c.index = some (kernelClass c) := by
  have hc := c.index_lt
  rw [h.classAt (by omega), classTablePage, if_pos (by omega), classTableFirstPage_index]

theorem classAt_metaIndex (h : ClassTableValid w registered) (c : KernelClass) :
    w.classAt c.metaIndex = some (kernelMetaclass c) := by
  have hc := c.metaIndex_lt
  rw [h.classAt (by omega), classTablePage, if_pos hc, classTableFirstPage_metaIndex]

theorem classAt_registered (h : ClassTableValid w registered) (hn : registered.length ≤ 512)
    {k : ℕ} (hk : k < registered.length) : w.classAt (512 + k) = some registered[k] := by
  rw [h.classAt (by omega), classTablePage, if_neg (by omega), Nat.add_sub_cancel_left,
    List.getD_eq_getElem _ _ hk]

/-- An immediate resolves to the class its tag stands for. -/
theorem getClassFromOop_immediate (h : ClassTableValid w registered) {c : KernelClass} {tag : ℕ}
    (hc : (c, tag) ∈ KernelClass.compactIndices) {oop : ℕ} (htag : oop &&& 7 = tag)
    (h0 : tag ≠ 0) (h8 : tag < 8) : w.getClassFromOop oop = some (kernelClass c) := by
  have hne : ¬ oopIsPointers oop := by rw [oopIsPointers, htag]; exact h0
  rw [getClassFromOop, ObjectMemory.getClassIndexFromOop, if_neg hne, htag, h.classAt (by omega),
    classTablePage, if_pos (by omega), (classTableFirstPage_of_mem hc).1]

/-- The table does not depend on object memory. -/
theorem withMemory (h : ClassTableValid w registered) (m : ObjectMemory) :
    ClassTableValid (w.withMemory m) registered :=
  ⟨h.base, h.size, h.pageCount, h.page⟩

end ClassTableValid

/-! ### Registration -/

/-- A registration while all indices are on the first page. -/
theorem registerBehavior_eq {w : World} {page : ℕ → ℕ} (hbase : w.classTableBaseSize = 512)
    (hsize : w.classTableSize < 3584) (hcount : w.classTablePageCount = 1)
    (hpage : w.classTable 0 = some page) (b : ℕ) :
    w.registerBehavior b = some { w with
      memory := w.memory.setHeader b
        ((w.memory.header b).withIdentityHash (512 + w.classTableSize))
      classTable := Function.update w.classTable 0
        (some (Function.update page ((512 + w.classTableSize) &&& 1023) b))
      classTableSize := w.classTableSize + 1 } := by
  have hmod : (512 + w.classTableSize) % 2 ^ 32 = 512 + w.classTableSize :=
    Nat.mod_eq_of_lt (by omega)
  have hshift : (512 + w.classTableSize) >>> 12 = 0 := by
    rw [Nat.shiftRight_eq_div_pow]; omega
  simp only [registerBehavior, hbase, hmod, hshift, hcount]
  rw [if_neg (by decide), if_neg (by decide)]
  simp only [hpage, hbase, hcount]

/-- What a registration among the first 512 does. -/
theorem ClassTableValid.registerBehavior {w : World} {registered : List ℕ}
    (h : ClassTableValid w registered) (hn : registered.length < 512) (b : ℕ) :
    ∃ w', w.registerBehavior b = some w' ∧ ClassTableValid w' (registered ++ [b]) ∧
      w'.memory = w.memory.setHeader b
        ((w.memory.header b).withIdentityHash (512 + registered.length)) ∧
      w' = { w with
        memory := w'.memory, classTable := w'.classTable,
        classTableSize := w'.classTableSize } := by
  have hsize := h.size
  have heq := registerBehavior_eq h.base (by omega) h.pageCount h.page b
  have helement : (512 + w.classTableSize) &&& 1023 = 512 + registered.length := by
    rw [hsize, show (1023 : ℕ) = 2 ^ 10 - 1 from rfl, Nat.and_two_pow_sub_one_eq_mod,
      Nat.mod_eq_of_lt (by omega)]
  refine ⟨_, heq, ⟨h.base, ?_, h.pageCount, ?_⟩, ?_, rfl⟩
  · rw [List.length_append, List.length_singleton, ← hsize]
  · simp only [Function.update_self, helement, classTablePage_append]
  · rw [← hsize]

end World

/-! ### Runs -/

/-- A state of a run that registers behaviors and creates instances, with its history. -/
structure ClassTableRun where
  world : World
  /-- The behaviors registered so far, in order. -/
  registered : List ℕ
  /-- The objects created so far, each with the behavior it was created from. -/
  created : List (ℕ × ℕ)

namespace ClassTableRun

/-- The behaviors that have a class index: the kernel classes, their metaclasses, and the
behaviors registered so far. -/
def IsBehavior (s : ClassTableRun) (b : ℕ) : Prop :=
  (∃ c, b = kernelClass c ∨ b = kernelMetaclass c) ∨ b ∈ s.registered

/-- One step of a run. -/
inductive Step : ClassTableRun → ClassTableRun → Prop
  /-- An object that has not been registered yet is registered as a behavior. -/
  | registerBehavior {s : ClassTableRun} {b : ℕ} {w : World} (hobject : oopIsPointers b)
      (hlt : b < s.world.memory.limit) (hnew : b ∉ s.registered)
      (h : s.world.registerBehavior b = some w) :
      Step s ⟨w, s.registered ++ [b], s.created⟩
  /-- An instance of a behavior is created. -/
  | basicNew {s : ClassTableRun} {b v o : ℕ} {m : ObjectMemory} (hb : s.IsBehavior b)
      (h : s.world.memory.basicNew b v = some (o, m)) :
      Step s ⟨s.world.withMemory m, s.registered, s.created ++ [(o, b)]⟩
  /-- Anything is stored into a slot. -/
  | setSlot {s : ClassTableRun} (o i v : ℕ) :
      Step s ⟨s.world.withMemory (s.world.memory.setSlot o i v), s.registered, s.created⟩

/-- The start of a run: `slvm_spur_initialize` has been called. -/
def start (w : World) : ClassTableRun := ⟨w.spurInitialize, [], []⟩

/-- The invariant of a run of at most 512 registrations. -/
structure Valid (s : ClassTableRun) : Prop where
  length_le : s.registered.length ≤ 512
  table : s.world.ClassTableValid s.registered
  static_lt : ∀ o, KernelImage.address o < s.world.memory.limit
  registered_lt : ∀ b ∈ s.registered, b < s.world.memory.limit
  /-- Every behavior is in the table under its identity hash. -/
  behavior : ∀ b, s.IsBehavior b →
    (s.world.memory.header b).identityHash < 512 + s.registered.length ∧
    s.world.classAt (s.world.memory.header b).identityHash = some b
  /-- Every object created is a pointer whose class index leads to its behavior. -/
  created : ∀ p ∈ s.created, oopIsPointers p.1 ∧ p.1 < s.world.memory.limit ∧
    (s.world.memory.header p.1).classIndex < 512 + s.registered.length ∧
    s.world.classAt (s.world.memory.header p.1).classIndex = some p.2

theorem Valid.start {w : World} (h : w.memory.KernelLoaded) : Valid (start w) where
  length_le := Nat.zero_le _
  table := World.spurInitialize_classTableValid w
  static_lt o := (h.lt_heapStart o).trans_le (Nat.le_add_right _ _)
  registered_lt b hb := absurd hb List.not_mem_nil
  behavior b hb := by
    have htable := World.spurInitialize_classTableValid w
    rcases hb with ⟨c, rfl | rfl⟩ | hb
    · have hash : (w.memory.header (kernelClass c)).identityHash = c.index :=
        h.intact.identityHash_kernelClass c
      have hc := c.index_lt
      refine ⟨?_, ?_⟩
      · show (w.memory.header (kernelClass c)).identityHash < 512 + 0
        omega
      · show w.spurInitialize.classAt (w.memory.header (kernelClass c)).identityHash = _
        rw [hash, htable.classAt_index]
    · have hash : (w.memory.header (kernelMetaclass c)).identityHash = c.metaIndex :=
        h.intact.identityHash_kernelMetaclass c
      have hc := c.metaIndex_lt
      refine ⟨?_, ?_⟩
      · show (w.memory.header (kernelMetaclass c)).identityHash < 512 + 0
        omega
      · show w.spurInitialize.classAt (w.memory.header (kernelMetaclass c)).identityHash = _
        rw [hash, htable.classAt_metaIndex]
    · exact absurd hb List.not_mem_nil
  created p hp := absurd hp List.not_mem_nil

/-- A registration among the first 512 changes the entry of the index it hands out and no
other. -/
theorem classAt_registerBehavior {w w' : World} {registered : List ℕ}
    (h : w.ClassTableValid registered) (hn : registered.length < 512) {b : ℕ}
    (hw : w.registerBehavior b = some w') {i : ℕ} (hi : i < 1024)
    (hne : i ≠ 512 + registered.length) : w'.classAt i = w.classAt i := by
  obtain ⟨w₁, hw₁, htable, -, -⟩ := h.registerBehavior hn b
  obtain rfl : w₁ = w' := Option.some.inj (hw₁.symm.trans hw)
  rw [htable.classAt hi, h.classAt hi, World.classTablePage_append, Function.update_of_ne hne]

theorem Valid.registerBehavior {s : ClassTableRun} (h : s.Valid) {b : ℕ} {w : World}
    (hn : s.registered.length < 512) (hlt : b < s.world.memory.limit)
    (hw : s.world.registerBehavior b = some w) :
    Valid ⟨w, s.registered ++ [b], s.created⟩ := by
  have hkeep := fun {i} => @classAt_registerBehavior _ _ _ _ h.table hn b hw i
  obtain ⟨w₁, hw₁, htable, hmem, -⟩ := h.table.registerBehavior hn b
  obtain rfl : w₁ = w := Option.some.inj (hw₁.symm.trans hw)
  have hlimit : w₁.memory.limit = s.world.memory.limit := by rw [hmem]; rfl
  have hlen : (s.registered ++ [b]).length = s.registered.length + 1 := by simp
  refine ⟨by simp only [hlen]; omega, htable, ?_, ?_, fun b' hb' => ?_, fun p hp => ?_⟩
  · simpa only [hlimit] using h.static_lt
  · simp only [hlimit, List.mem_append, List.mem_singleton]
    rintro b' (hb' | rfl)
    · exact h.registered_lt b' hb'
    · exact hlt
  · simp only [hlen]
    by_cases hbb : b' = b
    · -- the behavior just registered is found under the index it was handed
      subst hbb
      have hhash : (w₁.memory.header b').identityHash = 512 + s.registered.length := by
        rw [hmem, ObjectMemory.setHeader_header_self, ObjectHeader.withIdentityHash_identityHash]
        exact Nat.mod_eq_of_lt (by omega)
      have hget := htable.classAt_registered (by simp only [hlen]; omega)
        (k := s.registered.length) (by simp)
      rw [hhash, hget]
      exact ⟨by omega, by simp⟩
    · have hold : s.IsBehavior b' := by
        rcases hb' with hb' | hb'
        · exact Or.inl hb'
        · exact Or.inr ((List.mem_append.mp hb').resolve_right (by simpa using hbb))
      obtain ⟨hidx, hat⟩ := h.behavior b' hold
      have hhash : (w₁.memory.header b').identityHash =
          (s.world.memory.header b').identityHash := by
        rw [hmem, ObjectMemory.setHeader_header_of_ne _ _ hbb]
      rw [hhash]
      exact ⟨by omega, by rw [hkeep (by omega) (by omega), hat]⟩
  · simp only [hlen]
    obtain ⟨hptr, hplt, hidx, hat⟩ := h.created p hp
    have hclass : (w₁.memory.header p.1).classIndex = (s.world.memory.header p.1).classIndex := by
      rw [hmem]
      by_cases hpb : p.1 = b
      · rw [hpb, ObjectMemory.setHeader_header_self, ObjectHeader.withIdentityHash_classIndex]
      · rw [ObjectMemory.setHeader_header_of_ne _ _ hpb]
    rw [hclass, hlimit]
    exact ⟨hptr, hplt, by omega, by rw [hkeep (by omega) (by omega), hat]⟩

theorem Valid.basicNew {s : ClassTableRun} (h : s.Valid) {b v o : ℕ} {m : ObjectMemory}
    (hb : s.IsBehavior b) (hm : s.world.memory.basicNew b v = some (o, m)) :
    Valid ⟨s.world.withMemory m, s.registered, s.created ++ [(o, b)]⟩ := by
  have halloc := ObjectMemory.basicNew_allocated hm
  have hframe := halloc.frame
  have hlimit := hframe.limit_le
  have hbelow : ∀ b', s.IsBehavior b' → b' < s.world.memory.limit := by
    rintro b' (⟨c, rfl | rfl⟩ | hb')
    · exact h.static_lt _
    · exact h.static_lt _
    · exact h.registered_lt b' hb'
  refine ⟨h.length_le, h.table.withMemory m, fun a => (h.static_lt a).trans_le hlimit,
    fun b' hb' => (h.registered_lt b' hb').trans_le hlimit, fun b' hb' => ?_, fun p hp => ?_⟩
  · show (m.header b').identityHash < _ ∧ s.world.classAt (m.header b').identityHash = some b'
    rw [hframe.header b' (hbelow b' hb')]
    exact h.behavior b' hb'
  · show _ ∧ p.1 < m.limit ∧ (m.header p.1).classIndex < _ ∧
      s.world.classAt (m.header p.1).classIndex = some p.2
    rcases List.mem_append.mp hp with hp | hp
    · obtain ⟨hptr, hplt, hidx, hat⟩ := h.created p hp
      rw [hframe.header p.1 hplt]
      exact ⟨hptr, hplt.trans_le hlimit, hidx, hat⟩
    · obtain rfl := List.mem_singleton.mp hp
      rw [halloc.classIndex]
      exact ⟨halloc.pointers, halloc.lt_limit, (h.behavior b hb).1, (h.behavior b hb).2⟩

theorem Valid.step {s s' : ClassTableRun} (h : s.Valid) (hs : Step s s')
    (hn : s'.registered.length ≤ 512) : s'.Valid := by
  cases hs with
  | @registerBehavior b w _ hlt _ hw =>
    refine h.registerBehavior ?_ hlt hw
    simp only [List.length_append, List.length_singleton] at hn
    omega
  | basicNew hb hm => exact h.basicNew hb hm
  | setSlot o i v =>
    exact ⟨h.length_le, h.table.withMemory _, h.static_lt, h.registered_lt, h.behavior, h.created⟩

theorem Step.length_le {s s' : ClassTableRun} (hs : Step s s') :
    s.registered.length ≤ s'.registered.length := by
  cases hs <;> simp

/-- In every run of at most 512 registrations the invariant holds in every state. -/
theorem valid_of_run {w : World} (hw : w.memory.KernelLoaded) {s : ClassTableRun}
    (hs : ReflTransGen Step (start w) s) (hn : s.registered.length ≤ 512) : s.Valid := by
  induction hs with
  | refl => exact Valid.start hw
  | tail _ hstep ih => exact (ih (hstep.length_le.trans hn)).step hstep hn

/-- **Objects keep their class** in every run of at most 512 registrations: every object created
resolves to the behavior it was created from, the kernel classes and the immediates resolve to
their kernel class, and while another registration fits it succeeds, hands out the next index and
changes the entry of no other. -/
theorem getClassFromOop_of_run {w : World} (hw : w.memory.KernelLoaded) {s : ClassTableRun}
    (hs : ReflTransGen Step (start w) s) (hn : s.registered.length ≤ 512) :
    (∀ p ∈ s.created, s.world.getClassFromOop p.1 = some p.2) ∧
    (∀ c : KernelClass, s.world.classAt c.index = some (kernelClass c) ∧
      s.world.classAt c.metaIndex = some (kernelMetaclass c)) ∧
    (∀ oop, (oop &&& 7 = 1 → s.world.getClassFromOop oop = some (kernelClass .SmallInteger)) ∧
      (oop &&& 7 = 2 → s.world.getClassFromOop oop = some (kernelClass .Character)) ∧
      (oop &&& 7 = 4 → s.world.getClassFromOop oop = some (kernelClass .SmallFloat))) ∧
    (∀ b, s.registered.length < 512 → ∃ w', s.world.registerBehavior b = some w' ∧
      (w'.memory.header b).identityHash = 512 + s.registered.length ∧
      w'.classAt (512 + s.registered.length) = some b ∧
      ∀ i < 1024, i ≠ 512 + s.registered.length → w'.classAt i = s.world.classAt i) := by
  have h := valid_of_run hw hs hn
  refine ⟨fun p hp => ?_, fun c => ⟨h.table.classAt_index c, h.table.classAt_metaIndex c⟩,
    fun oop => ⟨fun ht => ?_, fun ht => ?_, fun ht => ?_⟩, fun b hlt => ?_⟩
  · obtain ⟨hptr, -, -, hat⟩ := h.created p hp
    rw [World.getClassFromOop, ObjectMemory.getClassIndexFromOop, if_pos hptr, hat]
  · exact h.table.getClassFromOop_immediate (by decide) ht (by decide) (by decide)
  · exact h.table.getClassFromOop_immediate (by decide) ht (by decide) (by decide)
  · exact h.table.getClassFromOop_immediate (by decide) ht (by decide) (by decide)
  · obtain ⟨w', hw', htable, hmem, -⟩ := h.table.registerBehavior hlt b
    refine ⟨w', hw', ?_, ?_, fun i hi hne => classAt_registerBehavior h.table hlt hw' hi hne⟩
    · rw [hmem, ObjectMemory.setHeader_header_self, ObjectHeader.withIdentityHash_identityHash]
      exact Nat.mod_eq_of_lt (by omega)
    · have hlen : (s.registered ++ [b]).length ≤ 512 := by
        simp only [List.length_append, List.length_singleton]
        omega
      rw [htable.classAt_registered hlen (by simp), List.getElem_concat_length rfl]

/-! ### More than 512 registrations -/

/-- All indices handed out so far are on the first page. -/
structure OnFirstPage (w : World) (n : ℕ) : Prop where
  base : w.classTableBaseSize = 512
  size : w.classTableSize = n
  pageCount : w.classTablePageCount = 1
  page : ∃ page, w.classTable 0 = some page

theorem OnFirstPage.registerBehavior {w : World} {n : ℕ} (h : OnFirstPage w n) (hn : n < 3584)
    (b : ℕ) : ∃ w', w.registerBehavior b = some w' ∧ OnFirstPage w' (n + 1) ∧
      w'.memory = w.memory.setHeader b ((w.memory.header b).withIdentityHash (512 + n)) ∧
      w'.classAt ((512 + n) &&& 1023) = some b := by
  obtain ⟨page, hpage⟩ := h.page
  have hsize := h.size
  have heq := World.registerBehavior_eq h.base (by omega) h.pageCount hpage b
  rw [hsize] at heq
  have hshift : ((512 + n) &&& 1023) >>> 12 = 0 := by
    have hlt : (512 + n) &&& 1023 < 2 ^ 10 := Nat.and_lt_two_pow _ (by decide)
    rw [Nat.shiftRight_eq_div_pow]
    exact Nat.div_eq_of_lt (hlt.trans (by decide))
  have hmask : ((512 + n) &&& 1023) &&& 1023 = (512 + n) &&& 1023 := by
    rw [Nat.and_assoc, Nat.and_self]
  refine ⟨_, heq, ⟨h.base, rfl, h.pageCount, Function.update page ((512 + n) &&& 1023) b, ?_⟩,
    rfl, ?_⟩
  · simp only [Function.update_self]
  · simp only [World.classAt, hshift, hmask, Function.update_self, Option.map_some]

/-- **The behavior registered after 513 others takes the entry of `SmallInteger`.** -/
theorem OnFirstPage.smallInteger_lost {w w' : World} (h : OnFirstPage w 513) {b : ℕ}
    (hw : w.registerBehavior b = some w') {oop : ℕ} (htag : oop &&& 7 = 1) :
    w'.getClassFromOop oop = some b := by
  obtain ⟨w₁, hw₁, -, -, hat⟩ := h.registerBehavior (by decide) b
  obtain rfl : w₁ = w' := Option.some.inj (hw₁.symm.trans hw)
  have hne : ¬ oopIsPointers oop := by rw [oopIsPointers, htag]; decide
  rw [World.getClassFromOop, ObjectMemory.getClassIndexFromOop, if_neg hne, htag]
  exact hat

/-- A state from which new metaclasses can be created and registered, `n` of them having been. -/
structure Extendable (s : ClassTableRun) (n : ℕ) : Prop where
  length : s.registered.length = n
  table : OnFirstPage s.world n
  kernel : s.world.memory.KernelIntact
  registered_lt : ∀ b ∈ s.registered, b < s.world.memory.limit

theorem Extendable.start {w : World} (hw : w.memory.KernelLoaded) :
    Extendable (start w) 0 where
  length := rfl
  table :=
    have h := World.spurInitialize_classTableValid w
    ⟨h.base, h.size, h.pageCount, _, h.page⟩
  kernel := ⟨hw.header, hw.intact.format, fun o => (hw.lt_heapStart o).trans_le (Nat.le_refl _)⟩
  registered_lt _ hb := absurd hb List.not_mem_nil

/-- One more metaclass is created and registered. -/
theorem Extendable.register {s : ClassTableRun} {n : ℕ} (h : s.Extendable n) (hn : n < 3584) :
    ∃ s' o, ReflTransGen Step s s' ∧ s'.Extendable (n + 1) ∧ o ∈ s'.registered ∧
      (∀ a, KernelImage.address a ≠ o) ∧
      ∃ w, OnFirstPage w n ∧ w.registerBehavior o = some s'.world := by
  obtain ⟨o, m, hm, halloc, -, -⟩ :=
    h.kernel.kernelNew_pointers (c := .Metaclass) (by decide) 0
  have hlimit := halloc.frame.limit_le
  have hfresh : ∀ a, KernelImage.address a ≠ o := fun a => by
    have := h.kernel.lt_limit a
    have := halloc.limit_lt
    omega
  have htable : OnFirstPage (s.world.withMemory m) n :=
    ⟨h.table.base, h.table.size, h.table.pageCount, h.table.page⟩
  obtain ⟨w, hw, htable', hmem, -⟩ := htable.registerBehavior hn o
  have hlimit' : w.memory.limit = m.limit := by rw [hmem]; rfl
  have hnew : o ∉ s.registered := fun ho => by
    have := h.registered_lt o ho
    have := halloc.limit_lt
    omega
  have hkernel : m.KernelIntact :=
    h.kernel.frame halloc.frame h.kernel.lt_limit fun c => Set.notMem_empty _
  have hsteps : ReflTransGen Step s
      ⟨w, s.registered ++ [o], s.created ++ [(o, kernelClass .Metaclass)]⟩ :=
    (ReflTransGen.single (Step.basicNew (Or.inl ⟨.Metaclass, Or.inl rfl⟩) hm)).tail
      (Step.registerBehavior halloc.pointers halloc.lt_limit hnew hw)
  refine ⟨_, o, hsteps, ⟨?_, htable', ⟨fun a => ?_, fun c => ?_, fun a => ?_⟩, ?_⟩,
    List.mem_concat_self, hfresh, _, htable, hw⟩
  · simp [h.length]
  · rw [hmem, ObjectMemory.setHeader_header_of_ne _ _ (hfresh a)]
    exact hkernel.header a
  · rw [hmem]
    exact hkernel.format c
  · rw [hlimit']
    exact hkernel.lt_limit a
  · simp only [hlimit', List.mem_append, List.mem_singleton]
    rintro b (hb | rfl)
    · exact (h.registered_lt b hb).trans_le hlimit
    · exact halloc.lt_limit

/-- A run can register as many new metaclasses as the first page can be indexed with. -/
theorem exists_extendable {w : World} (hw : w.memory.KernelLoaded) :
    ∀ n ≤ 3584, ∃ s, ReflTransGen Step (start w) s ∧ s.Extendable n := by
  intro n
  induction n with
  | zero => exact fun _ => ⟨_, .refl, Extendable.start hw⟩
  | succ n ih =>
    intro hn
    obtain ⟨s, hs, h⟩ := ih (by omega)
    obtain ⟨s', -, hs', h', -⟩ := h.register (by omega)
    exact ⟨s', hs.trans hs', h'⟩

/-- **With 514 registrations the class of the integers is lost.** -/
theorem exists_lost_smallInteger {w : World} (hw : w.memory.KernelLoaded) :
    ∃ s, ReflTransGen Step (start w) s ∧ s.registered.length = 514 ∧
      ∀ oop, oop &&& 7 = 1 → s.world.getClassFromOop oop ≠ some (kernelClass .SmallInteger) := by
  obtain ⟨s, hs, h⟩ := exists_extendable hw 513 (by decide)
  obtain ⟨s', o, hs', h', -, hne, w', hw', hreg⟩ := h.register (by decide)
  refine ⟨s', hs.trans hs', h'.length, fun oop ht hclass => ?_⟩
  rw [hw'.smallInteger_lost hreg ht] at hclass
  exact hne _ (Option.some.inj hclass).symm

omit [KernelImage]

/-- With the static objects from address 128 on, a new metaclass is registered, gets a format and
makes an instance, whose class it is. -/
theorem getClassFromOop_of_run_instance :
    letI := sequentialImage
    ∃ s b o, ReflTransGen Step (start World.sequential) s ∧ s.registered = [b] ∧
      (o, b) ∈ s.created ∧ s.world.getClassFromOop o = some b := by
  let := sequentialImage
  obtain ⟨s, b, hs, h, hb, hfresh, -⟩ :=
    (Extendable.start World.sequential_loaded).register (by decide)
  obtain ⟨m, hm⟩ : ∃ m, m = s.world.memory.setSlot b Field.format (encodeFormatAndFixedSize 1 2) :=
    ⟨_, rfl⟩
  have hformat : decodeFormat (m.slot b Field.format) < ObjectFormat.indexable64 := by
    rw [hm, ObjectMemory.setSlot_slot_self, decodeFormat_encode (by decide) (by decide)]
    decide
  obtain ⟨o, m', hnew, -⟩ := m.basicNew_pointers (hfresh .nil).symm hformat 0
  have hstore : Step s ⟨s.world.withMemory m, s.registered, s.created⟩ := hm ▸ Step.setSlot b _ _
  have hrun := (hs.tail hstore).tail (Step.basicNew (Or.inr hb) hnew)
  have hn : s.registered.length ≤ 512 := by rw [h.length]; decide
  have hcreated := (getClassFromOop_of_run World.sequential_loaded hrun hn).1 (o, b)
    List.mem_concat_self
  obtain ⟨b', hb'⟩ := List.length_eq_one_iff.mp h.length
  obtain rfl : b = b' := List.mem_singleton.mp (hb' ▸ hb)
  exact ⟨_, b, o, hrun, hb', List.mem_concat_self, hcreated⟩

/-- With the same placement, the integer 1 is no longer a `SmallInteger` after 514
registrations. -/
theorem smallInteger_lost_sequential :
    letI := sequentialImage
    ∃ s, ReflTransGen Step (start World.sequential) s ∧ s.registered.length = 514 ∧
      s.world.getClassFromOop (encodeSmallInteger 1) ≠ some (kernelClass .SmallInteger) := by
  let := sequentialImage
  obtain ⟨s, hs, hn, hlost⟩ := exists_lost_smallInteger World.sequential_loaded
  exact ⟨s, hs, hn, hlost _ (by decide)⟩

end ClassTableRun

end SlvmNative
