import SlvmNative.ObjectMemory

/-!
# The state of the runtime

Object memory together with the static variables of `spur/objectmodel.c`, `classes/collections.c`
and `classes/kernel.c`, and the functions on the class table.

## Main definitions

* `World` — object memory, the class table, and the root objects
* `World.spurInitialize`, `World.registerBehavior`, `World.getClassFromOop`
-/

namespace SlvmNative

/-- The state of the runtime. A page of the class table has 1024 entries and is only ever indexed
below that; a page that was never created is `none`. -/
structure World where
  memory : ObjectMemory
  /-- `slvm_classTable` -/
  classTable : ℕ → Option (ℕ → ℕ)
  /-- `slvm_classTablePageCount` -/
  classTablePageCount : ℕ
  /-- `slvm_classTableBaseSize` -/
  classTableBaseSize : ℕ
  /-- `slvm_classTableSize` -/
  classTableSize : ℕ
  /-- `collectionRoots.newSymbols` -/
  newSymbols : ℕ
  /-- `collectionRoots.symbolTable` -/
  symbolTable : ℕ
  /-- `kernelRoots.globals` -/
  globals : ℕ

namespace World

/-- The runtime before `slvm_spur_initialize`, its static variables all zero. -/
def ofMemory (memory : ObjectMemory) : World where
  memory := memory
  classTable _ := none
  classTablePageCount := 0
  classTableBaseSize := 0
  classTableSize := 0
  newSymbols := 0
  symbolTable := 0
  globals := 0

/-- The runtime as loaded with the placement `sequentialImage`, its heap at 65536. -/
def sequential : World := ofMemory (@ObjectMemory.loadKernel sequentialImage 65536 rfl)

/-- The same state over another memory. -/
def withMemory (w : World) (memory : ObjectMemory) : World := { w with memory := memory }

/-- The behavior the class table holds at an index. -/
def classAt (w : World) (index : ℕ) : Option ℕ :=
  (w.classTable (index >>> 12)).map fun page => page (index &&& 1023)

/-- `slvm_getClassFromOop` -/
def getClassFromOop (w : World) (oop : ℕ) : Option ℕ :=
  w.classAt (w.memory.getClassIndexFromOop oop)

section

variable [KernelImage]

/-- One use of `COMPACT_CLASS_INDEX` in `slvm_spur_initialize`. -/
def compactClassIndex (page : ℕ → ℕ) (entry : KernelClass × ℕ) : ℕ → ℕ :=
  Function.update (Function.update page entry.2 (kernelClass entry.1)) (256 + entry.2)
    (kernelMetaclass entry.1)

/-- `slvm_classTableFirstPage`, as `slvm_spur_initialize` leaves it. -/
def classTableFirstPage : ℕ → ℕ :=
  KernelClass.compactIndices.foldl compactClassIndex fun _ => nilOop

/-- `slvm_spur_initialize`: an empty compacting heap and the first page of the class table. -/
def spurInitialize (w : World) : World :=
  { w with
    memory := { w.memory with heapSize := 0 }
    classTable := Function.update w.classTable 0 (some classTableFirstPage)
    classTableBaseSize := 512
    classTableSize := 0
    classTablePageCount := 1 }

/-- `slvm_objectmodel_registerBehavior`. It fails where the source would store through a page
that does not exist. -/
def registerBehavior (w : World) (behavior : ℕ) : Option World :=
  let classIndex := (w.classTableBaseSize + w.classTableSize) % 2 ^ 32
  let pageIndex := classIndex >>> 12
  let elementIndex := classIndex &&& 1023
  if 4096 ≤ pageIndex then none
  else
    let w : World :=
      if w.classTablePageCount ≤ pageIndex then
        { w with
          classTable := Function.update w.classTable pageIndex (some fun _ => nilOop)
          classTablePageCount := w.classTablePageCount + 1 }
      else w
    match w.classTable pageIndex with
    | none => none
    | some page =>
      some { w with
        memory := w.memory.setHeader behavior
          ((w.memory.header behavior).withIdentityHash classIndex)
        classTable := Function.update w.classTable pageIndex
          (some (Function.update page elementIndex behavior))
        classTableSize := w.classTableSize + 1 }

end

theorem sequential_loaded : @ObjectMemory.KernelLoaded sequentialImage sequential.memory :=
  @ObjectMemory.loadKernel_loaded sequentialImage 65536 rfl fun o => by
    have h := o.position_lt
    show 128 * o.position < 65536
    omega

theorem sequential_intact :
    letI := sequentialImage
    sequential.spurInitialize.memory.KernelIntact := by
  let := sequentialImage
  exact ObjectMemory.KernelLoaded.intact
    ⟨sequential_loaded.header, sequential_loaded.slot, sequential_loaded.lt_heapStart⟩

end World

end SlvmNative
