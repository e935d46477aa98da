import SlvmNative.ObjectMemory

/-!
# Strings

Creation, hashing and comparison of strings and symbols (`classes/collections.c`). A string is
compared and hashed by its class index and its body; the bytes of a byte string are what its
`slvm_basicSize` counts.

## Main definitions

* `ObjectMemory.bytes` — the contents of a byte string
* `ObjectMemory.stringEquals`, `ObjectMemory.stringHash`
* `ObjectMemory.newBytes` — a new byte object with given contents

## Main results

* `ObjectMemory.stringEquals_iff` — comparison of a byte string with a byte symbol
* `ObjectMemory.stringHash_eq` — the hash of a byte string is a function of its contents
* `ObjectMemory.KernelIntact.newBytes_spec` — what `newBytes` returns
-/

namespace SlvmNative

/-- The bytes of a literal of the source. -/
def asciiBytes (literal : String) : List UInt8 := literal.toList.map fun c => UInt8.ofNat c.toNat

/-- What `strlen` sees of a C string: the bytes before the first zero. -/
def cStringBytes (string : List UInt8) : List UInt8 := string.takeWhile fun b => b != 0

/-- One step of the loop of `slvm_ByteArrayData_stringHash`. -/
def stringHashStep (hash element : UInt32) : UInt32 :=
  let hash := hash + element
  let low := hash &&& 16383
  let high := ((0x260D : UInt32) * (hash >>> 14) + (0x0065 : UInt32) * low) &&& 16383
  ((0x260D : UInt32) * low + high * 16384) &&& 0x0FFFFFFF

/-- `slvm_ByteArrayData_stringHash` -/
def byteArrayDataStringHash (data : List UInt8) (initialHash : UInt32) : UInt32 :=
  data.foldl (fun hash b => stringHashStep hash b.toUInt32) (initialHash &&& 0xFFFFFFF)

namespace ObjectMemory

/-! ### Contents -/

/-- The bytes of a byte object. -/
def bytes (m : ObjectMemory) (o : ℕ) : List UInt8 := (List.range (m.basicSize o)).map (m.byte o)

/-- The 32-bit units of a wide object, as little-endian words of its body. -/
def wideUnit (m : ObjectMemory) (o i : ℕ) : UInt32 :=
  (m.byte o (4 * i)).toUInt32 ||| (m.byte o (4 * i + 1)).toUInt32 <<< 8 |||
    (m.byte o (4 * i + 2)).toUInt32 <<< 16 ||| (m.byte o (4 * i + 3)).toUInt32 <<< 24

/-- `memcpy` into the body of an object. -/
def writeBytes (m : ObjectMemory) (o : ℕ) (data : List UInt8) : ObjectMemory :=
  { m with byte := Function.update m.byte o fun i => data.getD i (m.byte o i) }

@[simp] theorem length_bytes (m : ObjectMemory) (o : ℕ) : (m.bytes o).length = m.basicSize o := by
  simp [bytes]

@[simp] theorem writeBytes_header (m : ObjectMemory) (o : ℕ) (data : List UInt8) :
    (m.writeBytes o data).header = m.header := rfl

@[simp] theorem writeBytes_slot (m : ObjectMemory) (o : ℕ) (data : List UInt8) :
    (m.writeBytes o data).slot = m.slot := rfl

@[simp] theorem writeBytes_limit (m : ObjectMemory) (o : ℕ) (data : List UInt8) :
    (m.writeBytes o data).limit = m.limit := rfl

@[simp] theorem writeBytes_basicSize (m : ObjectMemory) (o p : ℕ) (data : List UInt8) :
    (m.writeBytes o data).basicSize p = m.basicSize p := rfl

/-- Two byte objects have the same contents if their sizes and all their bytes agree. -/
theorem bytes_eq_iff {m m' : ObjectMemory} {o p : ℕ} :
    m.bytes o = m'.bytes p ↔
      m.basicSize o = m'.basicSize p ∧ ∀ i < m.basicSize o, m.byte o i = m'.byte p i := by
  constructor
  · intro h
    have hsize : m.basicSize o = m'.basicSize p := by
      simpa using congrArg List.length h
    refine ⟨hsize, fun i hi => ?_⟩
    have hget := congrArg (fun l => l[i]?) h
    simpa [bytes, hi, ← hsize] using hget
  · rintro ⟨hsize, hbytes⟩
    rw [bytes, bytes, ← hsize]
    exact List.map_congr_left fun i hi => hbytes i (List.mem_range.mp hi)

theorem Frame.bytes {L : ℕ} {F : Set (ℕ × ℕ)} {m m' : ObjectMemory} (h : Frame L F m m') {o : ℕ}
    (ho : o < L) : m'.bytes o = m.bytes o := by
  rw [ObjectMemory.bytes, ObjectMemory.bytes, h.basicSize ho, h.byte o ho]

theorem Frame.writeBytes {F : Set (ℕ × ℕ)} (L : ℕ) (m : ObjectMemory) {o : ℕ} (ho : L ≤ o)
    (data : List UInt8) : Frame L F m (m.writeBytes o data) :=
  ⟨rfl, Nat.le_refl _, fun _ _ => rfl, fun _ _ => Function.update_of_ne (by omega) _ _,
    fun _ _ => rfl, fun _ _ => rfl, fun _ _ _ _ => rfl⟩

/-! ### Comparison and hashing -/

/-- `slvm_ByteString_equals` -/
def byteStringEquals (m : ObjectMemory) (first second : ℕ) : Bool :=
  m.basicSize first == m.basicSize second &&
    (List.range (m.basicSize first)).all fun i => m.byte first i == m.byte second i

/-- `slvm_WideString_equals` -/
def wideStringEquals (m : ObjectMemory) (first second : ℕ) : Bool :=
  m.basicSize first == m.basicSize second &&
    (List.range (m.basicSize first)).all fun i => m.wideUnit first i == m.wideUnit second i

/-- `slvm_String_equals`. Whether the first string is a symbol is asked of the second one. -/
def stringEquals (m : ObjectMemory) (first second : ℕ) : Bool :=
  if first = second then true
  else
    let firstClassIndex := (m.header first).classIndex
    let secondClassIndex := (m.header second).classIndex
    let isFirstBytes := firstClassIndex == KernelClass.ByteString.index ||
      secondClassIndex == KernelClass.ByteSymbol.index
    let isSecondBytes := secondClassIndex == KernelClass.ByteString.index ||
      secondClassIndex == KernelClass.ByteSymbol.index
    if isFirstBytes && isSecondBytes then m.byteStringEquals first second
    else
      let isFirstWide := firstClassIndex == KernelClass.WideString.index ||
        secondClassIndex == KernelClass.WideSymbol.index
      let isSecondWide := secondClassIndex == KernelClass.WideString.index ||
        secondClassIndex == KernelClass.WideSymbol.index
      if isFirstWide && isSecondWide then m.wideStringEquals first second else false

/-- `slvm_ByteString_hash` -/
def byteStringHash (m : ObjectMemory) (object : ℕ) (initialHash : UInt32) : UInt32 :=
  byteArrayDataStringHash (m.bytes object) initialHash

/-- `slvm_WideString_hash` -/
def wideStringHash (m : ObjectMemory) (object : ℕ) (initialHash : UInt32) : UInt32 :=
  ((List.range (m.basicSize object)).map (m.wideUnit object)).foldl stringHashStep
    (initialHash &&& 0xFFFFFFF)

/-- `SLVM_KCI_ByteString`, where the hashes start. -/
def initialStringHash : UInt32 := UInt32.ofNat KernelClass.ByteString.index

/-- `slvm_String_hash`; it aborts on an object that is no string. -/
def stringHash (m : ObjectMemory) (object : ℕ) : Option ℕ :=
  let classIndex := (m.header object).classIndex
  if classIndex = KernelClass.ByteString.index ∨ classIndex = KernelClass.ByteSymbol.index then
    some (m.byteStringHash object initialStringHash).toNat
  else if classIndex = KernelClass.WideString.index ∨ classIndex = KernelClass.WideSymbol.index then
    some (m.wideStringHash object initialStringHash).toNat
  else none

/-- An object that is a byte symbol. -/
def IsByteSymbol (m : ObjectMemory) (o : ℕ) : Prop :=
  oopIsPointers o ∧ (m.header o).classIndex = KernelClass.ByteSymbol.index

/-- An object that is a byte string, symbol or not. -/
def IsByteString (m : ObjectMemory) (o : ℕ) : Prop :=
  oopIsPointers o ∧ ((m.header o).classIndex = KernelClass.ByteString.index ∨
    (m.header o).classIndex = KernelClass.ByteSymbol.index)

theorem IsByteSymbol.isByteString {m : ObjectMemory} {o : ℕ} (h : m.IsByteSymbol o) :
    m.IsByteString o := ⟨h.1, Or.inr h.2⟩

theorem byteStringEquals_iff (m : ObjectMemory) (first second : ℕ) :
    m.byteStringEquals first second = true ↔ m.bytes first = m.bytes second := by
  simp [byteStringEquals, bytes_eq_iff]

/-- **Comparing a byte string with a byte symbol** compares their contents. -/
theorem stringEquals_iff {m : ObjectMemory} {first second : ℕ} (h : m.IsByteSymbol second) :
    m.stringEquals first second = true ↔ m.bytes first = m.bytes second := by
  by_cases heq : first = second
  · subst heq
    simp [stringEquals]
  · simp [stringEquals, heq, h.2, byteStringEquals_iff]

/-- The hash of a byte string with given contents. -/
def hashOfBytes (data : List UInt8) : ℕ := (byteArrayDataStringHash data initialStringHash).toNat

/-- **The hash of a byte string** depends on its contents only. -/
theorem stringHash_eq {m : ObjectMemory} {o : ℕ} (h : m.IsByteString o) :
    m.stringHash o = some (hashOfBytes (m.bytes o)) := by
  rw [stringHash, byteStringHash, hashOfBytes]
  exact if_pos h.2

/-! ### Creation -/

variable [KernelImage]

/-- `SLVM_KNEW` of a byte class, and `memcpy` of its contents. -/
def newBytes (m : ObjectMemory) (c : KernelClass) (data : List UInt8) : Option (ℕ × ObjectMemory) :=
  (m.kernelNew c data.length).map fun (object, m) => (object, m.writeBytes object data)

/-- `slvm_String_convertCString` -/
def stringConvertCString (m : ObjectMemory) (string : List UInt8) : Option (ℕ × ObjectMemory) :=
  m.newBytes .ByteString (cStringBytes string)

/-- `slvm_Symbol_convertCString` -/
def symbolConvertCString (m : ObjectMemory) (string : List UInt8) : Option (ℕ × ObjectMemory) :=
  m.newBytes .ByteSymbol (cStringBytes string)

/-- Creating a byte object changes nothing there was. -/
theorem newBytes_frame {m m' : ObjectMemory} {c : KernelClass} {data : List UInt8} {o : ℕ}
    (h : m.newBytes c data = some (o, m')) : Frame m.limit ∅ m m' := by
  rw [newBytes, Option.map_eq_some_iff] at h
  obtain ⟨⟨o₁, m₁⟩, hnew, heq⟩ := h
  have halloc := basicNew_allocated hnew
  obtain ⟨rfl, rfl⟩ := Prod.mk.inj heq
  exact halloc.frame.trans (Frame.writeBytes m.limit m₁ halloc.limit_lt.le data)

/-- **A new byte object** has the given contents. -/
theorem KernelIntact.newBytes_spec {m : ObjectMemory} (h : KernelIntact m) {c : KernelClass}
    (hc : c.info.format = ObjectFormat.indexable8) (hfix : c.info.fixedSize = 0)
    (data : List UInt8) :
    ∃ o m', m.newBytes c data = some (o, m') ∧ Allocated m c.index data.length o m' ∧
      m'.slot = m.slot ∧ m'.bytes o = data := by
  obtain ⟨o, m', hnew, halloc, hslot, -⟩ := h.kernelNew_bytes hc hfix data.length
  refine ⟨o, m'.writeBytes o data, by rw [newBytes, hnew]; rfl, ?_, hslot, ?_⟩
  · exact ⟨halloc.frame.trans (Frame.writeBytes m.limit m' halloc.limit_lt.le data),
      halloc.limit_lt,
      halloc.lt_limit, halloc.aligned, halloc.classIndex, halloc.identityHash,
      halloc.basicSize⟩
  · rw [bytes, writeBytes_basicSize, halloc.basicSize]
    refine List.ext_getElem (by simp) fun i hi hi' => ?_
    simp [writeBytes, hi']

end ObjectMemory

end SlvmNative
