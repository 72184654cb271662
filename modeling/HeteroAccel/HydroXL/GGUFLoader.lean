import HeteroAccel.Lib.KeyedMap
import HeteroAccel.Lib.StreamParser

/-!
# The GGUF loader

`GGUFLoader` of `GGUFLoader.cpp`: the header of a GGUF file, its metadata entries and its tensor
descriptors. The parsing functions run in `Parse`, which keeps what a function did to the loader
when it fails.

Floating-point values are their bit patterns. The arrays that are kept carry the loader's bound on
their length.
-/

namespace HeteroAccel

/-! ## Values -/

/-- The type ids of metadata values. -/
inductive GGUFValueType where
  | uint8 | int8 | uint16 | int16 | uint32 | int32 | float32 | bool | string | array
  | uint64 | int64 | float64
  deriving DecidableEq, Repr

namespace GGUFValueType

/-- The type with a raw id; an id that is not in the enumeration matches no case of the source's
switches. -/
def ofRaw (raw : UInt32) : Option GGUFValueType :=
  match raw.toNat with
  | 0 => some uint8
  | 1 => some int8
  | 2 => some uint16
  | 3 => some int16
  | 4 => some uint32
  | 5 => some int32
  | 6 => some float32
  | 7 => some bool
  | 8 => some string
  | 9 => some array
  | 10 => some uint64
  | 11 => some int64
  | 12 => some float64
  | _ => none

end GGUFValueType

/-- An array that `readArray` keeps: at most 2^24 elements. -/
abbrev Retained (α : Type) := { elems : List α // elems.length ≤ 2 ^ 24 }

/-- A metadata value. -/
inductive GGUFValue where
  | uint32 (v : UInt32)
  | uint64 (v : UInt64)
  | int32 (v : Int32)
  | int64 (v : Int64)
  | float32 (bits : UInt32)
  | float64 (bits : UInt64)
  | bool (v : Bool)
  | string (v : Bytes)
  | uint32s (v : Retained UInt32)
  | int32s (v : Retained Int32)
  | float32s (v : Retained UInt32)
  | strings (v : Retained Bytes)
  deriving DecidableEq

/-- The tensor type ids; any 32-bit number can be in a file. -/
abbrev GGMLType := UInt32

namespace GGMLType

/-- The types of tensors, by their numbers in a file. -/
def f32 : GGMLType := 0
def f16 : GGMLType := 1
def q4_0 : GGMLType := 2
def q4_1 : GGMLType := 3
def q5_0 : GGMLType := 6
def q5_1 : GGMLType := 7
def q8_0 : GGMLType := 8
def q8_1 : GGMLType := 9
def q2_k : GGMLType := 10
def q3_k : GGMLType := 11
def q4_k : GGMLType := 12
def q5_k : GGMLType := 13
def q6_k : GGMLType := 14
def q8_k : GGMLType := 15

/-- The block types: the elements and the bytes of a block. -/
def blocks : List (GGMLType × UInt64 × UInt64) :=
  [(q4_0, 32, 18), (q4_1, 32, 20), (q4_k, 256, 144), (q3_k, 256, 110), (q5_0, 32, 22),
    (q5_1, 32, 24), (q6_k, 256, 210), (q8_0, 32, 34), (q8_1, 32, 36), (q2_k, 256, 84),
    (q5_k, 256, 176), (q8_k, 256, 292)]

end GGMLType

/-- A tensor descriptor. -/
structure GGUFTensorDesc where
  name : Bytes
  type : GGMLType
  /-- The dimensions, innermost first. -/
  shape : List UInt64
  /-- The offset in the data section. -/
  offset : UInt64
  nBytes : UInt64
  deriving DecidableEq

/-- A `GGUFLoader`. -/
structure GGUFLoader where
  path : Bytes := []
  file : InputStream := {}
  isOpen : Bool := false
  version : UInt32 := 0
  nTensors : UInt64 := 0
  nKv : UInt64 := 0
  dataOffset : UInt64 := 0
  fileSize : UInt64 := 0
  kv : KeyedMap Bytes GGUFValue := ∅
  tensors : List GGUFTensorDesc := []
  lastError : Bytes := []

/-- A member function that may fail. -/
abbrev Parse (α : Type) := Parser GGUFLoader α

instance : StreamState GGUFLoader where
  stream l := l.file
  setStream l file := { l with file }
  stream_setStream _ _ := rfl
  setStream_setStream _ _ _ := rfl
  setStream_stream _ := rfl

namespace GGUFLoader

open Bytes (ofString ofDecimal)
open Parser (readMany loop)

/-- The four bytes `GGUF`, read as a little-endian number, and the versions that are accepted. -/
def ggufMagic : UInt32 := 0x46554747
def ggufVerMin : UInt32 := 2
def ggufVerMax : UInt32 := 3
def ggufDefaultAlign : UInt32 := 32

/-- `last_error_ = msg; return false;` -/
def error {α : Type} (msg : Bytes) : Parse α := do
  modify fun l => { l with lastError := msg }
  failure

/-- `if (bad) { last_error_ = msg; return false; }` -/
def errorIf (bad : Prop) [Decidable bad] (msg : Bytes) : Parse Unit :=
  if bad then error msg else pure ()

/-! ## Readers -/

/-- `file_.read` of `n` bytes. -/
def fileRead (n : ℕ) : Parse (Option Bytes) := do
  let l ← get
  let (got, file) := l.file.read n
  set { l with file }
  return got

/-- `readRaw` of a type of `size` bytes. -/
def readRaw (size : ℕ) : Parse Bytes := do
  match ← fileRead size with
  | some raw => return raw
  | none => error (ofString "Unexpected EOF reading " ++ ofDecimal size ++ ofString " bytes")

/-- Numbers of one to eight bytes, the lowest byte first. -/
def readUInt8 : Parse UInt8 := do return .ofNat (Bytes.toNat (← readRaw 1))
def readUInt16 : Parse UInt16 := do return .ofNat (Bytes.toNat (← readRaw 2))
def readUInt32 : Parse UInt32 := do return .ofNat (Bytes.toNat (← readRaw 4))
def readUInt64 : Parse UInt64 := do return .ofNat (Bytes.toNat (← readRaw 8))

/-- A string: its length in eight bytes, at most 1 MiB, and its bytes. -/
def readString : Parse Bytes := do
  let len ← readUInt64
  errorIf (len > (1 : UInt64) <<< 20)
    (ofString "String length " ++ ofDecimal len.toNat ++ ofString " exceeds 1 MiB limit")
  if len = 0 then return []
  else
    match ← fileRead len.toNat with
    | some out => return out
    | none => error (ofString "EOF reading string of length " ++ ofDecimal len.toNat)

/-- The four-byte numbers that lie one behind the other in memory. -/
def words (raw : Bytes) (count : ℕ) : List UInt32 :=
  (List.range count).map fun i => .ofNat (Bytes.toNat ((raw.drop (i * 4)).take 4))

/-- Reading the `count` elements of a kept array of four-byte numbers at once. -/
def readWords (count : ℕ) (kind : String) :
    Parse { elems : List UInt32 // elems.length = count } := do
  match ← fileRead (count * 4) with
  | some raw => return ⟨words raw count, by simp [words]⟩
  | none => error (ofString ("EOF reading " ++ kind ++ " array"))

/-- The element size of the types whose arrays are skipped. -/
def skippedSize : GGUFValueType → Option UInt64
  | .uint8 | .int8 | .bool => some 1
  | .uint16 | .int16 => some 2
  | .uint64 | .int64 | .float64 => some 8
  | _ => none

/-- The value that stands for an array that was skipped. -/
def arrayTypeSkipped : GGUFValue := .string (ofString "<array_type_skipped>")

/-- Seeking over the `count` elements of a skipped array. -/
def skipElems (elemTypeRaw : UInt32) (count elemSize : UInt64) : Parse GGUFValue := do
  if count > 0 then
    let skip := count * elemSize
    modify fun l => { l with file := l.file.seekg (l.file.tellg + skip) }
    errorIf (← get).file.fail
      (ofString "EOF skipping array of type " ++ ofDecimal elemTypeRaw.toNat)
    return arrayTypeSkipped
  else return arrayTypeSkipped

/-- `readArray`. The source recurses on nested arrays; `depth` bounds the levels. As every level
takes twelve bytes off the file, the bound of `readValue` is never reached. -/
def readArray : (depth : ℕ) → Parse GGUFValue
  | 0 => failure
  | depth + 1 => do
    let elemTypeRaw ← readUInt32
    let count ← readUInt64
    if h : count.toNat ≤ 2 ^ 24 then
      match GGUFValueType.ofRaw elemTypeRaw with
      | some .uint32 =>
        let elems ← readWords count.toNat "UINT32"
        return .uint32s ⟨elems.1, elems.2.trans_le h⟩
      | some .int32 =>
        let elems ← readWords count.toNat "INT32"
        return .int32s ⟨elems.1.map (·.toInt32), (List.length_map _).trans_le (elems.2.trans_le h)⟩
      | some .float32 =>
        let elems ← readWords count.toNat "FLOAT32"
        return .float32s ⟨elems.1, elems.2.trans_le h⟩
      | some .string =>
        let elems ← readMany readString count.toNat
        return .strings ⟨elems.1, elems.2.trans_le h⟩
      | some .array =>
        let _ ← readMany (readArray depth) count.toNat
        return arrayTypeSkipped
      | some elemType =>
        match skippedSize elemType with
        | some elemSize => skipElems elemTypeRaw count elemSize
        | none => failure
      | none =>
        error (ofString "Unknown array element type: " ++ ofDecimal elemTypeRaw.toNat)
    else
      error (ofString "Array count " ++ ofDecimal count.toNat ++ ofString " exceeds 16M limit")

/-- A value of a type that is known by its number; one of a type that is not known is an error. -/
def readValue (vtypeRaw : UInt32) : Parse GGUFValue := do
  match GGUFValueType.ofRaw vtypeRaw with
  | some .uint8 => return .uint32 (← readUInt8).toUInt32
  | some .int8 => return .int32 (← readUInt8).toInt8.toInt32
  | some .uint16 => return .uint32 (← readUInt16).toUInt32
  | some .int16 => return .int32 (← readUInt16).toInt16.toInt32
  | some .uint32 => return .uint32 (← readUInt32)
  | some .int32 => return .int32 (← readUInt32).toInt32
  | some .float32 => return .float32 (← readUInt32)
  | some .bool => return .bool ((← readUInt8) ≠ 0)
  | some .string => return .string (← readString)
  | some .array => readArray ((← get).file.bytes.length + 1)
  | some .uint64 => return .uint64 (← readUInt64)
  | some .int64 => return .int64 (← readUInt64).toInt64
  | some .float64 => return .float64 (← readUInt64)
  | none => error (ofString "Unknown GGUF value type: " ++ ofDecimal vtypeRaw.toNat)

/-! ## The parts of the file -/

/-- The header: the magic number, the version, and how many tensors and entries follow. -/
def parseHeader : Parse Unit := do
  let magic ← readUInt32
  errorIf (magic ≠ ggufMagic)
    (ofString "Not a GGUF file (bad magic)")
  let version ← readUInt32
  modify fun l => { l with version }
  errorIf (version < ggufVerMin ∨ version > ggufVerMax)
    (ofString "Unsupported GGUF version: " ++ ofDecimal version.toNat)
  let nTensors ← readUInt64
  modify fun l => { l with nTensors }
  let nKv ← readUInt64
  modify fun l => { l with nKv }
  errorIf (nTensors > 65536)
    (ofString "n_tensors exceeds 65536 — corrupt file?")
  errorIf (nKv > 65536)
    (ofString "n_kv exceeds 65536 — corrupt file?")

/-- The key and the value of a metadata entry. -/
def readEntry : Parse (Bytes × GGUFValue) := do
  let key ← readString
  let vtypeRaw ← readUInt32
  let val ← readValue vtypeRaw
  return (key, val)

/-- The entry joins the map; a later entry of the same key replaces it. -/
def recordEntry (entry : Bytes × GGUFValue) (l : GGUFLoader) : GGUFLoader :=
  { l with kv := l.kv.insert entry.1 entry.2 }

/-- One round of the loop of `parseKV`. -/
def parseEntry : Parse Unit := do
  let entry ← readEntry
  modify (recordEntry entry)

/-- As many entries as the header says. -/
def parseKV : Parse Unit := do
  loop parseEntry (← get).nKv.toNat

/-- The loop over the dimensions of a descriptor, from dimension `d` on: the dimensions and the
number of elements. -/
def readShape (name : Bytes) (d : ℕ) : (left : ℕ) → (nElems : UInt64) →
    Parse (List UInt64 × UInt64)
  | 0, nElems => return ([], nElems)
  | left + 1, nElems => do
    let dim ← readUInt64
    errorIf (dim = 0)
      (ofString "Tensor '" ++ name ++ ofString "' dim[" ++ ofDecimal d ++ ofString "] is 0")
    errorIf (dim > (1 : UInt64) <<< 32)
      (ofString "Tensor '" ++ name ++ ofString "' dim[" ++ ofDecimal d ++ ofString "] = " ++
      ofDecimal dim.toNat ++ ofString " is too large")
    errorIf (nElems > -1 / dim)
      (ofString "Tensor '" ++ name ++ ofString "' element count overflow")
    let dims ← readShape name (d + 1) left (nElems * dim)
    return (dim :: dims.1, dims.2)

/-- The byte size of a tensor; a type that is not known has size 0. -/
def tensorBytes (type : GGMLType) (nElems : UInt64) : UInt64 :=
  if type = GGMLType.f32 then nElems * 4
  else if type = GGMLType.f16 then nElems * 2
  else
    match GGMLType.blocks.lookup type with
    | some (size, bytes) => (nElems + size - 1) / size * bytes
    | none => 0

/-- The bytes of a tensor, where the product for the plain types is checked against 64 bits. -/
def byteSize (type : GGMLType) (nElems : UInt64) : Parse UInt64 := do
  errorIf (type = GGMLType.f32 ∧ nElems > -1 / 4) (ofString "n_bytes overflow for F32")
  errorIf (type = GGMLType.f16 ∧ nElems > -1 / 2) (ofString "n_bytes overflow for F16")
  return tensorBytes type nElems

/-- The descriptor of a tensor. -/
def readTensor : Parse GGUFTensorDesc := do
  let name ← readString
  let nDims ← readUInt32
  errorIf (nDims = 0)
    (ofString "Tensor '" ++ name ++ ofString "' has 0 dimensions")
  errorIf (nDims > 4)
    (ofString "Tensor '" ++ name ++ ofString "' has " ++ ofDecimal nDims.toNat ++
    ofString " dims (max 4)")
  let dims ← readShape name 0 nDims.toNat 1
  let type ← readUInt32
  let offset ← readUInt64
  let nBytes ← byteSize type dims.2
  return { name, type, shape := dims.1, offset, nBytes }

/-- The tensor is appended to the list. -/
def recordTensor (desc : GGUFTensorDesc) (l : GGUFLoader) : GGUFLoader :=
  { l with tensors := l.tensors ++ [desc] }

/-- One round of the loop of `parseTensors`. -/
def parseTensor : Parse Unit := do
  let desc ← readTensor
  modify (recordTensor desc)

/-- As many tensors as the header says. -/
def parseTensors : Parse Unit := do
  loop parseTensor (← get).nTensors.toNat

/-! ## Metadata access -/

variable (l : GGUFLoader)

/-- `kvUInt32`. -/
def kvUInt32 (key : Bytes) (default : UInt32) : UInt32 :=
  match l.kv.lookup key with
  | some (.uint32 v) => v
  | some (.int32 v) => v.toUInt32
  | some (.uint64 v) => v.toUInt32
  | _ => default

/-- `kvString`. -/
def kvString (key default : Bytes) : Bytes :=
  match l.kv.lookup key with
  | some (.string v) => v
  | _ => default

/-- `kvStringArray`. -/
def kvStringArray (key : Bytes) : Retained Bytes :=
  match l.kv.lookup key with
  | some (.strings v) => v
  | _ => ⟨[], Nat.zero_le _⟩

/-! ## Opening a file -/

/-- What `open` does after parsing: the start of the data section. -/
def locateData : Parse Unit := do
  let l ← get
  let declared := l.kvUInt32 (ofString "general.alignment") ggufDefaultAlign
  let align : UInt64 := (if declared = 0 then ggufDefaultAlign else declared).toUInt64
  let curPos := l.file.tellg
  let pad := (align - curPos % align) % align
  errorIf (curPos > -1 - pad)
    (ofString "Data offset overflow while padding to alignment")
  let dataOffset := curPos + pad
  modify fun l => { l with dataOffset }
  errorIf (l.nTensors > 0 ∧ dataOffset ≥ l.fileSize)
    (ofString "Data section offset " ++ ofDecimal dataOffset.toNat ++
    ofString " is at or beyond file size " ++ ofDecimal l.fileSize.toNat ++ ofString " with " ++
    ofDecimal l.nTensors.toNat ++ ofString " declared tensors")
  modify fun l => { l with isOpen := true }

/-- What `open` does before parsing: `file` is what the path names. -/
def openFile (path : Bytes) (file : Option FileContent) : Parse Unit := do
  modify fun l => { l with path, file := l.file.open file }
  errorIf (!(← get).file.isOpen)
    (ofString "Cannot open file: " ++ path)
  modify fun l => { l with file := l.file.seekEnd }
  errorIf (← get).file.fail
    (ofString "Cannot seek file: " ++ path)
  modify fun l => { l with fileSize := l.file.tellg, file := l.file.seekg 0 }
  errorIf ((← get).fileSize < 12)
    (ofString "File too small to be GGUF: " ++ path)

/-- `open` and its result. -/
def «open» (path : Bytes) (file : Option FileContent) : Bool × GGUFLoader :=
  let opening : Parse Unit := do
    openFile path file
    parseHeader
    parseKV
    parseTensors
    locateData
  let (done, l) := opening.exec l
  (done.isSome, l)

/-! ## Tensor data -/

/-- `findTensor`. -/
def findTensor (name : Bytes) : Option GGUFTensorDesc := l.tensors.find? fun t => t.name = name

/-- `readTensorData` into the buffer `dst`, which is null when it is empty: the result, the buffer
and the loader. -/
def readTensorData (desc : GGUFTensorDesc) (dst : Bytes) (maxBytes : UInt64) :
    Bool × Bytes × GGUFLoader :=
  if !l.isOpen then (false, dst, l)
  else if desc.nBytes = 0 ∨ dst = [] then (false, dst, l)
  else if desc.nBytes > maxBytes then (false, dst, l)
  else if desc.offset > l.fileSize ∨ desc.nBytes > l.fileSize - desc.offset then (false, dst, l)
  else if desc.offset > -1 - l.dataOffset then (false, dst, l)
  else
    let fileOffset := l.dataOffset + desc.offset
    if fileOffset > l.fileSize ∨ desc.nBytes > l.fileSize - fileOffset then (false, dst, l)
    else
      let file := l.file.seekg fileOffset
      if file.fail then (false, dst, { l with file })
      else
        match file.read desc.nBytes.toNat with
        | (some got, file) => (true, got ++ dst.drop got.length, { l with file })
        | (none, file) => (false, dst, { l with file })

end GGUFLoader
end HeteroAccel
