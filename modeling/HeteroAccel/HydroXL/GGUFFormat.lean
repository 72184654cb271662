import HeteroAccel.HydroXL.GGUFLoader

/-!
# The GGUF format

What a GGUF file says, independently of how it is parsed: `GGUFContent` with its encoding, the
loader's limits on it, and the metadata, the tensors and the data offset that a reader should get
from it.

The elements of arrays that the loader skips are kept as the bytes they take. `skipped` counts the
bytes at the end of a value that belong to such elements.
-/

namespace HeteroAccel

/-! ## Values -/

namespace GGUFValueType

/-- The raw id of a type. -/
def raw : GGUFValueType → UInt32
  | uint8 => 0
  | int8 => 1
  | uint16 => 2
  | int16 => 3
  | uint32 => 4
  | int32 => 5
  | float32 => 6
  | bool => 7
  | string => 8
  | array => 9
  | uint64 => 10
  | int64 => 11
  | float64 => 12

end GGUFValueType

/-- The element types whose arrays are skipped. -/
inductive SkippedType where
  | uint8 | int8 | bool | uint16 | int16 | uint64 | int64 | float64

namespace SkippedType

/-- The number of the type in a file. -/
def toValueType : SkippedType → GGUFValueType
  | uint8 => .uint8
  | int8 => .int8
  | bool => .bool
  | uint16 => .uint16
  | int16 => .int16
  | uint64 => .uint64
  | int64 => .int64
  | float64 => .float64

/-- The bytes of one element. -/
def size : SkippedType → ℕ
  | uint8 | int8 | bool => 1
  | uint16 | int16 => 2
  | uint64 | int64 | float64 => 8

end SkippedType

/-- The encoding of a string: its length and its bytes. -/
def encodeString (s : Bytes) : Bytes := Bytes.ofNat 8 s.length ++ s

/-- An array as it stands in a file. -/
inductive GGUFArray where
  | uint32s (elems : Retained UInt32)
  | int32s (elems : Retained Int32)
  | float32s (bits : Retained UInt32)
  | strings (elems : Retained Bytes)
  | skipped (type : SkippedType) (count : ℕ)
      (payload : { bytes : Bytes // bytes.length = count * type.size })
  | nested (elems : List GGUFArray)

namespace GGUFArray

/-- The type id of the elements, their number and their encodings. -/
def encodeElems (type : GGUFValueType) (count : ℕ) (elems : Bytes) : Bytes :=
  Bytes.ofNat 4 type.raw.toNat ++ (Bytes.ofNat 8 count ++ elems)

/-- The bytes of an array: type and length of its elements, and the elements. -/
def encode : GGUFArray → Bytes
  | uint32s elems => encodeElems .uint32 elems.1.length
      (elems.1.flatMap fun v => Bytes.ofNat 4 v.toNat)
  | int32s elems => encodeElems .int32 elems.1.length
      (elems.1.flatMap fun v => Bytes.ofNat 4 v.toUInt32.toNat)
  | float32s bits => encodeElems .float32 bits.1.length
      (bits.1.flatMap fun v => Bytes.ofNat 4 v.toNat)
  | strings elems => encodeElems .string elems.1.length (elems.1.flatMap encodeString)
  | skipped type count payload => encodeElems type.toValueType count payload.1
  | nested elems => encodeElems .array elems.length (elems.flatMap encode)

/-- The type of the elements. -/
def elemType : GGUFArray → GGUFValueType
  | uint32s _ => .uint32
  | int32s _ => .int32
  | float32s _ => .float32
  | strings _ => .string
  | skipped type _ _ => type.toValueType
  | nested _ => .array

/-- How many elements the array has. -/
def length : GGUFArray → ℕ
  | uint32s elems => elems.1.length
  | int32s elems => elems.1.length
  | float32s bits => bits.1.length
  | strings elems => elems.1.length
  | skipped _ count _ => count
  | nested elems => elems.length

/-- The encodings of the elements. -/
def elemBytes : GGUFArray → Bytes
  | uint32s elems => elems.1.flatMap fun v => Bytes.ofNat 4 v.toNat
  | int32s elems => elems.1.flatMap fun v => Bytes.ofNat 4 v.toUInt32.toNat
  | float32s bits => bits.1.flatMap fun v => Bytes.ofNat 4 v.toNat
  | strings elems => elems.1.flatMap encodeString
  | skipped _ _ payload => payload.1
  | nested elems => elems.flatMap encode

/-- An array is its type, its length and its elements. -/
theorem encode_eq (a : GGUFArray) : a.encode = encodeElems a.elemType a.length a.elemBytes := by
  cases a <;> rw [encode] <;> rfl

/-- The bytes at the end that belong to skipped elements. -/
def skippedBytes : GGUFArray → ℕ
  | skipped type count _ => count * type.size
  | nested elems => elems.foldl (fun _ a => skippedBytes a) 0
  | _ => 0

/-- The levels of nesting. -/
def depth : GGUFArray → ℕ
  | nested elems => elems.foldr (fun a d => max (depth a) d) 0 + 1
  | _ => 1

/-- At most 2^24 elements on every level, and strings of at most 1 MiB. -/
def InLimits : GGUFArray → Prop
  | strings elems => ∀ s ∈ elems.1, s.length ≤ 2 ^ 20
  | skipped _ count _ => count ≤ 2 ^ 24
  | nested elems => elems.length ≤ 2 ^ 24 ∧ ∀ a ∈ elems, InLimits a
  | _ => True

/-- The value that a reader should get: a placeholder for what is skipped. -/
def value : GGUFArray → GGUFValue
  | uint32s elems => .uint32s elems
  | int32s elems => .int32s elems
  | float32s bits => .float32s bits
  | strings elems => .strings elems
  | skipped _ _ _ | nested _ => .string (Bytes.ofString "<array_type_skipped>")

variable {a : GGUFArray}

/-- An array of unsigned numbers, by its type. -/
theorem eq_uint32s (h : a.elemType = .uint32) : ∃ elems, a = uint32s elems := by
  match a, h with
  | uint32s elems, _ => exact ⟨elems, rfl⟩
  | skipped type _ _, h => cases type <;> cases h

/-- An array of signed numbers, by its type. -/
theorem eq_int32s (h : a.elemType = .int32) : ∃ elems, a = int32s elems := by
  match a, h with
  | int32s elems, _ => exact ⟨elems, rfl⟩
  | skipped type _ _, h => cases type <;> cases h

theorem eq_float32s (h : a.elemType = .float32) : ∃ bits, a = float32s bits := by
  match a, h with
  | float32s bits, _ => exact ⟨bits, rfl⟩
  | skipped type _ _, h => cases type <;> cases h

theorem eq_strings (h : a.elemType = .string) : ∃ elems, a = strings elems := by
  match a, h with
  | strings elems, _ => exact ⟨elems, rfl⟩
  | skipped type _ _, h => cases type <;> cases h

theorem eq_nested (h : a.elemType = .array) : ∃ elems, a = nested elems := by
  match a, h with
  | nested elems, _ => exact ⟨elems, rfl⟩
  | skipped type _ _, h => cases type <;> cases h

/-- An array that is skipped, by its type. -/
theorem eq_skipped {type : SkippedType} (h : a.elemType = type.toValueType) :
    ∃ count payload, a = skipped type count payload := by
  match a, h with
  | skipped type' count payload, h =>
    obtain rfl : type' = type := by cases type <;> cases type' <;> first | rfl | cases h
    exact ⟨count, payload, rfl⟩
  | uint32s _, h | int32s _, h | float32s _, h | strings _, h | nested _, h =>
    cases type <;> cases h

/-- An array within limits has at most 2^24 elements. -/
theorem InLimits.length_le (h : a.InLimits) : a.length ≤ 2 ^ 24 := by
  cases a with
  | uint32s elems => exact elems.2
  | int32s elems => exact elems.2
  | float32s bits => exact bits.2
  | strings elems => exact elems.2
  | skipped type count payload =>
    rw [InLimits] at h
    exact h
  | nested elems =>
    rw [InLimits] at h
    exact h.1

theorem depth_pos (a : GGUFArray) : 1 ≤ a.depth := by
  cases a <;> simp [depth]

theorem length_encode (a : GGUFArray) : a.encode.length = 12 + a.elemBytes.length := by
  rw [encode_eq, encodeElems, List.length_append, List.length_append, Bytes.length_ofNat,
    Bytes.length_ofNat]
  omega

/-- Every level of an array starts with twelve bytes that are looked at. -/
theorem depth_add_skippedBytes_le (a : GGUFArray) :
    12 * a.depth + a.skippedBytes ≤ a.encode.length := by
  induction a using encode.induct with
  | case6 elems ih =>
    -- the skipped bytes at the end are those of the last element
    have hlast : ∀ (elems : List GGUFArray) (n : ℕ),
        (∀ a ∈ elems, 12 * a.depth + a.skippedBytes ≤ a.encode.length) →
        12 * elems.foldr (fun a d => max a.depth d) 0 +
          elems.foldl (fun _ a => a.skippedBytes) n ≤ n + (elems.flatMap encode).length := by
      intro elems
      induction elems with
      | nil => exact fun n _ => by simp
      | cons a elems ih =>
        intro n h
        have ha := h a List.mem_cons_self
        have has := ih a.skippedBytes fun b hb => h b (List.mem_cons_of_mem _ hb)
        rw [List.foldr_cons, List.foldl_cons, List.flatMap_cons, List.length_append]
        omega
    have := hlast elems 0 ih
    rw [length_encode, depth, skippedBytes, elemBytes]
    omega
  | case5 type count payload =>
    have := payload.2
    rw [length_encode]
    simp only [depth, skippedBytes, elemBytes]
    omega
  | _ =>
    rw [length_encode]
    simp [depth, skippedBytes]

/-- An array of arrays is one deeper than they are. -/
theorem depth_nested_le_iff {elems : List GGUFArray} {d : ℕ} :
    (nested elems).depth ≤ d + 1 ↔ ∀ a ∈ elems, a.depth ≤ d := by
  rw [depth, Nat.add_le_add_iff_right]
  induction elems with
  | nil => simp
  | cons a elems ih => rw [List.foldr_cons, max_le_iff, ih, List.forall_mem_cons]

end GGUFArray

/-- A metadata value as it stands in a file. -/
inductive GGUFData where
  | uint8 (v : UInt8)
  | int8 (v : Int8)
  | uint16 (v : UInt16)
  | int16 (v : Int16)
  | uint32 (v : UInt32)
  | int32 (v : Int32)
  | float32 (bits : UInt32)
  | bool (byte : UInt8)
  | string (s : Bytes)
  | array (a : GGUFArray)
  | uint64 (v : UInt64)
  | int64 (v : Int64)
  | float64 (bits : UInt64)

namespace GGUFData

/-- The type of a value. -/
def type : GGUFData → GGUFValueType
  | uint8 _ => .uint8
  | int8 _ => .int8
  | uint16 _ => .uint16
  | int16 _ => .int16
  | uint32 _ => .uint32
  | int32 _ => .int32
  | float32 _ => .float32
  | bool _ => .bool
  | string _ => .string
  | array _ => .array
  | uint64 _ => .uint64
  | int64 _ => .int64
  | float64 _ => .float64

/-- The bytes of a value, without its type. -/
def encode : GGUFData → Bytes
  | uint8 v => Bytes.ofNat 1 v.toNat
  | int8 v => Bytes.ofNat 1 v.toUInt8.toNat
  | uint16 v => Bytes.ofNat 2 v.toNat
  | int16 v => Bytes.ofNat 2 v.toUInt16.toNat
  | uint32 v => Bytes.ofNat 4 v.toNat
  | int32 v => Bytes.ofNat 4 v.toUInt32.toNat
  | float32 bits => Bytes.ofNat 4 bits.toNat
  | bool byte => Bytes.ofNat 1 byte.toNat
  | string s => encodeString s
  | array a => a.encode
  | uint64 v => Bytes.ofNat 8 v.toNat
  | int64 v => Bytes.ofNat 8 v.toUInt64.toNat
  | float64 bits => Bytes.ofNat 8 bits.toNat

/-- The value that a reader should get: small integers widened, any byte but 0 for true. -/
def value : GGUFData → GGUFValue
  | uint8 v => .uint32 v.toUInt32
  | int8 v => .int32 v.toInt32
  | uint16 v => .uint32 v.toUInt32
  | int16 v => .int32 v.toInt32
  | uint32 v => .uint32 v
  | int32 v => .int32 v
  | float32 bits => .float32 bits
  | bool byte => .bool (byte ≠ 0)
  | string s => .string s
  | array a => a.value
  | uint64 v => .uint64 v
  | int64 v => .int64 v
  | float64 bits => .float64 bits

/-- How many bytes of the value the loader skips. -/
def skippedBytes : GGUFData → ℕ
  | array a => a.skippedBytes
  | _ => 0

/-- A value within the limits of the loader. -/
def InLimits : GGUFData → Prop
  | string s => s.length ≤ 2 ^ 20
  | array a => a.InLimits
  | _ => True

end GGUFData

/-! ## The content of a file -/

/-- A metadata entry. -/
structure GGUFEntry where
  key : Bytes
  data : GGUFData

namespace GGUFEntry

/-- The bytes of an entry: key, type and value. -/
def encode (e : GGUFEntry) : Bytes :=
  encodeString e.key ++ (Bytes.ofNat 4 e.data.type.raw.toNat ++ e.data.encode)

/-- An entry within the limits of the loader. -/
def InLimits (e : GGUFEntry) : Prop := e.key.length ≤ 2 ^ 20 ∧ e.data.InLimits

end GGUFEntry

/-- The product of the dimensions. -/
def volume (shape : List UInt64) : ℕ := (shape.map (·.toNat)).prod

/-- A tensor descriptor. -/
structure GGUFTensor where
  name : Bytes
  shape : List UInt64
  type : GGMLType
  offset : UInt64

namespace GGUFTensor

/-- The number of elements. -/
def count (t : GGUFTensor) : ℕ := volume t.shape

/-- The bytes of a tensor: name, dimensions, type, and where its data begin. -/
def encode (t : GGUFTensor) : Bytes :=
  encodeString t.name ++ (Bytes.ofNat 4 t.shape.length ++
    ((t.shape.flatMap fun dim => Bytes.ofNat 8 dim.toNat) ++
      (Bytes.ofNat 4 t.type.toNat ++ Bytes.ofNat 8 t.offset.toNat)))

/-- One to four dimensions between 1 and 2^32; the numbers of elements and, for the types without
blocks, of bytes fit in 64 bits. -/
structure InLimits (t : GGUFTensor) : Prop where
  name : t.name.length ≤ 2 ^ 20
  rank : 1 ≤ t.shape.length ∧ t.shape.length ≤ 4
  dims : ∀ dim ∈ t.shape, 1 ≤ dim.toNat ∧ dim.toNat ≤ 2 ^ 32
  count : t.count < 2 ^ 64
  f32 : t.type = GGMLType.f32 → 4 * t.count < 2 ^ 64
  f16 : t.type = GGMLType.f16 → 2 * t.count < 2 ^ 64

end GGUFTensor

/-- What a GGUF file says in front of its data section. -/
structure GGUFContent where
  version : UInt32
  entries : List GGUFEntry
  tensors : List GGUFTensor

namespace GGUFContent

variable (c : GGUFContent)

/-- The bytes of a file up to the data of its tensors. -/
def encode : Bytes :=
  Bytes.ofNat 4 0x46554747 ++ (Bytes.ofNat 4 c.version.toNat ++
    (Bytes.ofNat 8 c.tensors.length ++ (Bytes.ofNat 8 c.entries.length ++
      (c.entries.flatMap GGUFEntry.encode ++ c.tensors.flatMap GGUFTensor.encode))))

/-- The loader's limits. -/
structure InLimits : Prop where
  version : c.version = 2 ∨ c.version = 3
  entriesLength : c.entries.length ≤ 65536
  tensorsLength : c.tensors.length ≤ 65536
  entries : ∀ e ∈ c.entries, e.InLimits
  tensors : ∀ t ∈ c.tensors, t.InLimits

/-- The metadata: a later entry replaces an earlier one with the same key. -/
def metadata : KeyedMap Bytes GGUFValue :=
  KeyedMap.ofPairs (c.entries.map fun e => (e.key, e.data.value))

/-- The alignment of the data section that the metadata asks for; 32 when it does not say. -/
def HasAlignment (align : ℕ) : Prop :=
  (c.metadata.lookup (Bytes.ofString "general.alignment") = none ∧ align = 32) ∨
    ∃ v : UInt32, c.metadata.lookup (Bytes.ofString "general.alignment") = some (.uint32 v) ∧
      v ≠ 0 ∧ align = v.toNat

/-- Where the data section starts: the end of the descriptors, rounded up. -/
def dataStart (align : ℕ) : ℕ := (c.encode.length + align - 1) / align * align

/-- The bytes at the end that belong to skipped elements: those of the last entry, where no
descriptor comes behind it. -/
def skippedBytes : ℕ :=
  if c.tensors = [] then c.entries.foldl (fun _ e => e.data.skippedBytes) 0 else 0

end GGUFContent
end HeteroAccel
