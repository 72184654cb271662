import Mathlib.Algebra.BigOperators.Ring.List
import Mathlib.Algebra.Ring.Nat
import Mathlib.Data.List.Perm.Basic
import Mathlib.Data.List.TakeWhile

/-!
# Tensors and their sizes

`TensorShape` of `TensorTypes.h`, and `Tensor::allocate` over a `HostBuffer`. The element count is
multiplied from left to right, and the product is given up at the first step at which it would not
fit; a dimension 0 behind that step is not seen any more.

## Main definitions

* `TensorShape.elementCount`, `byteSize`, `Tensor.allocate`;
* `SizesExact`: the sizes of a shape are exact.

## Main results

* `toNat_elementCount`: the element count, for all dimensions;
* `sizesExact_iff`: sizes are exact when no dimension is 0, and also when the product of the other
  dimensions fits;
* `not_sizesExact`: a shape without elements, the size of which is not 0.
-/

namespace HeteroAccel.Primitives

/-- The types of the elements of a tensor. -/
inductive DataType where
  | float32 | float16 | int32 | int16 | int8 | uint8 | bool | unknown
  deriving DecidableEq, Repr

/-- The bytes of an element. -/
def elementSize : DataType → UInt64
  | .float32 => 4
  | .float16 => 2
  | .int32 => 4
  | .int16 => 2
  | .int8 => 1
  | .uint8 => 1
  | .bool => 1
  | .unknown => 0

/-- The name of a type in descriptions and errors. -/
def DataType.toString : DataType → String
  | .float32 => "FLOAT32"
  | .float16 => "FLOAT16"
  | .int32 => "INT32"
  | .int16 => "INT16"
  | .int8 => "INT8"
  | .uint8 => "UINT8"
  | .bool => "BOOL"
  | .unknown => "UNKNOWN"

/-- `UINT64_MAX`. -/
def uint64Max : UInt64 := 0xFFFFFFFFFFFFFFFF

/-- The dimensions of a tensor and the type of its elements. -/
structure TensorShape where
  dims : List UInt64 := []
  dtype : DataType := .unknown
  deriving DecidableEq

namespace TensorShape

variable (shape : TensorShape)

/-- Some dimension is 0. -/
def isEmpty : Bool := shape.dims.any (· = 0)

/-- The type of the elements is known. -/
def isValid : Bool := shape.dtype ≠ .unknown && elementSize shape.dtype > 0

/-- The loop of `elementCount`, from the count so far. -/
def countFrom (count : UInt64) : List UInt64 → UInt64
  | [] => count
  | d :: dims =>
    if d ≠ 0 ∧ count > uint64Max / d then uint64Max else countFrom (count * d) dims

/-- The number of elements: the product of the dimensions, 0 without any, and the greatest number as
soon as a product leaves 64 bits. -/
def elementCount : UInt64 := if shape.dims = [] then 0 else countFrom 1 shape.dims

/-- The bytes of a tensor: 0 without a known type, and the greatest number where 64 bits do not hold
them. -/
def byteSize : UInt64 :=
  if ¬ shape.isValid then 0
  else
    let elems := shape.elementCount
    if elems = uint64Max then uint64Max
    else
      let esz := elementSize shape.dtype
      if esz ≠ 0 ∧ elems > uint64Max / esz then uint64Max else elems * esz

/-- The description of a shape in errors. -/
def describe : String :=
  shape.dtype.toString ++ "[" ++
    "x".intercalate (shape.dims.map fun d => ToString.toString d.toNat) ++ "]"

end TensorShape

/-! ## Buffers and tensors -/

/-- How the host answers `aligned_alloc`: with as many bytes as it is asked for, or not at all. -/
structure HostMemory where
  alignedAlloc : UInt64 → Option (List UInt8)
  length_eq : ∀ bytes storage, alignedAlloc bytes = some storage → storage.length = bytes.toNat

/-- A buffer of the host. -/
structure HostBuffer where
  /-- `ptr_`, by the bytes it points to. -/
  ptr : Option (List UInt8) := none
  capacity : UInt64 := 0

namespace HostBuffer

/-- The constructor; `none` when it throws. -/
def new (memory : HostMemory) (bytes : UInt64) : Option HostBuffer :=
  if bytes = 0 then some { capacity := bytes }
  else (memory.alignedAlloc bytes).map fun storage => { ptr := some storage, capacity := bytes }

/-- A buffer that has memory, or needs none. -/
def isValid (buffer : HostBuffer) : Bool := buffer.ptr.isSome || buffer.capacity = 0

/-- A pointer into the buffer, by its offset, if there are `size` bytes from there on. -/
def data (buffer : HostBuffer) (offset size : UInt64) : Option UInt64 :=
  if buffer.ptr.isNone ∨ buffer.capacity = 0 then none
  else if offset ≥ buffer.capacity then none
  else
    let needed := if size = 0 then buffer.capacity - offset else size
    if needed > buffer.capacity - offset then none else some offset

end HostBuffer

/-- A tensor of the host, with the flag that its memory was allocated. -/
structure Tensor where
  shape : TensorShape := {}
  buffer : HostBuffer := {}
  valid : Bool := false

namespace Tensor

/-- Larger tensors are rejected. -/
def maxBytes : UInt64 := (32 : UInt64) <<< 30

/-- `Tensor::allocate`: a tensor of zeros, or an invalid one where the shape has no size that can be
allocated. -/
def allocate (memory : HostMemory) (shape : TensorShape) : Tensor :=
  if ¬ shape.isValid then {}
  else
    let bytes := shape.byteSize
    if bytes = 0 ∨ bytes = uint64Max then {}
    else if bytes > maxBytes then {}
    else
      match HostBuffer.new memory bytes with
      | some buffer => { shape, buffer, valid := true }
      | none => {}

/-- The flag, the buffer and the shape are valid. -/
def isValid (t : Tensor) : Bool := t.valid && t.buffer.isValid && t.shape.isValid

/-- Where the elements begin in the buffer, if the buffer holds them all. -/
def dataAs (t : Tensor) : Option UInt64 := t.buffer.data 0 t.shape.byteSize

end Tensor

/-! ## The property -/

/-- The exact number of elements. -/
def product (dims : List UInt64) : ℕ := (dims.map UInt64.toNat).prod

/-- The sizes of a shape are exact: the count is 0, the product or `UINT64_MAX`, in whatever order
the dimensions come, and nothing but exactly the bytes of all elements is allocated. -/
structure SizesExact (shape : TensorShape) : Prop where
  count : shape.elementCount.toNat =
    if 0 ∈ shape.dims then 0
    else if product shape.dims < 2 ^ 64 then product shape.dims else 2 ^ 64 - 1
  perm : ∀ dims, dims.Perm shape.dims → { shape with dims }.elementCount = shape.elementCount
  bytes : shape.byteSize.toNat = product shape.dims * (elementSize shape.dtype).toNat ∨
    shape.byteSize = uint64Max
  allocated : ∀ memory, (Tensor.allocate memory shape).isValid = true →
    (Tensor.allocate memory shape).buffer.capacity.toNat =
        product shape.dims * (elementSize shape.dtype).toNat ∧
      ∃ storage, (Tensor.allocate memory shape).buffer.ptr = some storage ∧
        storage.length = product shape.dims * (elementSize shape.dtype).toNat

/-! ## The loop over the dimensions -/

section Loop

variable {count d : UInt64} {dims : List UInt64}

theorem toNat_uint64Max : uint64Max.toNat = 2 ^ 64 - 1 := rfl

@[simp]
theorem product_nil : product [] = 1 := rfl

@[simp]
theorem product_cons : product (d :: dims) = d.toNat * product dims := rfl

/-- The product of dimensions, in parts. -/
theorem product_append {dims' : List UInt64} :
    product (dims ++ dims') = product dims * product dims' := by
  rw [product, List.map_append, List.prod_append]
  rfl

/-- The product is 0 exactly when a dimension is. -/
theorem product_eq_zero_iff : product dims = 0 ↔ 0 ∈ dims := by
  rw [product, List.prod_eq_zero_iff, List.mem_map]
  constructor
  · rintro ⟨d, hd, hzero⟩
    rwa [UInt64.toNat_inj.mp (hzero.trans UInt64.toNat_zero.symm)] at hd
  · exact fun h => ⟨0, h, UInt64.toNat_zero⟩

/-- Dimensions that are not 0 have a positive product. -/
theorem product_pos (h : 0 ∉ dims) : 0 < product dims :=
  Nat.pos_of_ne_zero (mt product_eq_zero_iff.mp h)

/-- The product does not depend on the order. -/
theorem product_perm {dims' : List UInt64} (h : dims.Perm dims') : product dims = product dims' :=
  (h.map _).prod_eq

/-- The guard of the loop: the next product does not fit. -/
theorem overflows_iff (hd : d ≠ 0) : count > uint64Max / d ↔ 2 ^ 64 ≤ count.toNat * d.toNat := by
  have hpos : 0 < d.toNat := Nat.pos_of_ne_zero fun h => hd (UInt64.toNat_inj.mp h)
  rw [gt_iff_lt, UInt64.lt_iff_toNat_lt, UInt64.toNat_div, Nat.div_lt_iff_lt_mul hpos,
    toNat_uint64Max]
  omega

/-- A product that 64 bits hold is not reduced. -/
theorem toNat_mul_of_lt (h : count.toNat * d.toNat < 2 ^ 64) :
    (count * d).toNat = count.toNat * d.toNat := by
  rw [UInt64.toNat_mul, Nat.mod_eq_of_lt h]

theorem notMem_takeWhile : 0 ∉ dims.takeWhile (· ≠ 0) := by
  intro h
  have hne := List.mem_takeWhile_imp h
  rw [decide_eq_true_eq] at hne
  exact hne rfl

/-- The loop gives up exactly when the dimensions in front of the first 0 have too large a
product. -/
theorem toNat_countFrom : (TensorShape.countFrom count dims).toNat =
    if 2 ^ 64 ≤ count.toNat * product (dims.takeWhile (· ≠ 0)) then 2 ^ 64 - 1
    else count.toNat * product dims := by
  induction dims generalizing count with
  | nil =>
    rw [List.takeWhile_nil, product_nil, Nat.mul_one, if_neg (Nat.not_le.mpr count.toNat_lt)]
    rfl
  | cons d dims ih =>
    by_cases hd : d = 0
    · rw [List.takeWhile_cons_of_neg (by simpa using hd), TensorShape.countFrom,
        if_neg fun h => h.1 hd, ih, hd]
      simp [Nat.not_le.mpr count.toNat_lt]
    · rw [List.takeWhile_cons_of_pos (by simpa using hd), TensorShape.countFrom, product_cons,
        product_cons, ← Nat.mul_assoc, ← Nat.mul_assoc]
      have hpos : 0 < product (dims.takeWhile (· ≠ 0)) := product_pos notMem_takeWhile
      by_cases hfits : 2 ^ 64 ≤ count.toNat * d.toNat
      · rw [if_pos ⟨hd, (overflows_iff hd).mpr hfits⟩,
          if_pos (hfits.trans (Nat.le_mul_of_pos_right _ hpos)), toNat_uint64Max]
      · rw [if_neg fun h => hfits ((overflows_iff hd).mp h.2), ih,
          toNat_mul_of_lt (Nat.not_le.mp hfits)]

/-- The dimensions in front of the first 0. -/
theorem product_takeWhile_le (dims : List UInt64) :
    product (dims.takeWhile (· ≠ 0)) ≤ product (dims.filter (· ≠ 0)) := by
  induction dims with
  | nil => exact Nat.le_refl _
  | cons d dims ih =>
    by_cases hd : d = 0
    · rw [List.takeWhile_cons_of_neg (by simpa using hd)]
      exact product_pos (by simp)
    · rw [List.takeWhile_cons_of_pos (by simpa using hd),
        List.filter_cons_of_pos (by simpa using hd)]
      exact Nat.mul_le_mul_left _ ih

end Loop

/-! ## The sizes of a shape -/

section Sizes

variable {dims : List UInt64} {dtype : DataType}

/-- A shape is empty exactly when a dimension is 0. -/
theorem TensorShape.isEmpty_iff : (TensorShape.mk dims dtype).isEmpty = true ↔ 0 ∈ dims := by
  simp [TensorShape.isEmpty]

/-- The element count of a shape, in closed form. -/
theorem toNat_elementCount (hdims : dims ≠ []) : (TensorShape.mk dims dtype).elementCount.toNat =
    if 2 ^ 64 ≤ product (dims.takeWhile (· ≠ 0)) then 2 ^ 64 - 1 else product dims := by
  rw [TensorShape.elementCount, if_neg hdims, toNat_countFrom, UInt64.toNat_one, Nat.one_mul,
    Nat.one_mul]

/-- Without a 0 among the dimensions the count is exact where it fits. -/
theorem toNat_elementCount_of_notMem (hdims : dims ≠ []) (h : 0 ∉ dims) :
    (TensorShape.mk dims dtype).elementCount.toNat =
      if product dims < 2 ^ 64 then product dims else 2 ^ 64 - 1 := by
  have hall : dims.takeWhile (· ≠ 0) = dims :=
    List.takeWhile_eq_self_iff.mpr fun d hd => by simpa using fun h0 : d = 0 => h (h0 ▸ hd)
  rw [toNat_elementCount hdims, hall]
  split_ifs <;> omega

/-- With a 0 among them it is 0 when the dimensions in front of the 0 have a product that fits. -/
theorem toNat_elementCount_of_mem (h : 0 ∈ dims) :
    (TensorShape.mk dims dtype).elementCount.toNat =
      if 2 ^ 64 ≤ product (dims.takeWhile (· ≠ 0)) then 2 ^ 64 - 1 else 0 := by
  rw [toNat_elementCount (List.ne_nil_of_mem h), product_eq_zero_iff.mpr h]

/-- The elements of a known type have a size. -/
theorem elementSize_pos (h : dtype ≠ .unknown) : 0 < (elementSize dtype).toNat := by
  cases dtype <;> first | exact absurd rfl h | decide

theorem isValid_of_ne (h : dtype ≠ .unknown) : (TensorShape.mk dims dtype).isValid = true := by
  cases dtype <;> first | exact absurd rfl h | rfl

/-- The number of bytes is exact, or it is `UINT64_MAX`. -/
theorem byteSize_cases (hdims : dims ≠ []) (hdtype : dtype ≠ .unknown) :
    (TensorShape.mk dims dtype).byteSize.toNat = product dims * (elementSize dtype).toNat ∨
      (TensorShape.mk dims dtype).byteSize = uint64Max := by
  have hesz : elementSize dtype ≠ 0 := fun h => by
    have := elementSize_pos hdtype
    rw [h] at this
    cases this
  unfold TensorShape.byteSize
  rw [if_neg (not_not.mpr (isValid_of_ne hdtype))]
  dsimp only
  split
  next => exact .inr rfl
  next hmax =>
    split
    next => exact .inr rfl
    next hfits =>
      left
      -- below `UINT64_MAX` the count is the product
      have hcount : (TensorShape.mk dims dtype).elementCount.toNat = product dims := by
        have hne : (TensorShape.mk dims dtype).elementCount.toNat ≠ 2 ^ 64 - 1 :=
          fun h => hmax (UInt64.toNat_inj.mp h)
        rw [toNat_elementCount hdims] at hne ⊢
        split at hne
        next => exact absurd rfl hne
        next hlt => rw [if_neg hlt]
      rw [toNat_mul_of_lt, hcount]
      exact Nat.not_le.mp fun h => hfits ⟨hesz, (overflows_iff hesz).mpr h⟩

/-- An allocation that succeeds has as many bytes as `byteSize` says, which is not `UINT64_MAX`. -/
theorem buffer_allocate {memory : HostMemory} {shape : TensorShape}
    (h : (Tensor.allocate memory shape).isValid = true) :
    shape.byteSize ≠ uint64Max ∧ (Tensor.allocate memory shape).buffer.capacity = shape.byteSize ∧
      ∃ storage, (Tensor.allocate memory shape).buffer.ptr = some storage ∧
        storage.length = shape.byteSize.toNat := by
  unfold Tensor.allocate at h ⊢
  split at h
  next => cases h
  next hvalid =>
    rw [if_neg hvalid]
    dsimp only at h ⊢
    split at h
    next => cases h
    next hbytes =>
      rw [if_neg hbytes]
      split at h
      next => cases h
      next hsmall =>
        rw [if_neg hsmall]
        -- neither empty nor out of range
        rw [not_or] at hbytes
        unfold HostBuffer.new at h ⊢
        rw [if_neg hbytes.1] at h ⊢
        cases hstorage : memory.alignedAlloc shape.byteSize with
        | none =>
          rw [hstorage] at h
          cases h
        | some storage =>
          exact ⟨hbytes.2, rfl, storage, rfl, memory.length_eq _ _ hstorage⟩

/-- The element count is right where the product of the dimensions that are not 0 fits. -/
theorem toNat_elementCount_of_fits (hdims : dims ≠ [])
    (hfits : 0 ∈ dims → product (dims.filter (· ≠ 0)) < 2 ^ 64) :
    (TensorShape.mk dims dtype).elementCount.toNat =
      if 0 ∈ dims then 0 else if product dims < 2 ^ 64 then product dims else 2 ^ 64 - 1 := by
  by_cases hzero : 0 ∈ dims
  · have hlt : product (dims.takeWhile (· ≠ 0)) < 2 ^ 64 :=
      (product_takeWhile_le dims).trans_lt (hfits hzero)
    rw [toNat_elementCount_of_mem hzero, if_neg (Nat.not_le.mpr hlt), if_pos hzero]
  · rw [toNat_elementCount_of_notMem hdims hzero, if_neg hzero]

/-- With the 0 behind all others, it is right only there. -/
theorem elementCount_zeros_last (hzero : 0 ∈ dims) :
    (TensorShape.mk (dims.filter (· ≠ 0) ++ dims.filter fun d => !decide (d ≠ 0))
      dtype).elementCount.toNat = 0 →
    product (dims.filter (· ≠ 0)) < 2 ^ 64 := by
  have hmem : 0 ∈ dims.filter (· ≠ 0) ++ dims.filter fun d => !decide (d ≠ 0) :=
    (List.filter_append_perm _ _).mem_iff.mpr hzero
  have hall : ∀ d ∈ dims.filter (· ≠ 0), decide (d ≠ 0) = true :=
    fun d hd => (List.mem_filter.mp hd).2
  rw [toNat_elementCount_of_mem hmem, List.takeWhile_append_of_pos hall, product_append]
  intro hcount
  split at hcount
  next => cases hcount
  next hlt =>
    have hpos : 0 < product ((dims.filter fun d => !decide (d ≠ 0)).takeWhile (· ≠ 0)) :=
      product_pos notMem_takeWhile
    exact (Nat.le_mul_of_pos_right _ hpos).trans_lt (Nat.not_le.mp hlt)

end Sizes

/-- Sizes are exact when no dimension is 0, and also when the product of the others fits. -/
theorem sizesExact_iff (dims : List UInt64) (dtype : DataType) (hdims : dims ≠ [])
    (hdtype : dtype ≠ .unknown) :
    SizesExact { dims, dtype } ↔
      ((TensorShape.mk dims dtype).isEmpty = true → product (dims.filter (· ≠ 0)) < 2 ^ 64) := by
  rw [TensorShape.isEmpty_iff]
  constructor
  · intro h hzero
    -- the zeros moved to the end
    have hperm := h.perm _ (List.filter_append_perm (fun d => decide (d ≠ 0)) dims)
    have hcount := h.count
    rw [if_pos hzero, ← hperm] at hcount
    exact elementCount_zeros_last hzero hcount
  · intro hfits
    refine ⟨?_, fun dims' hperm => ?_, byteSize_cases hdims hdtype, fun memory hvalid => ?_⟩
    · exact toNat_elementCount_of_fits hdims hfits
    · have hdims' : dims' ≠ [] := by
        rintro rfl
        exact hdims (List.perm_nil.mp hperm.symm)
      -- the condition does not depend on the order
      have hfits' : 0 ∈ dims' → product (dims'.filter (· ≠ 0)) < 2 ^ 64 := by
        rw [hperm.mem_iff, product_perm (hperm.filter _)]
        exact hfits
      refine UInt64.toNat_inj.mp ?_
      rw [toNat_elementCount_of_fits hdims' hfits', toNat_elementCount_of_fits hdims hfits,
        product_perm hperm]
      simp only [hperm.mem_iff]
    · obtain ⟨hmax, hcapacity, storage, hstorage, hlength⟩ := buffer_allocate hvalid
      have hbytes := (byteSize_cases hdims hdtype).resolve_right hmax
      rw [hcapacity]
      exact ⟨hbytes, storage, hstorage, hlength.trans hbytes⟩

/-- Two bytes wide, three by five elements. -/
theorem sizesExact_sample : SizesExact { dims := [3, 5], dtype := .int16 } :=
  (sizesExact_iff [3, 5] .int16 (by decide) (by decide)).mpr (by decide)

/-- The first two dimensions are too large together, before the 0 is seen. -/
theorem not_sizesExact :
    ¬ ∀ dims dtype, dims ≠ [] → dtype ≠ .unknown → SizesExact { dims, dtype } := by
  intro hall
  have hcount := (hall [0x8000000000000000, 4, 0] .uint8 (by decide) (by decide)).count
  revert hcount
  decide +kernel

end HeteroAccel.Primitives
