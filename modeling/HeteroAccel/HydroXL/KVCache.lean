import HeteroAccel.Lib.Buffer
import Mathlib.Data.Nat.Basic

/-!
# The key-value cache

`HydroXLKVCache` keeps one key and one value buffer for each layer. The dimensions are 32-bit and
the sizes computed from them 64-bit, wrapping as the source's do; elements are of any type `α`. A
copy that would leave a buffer is undefined behaviour, the result `none`.

## Main definitions

* `HydroXLKVCache.allocate`: dimension checks, the size check, and the buffers;
* `HydroXLKVCache.writeKV`: one key and one value vector written at a position;
* `HydroXLKVCache.writeUpTo`: a vector written at each position up to one, as decoding does.
-/

namespace HeteroAccel

/-- The cache of keys and values, one buffer of each for each layer. -/
structure HydroXLKVCache (α : Type) where
  nLayers : UInt32 := 0
  nKvHeads : UInt32 := 0
  maxSeqLen : UInt32 := 0
  headDim : UInt32 := 0
  /-- `seq_len_`: the number of filled positions. -/
  seqLen : UInt32 := 0
  allocated : Bool := false
  kData : List (List α) := []
  vData : List (List α) := []
  deriving DecidableEq

/-- How the two `assign` calls of `allocate` end: both succeed, or one throws `bad_alloc` and
leaves some buffers behind. -/
inductive AssignOutcome (α : Type)
  | granted
  | badAlloc (kData vData : List (List α))

namespace HydroXLKVCache

variable {α : Type}

/-- `per_layer_floats`. -/
def perLayerFloats (nKvHeads maxSeqLen headDim : UInt32) : UInt64 :=
  nKvHeads.toUInt64 * maxSeqLen.toUInt64 * headDim.toUInt64

/-- `allocate`, the elements being initialised to `zero`. -/
def allocate (zero : α) (outcome : AssignOutcome α) (c : HydroXLKVCache α)
    (nLayers nKvHeads maxSeqLen headDim : UInt32) : Bool × HydroXLKVCache α :=
  if nLayers = 0 || nKvHeads = 0 || maxSeqLen = 0 || headDim = 0 then (false, c)
  else
    let perLayer := perLayerFloats nKvHeads maxSeqLen headDim
    let totalBytes := nLayers.toUInt64 * 2 * perLayer * 4
    if totalBytes > (4 : UInt64) <<< 30 then (false, c)
    else
      let c := { c with nLayers, nKvHeads, maxSeqLen, headDim, seqLen := 0 }
      match outcome with
      | .badAlloc kData vData => (false, { c with kData, vData, allocated := false })
      | .granted =>
        let buffers := List.replicate nLayers.toNat (List.replicate perLayer.toNat zero)
        (true, { c with kData := buffers, vData := buffers, allocated := true })

/-- `memoryBytes`: twice the layers in 32 bits, the rest in 64. -/
def memoryBytes (c : HydroXLKVCache α) : UInt64 :=
  if ¬ c.allocated then 0
  else (2 * c.nLayers).toUInt64 * perLayerFloats c.nKvHeads c.maxSeqLen c.headDim * 4

/-- `reset`. -/
def reset (zero : α) (c : HydroXLKVCache α) : HydroXLKVCache α :=
  { c with
    seqLen := 0
    kData := c.kData.map fun v => v.map fun _ => zero
    vData := c.vData.map fun v => v.map fun _ => zero }

/-- `writeKV`; a null pointer is `none`. -/
def writeKV (c : HydroXLKVCache α) (layer pos : UInt32) (kVec vVec : Option (List α)) :
    Option (Bool × HydroXLKVCache α) :=
  if ¬ c.allocated then some (false, c)
  else if layer ≥ c.nLayers then some (false, c)
  else if pos ≥ c.maxSeqLen then some (false, c)
  else
    match kVec, vVec with
    | some k, some v => do
      let vecLen := c.nKvHeads.toUInt64 * c.headDim.toUInt64
      let offset := pos.toUInt64 * c.nKvHeads.toUInt64 * c.headDim.toUInt64
      let kLayer ← c.kData[layer.toNat]?
      let vLayer ← c.vData[layer.toNat]?
      if offset + vecLen > .ofNat kLayer.length then some (false, c)
      else
        let kLayer ← Buffer.memcpy kLayer offset.toNat k vecLen.toNat
        let vLayer ← Buffer.memcpy vLayer offset.toNat v vecLen.toNat
        some (true, { c with
          kData := c.kData.set layer.toNat kLayer
          vData := c.vData.set layer.toNat vLayer })
    | _, _ => some (false, c)

/-- `advanceSeq`. -/
def advanceSeq (c : HydroXLKVCache α) : Bool × HydroXLKVCache α :=
  if ¬ c.allocated || c.seqLen ≥ c.maxSeqLen then (false, c)
  else (true, { c with seqLen := c.seqLen + 1 })

/-- `kLayer`. -/
def kLayer (c : HydroXLKVCache α) (layer : UInt32) : Option (List α) :=
  if ¬ c.allocated || layer ≥ c.nLayers then none else c.kData[layer.toNat]?

/-- `vLayer`. -/
def vLayer (c : HydroXLKVCache α) (layer : UInt32) : Option (List α) :=
  if ¬ c.allocated || layer ≥ c.nLayers then none else c.vData[layer.toNat]?

/-- The writes at the positions `0, …, n - 1` of a layer, one after the other. -/
def writeFirst (c : HydroXLKVCache α) (layer : UInt32) (ks vs : ℕ → List α) :
    ℕ → Option (HydroXLKVCache α)
  | 0 => some c
  | n + 1 => do
    let c ← writeFirst c layer ks vs n
    let (_, c) ← c.writeKV layer (.ofNat n) (some (ks n)) (some (vs n))
    some c

/-! ## Sizes -/

theorem toNat_mul_toUInt64 (a b : UInt32) :
    (a.toUInt64 * b.toUInt64).toNat = a.toNat * b.toNat := by
  have hlt : a.toNat * b.toNat < 2 ^ 32 * 2 ^ 32 :=
    Nat.mul_lt_mul'' a.toNat_lt b.toNat_lt
  rw [UInt64.toNat_mul, UInt32.toNat_toUInt64, UInt32.toNat_toUInt64]
  exact Nat.mod_eq_of_lt (by omega)

/-- A product of three dimensions, when it does not wrap. -/
theorem toNat_mul_mul_toUInt64 {a b c : UInt32} (h : a.toNat * b.toNat * c.toNat < 2 ^ 64) :
    (a.toUInt64 * b.toUInt64 * c.toUInt64).toNat = a.toNat * b.toNat * c.toNat := by
  rw [UInt64.toNat_mul, toNat_mul_toUInt64, UInt32.toNat_toUInt64]
  exact Nat.mod_eq_of_lt h

/-! ## What the operations do -/

/-- What a successful allocation leaves. -/
theorem allocate_eq_true {zero : α} {outcome : AssignOutcome α} {c c' : HydroXLKVCache α}
    {nLayers nKvHeads maxSeqLen headDim : UInt32}
    (h : c.allocate zero outcome nLayers nKvHeads maxSeqLen headDim = (true, c')) :
    nLayers ≠ 0 ∧ nKvHeads ≠ 0 ∧ maxSeqLen ≠ 0 ∧ headDim ≠ 0 ∧
      c' = { nLayers, nKvHeads, maxSeqLen, headDim, seqLen := 0, allocated := true,
             kData := List.replicate nLayers.toNat
               (List.replicate (perLayerFloats nKvHeads maxSeqLen headDim).toNat zero),
             vData := List.replicate nLayers.toNat
               (List.replicate (perLayerFloats nKvHeads maxSeqLen headDim).toNat zero) } := by
  unfold allocate at h
  split at h
  next => cases h
  next hdims =>
    simp only [Bool.or_eq_true, decide_eq_true_eq, not_or] at hdims
    obtain ⟨⟨⟨hlayers, hheads⟩, hseq⟩, hdim⟩ := hdims
    dsimp only at h
    split at h
    next => cases h
    next =>
      cases outcome with
      | badAlloc => cases h
      | granted =>
        cases h
        exact ⟨hlayers, hheads, hseq, hdim, rfl⟩

/-- What a write does when the position is in range and the buffers are as large as the
dimensions say. -/
theorem writeKV_eq_some_true {c : HydroXLKVCache α} {layer pos : UInt32} {k v kBuf vBuf : List α}
    (halloc : c.allocated = true) (hlayer : layer < c.nLayers) (hpos : pos < c.maxSeqLen)
    (hk : k.length = c.nKvHeads.toNat * c.headDim.toNat)
    (hv : v.length = c.nKvHeads.toNat * c.headDim.toNat)
    (hkBuf : c.kData[layer.toNat]? = some kBuf) (hvBuf : c.vData[layer.toNat]? = some vBuf)
    (hsize : kBuf.length = c.maxSeqLen.toNat * (c.nKvHeads.toNat * c.headDim.toNat))
    (hsize' : vBuf.length = c.maxSeqLen.toNat * (c.nKvHeads.toNat * c.headDim.toNat))
    (hwrap : c.maxSeqLen.toNat * (c.nKvHeads.toNat * c.headDim.toNat) < 2 ^ 64) :
    c.writeKV layer pos (some k) (some v) = some (true, { c with
      kData := c.kData.set layer.toNat
        (Buffer.blit kBuf (pos.toNat * (c.nKvHeads.toNat * c.headDim.toNat)) k)
      vData := c.vData.set layer.toNat
        (Buffer.blit vBuf (pos.toNat * (c.nKvHeads.toNat * c.headDim.toNat)) v) }) := by
  set width := c.nKvHeads.toNat * c.headDim.toNat with hwidth
  have hlt : pos.toNat + 1 ≤ c.maxSeqLen.toNat := UInt32.lt_iff_toNat_lt.mp hpos
  have hrow : pos.toNat * width + width ≤ c.maxSeqLen.toNat * width := by
    rw [← Nat.succ_mul]
    exact Nat.mul_le_mul_right _ hlt
  have hvecLen : (c.nKvHeads.toUInt64 * c.headDim.toUInt64).toNat = width :=
    toNat_mul_toUInt64 _ _
  have hoffset : (pos.toUInt64 * c.nKvHeads.toUInt64 * c.headDim.toUInt64).toNat =
      pos.toNat * width := by
    rw [toNat_mul_mul_toUInt64, Nat.mul_assoc]
    rw [Nat.mul_assoc, ← hwidth]
    omega
  have hfits : ¬ pos.toUInt64 * c.nKvHeads.toUInt64 * c.headDim.toUInt64 +
      c.nKvHeads.toUInt64 * c.headDim.toUInt64 > .ofNat kBuf.length := by
    rw [gt_iff_lt, UInt64.not_lt, UInt64.le_iff_toNat_le, UInt64.toNat_add, hvecLen, hoffset,
      UInt64.toNat_ofNat', Nat.mod_eq_of_lt (by omega), Nat.mod_eq_of_lt (by omega)]
    omega
  unfold writeKV
  rw [if_neg (by simp [halloc]), if_neg (UInt32.not_le.mpr hlayer), if_neg (UInt32.not_le.mpr hpos)]
  simp only [hkBuf, hvBuf, Option.bind_eq_bind, Option.bind_some]
  rw [if_neg hfits, hvecLen, hoffset, Buffer.memcpy_eq_blit hk (by omega),
    Buffer.memcpy_eq_blit hv (by omega)]
  rfl

end HydroXLKVCache

end HeteroAccel
