import HeteroAccel.HydroXL.KVCache
import HeteroAccel.Lib.Transition
import Mathlib.Tactic.Ring

/-!
# The representation of the key-value cache

Runs of calls on a cache. `allocate` multiplies four 32-bit dimensions in 64 bits and compares the
product with its limit; where the product wraps around to a small number the check passes and the
buffers do not have the size that the dimensions say.

## Main definitions

* `KVDims.Checked`: dimensions for which the 64-bit check decides about the natural product;
* `HydroXLKVCache.calls`: the calls of a cache as a transition system;
* `HydroXLKVCache.Conforms`: what is promised of a cache and of the next call.

## Main results

* `HydroXLKVCache.conforms_of_reachable`: every run of checked allocations keeps the promises.
* `HydroXLKVCache.not_conforms`: an allocation of 2^64 elements for each layer does not.
-/

namespace HeteroAccel

/-- The dimensions of a cache. -/
structure KVDims where
  nLayers : UInt32
  nKvHeads : UInt32
  maxSeqLen : UInt32
  headDim : UInt32

namespace KVDims

/-- No dimension is 0. -/
def Positive (d : KVDims) : Prop :=
  d.nLayers ≠ 0 ∧ d.nKvHeads ≠ 0 ∧ d.maxSeqLen ≠ 0 ∧ d.headDim ≠ 0

instance (d : KVDims) : Decidable d.Positive := inferInstanceAs (Decidable (_ ∧ _))

/-- The elements of one vector. -/
def width (d : KVDims) : ℕ := d.nKvHeads.toNat * d.headDim.toNat

/-- The elements of one buffer. -/
def layerSize (d : KVDims) : ℕ := d.nKvHeads.toNat * d.maxSeqLen.toNat * d.headDim.toNat

/-- The bytes of all buffers. -/
def bytes (d : KVDims) : ℕ := 8 * d.nLayers.toNat * d.layerSize

/-- The number of bytes is in the limit of 4 GiB, or beyond it in 64 bits, too. -/
def Checked (d : KVDims) : Prop := d.bytes ≤ 2 ^ 32 ∨ 2 ^ 32 < d.bytes % 2 ^ 64

/-- `total_bytes`. -/
def totalBytes (d : KVDims) : UInt64 :=
  d.nLayers.toUInt64 * 2 * HydroXLKVCache.perLayerFloats d.nKvHeads d.maxSeqLen d.headDim * 4

theorem toNat_totalBytes (d : KVDims) : d.totalBytes.toNat = d.bytes % 2 ^ 64 := by
  have hbytes : d.totalBytes = UInt64.ofNat d.bytes := by
    have hring : d.bytes = d.nLayers.toNat * 2 *
        (d.nKvHeads.toNat * d.maxSeqLen.toNat * d.headDim.toNat) * 4 := by
      unfold bytes layerSize
      ring
    rw [hring, totalBytes, HydroXLKVCache.perLayerFloats]
    simp only [UInt64.ofNat_mul, UInt64.ofNat_uInt32ToNat]
    rfl
  rw [hbytes, UInt64.toNat_ofNat']

theorem layerSize_eq (d : KVDims) : d.layerSize = d.maxSeqLen.toNat * d.width := by
  unfold layerSize width
  ring

/-- The buffers of a cache in the limit are much smaller than 2^64 elements. -/
theorem layerSize_le (d : KVDims) (hlayers : d.nLayers ≠ 0) (h : d.bytes ≤ 2 ^ 32) :
    d.layerSize ≤ 2 ^ 29 := by
  have hpos : 1 ≤ d.nLayers.toNat :=
    Nat.one_le_iff_ne_zero.mpr fun hzero => hlayers (UInt32.toNat_inj.mp hzero)
  have hmul : 8 * d.layerSize ≤ 8 * d.nLayers.toNat * d.layerSize :=
    Nat.mul_le_mul_right _ (by omega)
  have hle : 8 * d.layerSize ≤ 2 ^ 32 := hmul.trans h
  omega

/-- The vectors of a cache in the limit are short. -/
theorem width_le (d : KVDims) (hd : d.Positive) (h : d.bytes ≤ 2 ^ 32) : d.width ≤ 2 ^ 29 := by
  obtain ⟨hlayers, -, hseq, -⟩ := hd
  have hsize := d.layerSize_le hlayers h
  have hpos : 0 < d.maxSeqLen.toNat :=
    Nat.pos_of_ne_zero fun hzero => hseq (UInt32.toNat_inj.mp hzero)
  rw [layerSize_eq] at hsize
  exact (Nat.le_mul_of_pos_left _ hpos).trans hsize

/-- `per_layer_floats` does not wrap around in the limit. -/
theorem toNat_perLayerFloats (d : KVDims) (hlayers : d.nLayers ≠ 0) (h : d.bytes ≤ 2 ^ 32) :
    (HydroXLKVCache.perLayerFloats d.nKvHeads d.maxSeqLen d.headDim).toNat = d.layerSize := by
  have hle := d.layerSize_le hlayers h
  exact HydroXLKVCache.toNat_mul_mul_toUInt64 (Nat.lt_of_le_of_lt hle (by decide))

end KVDims

namespace HydroXLKVCache

variable {α : Type} {zero : α} {outcome : AssignOutcome α} {c c' : HydroXLKVCache α} {d : KVDims}

/-- The dimensions that a cache has recorded. -/
def dims (c : HydroXLKVCache α) : KVDims := ⟨c.nLayers, c.nKvHeads, c.maxSeqLen, c.headDim⟩

/-- The elements of the largest vector of floats, 2^61 - 1. -/
def maxFloats : UInt64 := 0x1fffffffffffffff

/-- A call of `allocate`. A buffer that no vector can have throws a `length_error`, which is not
caught: the result `none`, with the new dimensions in place. -/
def callAllocate (zero : α) (outcome : AssignOutcome α) (c : HydroXLKVCache α) (d : KVDims) :
    Option Bool × HydroXLKVCache α :=
  if d.Positive ∧ ¬d.totalBytes > (4 : UInt64) <<< 30 ∧
      perLayerFloats d.nKvHeads d.maxSeqLen d.headDim > maxFloats then
    (none, { c with
      nLayers := d.nLayers, nKvHeads := d.nKvHeads, maxSeqLen := d.maxSeqLen, headDim := d.headDim
      seqLen := 0 })
  else
    let (ok, c) := c.allocate zero outcome d.nLayers d.nKvHeads d.maxSeqLen d.headDim
    (some ok, c)

/-- The calls that change a cache. -/
inductive Call (α : Type)
  | allocate (d : KVDims)
  | reset
  | writeKV (layer pos : UInt32) (kVec vVec : Option (List α))
  | advanceSeq

/-- What a call can do, whatever memory there is. A write whose source is too short is undefined and
takes no step. -/
def Call.Takes (zero : α) (c : HydroXLKVCache α) : Call α → HydroXLKVCache α → Prop
  | allocate d, c' => ∃ outcome, (c.callAllocate zero outcome d).2 = c'
  | reset, c' => c.reset zero = c'
  | writeKV layer pos kVec vVec, c' => ∃ ok, c.writeKV layer pos kVec vVec = some (ok, c')
  | advanceSeq, c' => c.advanceSeq.2 = c'

/-- The runs of calls on a cache. -/
def calls (zero : α) : TransitionSystem (HydroXLKVCache α) (Call α) where
  Init c := c = {}
  Step c call c' := call.Takes zero c c'

/-- Runs in which the dimensions given to `allocate` have a property. -/
def allocating (P : KVDims → Prop) (_ : HydroXLKVCache α) : Call α → Prop
  | .allocate d => P d
  | _ => True

/-- The dimensions and the buffers of an allocated cache. -/
structure Represented (c : HydroXLKVCache α) : Prop where
  positive : c.dims.Positive
  bytes : c.dims.bytes ≤ 2 ^ 32
  kLayers : c.kData.length = c.nLayers.toNat
  vLayers : c.vData.length = c.nLayers.toNat
  kSize : ∀ buf ∈ c.kData, buf.length = c.dims.layerSize
  vSize : ∀ buf ∈ c.vData, buf.length = c.dims.layerSize

/-- What is promised of a cache and of the next call, when `allocate` is called with dimensions that
have a property. -/
structure Conforms (zero : α) (P : KVDims → Prop) (c : HydroXLKVCache α) : Prop where
  represented : c.allocated = true → c.Represented
  /-- A write in range succeeds, in one row of the two buffers of its layer. -/
  writes : c.allocated = true → ∀ layer pos : UInt32, layer < c.nLayers → pos < c.maxSeqLen →
    ∀ k v : List α, c.dims.width ≤ k.length → c.dims.width ≤ v.length → ∃ kBuf vBuf : List α,
      c.kData[layer.toNat]? = some kBuf ∧ c.vData[layer.toNat]? = some vBuf ∧
      pos.toNat * c.dims.width + c.dims.width ≤ kBuf.length ∧
      pos.toNat * c.dims.width + c.dims.width ≤ vBuf.length ∧
      c.writeKV layer pos (some k) (some v) = some (true, { c with
        kData := c.kData.set layer.toNat
          (Buffer.blit kBuf (pos.toNat * c.dims.width) (k.take c.dims.width))
        vData := c.vData.set layer.toNat
          (Buffer.blit vBuf (pos.toNat * c.dims.width) (v.take c.dims.width)) })
  /-- An allocation succeeds in the limit only. -/
  allocates : ∀ d, P d → ∀ outcome, (c.callAllocate zero outcome d).1 = some true →
    d.Positive ∧ d.bytes ≤ 2 ^ 32
  /-- An allocation that fails leaves the cache unallocated or as it was. -/
  fails : ∀ d, P d → ∀ outcome, (c.callAllocate zero outcome d).1 ≠ some true →
    (c.callAllocate zero outcome d).2.allocated = false ∨ (c.callAllocate zero outcome d).2 = c

/-! ## What the calls do -/

/-- What passes the size check is in the limit, when the dimensions are checked. -/
theorem bytes_le_of_passes (hd : d.Checked) (hpass : ¬d.totalBytes > (4 : UInt64) <<< 30) :
    d.bytes ≤ 2 ^ 32 := by
  have hlimit : ((4 : UInt64) <<< 30).toNat = 2 ^ 32 := by decide
  rw [gt_iff_lt, UInt64.lt_iff_toNat_lt, hlimit, d.toNat_totalBytes] at hpass
  exact hd.resolve_right hpass

variable (zero c) in
/-- `allocate` with checked dimensions: it refuses them, runs out of memory, or returns new buffers
in the limit. -/
theorem callAllocate_cases (hd : d.Checked) (outcome : AssignOutcome α) :
    c.callAllocate zero outcome d = (some false, c) ∨
    (∃ c' : HydroXLKVCache α, c.callAllocate zero outcome d = (some false, c') ∧
      c'.allocated = false) ∨
    ∃ c' : HydroXLKVCache α, c.callAllocate zero outcome d = (some true, c') ∧ c'.dims = d ∧
      d.Positive ∧ d.bytes ≤ 2 ^ 32 ∧
      c'.kData = List.replicate d.nLayers.toNat (List.replicate d.layerSize zero) ∧
      c'.vData = List.replicate d.nLayers.toNat (List.replicate d.layerSize zero) := by
  -- no buffer in the limit is too large for a vector
  have hreturns : ¬(d.Positive ∧ ¬d.totalBytes > (4 : UInt64) <<< 30 ∧
      perLayerFloats d.nKvHeads d.maxSeqLen d.headDim > maxFloats) := by
    rintro ⟨⟨hlayers, -⟩, hpass, hlarge⟩
    have hbytes := bytes_le_of_passes hd hpass
    have hle := d.layerSize_le hlayers hbytes
    have hmax : maxFloats.toNat = 2 ^ 61 - 1 := by decide +kernel
    rw [gt_iff_lt, UInt64.lt_iff_toNat_lt, d.toNat_perLayerFloats hlayers hbytes, hmax] at hlarge
    omega
  unfold callAllocate
  rw [if_neg hreturns]
  cases hrun : c.allocate zero outcome d.nLayers d.nKvHeads d.maxSeqLen d.headDim with
  | mk ok c' =>
    unfold allocate at hrun
    split at hrun
    next =>
      cases hrun
      exact .inl rfl
    next hpositive =>
      simp only [Bool.or_eq_true, decide_eq_true_eq, not_or] at hpositive
      obtain ⟨⟨⟨hlayers, hheads⟩, hseq⟩, hdim⟩ := hpositive
      dsimp only at hrun
      split at hrun
      next =>
        cases hrun
        exact .inl rfl
      next hpass =>
        have hbytes := bytes_le_of_passes hd hpass
        rw [d.toNat_perLayerFloats hlayers hbytes] at hrun
        cases outcome with
        | badAlloc kData vData =>
          cases hrun
          exact .inr (.inl ⟨_, rfl, rfl⟩)
        | granted =>
          cases hrun
          exact .inr (.inr ⟨_, rfl, rfl, ⟨hlayers, hheads, hseq, hdim⟩, hbytes, rfl, rfl⟩)

/-- A call that reports success has allocated. -/
theorem callAllocate_eq_true {outcome : AssignOutcome α}
    (h : c.callAllocate zero outcome d = (some true, c')) :
    c.allocate zero outcome d.nLayers d.nKvHeads d.maxSeqLen d.headDim = (true, c') := by
  unfold callAllocate at h
  split at h
  · cases h
  · generalize c.allocate zero outcome d.nLayers d.nKvHeads d.maxSeqLen d.headDim = r at h ⊢
    obtain ⟨ok, c''⟩ := r
    cases h
    rfl

/-- A write changes nothing but one buffer of each kind, which keeps its length. -/
theorem writeKV_cases {layer pos : UInt32} {kVec vVec : Option (List α)} {ok : Bool}
    (h : c.writeKV layer pos kVec vVec = some (ok, c')) :
    c' = c ∨ ∃ kOld vOld kNew vNew : List α,
      c.kData[layer.toNat]? = some kOld ∧ c.vData[layer.toNat]? = some vOld ∧
      kNew.length = kOld.length ∧ vNew.length = vOld.length ∧
      c' = { c with
        kData := c.kData.set layer.toNat kNew
        vData := c.vData.set layer.toNat vNew } := by
  have hsame : ∀ {r : Bool}, some (r, c) = some (ok, c') → c' = c := fun heq =>
    (Prod.mk.inj (Option.some.inj heq)).2.symm
  unfold writeKV at h
  split at h
  next => exact .inl (hsame h)
  next =>
    split at h
    next => exact .inl (hsame h)
    next =>
      split at h
      next => exact .inl (hsame h)
      next =>
        split at h
        next k v =>
          simp only [Option.bind_eq_bind, Option.bind_eq_some_iff] at h
          obtain ⟨kOld, hkOld, vOld, hvOld, h⟩ := h
          split at h
          next => exact .inl (hsame h)
          next =>
            simp only [Option.bind_eq_some_iff] at h
            obtain ⟨kNew, hkNew, vNew, hvNew, h⟩ := h
            cases h
            exact .inr ⟨kOld, vOld, kNew, vNew, hkOld, hvOld, Buffer.length_memcpy hkNew,
              Buffer.length_memcpy hvNew, rfl⟩
        next => exact .inl (hsame h)

theorem writeKV_take {layer pos : UInt32} {k v : List α} (hk : c.dims.width ≤ k.length)
    (hv : c.dims.width ≤ v.length) :
    c.writeKV layer pos (some k) (some v) =
      c.writeKV layer pos (some (k.take c.dims.width)) (some (v.take c.dims.width)) := by
  have hwidth : (c.nKvHeads.toUInt64 * c.headDim.toUInt64).toNat = c.dims.width :=
    toNat_mul_toUInt64 _ _
  unfold writeKV
  simp only [hwidth, Buffer.memcpy_take hk, Buffer.memcpy_take hv]

/-! ## The invariant -/

namespace Represented

/-- A buffer that is replaced by one of its length keeps the sizes. -/
theorem length_set {bufs : List (List α)} {i n : ℕ} {old new : List α}
    (hsize : ∀ buf ∈ bufs, buf.length = n) (hold : bufs[i]? = some old)
    (hnew : new.length = old.length) : ∀ buf ∈ bufs.set i new, buf.length = n := by
  intro buf hbuf
  rcases List.mem_or_eq_of_mem_set hbuf with hbuf | rfl
  · exact hsize buf hbuf
  · rw [hnew]
    exact hsize old (List.mem_of_getElem? hold)

theorem writeKV (hc : c.Represented) {layer pos : UInt32} {kVec vVec : Option (List α)} {ok : Bool}
    (h : c.writeKV layer pos kVec vVec = some (ok, c')) : c'.Represented := by
  obtain rfl | ⟨kOld, vOld, kNew, vNew, hkOld, hvOld, hkNew, hvNew, rfl⟩ := writeKV_cases h
  · exact hc
  · refine ⟨hc.positive, hc.bytes, ?kLayers, ?vLayers, ?kSize, ?vSize⟩
    case kLayers =>
      rw [List.length_set]
      exact hc.kLayers
    case vLayers =>
      rw [List.length_set]
      exact hc.vLayers
    case kSize => exact length_set hc.kSize hkOld hkNew
    case vSize => exact length_set hc.vSize hvOld hvNew

theorem reset (hc : c.Represented) : (c.reset zero).Represented := by
  refine ⟨hc.positive, hc.bytes, ?kLayers, ?vLayers, ?kSize, ?vSize⟩
  case kLayers => simpa [HydroXLKVCache.reset] using hc.kLayers
  case vLayers => simpa [HydroXLKVCache.reset] using hc.vLayers
  case kSize => simpa [HydroXLKVCache.reset, dims] using hc.kSize
  case vSize => simpa [HydroXLKVCache.reset, dims] using hc.vSize

/-- What a write in range does. -/
theorem writes (hc : c.Represented) (halloc : c.allocated = true) {layer pos : UInt32}
    (hlayer : layer < c.nLayers) (hpos : pos < c.maxSeqLen) {k v : List α}
    (hk : c.dims.width ≤ k.length) (hv : c.dims.width ≤ v.length) : ∃ kBuf vBuf : List α,
      c.kData[layer.toNat]? = some kBuf ∧ c.vData[layer.toNat]? = some vBuf ∧
      pos.toNat * c.dims.width + c.dims.width ≤ kBuf.length ∧
      pos.toNat * c.dims.width + c.dims.width ≤ vBuf.length ∧
      c.writeKV layer pos (some k) (some v) = some (true, { c with
        kData := c.kData.set layer.toNat
          (Buffer.blit kBuf (pos.toNat * c.dims.width) (k.take c.dims.width))
        vData := c.vData.set layer.toNat
          (Buffer.blit vBuf (pos.toNat * c.dims.width) (v.take c.dims.width)) }) := by
  have hlt := UInt32.lt_iff_toNat_lt.mp hlayer
  have hki : layer.toNat < c.kData.length := hc.kLayers ▸ hlt
  have hvi : layer.toNat < c.vData.length := hc.vLayers ▸ hlt
  have hkSize := hc.kSize _ (List.getElem_mem hki)
  have hvSize := hc.vSize _ (List.getElem_mem hvi)
  have hsize := c.dims.layerSize_eq
  have hbound := c.dims.layerSize_le hc.positive.1 hc.bytes
  have hrow := Buffer.row_le c.dims.width (UInt32.lt_iff_toNat_lt.mp hpos)
  have hrow' : pos.toNat * c.dims.width + c.dims.width ≤ c.dims.layerSize := by
    rw [hsize]
    exact hrow
  refine ⟨_, _, List.getElem?_eq_getElem hki, List.getElem?_eq_getElem hvi,
    hkSize.symm ▸ hrow', hvSize.symm ▸ hrow', ?_⟩
  rw [writeKV_take hk hv]
  refine writeKV_eq_some_true halloc hlayer hpos (List.length_take_of_le hk)
    (List.length_take_of_le hv) (List.getElem?_eq_getElem hki) (List.getElem?_eq_getElem hvi)
    (hkSize.trans hsize) (hvSize.trans hsize) ?_
  change c.dims.maxSeqLen.toNat * c.dims.width < 2 ^ 64
  rw [← hsize]
  omega

end Represented

/-- Every call with checked dimensions keeps an allocated cache represented. -/
theorem represented_of_takes {call : Call α} (hc : c.allocated = true → c.Represented)
    (hcall : allocating KVDims.Checked c call) (h : call.Takes zero c c') :
    c'.allocated = true → c'.Represented := by
  cases call with
  | allocate d =>
    obtain ⟨outcome, rfl⟩ := h
    obtain hrun | ⟨c', hrun, hfailed⟩ | ⟨c', hrun, hdims, hpositive, hbytes, hkData, hvData⟩ :=
      callAllocate_cases zero c hcall outcome
    · rw [hrun]
      exact hc
    · rw [hrun]
      intro halloc
      -- a failed allocation leaves an unallocated cache
      rw [hfailed] at halloc
      cases halloc
    · rw [hrun]
      -- fresh buffers of zeros
      subst hdims
      refine fun _ => ⟨hpositive, hbytes, ?_, ?_, ?_, ?_⟩
      · rw [hkData, List.length_replicate]
        rfl
      · rw [hvData, List.length_replicate]
        rfl
      · intro buf hbuf
        rw [hkData] at hbuf
        rw [List.eq_of_mem_replicate hbuf, List.length_replicate]
      · intro buf hbuf
        rw [hvData] at hbuf
        rw [List.eq_of_mem_replicate hbuf, List.length_replicate]
  | reset =>
    cases h
    exact fun halloc => (hc halloc).reset
  | writeKV layer pos kVec vVec =>
    -- a write replaces one row
    obtain ⟨ok, h⟩ := h
    have hsame : c'.allocated = c.allocated := by
      obtain rfl | ⟨_, _, _, _, -, -, -, -, rfl⟩ := writeKV_cases h <;> rfl
    rw [hsame]
    exact fun halloc => (hc halloc).writeKV h
  | advanceSeq =>
    cases h
    unfold advanceSeq
    split_ifs
    · exact hc
    · exact fun halloc => ⟨(hc halloc).positive, (hc halloc).bytes, (hc halloc).kLayers,
        (hc halloc).vLayers, (hc halloc).kSize, (hc halloc).vSize⟩

/-- **Runs of checked allocations.** In every state that calls reach when every allocation has
checked dimensions, the buffers are as the dimensions say, writes in range succeed inside them, and
the next such allocation succeeds in the limit only and fails without leaving a broken cache. -/
theorem conforms_of_reachable (h : (calls zero).Reachable (allocating KVDims.Checked) c) :
    c.Conforms zero KVDims.Checked := by
  have hrepresented : c.allocated = true → c.Represented := by
    refine h.invariant (P := fun c => c.allocated = true → c.Represented) ?_ ?_
    · rintro c rfl halloc
      cases halloc
    · exact fun c call c' hc hcall htakes => represented_of_takes hc hcall htakes
  refine ⟨hrepresented, fun halloc layer pos hlayer hpos k v hk hv =>
    (hrepresented halloc).writes halloc hlayer hpos hk hv, ?_, ?_⟩
  · intro d hd outcome hok
    obtain hrun | ⟨c', hrun, -⟩ | ⟨c', -, -, hpositive, hbytes, -⟩ :=
      callAllocate_cases zero c hd outcome
    · rw [hrun] at hok
      cases hok
    · rw [hrun] at hok
      cases hok
    · exact ⟨hpositive, hbytes⟩
  · intro d hd outcome hok
    obtain hrun | ⟨c', hrun, hfailed⟩ | ⟨c', hrun, -⟩ :=
      callAllocate_cases zero c hd outcome
    · rw [hrun]
      exact .inr rfl
    · rw [hrun]
      exact .inl hfailed
    · rw [hrun] at hok
      exact absurd rfl hok

/-- A cache of two layers, four positions and vectors of two elements. -/
theorem conforms_small : ∃ c : HydroXLKVCache ℤ, c.allocated = true ∧
    c.Conforms 0 KVDims.Checked := by
  have hinit : (calls (0 : ℤ)).Reachable (allocating KVDims.Checked) {} := .init rfl
  have hchecked : KVDims.Checked ⟨2, 1, 4, 2⟩ := .inl (by decide)
  exact ⟨_, rfl, conforms_of_reachable (hinit.step (l := .allocate ⟨2, 1, 4, 2⟩) hchecked
    ⟨.granted, rfl⟩)⟩

/-! ## Dimensions that are not checked -/

/-- Such dimensions are not refused, however large the cache would be. -/
theorem callAllocate_of_not_checked (hd : ¬d.Checked) :
    (c.callAllocate zero .granted d).1 ≠ some false ∧ 2 ^ 32 < d.bytes := by
  obtain ⟨hlarge, hwraps⟩ := not_or.mp hd
  have hlimit : ((4 : UInt64) <<< 30).toNat = 2 ^ 32 := by decide
  have hpass : ¬d.totalBytes > (4 : UInt64) <<< 30 := by
    rw [gt_iff_lt, UInt64.lt_iff_toNat_lt, hlimit, d.toNat_totalBytes]
    exact hwraps
  -- a dimension that is zero would make the product zero
  have hpositive : d.Positive := by
    refine ⟨?_, ?_, ?_, ?_⟩ <;>
      · intro hzero
        refine hlarge ?_
        simp [KVDims.bytes, KVDims.layerSize, hzero]
  refine ⟨?_, Nat.lt_of_not_le hlarge⟩
  obtain ⟨hlayers, hheads, hseq, hdim⟩ := hpositive
  unfold callAllocate
  split
  next => exact fun h => by cases h
  next =>
    unfold KVDims.totalBytes at hpass
    rw [gt_iff_lt, UInt64.not_lt] at hpass
    simp [allocate, hlayers, hheads, hseq, hdim, UInt64.not_lt.mpr hpass]

/-- One layer of 2^64 elements, for which nothing is allocated. -/
theorem not_conforms : ¬∀ c : HydroXLKVCache ℤ,
    (calls 0).Reachable (allocating fun _ => True) c → c.Conforms 0 fun _ => True := by
  intro h
  have hallocates := (h {} (.init rfl)).allocates ⟨1, 0x80000000, 0x80000000, 4⟩ trivial .granted
    (by decide +kernel)
  exact absurd hallocates.2 (by decide)

end HydroXLKVCache
end HeteroAccel
