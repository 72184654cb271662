import HeteroAccel.HydroXL.KVRepresentation
import HeteroAccel.HydroXL.LoadedBytes
import HeteroAccel.Orchestration.BackendCapabilities

/-!
# The memory estimate

`MemoryEstimator::estimate` computes from the hyper-parameters of a model what its weights, its KV
cache and its scratch buffers need. Some of its products are taken in 32 bits, the others in 64, and
the loader and the cache compute the same sizes in their own ways.

What a load counts and what a cache reports is compared with the estimate for any safety factor.

## Main results

* `estimatesExactly_iff`: for a file that is loaded and a cache that is allocated the estimate is
  exact, exactly when the natural sizes fit in 64 bits and the optional tensors are sound, if none
  of them is missing.
-/

namespace HeteroAccel.Orchestration

namespace MemoryEstimator

variable {α δ φ : Type}

/-! ## The natural sizes -/

/-- The bytes of all tensors that a model can have. -/
def weightsSize (hp : Qwen2HParams α) : ℕ :=
  4 * ((Slot.used hp.nLayers.toNat).map (Slot.size hp)).sum

/-- The dimensions of the cache of a model. -/
def cacheDims (hp : Qwen2HParams α) (maxSeqLen : UInt32) : KVDims :=
  ⟨hp.nLayers, hp.nKvHeads, maxSeqLen, hp.nHeadDim⟩

/-- The bytes of the buffers of one token's forward pass. -/
def activationsSize (hp : Qwen2HParams α) (maxSeqLen : UInt32) : ℕ :=
  4 * (10 * hp.nEmbd.toNat + 3 * hp.nFf.toNat + maxSeqLen.toNat)

/-- The bytes that an engine without a device needs: weights, cache and activations. -/
def baseSize (hp : Qwen2HParams α) (maxSeqLen : UInt32) : ℕ :=
  weightsSize hp + (cacheDims hp maxSeqLen).bytes + activationsSize hp maxSeqLen

/-- The estimate for hyper-parameters. -/
def estimateOf (sops : ScoreOps φ) (safetyFactor : φ) (hp : Qwen2HParams α) (maxSeqLen : UInt32) :
    ModelMemoryEstimate :=
  estimate sops hp.nLayers hp.nEmbd hp.nHeads hp.nKvHeads hp.nFf hp.vocabSize maxSeqLen safetyFactor

/-- What `base_bytes * (safety_factor - 1.0f)` converts to. -/
def headroom (sops : ScoreOps φ) (safetyFactor : φ) (baseBytes : UInt64) : UInt64 :=
  let safetyFactor := if sops.lt safetyFactor (sops.lit 1) then sops.lit 1 else safetyFactor
  sops.toSize (sops.mul (sops.ofSize baseBytes) (sops.sub safetyFactor (sops.lit 1)))

/-- The file has an output head and all biases. -/
def HasAllOptional (f : TensorFile) (hp : Qwen2HParams α) : Prop :=
  ∀ slot ∈ Slot.used hp.nLayers.toNat, slot.optional = true → f.find slot.name ≠ none

/-- The estimate is that of the model `m`, loaded from the file `f`, and of the cache `c`. -/
structure Exact (f : TensorFile) (m : HydroXLModel α) (c : HydroXLKVCache α)
    (est : ModelMemoryEstimate) : Prop where
  kvCache : est.kvCacheBytes = c.memoryBytes
  weights : m.memoryBytes ≤ est.weightsBytes
  whole : HasAllOptional f m.hparams → m.memoryBytes = est.weightsBytes
  total : est.weightsBytes.toNat + est.kvCacheBytes.toNat + est.activationsBytes.toNat ≤
    est.totalEstimated.toNat
  /-- Nothing wraps around. -/
  toNat_weightsBytes : est.weightsBytes.toNat = weightsSize m.hparams
  toNat_kvCacheBytes : est.kvCacheBytes.toNat = c.dims.bytes
  toNat_activationsBytes : est.activationsBytes.toNat = activationsSize m.hparams c.maxSeqLen
  toNat_totalEstimated : est.totalEstimated.toNat = est.weightsBytes.toNat +
    est.kvCacheBytes.toNat + est.activationsBytes.toNat + est.overheadBytes.toNat

/-- For every model that is loaded from the file and every cache that is allocated for it the
estimate is exact. -/
def EstimatesExactly (ops : TensorOps α δ) (threads : Threads) (sops : ScoreOps φ)
    (safetyFactor : φ) (path : Bytes) (content : FileContent) (maxSeqLen : UInt32) : Prop :=
  ∀ m gguf outcome c,
    HydroXLModel.load ops threads path (.file content) (HydroXLModel.fresh ops) = (.loaded, m) →
    GGUFLoader.open {} path (some content) = (true, gguf) →
    HydroXLKVCache.callAllocate ops.zero outcome {} (cacheDims m.hparams maxSeqLen) =
      (some true, c) →
    Exact gguf.tensorFile m c (estimateOf sops safetyFactor m.hparams maxSeqLen)

/-- The natural sizes with the headroom fit in 64 bits. -/
def Fits (sops : ScoreOps φ) (safetyFactor : φ) (hp : Qwen2HParams α) (maxSeqLen : UInt32) : Prop :=
  baseSize hp maxSeqLen +
    (headroom sops safetyFactor (.ofNat (baseSize hp maxSeqLen))).toNat < 2 ^ 64

/-! ## The estimate in natural numbers -/

variable {hp : Qwen2HParams α} {maxSeqLen : UInt32}

/-- The sizes fit where the cache has at most 2^32 bytes. -/
theorem sizesFit_of_bytes (hpositive : (cacheDims hp maxSeqLen).Positive)
    (hbytes : (cacheDims hp maxSeqLen).bytes ≤ 2 ^ 32) : hp.SizesFit := by
  have hwidth : hp.nKvHeads.toNat * hp.nHeadDim.toNat ≤ 2 ^ 29 :=
    (cacheDims hp maxSeqLen).width_le hpositive hbytes
  have hdim : 0 < hp.nHeadDim.toNat :=
    Nat.pos_of_ne_zero fun hzero => hpositive.2.2.2 (UInt32.toNat_inj.mp hzero)
  refine ⟨hdim, (Nat.mul_lt_mul'' (Nat.lt_succ_of_le hwidth) hp.nEmbd.toNat_lt).trans ?_⟩
  decide

/-- What the loader and the cache have checked of the sizes. -/
structure SizesChecked (hp : Qwen2HParams α) (maxSeqLen : UInt32) : Prop where
  valid : hp.Valid
  positive : (cacheDims hp maxSeqLen).Positive
  bytes : (cacheDims hp maxSeqLen).bytes ≤ 2 ^ 32
  heads : hp.nHeads.toNat * hp.nHeadDim.toNat * hp.nEmbd.toNat < 2 ^ 61

namespace SizesChecked

/-- All heads together have no more elements than an embedding. -/
theorem heads_le (h : SizesChecked hp maxSeqLen) :
    hp.nHeads.toNat * hp.nHeadDim.toNat ≤ hp.nEmbd.toNat := by
  rw [h.valid.nHeadDim]
  exact Nat.mul_div_le ..

/-- The size of the queries is below 2^31. -/
theorem heads_lt (h : SizesChecked hp maxSeqLen) :
    hp.nHeads.toNat * hp.nHeadDim.toNat < 2 ^ 31 := by
  by_contra hle
  have hle : 2 ^ 31 ≤ hp.nHeads.toNat * hp.nHeadDim.toNat := Nat.not_lt.mp hle
  have hsquare : 2 ^ 31 * 2 ^ 31 ≤ hp.nHeads.toNat * hp.nHeadDim.toNat * hp.nEmbd.toNat :=
    Nat.mul_le_mul hle (hle.trans h.heads_le)
  have := h.heads
  omega

/-- The heads of a cache in the limit are few. -/
theorem kvHeads_le (h : SizesChecked hp maxSeqLen) :
    hp.nKvHeads.toNat * hp.nHeadDim.toNat ≤ 2 ^ 29 :=
  (cacheDims hp maxSeqLen).width_le h.positive h.bytes

end SizesChecked

/-- The products in 32 bits do not wrap around. -/
theorem toUInt64_heads (h : SizesChecked hp maxSeqLen) :
    (hp.nHeads * hp.nHeadDim).toUInt64 = .ofNat (hp.nHeads.toNat * hp.nHeadDim.toNat) := by
  have hlt := h.heads_lt
  rw [← UInt64.ofNat_uInt32ToNat, UInt32.toNat_mul, Nat.mod_eq_of_lt (by omega)]

theorem toUInt64_kvHeads (h : SizesChecked hp maxSeqLen) :
    (hp.nKvHeads * hp.nHeadDim).toUInt64 = .ofNat (hp.nKvHeads.toNat * hp.nHeadDim.toNat) := by
  have hle := h.kvHeads_le
  rw [← UInt64.ofNat_uInt32ToNat, UInt32.toNat_mul, Nat.mod_eq_of_lt (by omega)]

/-- The size of the biases does not wrap. -/
theorem toUInt64_biases (h : SizesChecked hp maxSeqLen) :
    (hp.nHeads * hp.nHeadDim + 2 * hp.nKvHeads * hp.nHeadDim).toUInt64 =
      .ofNat (hp.nHeads.toNat * hp.nHeadDim.toNat +
        2 * (hp.nKvHeads.toNat * hp.nHeadDim.toNat)) := by
  have hlt := h.heads_lt
  have hle := h.kvHeads_le
  have hring : hp.nHeads * hp.nHeadDim + 2 * hp.nKvHeads * hp.nHeadDim =
      .ofNat (hp.nHeads.toNat * hp.nHeadDim.toNat +
        2 * (hp.nKvHeads.toNat * hp.nHeadDim.toNat)) := by
    rw [← Nat.mul_assoc]
    simp only [UInt32.ofNat_add, UInt32.ofNat_mul, UInt32.ofNat_toNat]
    rfl
  have hsize : UInt32.size = 2 ^ 32 := rfl
  rw [← UInt64.ofNat_uInt32ToNat, hring, UInt32.toNat_ofNat_of_lt' (by omega)]

/-- The sum over the tensors of a layer, as the estimate computes it. -/
theorem layerWeights_eq (h : SizesChecked hp maxSeqLen) :
    2 * hp.nEmbd.toUInt64 + hp.nEmbd.toUInt64 * (hp.nHeads * hp.nHeadDim).toUInt64 +
      hp.nEmbd.toUInt64 * (hp.nKvHeads * hp.nHeadDim).toUInt64 +
      hp.nEmbd.toUInt64 * (hp.nKvHeads * hp.nHeadDim).toUInt64 +
      (hp.nHeads * hp.nHeadDim).toUInt64 * hp.nEmbd.toUInt64 +
      hp.nEmbd.toUInt64 * hp.nFf.toUInt64 + hp.nEmbd.toUInt64 * hp.nFf.toUInt64 +
      hp.nFf.toUInt64 * hp.nEmbd.toUInt64 +
      (hp.nHeads * hp.nHeadDim + 2 * hp.nKvHeads * hp.nHeadDim).toUInt64 =
      .ofNat (LayerTensor.all.map (LayerTensor.size hp)).sum := by
  rw [toUInt64_heads h, toUInt64_kvHeads h, toUInt64_biases h]
  have hring : (LayerTensor.all.map (LayerTensor.size hp)).sum =
      2 * hp.nEmbd.toNat + hp.nEmbd.toNat * (hp.nHeads.toNat * hp.nHeadDim.toNat) +
      hp.nEmbd.toNat * (hp.nKvHeads.toNat * hp.nHeadDim.toNat) +
      hp.nEmbd.toNat * (hp.nKvHeads.toNat * hp.nHeadDim.toNat) +
      (hp.nHeads.toNat * hp.nHeadDim.toNat) * hp.nEmbd.toNat + hp.nEmbd.toNat * hp.nFf.toNat +
      hp.nEmbd.toNat * hp.nFf.toNat + hp.nFf.toNat * hp.nEmbd.toNat +
      (hp.nHeads.toNat * hp.nHeadDim.toNat +
        2 * (hp.nKvHeads.toNat * hp.nHeadDim.toNat)) := by
    simp only [LayerTensor.all, LayerTensor.size, List.map_cons, List.map_nil, List.sum_cons,
      List.sum_nil]
    ring
  rw [hring]
  simp only [UInt64.ofNat_add, UInt64.ofNat_mul, UInt64.ofNat_uInt32ToNat]
  rfl

/-- The elements of a model: those of its layers, and the three tensors outside of them. -/
theorem sum_used (hp : Qwen2HParams α) (n : ℕ) :
    ((Slot.used n).map (Slot.size hp)).sum = n * (LayerTensor.all.map (LayerTensor.size hp)).sum +
      (hp.vocabSize.toNat * hp.nEmbd.toNat + hp.nEmbd.toNat +
        hp.vocabSize.toNat * hp.nEmbd.toNat) := by
  have hlayers : ∀ left l, ((Slot.ofLayers left l).map (Slot.size hp)).sum =
      left * (LayerTensor.all.map (LayerTensor.size hp)).sum := by
    intro left
    induction left with
    | zero => intro l; simp [Slot.ofLayers]
    | succ left ih =>
      intro l
      have hlist : Slot.ofLayers (left + 1) l =
        Slot.ofLayer l ++ Slot.ofLayers left (l + 1) := rfl
      have hlayer : (Slot.ofLayer l).map (Slot.size hp) =
          LayerTensor.all.map (LayerTensor.size hp) := by
        unfold Slot.ofLayer
        rw [List.map_map]
        rfl
      rw [hlist, List.map_append, List.sum_append, ih, hlayer]
      ring
  rw [Slot.used, List.map_append, List.sum_append, hlayers]
  simp only [List.map_cons, List.map_nil, List.sum_cons, List.sum_nil, Slot.size]
  ring

/-- The estimate for sizes that have been checked. -/
structure Computed (sops : ScoreOps φ) (safetyFactor : φ) (hp : Qwen2HParams α)
    (maxSeqLen : UInt32) (est : ModelMemoryEstimate) : Prop where
  weightsBytes : est.weightsBytes = .ofNat (weightsSize hp)
  kvCacheBytes : est.kvCacheBytes = .ofNat (cacheDims hp maxSeqLen).bytes
  activationsBytes : est.activationsBytes = .ofNat (activationsSize hp maxSeqLen)
  overheadBytes : est.overheadBytes = headroom sops safetyFactor (.ofNat (baseSize hp maxSeqLen))
  totalEstimated : est.totalEstimated =
    .ofNat (baseSize hp maxSeqLen) + headroom sops safetyFactor (.ofNat (baseSize hp maxSeqLen))

/-- Where the sizes are checked, the estimate is computed without a wrap. -/
theorem computed_estimateOf (sops : ScoreOps φ) (safetyFactor : φ)
    (h : SizesChecked hp maxSeqLen) :
    Computed sops safetyFactor hp maxSeqLen (estimateOf sops safetyFactor hp maxSeqLen) := by
  obtain ⟨hvocab, hembd, hheads, hkv, hlayers, -, hdim⟩ := h.valid
  have hne : ∀ {a : UInt32}, 0 < a.toNat → a ≠ 0 := by
    rintro a ha rfl
    exact absurd ha (by decide)
  have hheadDim : hp.nEmbd / hp.nHeads = hp.nHeadDim := by
    rw [← UInt32.toNat_inj, UInt32.toNat_div, hdim]
  obtain ⟨-, -, hseq, hheadDim'⟩ := h.positive
  change maxSeqLen ≠ 0 at hseq
  change hp.nHeadDim ≠ 0 at hheadDim'
  -- no product is proved not to wrap: each equation holds modulo `2 ^ 64`
  have hweights : (hp.nLayers.toUInt64 *
    (2 * hp.nEmbd.toUInt64 + hp.nEmbd.toUInt64 * (hp.nHeads * hp.nHeadDim).toUInt64 +
        hp.nEmbd.toUInt64 * (hp.nKvHeads * hp.nHeadDim).toUInt64 +
        hp.nEmbd.toUInt64 * (hp.nKvHeads * hp.nHeadDim).toUInt64 +
        (hp.nHeads * hp.nHeadDim).toUInt64 * hp.nEmbd.toUInt64 +
        hp.nEmbd.toUInt64 * hp.nFf.toUInt64 + hp.nEmbd.toUInt64 * hp.nFf.toUInt64 +
        hp.nFf.toUInt64 * hp.nEmbd.toUInt64 +
        (hp.nHeads * hp.nHeadDim + 2 * hp.nKvHeads * hp.nHeadDim).toUInt64) +
          (hp.vocabSize.toUInt64 * hp.nEmbd.toUInt64 + hp.nEmbd.toUInt64 +
        hp.vocabSize.toUInt64 * hp.nEmbd.toUInt64)) * 4 = .ofNat (weightsSize hp) := by
    rw [layerWeights_eq h, weightsSize, sum_used, Nat.mul_comm 4]
    simp only [UInt64.ofNat_add, UInt64.ofNat_mul, UInt64.ofNat_uInt32ToNat]
    rfl
  have hcache : 2 * hp.nLayers.toUInt64 * hp.nKvHeads.toUInt64 * hp.nHeadDim.toUInt64 *
      maxSeqLen.toUInt64 * 4 = .ofNat (cacheDims hp maxSeqLen).bytes := by
    have hring : (cacheDims hp maxSeqLen).bytes = 2 * hp.nLayers.toNat * hp.nKvHeads.toNat *
        hp.nHeadDim.toNat * maxSeqLen.toNat * 4 := by
      simp only [KVDims.bytes, KVDims.layerSize, cacheDims]
      ring
    rw [hring]
    simp only [UInt64.ofNat_mul, UInt64.ofNat_uInt32ToNat]
    rfl
  have hactivations : (10 * hp.nEmbd.toUInt64 + 3 * hp.nFf.toUInt64 + maxSeqLen.toUInt64) * 4 =
      .ofNat (activationsSize hp maxSeqLen) := by
    rw [activationsSize, Nat.mul_comm 4]
    simp only [UInt64.ofNat_add, UInt64.ofNat_mul, UInt64.ofNat_uInt32ToNat]
    rfl
  have hbase : UInt64.ofNat (weightsSize hp) + .ofNat (cacheDims hp maxSeqLen).bytes +
      .ofNat (activationsSize hp maxSeqLen) = .ofNat (baseSize hp maxSeqLen) := by
    rw [baseSize, UInt64.ofNat_add, UInt64.ofNat_add]
  unfold estimateOf estimate
  rw [if_neg (by simp [hne hvocab, hne hembd, hne hheads, hne hkv, hne hlayers])]
  dsimp only
  rw [hheadDim, if_neg hheadDim', if_neg hseq, hweights, hcache, hactivations, hbase]
  exact ⟨rfl, rfl, rfl, rfl, rfl⟩

/-! ## The loaded model and the allocated cache -/

section Allocated

variable {zero : α} {outcome : AssignOutcome α} {c : HydroXLKVCache α} {d : KVDims}

/-- The dimensions of an allocated cache are those asked for. -/
theorem dims_of_allocated
    (h : HydroXLKVCache.callAllocate zero outcome {} d = (some true, c)) :
    d.Positive ∧ c.dims = d ∧ c.allocated = true := by
  obtain ⟨hlayers, hheads, hseq, hdim, rfl⟩ :=
    HydroXLKVCache.allocate_eq_true (HydroXLKVCache.callAllocate_eq_true h)
  exact ⟨⟨hlayers, hheads, hseq, hdim⟩, rfl, rfl⟩

/-- Where the natural number of bytes fits in 64 bits, the check of the cache is one of it. -/
theorem bytes_le_of_allocated
    (h : HydroXLKVCache.callAllocate zero outcome {} d = (some true, c)) (hfit : d.bytes < 2 ^ 64) :
    d.bytes ≤ 2 ^ 32 := by
  have hchecked : d.Checked := by
    unfold KVDims.Checked
    rw [Nat.mod_eq_of_lt hfit]
    omega
  obtain hrun | ⟨c', hrun, -⟩ | ⟨c', -, -, -, hbytes, -⟩ :=
    HydroXLKVCache.callAllocate_cases zero ({} : HydroXLKVCache α) hchecked outcome
  · rw [hrun] at h
    cases h
  · rw [hrun] at h
    cases h
  · exact hbytes

/-- The bytes that the cache reports. -/
theorem memoryBytes_of_allocated
    (h : HydroXLKVCache.callAllocate zero outcome {} d = (some true, c))
    (hbytes : d.bytes ≤ 2 ^ 32) : c.memoryBytes = .ofNat d.bytes := by
  obtain ⟨hpositive, hdims, hallocated⟩ := dims_of_allocated h
  have hsize : 0 < d.layerSize := by
    obtain ⟨-, hheads, hseq, hdim⟩ := hpositive
    have hpos : ∀ {a : UInt32}, a ≠ 0 → 0 < a.toNat := fun hne =>
      Nat.pos_of_ne_zero fun hzero => hne (UInt32.toNat_inj.mp hzero)
    exact Nat.mul_pos (Nat.mul_pos (hpos hheads) (hpos hseq)) (hpos hdim)
  have hlayers : 8 * d.nLayers.toNat ≤ 2 ^ 32 :=
    (Nat.le_mul_of_pos_right _ hsize).trans hbytes
  -- only the double number of layers is taken in 32 bits
  have hdouble : (2 * d.nLayers).toUInt64 = .ofNat (2 * d.nLayers.toNat) := by
    have htwo : (2 : UInt32).toNat = 2 := rfl
    rw [← UInt64.ofNat_uInt32ToNat, UInt32.toNat_mul, htwo, Nat.mod_eq_of_lt (by omega)]
  have hring : d.bytes = 2 * d.nLayers.toNat *
      (d.nKvHeads.toNat * d.maxSeqLen.toNat * d.headDim.toNat) * 4 := by
    unfold KVDims.bytes KVDims.layerSize
    ring
  unfold HydroXLKVCache.memoryBytes
  rw [if_neg (by simp [hallocated])]
  subst hdims
  change (2 * c.dims.nLayers).toUInt64 * HydroXLKVCache.perLayerFloats c.dims.nKvHeads
    c.dims.maxSeqLen c.dims.headDim * 4 = _
  rw [hdouble, hring, HydroXLKVCache.perLayerFloats]
  simp only [UInt64.ofNat_mul, UInt64.ofNat_uInt32ToNat]
  rfl

end Allocated

section Loaded

variable {ops : TensorOps α δ} {path : Bytes} {content : FileContent} {gguf : GGUFLoader}
  {outcome : AssignOutcome α} {c : HydroXLKVCache α}

/-- What a load and an allocation have checked, where the bytes of the cache fit in 64 bits. -/
theorem sizesChecked (hloads : HydroXLModel.Loads ops path content gguf hp)
    (halloc : HydroXLKVCache.callAllocate ops.zero outcome {} (cacheDims hp maxSeqLen) =
      (some true, c)) (hfit : (cacheDims hp maxSeqLen).bytes < 2 ^ 64) :
    SizesChecked hp maxSeqLen := by
  have hvalid := HydroXLModel.valid_of_hparamsOf hloads.hparams
  have hf : gguf.tensorFile.InLimits := hloads.inLimits
  obtain ⟨hpositive, -, -⟩ := dims_of_allocated halloc
  have hbytes := bytes_le_of_allocated halloc hfit
  refine ⟨hvalid, hpositive, hbytes, ?_⟩
  -- the query weights are in a vector of floats
  have hslot : Slot.layer 0 .attnQ ∈ Slot.used hp.nLayers.toNat :=
    Slot.layer_mem_used hvalid.nLayers _
  obtain ⟨v, hv⟩ := (hloads.admits _ hslot).exists_loaded rfl
  obtain ⟨desc, hfind, -⟩ := (outcome_eq_loaded_iff hf).mp hv
  obtain ⟨hsound, -⟩ := HydroXLModel.sound_of_outcome hf hvalid
    (sizesFit_of_bytes hpositive hbytes) hfind hv
  have hmax := toNat_maxElems
  have hsize : hp.nHeads.toNat * hp.nHeadDim.toNat * hp.nEmbd.toNat ≤ 2 ^ 61 - 1 :=
    hmax ▸ hsound.le_maxElems
  omega

/-- An optional tensor of the file is sound exactly when it is loaded. -/
theorem loaded_iff_sound {f : TensorFile} {slot : Slot} (hf : f.InLimits) (hvalid : hp.Valid)
    (hfit : hp.SizesFit) (hthere : f.find slot.name ≠ none) :
    (f.outcome ops hp slot).status = .loaded ↔
      ∀ desc, f.find slot.name = some desc → f.Sound ops (slot.size hp) desc := by
  constructor
  · intro hloaded desc hfind
    obtain ⟨v, hv⟩ := TensorOutcome.exists_loaded hloaded
    exact (HydroXLModel.sound_of_outcome hf hvalid hfit hfind hv).1
  · intro hsound
    obtain ⟨desc, hfind⟩ := Option.ne_none_iff_exists'.mp hthere
    obtain ⟨v, hv, -⟩ := HydroXLModel.outcome_of_sound hf hvalid hfit hfind (hsound desc hfind)
    rw [hv]
    rfl

/-- All tensors are loaded exactly when the optional ones are sound, if none of them is missing. -/
theorem all_loaded_iff (hloads : HydroXLModel.Loads ops path content gguf hp)
    (hfit : hp.SizesFit) (hall : HasAllOptional gguf.tensorFile hp) :
    (∀ slot ∈ Slot.used hp.nLayers.toNat,
        (gguf.tensorFile.outcome ops hp slot).status = .loaded) ↔
      ∀ slot ∈ Slot.used hp.nLayers.toNat, slot.optional = true → ∀ desc,
        gguf.tensorFile.find slot.name = some desc →
          gguf.tensorFile.Sound ops (slot.size hp) desc := by
  have hvalid := HydroXLModel.valid_of_hparamsOf hloads.hparams
  have hf : gguf.tensorFile.InLimits := hloads.inLimits
  constructor
  · exact fun h slot hslot hoptional =>
      (loaded_iff_sound hf hvalid hfit (hall slot hslot hoptional)).mp (h slot hslot)
  · intro h slot hslot
    cases hoptional : slot.optional with
    | true =>
      exact (loaded_iff_sound hf hvalid hfit (hall slot hslot hoptional)).mpr
        (h slot hslot hoptional)
    | false =>
      obtain ⟨v, hv⟩ := (hloads.admits slot hslot).exists_loaded hoptional
      rw [hv]
      rfl

variable {threads : Threads} {m : HydroXLModel α}

/-- The bytes that a loaded model reports, beside those of all its tensors. -/
theorem toNat_memoryBytes (hloads : HydroXLModel.Loads ops path content gguf hp)
    (hload : HydroXLModel.load ops threads path (.file content) (HydroXLModel.fresh ops) =
      (.loaded, m)) (hfit : hp.SizesFit) (hweights : weightsSize hp < 2 ^ 64) :
    m.memoryBytes.toNat ≤ weightsSize hp ∧ (m.memoryBytes.toNat = weightsSize hp ↔
      ∀ slot ∈ Slot.used hp.nLayers.toNat,
        (gguf.tensorFile.outcome ops hp slot).status = .loaded) := by
  have hvalid := HydroXLModel.valid_of_hparamsOf hloads.hparams
  have hf : gguf.tensorFile.InLimits := hloads.inLimits
  obtain ⟨hle, hiff⟩ := HydroXLModel.sum_elements_le ops hf hvalid hfit
    (Slot.used hp.nLayers.toNat)
  have hcount : m.memoryBytes.toNat = 4 * ((Slot.used hp.nLayers.toNat).map
      (HydroXLModel.elements ops gguf.tensorFile hp)).sum := by
    rw [HydroXLModel.memoryBytes_of_load hloads hload, HydroXLModel.counted_eq_ofNat]
    refine UInt64.toNat_ofNat_of_lt' ((Nat.mul_le_mul_left 4 hle).trans_lt ?_)
    exact hweights
  rw [hcount, ← hiff]
  unfold weightsSize
  omega

variable (sops : ScoreOps φ) (safetyFactor : φ)

/-- A model and its cache: the estimate is exact when the natural sizes fit, and the optional
tensors are sound if none is missing. -/
theorem exact_iff (hloads : HydroXLModel.Loads ops path content gguf hp)
    (hload : HydroXLModel.load ops threads path (.file content) (HydroXLModel.fresh ops) =
      (.loaded, m)) (hhparams : m.hparams = hp)
    (halloc : HydroXLKVCache.callAllocate ops.zero outcome {} (cacheDims hp maxSeqLen) =
      (some true, c)) :
    Exact gguf.tensorFile m c (estimateOf sops safetyFactor hp maxSeqLen) ↔
      Fits sops safetyFactor hp maxSeqLen ∧ (HasAllOptional gguf.tensorFile hp →
        ∀ slot ∈ Slot.used hp.nLayers.toNat, slot.optional = true → ∀ desc,
          gguf.tensorFile.find slot.name = some desc →
            gguf.tensorFile.Sound ops (slot.size hp) desc) := by
  obtain ⟨-, hdims, -⟩ := dims_of_allocated halloc
  have hseq : c.maxSeqLen = maxSeqLen := congrArg KVDims.maxSeqLen hdims
  constructor
  · rintro ⟨-, -, hwhole, -, hweights, hcache, hactivations, htotal⟩
    rw [hhparams] at hwhole hweights hactivations
    rw [hdims] at hcache
    rw [hseq] at hactivations
    have hchecked := sizesChecked hloads halloc (hcache ▸ UInt64.toNat_lt _)
    have hcomputed := computed_estimateOf sops safetyFactor hchecked
    have hweights64 : weightsSize hp < 2 ^ 64 := hweights ▸ UInt64.toNat_lt _
    have hfit := sizesFit_of_bytes hchecked.positive hchecked.bytes
    constructor
    · rw [hweights, hcache, hactivations, hcomputed.overheadBytes] at htotal
      unfold Fits
      exact htotal ▸ UInt64.toNat_lt _
    · intro hall
      obtain ⟨-, hiff⟩ := toNat_memoryBytes hloads hload hfit hweights64
      refine (all_loaded_iff hloads hfit hall).mp (hiff.mp ?_)
      rw [hwhole hall, hweights]
  · rintro ⟨hfits, hsound⟩
    have hsum : weightsSize hp + (cacheDims hp maxSeqLen).bytes + activationsSize hp maxSeqLen =
        baseSize hp maxSeqLen := rfl
    have hfits' : baseSize hp maxSeqLen +
        (headroom sops safetyFactor (.ofNat (baseSize hp maxSeqLen))).toNat < 2 ^ 64 := hfits
    have hchecked := sizesChecked hloads halloc (by omega)
    have hfit := sizesFit_of_bytes hchecked.positive hchecked.bytes
    obtain ⟨hweights, hcache, hactivations, hoverhead, htotal⟩ :=
      computed_estimateOf sops safetyFactor hchecked
    -- in the limit every number is the natural one
    have hweights' := congrArg UInt64.toNat hweights
    have hcache' := congrArg UInt64.toNat hcache
    have hactivations' := congrArg UInt64.toNat hactivations
    have htotal' := congrArg UInt64.toNat htotal
    rw [UInt64.toNat_ofNat_of_lt' (show _ < 2 ^ 64 by omega)] at hweights' hcache' hactivations'
    rw [UInt64.toNat_add, UInt64.toNat_ofNat_of_lt' (show _ < 2 ^ 64 by omega),
      Nat.mod_eq_of_lt hfits'] at htotal'
    obtain ⟨hle, hiff⟩ := toNat_memoryBytes hloads hload hfit (by omega)
    refine ⟨?kvCache, ?weights, fun hall => ?whole, ?total, ?toNat_weightsBytes,
      ?toNat_kvCacheBytes, ?toNat_activationsBytes, ?toNat_totalEstimated⟩
    case kvCache => rw [hcache, memoryBytes_of_allocated halloc hchecked.bytes]
    case weights =>
      rw [UInt64.le_iff_toNat_le, hweights']
      exact hle
    case whole =>
      rw [hhparams] at hall
      rw [← UInt64.toNat_inj, hweights']
      exact hiff.mpr ((all_loaded_iff hloads hfit hall).mpr (hsound hall))
    case total => omega
    case toNat_weightsBytes => rw [hweights', hhparams]
    case toNat_kvCacheBytes => rw [hcache', hdims]
    case toNat_activationsBytes => rw [hactivations', hhparams, hseq]
    case toNat_totalEstimated =>
      rw [hoverhead]
      omega

/-- **The memory estimate.** It is exact for every load and allocation from a file exactly when, for
those that succeed, the natural sizes with the headroom fit in 64 bits, and the optional tensors can
be held if the file has all of them. -/
theorem estimatesExactly_iff (threads : Threads) (path : Bytes) (content : FileContent)
    (maxSeqLen : UInt32) :
    EstimatesExactly ops threads sops safetyFactor path content maxSeqLen ↔
      ∀ gguf hp outcome c, HydroXLModel.Loads ops path content gguf hp →
        HydroXLKVCache.callAllocate ops.zero outcome {} (cacheDims hp maxSeqLen) =
          (some true, c) →
        Fits sops safetyFactor hp maxSeqLen ∧ (HasAllOptional gguf.tensorFile hp →
          ∀ slot ∈ Slot.used hp.nLayers.toNat, slot.optional = true → ∀ desc,
            gguf.tensorFile.find slot.name = some desc →
              gguf.tensorFile.Sound ops (slot.size hp) desc) := by
  constructor
  · intro h gguf hp outcome c hloads halloc
    obtain ⟨m, hload, hover⟩ := hloads.load threads (HydroXLModel.fresh ops)
    have hexact := h m gguf outcome c hload hloads.opens (by rw [hover.hparams]; exact halloc)
    rw [hover.hparams] at hexact
    exact (exact_iff sops safetyFactor hloads hload hover.hparams halloc).mp hexact
  · intro h m gguf outcome c hload hopen halloc
    obtain ⟨gguf', hp, hloads⟩ := HydroXLModel.loads_of_load hload
    obtain rfl : gguf' = gguf := congrArg Prod.snd (hloads.opens.symm.trans hopen)
    obtain ⟨m', hload', hover⟩ := hloads.load threads (HydroXLModel.fresh ops)
    obtain rfl : m' = m := congrArg Prod.snd (hload'.symm.trans hload)
    rw [hover.hparams] at halloc ⊢
    exact (exact_iff sops safetyFactor hloads hload hover.hparams halloc).mpr
      (h gguf' hp outcome c hloads halloc)

end Loaded

/-! ## A head that is not counted -/

/-- A model with all biases and an LM head of another size. -/
def headNotLoaded : FileContent where
  bytes := HydroXLModel.smallFile (HydroXLModel.smallTensors ++
    (LayerTensor.all.filter LayerTensor.isBias).map (fun t =>
      HydroXLModel.smallTensor (.layer 0 t) [1]) ++ [HydroXLModel.smallTensor .lmHead [2]])
  length_lt := by decide +kernel

/-- The estimate counts the LM head; the model does not have it. -/
theorem not_estimatesExactly : ¬∀ (threads : Threads) (safetyFactor : ℚ) (path : Bytes)
    (content : FileContent) (maxSeqLen : UInt32),
    EstimatesExactly rationalOps threads exactOps safetyFactor path content maxSeqLen := by
  intro h
  specialize h {} 1 [] headNotLoaded 1
  cases hload : HydroXLModel.load rationalOps {} [] (.file headNotLoaded)
    (HydroXLModel.fresh rationalOps) with
  | mk status m =>
    cases hopen : GGUFLoader.open {} [] (some headNotLoaded) with
    | mk done gguf =>
      cases halloc : HydroXLKVCache.callAllocate rationalOps.zero .granted {}
        (cacheDims m.hparams 1) with
      | mk ok c =>
        obtain ⟨hstatus, hdone, hok, hthere, hbytes⟩ : status = .loaded ∧ done = true ∧
            ok = some true ∧ (∀ slot ∈ Slot.used m.hparams.nLayers.toNat, slot.optional = true →
              gguf.tensorFile.find slot.name ≠ none) ∧
            m.memoryBytes ≠ (estimateOf exactOps 1 m.hparams 1).weightsBytes := by
          rw [show ok = (ok, c).1 from rfl, ← halloc, show status = (status, m).1 from rfl,
            show m = (status, m).2 from rfl, show done = (done, gguf).1 from rfl,
            show gguf = (done, gguf).2 from rfl, ← hload, ← hopen]
          decide +kernel
        subst hstatus hdone hok
        exact hbytes ((h m gguf .granted c hload hopen halloc).whole hthere)

end MemoryEstimator
end HeteroAccel.Orchestration
