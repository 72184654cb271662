import HeteroAccel.HydroXL.DevicePass
import HeteroAccel.HydroXL.PassBounds
import HeteroAccel.Orchestration.HydroXLVulkanEngineAdapter

/-!
# The forward pass of the Vulkan adapter

`forward_token` of the Vulkan adapter beside `forward` of the CPU's forward pass, for a device that
runs the shaders on the tensors that were uploaded. Each of these has its own name, so that a name
leads to the weights that the CPU takes (`eq_of_mem_uploads`).

## Main results

* `tracks_pass`: without rounding, the pass does what the one on the CPU does, or gives up.
-/

namespace HeteroAccel.Orchestration.HydroXLVulkanEngineAdapter

open Bytes (ofString ofDecimal readDecimal)

variable {α δ : Type} {ops : TensorOps α δ} {m : HydroXLModel α}

/-! ## The names of tensors -/

/-- The names of two layers' tensors are different. -/
theorem blockPrefix_append_inj {l l' : ℕ} {name name' : Bytes}
    (h : blockPrefix l ++ name = blockPrefix l' ++ name') : l = l' ∧ name = name' := by
  unfold blockPrefix at h
  rw [List.append_assoc, List.append_assoc, List.append_assoc, List.append_assoc,
    List.append_cancel_left_eq] at h
  -- the number ends at the dot
  have hdot : ∀ rest : Bytes, ofString "." ++ rest = 46 :: rest := fun rest => rfl
  rw [hdot, hdot] at h
  have hread := congrArg readDecimal h
  rw [Bytes.readDecimal_ofDecimal l (by decide),
    Bytes.readDecimal_ofDecimal l' (by decide)] at hread
  obtain rfl := Option.some.inj hread
  exact ⟨rfl, List.tail_eq_of_cons_eq (List.append_cancel_left h)⟩

/-- The tensors of the layers have other names than those behind them. -/
theorem blockPrefix_append_ne {l : ℕ} {name : Bytes} {s : String}
    (hs : (ofString s).head? = some 111) : blockPrefix l ++ name ≠ ofString s := by
  intro h
  rw [← h] at hs
  cases hs

/-- A name stands for one tensor of a layer. -/
theorem layerUploads_unique {w : Qwen2LayerWeights α} {name : String} {v v' : List α}
    (h : (name, v) ∈ layerUploads w) (h' : (name, v') ∈ layerUploads w) : v = v' := by
  have hnames : ((layerUploads w).map Prod.fst).Nodup := by
    change ["attn_norm", "attn_q", "attn_k", "attn_v", "attn_output", "ffn_norm", "ffn_gate",
      "ffn_up", "ffn_down"].Nodup
    decide
  exact congrArg Prod.snd (List.inj_on_of_nodup_map hnames h h' rfl)

/-- What is uploaded. -/
theorem mem_uploads {name : Bytes} {v : List α} (h : (name, v) ∈ uploads m) :
    (name = ofString "output_norm" ∧ v = m.outputNorm) ∨
      (name = ofString "output.weight" ∧ v = m.lmHeadWeights) ∨
      ∃ l s, (s, v) ∈ layerUploads (m.layers.getD l {}) ∧ name = blockPrefix l ++ ofString s := by
  have hmem := (List.mem_filter.mp h).1
  simp only [List.mem_cons, Prod.mk.injEq, List.mem_flatMap, List.mem_map] at hmem
  rcases hmem with hnorm | hhead | ⟨l, -, t, ht, rfl, rfl⟩
  · exact .inl hnorm
  · exact .inr (.inl hhead)
  · exact .inr (.inr ⟨l, t.1, ht, rfl⟩)

/-- The name of the output norm stands for it. -/
theorem eq_of_mem_uploads_norm {v : List α} (h : (ofString "output_norm", v) ∈ uploads m) :
    v = m.outputNorm := by
  rcases mem_uploads h with ⟨-, rfl⟩ | ⟨hname, -⟩ | ⟨l, s, -, hname⟩
  · rfl
  · exact absurd (Bytes.ofString_inj.mp hname) (by decide)
  · exact absurd hname.symm (blockPrefix_append_ne rfl)

theorem eq_of_mem_uploads_head {v : List α} (h : (ofString "output.weight", v) ∈ uploads m) :
    v = m.lmHeadWeights := by
  rcases mem_uploads h with ⟨hname, -⟩ | ⟨-, rfl⟩ | ⟨l, s, -, hname⟩
  · exact absurd (Bytes.ofString_inj.mp hname) (by decide)
  · rfl
  · exact absurd hname.symm (blockPrefix_append_ne rfl)

/-- The name of a layer's tensor stands for it. -/
theorem eq_of_mem_uploads_layer {l : ℕ} {w : Qwen2LayerWeights α} {s : String} {v v₀ : List α}
    (hw : m.layers[l]? = some w) (hs : (s, v₀) ∈ layerUploads w)
    (h : (blockPrefix l ++ ofString s, v) ∈ uploads m) : v = v₀ := by
  rcases mem_uploads h with ⟨hname, -⟩ | ⟨hname, -⟩ | ⟨l', s', hs', hname⟩
  · exact absurd hname (blockPrefix_append_ne rfl)
  · exact absurd hname (blockPrefix_append_ne rfl)
  · obtain ⟨rfl, hs''⟩ := blockPrefix_append_inj hname
    obtain rfl := Bytes.ofString_inj.mp hs''
    rw [List.getD_eq_getElem?_getD, hw] at hs'
    exact layerUploads_unique hs' hs

/-! ## The pass -/

open HydroXLForwardPass (bufferSize)

/-- What a pass on the device relies on beside the sizes: no tensor that is uploaded has so many
elements that the counters of the shaders wrap around, and neither do the vectors of the cache. -/
structure DeviceFits (m : HydroXLModel α) : Prop where
  uploads : ∀ t ∈ uploads m, t.2.length ≤ 2 ^ 32 - 256
  kvSize : m.hparams.nKvHeads.toNat * m.hparams.nHeadDim.toNat < 2 ^ 32

section Pass

variable [Field α] [LinearOrder α] {gpu : ShaderOps α} {d : KVDims} {cleared : HydroXLKVCache α}
  {kernels : VulkanKernels α} {w : Qwen2LayerWeights α} {l : ℕ}

/-- What the results about a pass have in common. -/
structure Comparison (ops : TensorOps α δ) (gpu : ShaderOps α) (m : HydroXLModel α) (d : KVDims) :
    Prop where
  exact : ops.IsExact
  exactDoubles : ops.ExactDoubles
  exactGpu : gpu.IsExact ops
  suits : Suits m d
  kvSuit : KvSuit m
  fits : DeviceFits m

namespace Comparison

variable (h : Comparison ops gpu m d)

include h

theorem kvHeads : (m.hparams.nKvHeads * m.hparams.nHeadDim).toNat =
    m.hparams.nKvHeads.toNat * m.hparams.nHeadDim.toNat := by
  rw [UInt32.toNat_mul]
  exact Nat.mod_eq_of_lt h.fits.kvSize

theorem kvHeads_ne : m.hparams.nKvHeads * m.hparams.nHeadDim ≠ 0 := by
  intro hzero
  have hproduct := h.kvHeads
  rw [hzero] at hproduct
  have hpos : 0 < m.hparams.nKvHeads.toNat * m.hparams.nHeadDim.toNat := by
    rw [← h.suits.nKvHeads, ← h.suits.headDim]
    exact Nat.mul_pos (pos_of_ne_zero h.suits.positive.2.1)
      (pos_of_ne_zero h.suits.positive.2.2.2)
  exact hpos.ne hproduct

theorem heads_ne : m.hparams.nHeads * m.hparams.nHeadDim ≠ 0 := by
  intro hzero
  have hproduct := h.suits.heads
  rw [hzero] at hproduct
  have hpos : 0 < m.hparams.nHeads.toNat * m.hparams.nHeadDim.toNat := by
    rw [← h.suits.headDim]
    exact Nat.mul_pos (pos_of_ne_zero h.suits.nHeads) (pos_of_ne_zero h.suits.positive.2.2.2)
  exact hpos.ne hproduct

/-- A weight of a layer is not too large. -/
theorem length_le (hl : l < m.hparams.nLayers.toNat) (hw : m.layers[l]? = some w) {s : String}
    {v : List α} (hs : (s, v) ∈ layerUploads w) : v.length ≤ 2 ^ 32 - 256 := by
  by_cases hv : v = []
  · rw [hv]
    exact Nat.zero_le _
  · refine h.fits.uploads (blockPrefix l ++ ofString s, v) (List.mem_filter.mpr ⟨?_, ?_⟩)
    · refine List.mem_cons_of_mem _ (List.mem_cons_of_mem _ (List.mem_flatMap.mpr ⟨l, ?_, ?_⟩))
      · exact List.mem_range.mpr hl
      · rw [List.getD_eq_getElem?_getD, hw]
        exact List.mem_map.mpr ⟨(s, v), hs, rfl⟩
    · simpa using hv

theorem length_head_le : m.lmHeadWeights.length ≤ 2 ^ 32 - 256 := by
  by_cases hv : m.lmHeadWeights = []
  · rw [hv]
    exact Nat.zero_le _
  · refine h.fits.uploads (ofString "output.weight", m.lmHeadWeights)
      (List.mem_filter.mpr ⟨?_, by simpa using hv⟩)
    exact List.mem_cons_of_mem _ List.mem_cons_self

/-- The width of the model fits a dispatch. -/
theorem nEmbd_le : m.hparams.nEmbd.toNat ≤ 2 ^ 32 - 256 :=
  h.suits.nEmbd_lt.le.trans (by decide)

/-- The width of the feed-forward network fits a dispatch. -/
theorem nFf_le (hl : l < m.hparams.nLayers.toNat) (hw : m.layers[l]? = some w) :
    m.hparams.nFf.toNat ≤ 2 ^ 32 - 256 := by
  have hread := h.suits.weights w (List.mem_of_getElem? hw) .ffnGate rfl (by decide)
  have hlength := h.length_le hl hw (s := "ffn_gate") (v := w.ffnGate) (by simp [layerUploads])
  exact (Nat.le_mul_of_pos_right _ (pos_of_ne_zero h.suits.nEmbd)).trans (hread.trans hlength)

end Comparison

omit [Field α] [LinearOrder α] in
/-- The dispatch for a matrix that is not too large. -/
theorem inRange_matvec {mRows kCols : UInt32} {n : ℕ} (hn : n ≤ 2 ^ 32 - 256)
    (hsize : mRows.toNat * kCols.toNat ≤ n) (hrows : mRows ≠ 0) :
    (ShaderCall.matvec mRows kCols : ShaderCall α).InRange := by
  refine ⟨?_, hsize.trans (hn.trans (by decide))⟩
  exact (Nat.le_mul_of_pos_left _ (pos_of_ne_zero hrows)).trans (hsize.trans hn)

/-- The product of a weight of a layer. -/
theorem tracks_matvec (h : Comparison ops gpu m d)
    (hkernels : kernels.RunShaders gpu (uploads m)) (hl : l < m.hparams.nLayers.toNat)
    (hw : m.layers[l]? = some w) {s : String} {a : List α} {mRows kCols : UInt32}
    {x b : ForwardBuffer} {known : List ForwardBuffer} {text : Bytes}
    (hs : (s, a) ∈ layerUploads w) (ha : mRows.toNat * kCols.toNat ≤ a.length) (hrows : mRows ≠ 0)
    (hcols : kCols ≠ 0) (hx : x ∈ known)
    (hsizex : bufferSize m.hparams cleared.maxSeqLen x = kCols)
    (hsize : bufferSize m.hparams cleared.maxSeqLen b = mRows) :
    Tracks ops (bufferSize m.hparams cleared.maxSeqLen) cleared kernels known
      (ForwardM.deviceMatvec kernels (blockPrefix l ++ ofString s) x b mRows kCols text)
      (ForwardM.matvec ops a x b mRows kCols) (b :: known) :=
  Tracks.matvec h.exact h.exactGpu hkernels (fun _ hv => eq_of_mem_uploads_layer hw hs hv) ha
    hrows hcols (inRange_matvec (h.length_le hl hw hs) ha hrows) hx hsizex hsize

/-- The norm of a layer. -/
theorem tracks_rmsNorm (h : Comparison ops gpu m d)
    (hkernels : kernels.RunShaders gpu (uploads m)) (hw : m.layers[l]? = some w) {s : String}
    {weight : List α} {known : List ForwardBuffer} {text e : Bytes}
    (hs : (s, weight) ∈ layerUploads w)
    (hweight : m.hparams.nEmbd.toNat ≤ weight.length) (hx : .hidden ∈ known) :
    Tracks ops (bufferSize m.hparams cleared.maxSeqLen) cleared kernels known
      (ForwardM.deviceRmsNorm kernels .hidden (blockPrefix l ++ ofString s) .normed m.hparams.nEmbd
        m.hparams.rmsNormEps text)
      ((ForwardM.rmsNorm ops .hidden weight .normed m.hparams.nEmbd m.hparams.rmsNormEps).orFail e)
      (.normed :: known) :=
  Tracks.rmsNorm h.exact h.exactDoubles h.exactGpu hkernels
    (fun _ hv => eq_of_mem_uploads_layer hw hs hv) hweight h.suits.nEmbd h.nEmbd_le hx rfl rfl

variable (cleared) in
/-- The first half of a layer. -/
theorem tracks_attend (h : Comparison ops gpu m d)
    (hkernels : kernels.RunShaders gpu (uploads m)) (hl : l < m.hparams.nLayers.toNat)
    (hw : m.layers[l]? = some w) (pos : UInt32) :
    Tracks ops (bufferSize m.hparams cleared.maxSeqLen) cleared kernels [.hidden]
      (attend ops kernels m.hparams w l pos)
      (HydroXLForwardPass.attend ops m.hparams w (.ofNat l) pos) [.hidden] := by
  have hmem : w ∈ m.layers := List.mem_of_getElem? hw
  have htoNat : (UInt32.ofNat l).toNat = l := by
    rw [UInt32.toNat_ofNat', Nat.mod_eq_of_lt (hl.trans (UInt32.toNat_lt _))]
  have hcpu := ForwardM.ignoresBuffers_answered kernels
  have hwrite : ofString "KV cache write" ++ ofString " failed at layer " =
      ofString "KV cache write failed at layer " := by decide
  have hattention : ofString "causal_attention" ++ ofString " failed at layer " =
      ofString "causal_attention failed at layer " := by decide
  -- the two passes, step by step
  unfold attend HydroXLForwardPass.attend HydroXLForwardPass.project
  simp only [bind_assoc, pure_bind, htoNat, hwrite, hattention]
  refine (tracks_rmsNorm h hkernels hw (s := "attn_norm") (by simp [layerUploads, LayerTensor.get])
    (h.suits.weights w hmem .attnNorm rfl (by decide)) (by simp)).bind fun _ _ => ?_
  refine (tracks_matvec h hkernels hl hw (s := "attn_q") (by simp [layerUploads, LayerTensor.get])
    (h.suits.weights w hmem .attnQ rfl (by decide)) h.heads_ne h.suits.nEmbd (by simp) rfl
    rfl).bind fun _ _ => ?_
  refine (tracks_matvec h hkernels hl hw (s := "attn_k") (by simp [layerUploads, LayerTensor.get])
    (h.kvSuit w hmem .attnK (by decide)) h.kvHeads_ne h.suits.nEmbd (by simp) rfl
    rfl).bind fun _ _ => ?_
  refine (tracks_matvec h hkernels hl hw (s := "attn_v") (by simp [layerUploads, LayerTensor.get])
    (h.kvSuit w hmem .attnV (by decide)) h.kvHeads_ne h.suits.nEmbd (by simp) rfl
    rfl).bind fun _ _ => ?_
  refine (Tracks.of_reads (Reads.addBias w.attnQBias (by simp))
    (ForwardM.keeps_addBias hcpu _ _ _)).bind fun _ _ => ?_
  refine (Tracks.of_reads (Reads.addBias w.attnKBias (by simp))
    (ForwardM.keeps_addBias hcpu _ _ _)).bind fun _ _ => ?_
  refine (Tracks.of_reads (Reads.addBias w.attnVBias (by simp))
    (ForwardM.keeps_addBias hcpu _ _ _)).bind fun _ _ => ?_
  refine (Tracks.of_reads (Reads.ropeApply (by simp) (by simp))
    (ForwardM.keeps_operate₂ hcpu _ _ _)).bind fun _ _ => ?_
  refine (Tracks.of_reads (Reads.orFail_of_reads (Reads.writeKV (by simp) (by simp)))
    ((ForwardM.keeps_writeKV hcpu fun _ _ _ _ hs => hs).orFail _)).bind fun _ _ => ?_
  refine (Tracks.of_reads
    (Reads.causalAttention (by simp) (by simp) (by simp) h.suits.heads rfl)
    ((ForwardM.keeps_operate₂ hcpu _ _ _).orFail _)).bind fun _ _ => ?_
  refine (tracks_matvec h hkernels hl hw (s := "attn_output")
    (by simp [layerUploads, LayerTensor.get])
    (h.suits.weights w hmem .attnOut rfl (by decide)) h.suits.nEmbd h.heads_ne (by simp) rfl
    rfl).bind fun _ _ => ?_
  exact (Tracks.residualAdd h.exact h.exactGpu hkernels h.suits.nEmbd h.nEmbd_le (by simp)
    (by simp) rfl rfl).mono (by simp)

variable (cleared) in
/-- The second half of a layer. -/
theorem tracks_feedForward (h : Comparison ops gpu m d)
    (hkernels : kernels.RunShaders gpu (uploads m)) (hl : l < m.hparams.nLayers.toNat)
    (hw : m.layers[l]? = some w) :
    Tracks ops (bufferSize m.hparams cleared.maxSeqLen) cleared kernels [.hidden]
      (feedForward kernels m.hparams l)
      (HydroXLForwardPass.feedForward ops m.hparams w (.ofNat l)) [.hidden] := by
  have hmem : w ∈ m.layers := List.mem_of_getElem? hw
  have hff := h.nFf_le hl hw
  unfold feedForward HydroXLForwardPass.feedForward
  dsimp only
  refine (tracks_rmsNorm h hkernels hw (s := "ffn_norm") (by simp [layerUploads, LayerTensor.get])
    (h.suits.weights w hmem .ffnNorm rfl (by decide)) (by simp)).bind fun _ _ => ?_
  refine (tracks_matvec h hkernels hl hw (s := "ffn_gate") (by simp [layerUploads, LayerTensor.get])
    (h.suits.weights w hmem .ffnGate rfl (by decide)) h.suits.nFf h.suits.nEmbd (by simp) rfl
    rfl).bind fun _ _ => ?_
  refine (tracks_matvec h hkernels hl hw (s := "ffn_up") (by simp [layerUploads, LayerTensor.get])
    (h.suits.weights w hmem .ffnUp rfl (by decide)) h.suits.nFf h.suits.nEmbd (by simp) rfl
    rfl).bind fun _ _ => ?_
  refine (Tracks.swiglu h.exact h.exactGpu hkernels h.suits.nFf hff (by simp) (by simp) rfl rfl
    rfl).bind fun _ _ => ?_
  refine (tracks_matvec h hkernels hl hw (s := "ffn_down") (by simp [layerUploads, LayerTensor.get])
    (h.suits.weights w hmem .ffnDown rfl (by decide)) h.suits.nEmbd h.suits.nFf (by simp) rfl
    rfl).bind fun _ _ => ?_
  exact (Tracks.residualAdd h.exact h.exactGpu hkernels h.suits.nEmbd h.nEmbd_le (by simp)
    (by simp) rfl rfl).mono (by simp)

variable (cleared) in
/-- A layer needs the hidden state, and leaves a new one. -/
theorem tracks_layer (h : Comparison ops gpu m d)
    (hkernels : kernels.RunShaders gpu (uploads m)) (hl : l < m.hparams.nLayers.toNat)
    (pos : UInt32) :
    Tracks ops (bufferSize m.hparams cleared.maxSeqLen) cleared kernels [.hidden]
      (layer ops kernels m pos l) (HydroXLForwardPass.layer ops m pos l) [.hidden] := by
  unfold layer HydroXLForwardPass.layer
  cases hw : m.layers[l]? with
  | none => exact TwoPrograms.Follows.undefined
  | some w =>
    refine (tracks_attend cleared h hkernels hl hw pos).bind fun _ _ => ?_
    exact tracks_feedForward cleared h hkernels hl hw

variable (cleared) in
/-- **The pass.** It starts with nothing known and ends with the logits known. -/
theorem tracks_pass (h : Comparison ops gpu m d)
    (hkernels : kernels.RunShaders gpu (uploads m)) (tokenId pos : UInt32) :
    Tracks ops (bufferSize m.hparams cleared.maxSeqLen) cleared kernels []
      (pass ops kernels m tokenId pos) (HydroXLForwardPass.pass ops m tokenId pos) [.logits] := by
  have htable : m.tokEmbd ≠ [] := ne_nil_of_le
    (Nat.mul_pos (pos_of_ne_zero h.suits.vocabSize) (pos_of_ne_zero h.suits.nEmbd))
    h.suits.tokEmbd
  unfold pass HydroXLForwardPass.pass
  dsimp only
  refine (Tracks.of_reads (Reads.embedLookup htable rfl)
    ((ForwardM.keeps_operate (ForwardM.ignoresBuffers_answered kernels) _ _).orFail _)).bind
    fun _ _ => ?_
  refine Tracks.bind (TwoPrograms.Follows.forM fun l hl =>
    tracks_layer cleared h hkernels (List.mem_range.mp hl) pos) fun _ _ => ?_
  refine (Tracks.rmsNorm h.exact h.exactDoubles h.exactGpu hkernels
    (fun _ hv => eq_of_mem_uploads_norm hv) h.suits.outputNorm h.suits.nEmbd h.nEmbd_le (by simp)
    rfl rfl).bind fun _ _ => ?_
  rw [← bind_pure (ForwardM.deviceMatvec _ _ _ _ _ _ _)]
  refine (Tracks.matvec h.exact h.exactGpu hkernels (fun _ hv => eq_of_mem_uploads_head hv)
    h.suits.lmHead h.suits.vocabSize h.suits.nEmbd
    (inRange_matvec h.length_head_le h.suits.lmHead h.suits.vocabSize) (by simp) rfl rfl).bind
    fun _ _ => ?_
  exact TwoPrograms.Follows.pure fun _ _ hs => ⟨hs.1.mono (by simp), hs.2⟩

end Pass

end HeteroAccel.Orchestration.HydroXLVulkanEngineAdapter
