import HeteroAccel.HydroXL.VulkanTensorOps
import HeteroAccel.Orchestration.HydroXLCpuEngineAdapter

/-!
# The Vulkan adapter as an object

`HydroXLVulkanEngineAdapter` from one call to the next. It holds a model, a tokenizer and a cache,
and the tensors of the model on a device; a token is run through the layers partly on the device and
partly on the CPU. Undefined behaviour is undefined behaviour of the request, the result `none`.

An initialization that fails frees what it has built and clears the flag of readiness, an exception
of `load`, or of the cache's `allocate`, leaves both as they are. The calls of the device in a
request are kept in `HydroXLVulkanEngineAdapter.calls`, which is not part of the source.

## Main definitions

* `HydroXLVulkanEngineAdapter.uploads`: the tensors that a model has on the device;
* `HydroXLVulkanEngineAdapter.initializeFrom`, `HydroXLVulkanEngineAdapter.shutdown`;
* `HydroXLVulkanEngineAdapter.forwardToken`, `HydroXLVulkanEngineAdapter.serve`.
-/

namespace HeteroAccel.Orchestration

open Bytes (ofString ofDecimal)

variable {α δ : Type} (ops : TensorOps α δ)

/-- The adapter. What has been freed is `none`; the buffer `logits` is not one of its own. -/
structure HydroXLVulkanEngineAdapter (α : Type) where
  model : Option (HydroXLModel α) := none
  tokenizer : Option HydroXLTokenizer := none
  kvCache : Option (HydroXLKVCache α) := none
  vkOps : VulkanTensorOps := {}
  isReady : Bool := false
  modelPath : Bytes := []
  buffers : ForwardBuffer → List α := fun _ => []
  /-- The calls of the device in the latest request, each with the position of its token. -/
  calls : List (UInt32 × DeviceCall α) := []

namespace HydroXLVulkanEngineAdapter

/-! ## Initialization -/

/-- How `initialize` ends: its result, the text in `error`, and the adapter. -/
structure Initialization (α : Type) where
  status : LoadStatus
  error : Bytes := []
  adapter : HydroXLVulkanEngineAdapter α

/-- `pfx`. -/
def blockPrefix (l : ℕ) : Bytes := ofString "blk." ++ ofDecimal l ++ ofString "."

/-- The weights of a layer that are uploaded, with their names. -/
def layerUploads (w : Qwen2LayerWeights α) : List (String × List α) :=
  [("attn_norm", w.attnNorm), ("attn_q", w.attnQ), ("attn_k", w.attnK), ("attn_v", w.attnV),
    ("attn_output", w.attnOut), ("ffn_norm", w.ffnNorm), ("ffn_gate", w.ffnGate),
      ("ffn_up", w.ffnUp),
    ("ffn_down", w.ffnDown)]

/-- The tensors in the order in which they are uploaded; empty ones are skipped. A loaded model has
all its layers. -/
def uploads (m : HydroXLModel α) : List (Bytes × List α) :=
  let layers := (List.range m.hparams.nLayers.toNat).flatMap fun l =>
    (layerUploads (m.layers.getD l {})).map fun t => (blockPrefix l ++ ofString t.1, t.2)
  ((ofString "output_norm", m.outputNorm) :: (ofString "output.weight", m.lmHeadWeights) ::
    layers).filter fun t => !t.2.isEmpty

/-- The uploads of some tensors, up to the first one that fails. -/
def uploadAll (device : VulkanDevice α) :
    List (Bytes × List α) → VulkanTensorOps → Except Bytes Unit × VulkanTensorOps
  | [], v => (.ok (), v)
  | (name, data) :: ts, v =>
    match v.uploadTensor device name data (.ofNat data.length) with
    | (.ok (), v) => uploadAll device ts v
    | (.error e, v) => (.error (ofString "Failed to upload " ++ name ++ ofString ": " ++ e), v)

/-- `initialize`. -/
def initializeFrom (threads : Threads) (outcome : AssignOutcome α) (device : VulkanDevice α)
    (path : Bytes) (entry : DirEntry) (a : HydroXLVulkanEngineAdapter α) : Initialization α :=
  if path = [] then { status := .failed, error := ofString "Model path is empty", adapter := a }
  else
    match a.vkOps.initializeFrom device with
    | (.error e, vkOps) =>
      { status := .failed
        error := ofString "HydroXLVulkanEngineAdapter: failed to initialize Vulkan: " ++ e
        adapter := { a with vkOps, isReady := false } }
    | (.ok (), vkOps) =>
      let a := { a with vkOps, tokenizer := some .fresh, kvCache := some {} }
      match (HydroXLModel.fresh ops).load ops threads path entry with
      | (.thrown, model) => { status := .thrown, adapter := { a with model := some model } }
      | (.failed, model) =>
        { status := .failed
          error := ofString "Failed to load GGUF model: " ++ model.lastError
          adapter := { a with model := none, vkOps := vkOps.shutdown, isReady := false } }
      | (.loaded, model) =>
        let a := { a with
          model := some model
          tokenizer := some (HydroXLCpuEngineAdapter.loadTokenizer path entry) }
        let hp := model.hparams
        let maxSeq := HydroXLCpuEngineAdapter.maxSeq hp.nCtxMax
        match HydroXLKVCache.callAllocate ops.zero outcome {}
          (HydroXLCpuEngineAdapter.cacheDims hp) with
        | (none, kvCache) =>
          { status := .thrown, adapter := { a with kvCache := some kvCache } }
        | (some false, kvCache) =>
          { status := .failed
            error := ofString "Failed to allocate KV cache"
            adapter := { a with
              model := none
              tokenizer := none
              kvCache := some kvCache
              vkOps := vkOps.shutdown
              isReady := false } }
        | (some true, kvCache) =>
          match uploadAll device (uploads model) vkOps with
          | (.error e, vkOps) =>
            { status := .failed
              error := e
              adapter := { a with
                model := none
                tokenizer := none
                kvCache := none
                vkOps := vkOps.shutdown
                isReady := false } }
          | (.ok (), vkOps) =>
            { status := .loaded
              adapter := { a with
                kvCache := some kvCache
                vkOps
                -- the logits are a variable of the caller
                buffers := fun b =>
                  if b = .logits then a.buffers b
                  else HydroXLModel.resize ops.zero (a.buffers b)
                    (HydroXLForwardPass.bufferSize hp maxSeq b).toNat
                modelPath := path
                isReady := true } }

/-- `shutdown`. -/
def shutdown (a : HydroXLVulkanEngineAdapter α) : HydroXLVulkanEngineAdapter α :=
  { a with
    vkOps := a.vkOps.shutdown
    model := none
    tokenizer := none
    kvCache := none
    isReady := false
    modelPath := [] }

/-! ## A token -/

section Pass

variable (kernels : VulkanKernels α)

/-- The first half of a layer. The result of the rotary encoding is not looked at. -/
def attend (hp : Qwen2HParams α) (w : Qwen2LayerWeights α) (l : ℕ) (pos : UInt32) :
    ForwardM α Unit := do
  let attnScale := ops.div ops.one (ops.sqrt (ops.ofUInt32 hp.nHeadDim))
  let tensor (name : String) := blockPrefix l ++ ofString name
  let text (what : String) := ofString what ++ ofString " failed at layer " ++ ofDecimal l
  let gpu (what : String) := text what ++ ofString ": "
  ForwardM.deviceRmsNorm kernels .hidden (tensor "attn_norm") .normed hp.nEmbd hp.rmsNormEps
    (gpu "GPU rmsnorm")
  ForwardM.deviceMatvec kernels (tensor "attn_q") .normed .qBuf (hp.nHeads * hp.nHeadDim) hp.nEmbd
    (gpu "GPU matvec attn_q")
  ForwardM.deviceMatvec kernels (tensor "attn_k") .normed .kBuf (hp.nKvHeads * hp.nHeadDim) hp.nEmbd
    (gpu "GPU matvec attn_k")
  ForwardM.deviceMatvec kernels (tensor "attn_v") .normed .vBuf (hp.nKvHeads * hp.nHeadDim) hp.nEmbd
    (gpu "GPU matvec attn_v")
  ForwardM.addBias ops w.attnQBias .qBuf (hp.nHeads * hp.nHeadDim)
  ForwardM.addBias ops w.attnKBias .kBuf (hp.nKvHeads * hp.nHeadDim)
  ForwardM.addBias ops w.attnVBias .vBuf (hp.nKvHeads * hp.nHeadDim)
  let _ ← ForwardM.ropeApply ops .qBuf hp.nHeads .kBuf hp.nKvHeads hp.nHeadDim pos hp.ropeFreqBase
    ops.one
  (ForwardM.writeKV (.ofNat l) pos .kBuf .vBuf).orFail (text "KV cache write")
  (ForwardM.causalAttention ops (.ofNat l) .qBuf .attnOut (pos + 1)
    hp.nHeads hp.nKvHeads hp.nHeadDim
    attnScale .attnScores).orFail (text "causal_attention")
  ForwardM.deviceMatvec kernels (tensor "attn_output") .attnOut .projOut hp.nEmbd
    (hp.nHeads * hp.nHeadDim) (gpu "GPU matvec attn_output")
  ForwardM.deviceElemwise kernels .hidden .projOut .hidden hp.nEmbd 0 (gpu "GPU residual add")

/-- The second half of a layer. -/
def feedForward (hp : Qwen2HParams α) (l : ℕ) : ForwardM α Unit := do
  let tensor (name : String) := blockPrefix l ++ ofString name
  let gpu (what : String) :=
    ofString what ++ ofString " failed at layer " ++ ofDecimal l ++ ofString ": "
  ForwardM.deviceRmsNorm kernels .hidden (tensor "ffn_norm") .normed hp.nEmbd hp.rmsNormEps
    (gpu "GPU ffn rmsnorm")
  ForwardM.deviceMatvec kernels (tensor "ffn_gate") .normed .gateBuf hp.nFf hp.nEmbd
    (gpu "GPU matvec ffn_gate")
  ForwardM.deviceMatvec kernels (tensor "ffn_up") .normed .upBuf hp.nFf hp.nEmbd
    (gpu "GPU matvec ffn_up")
  ForwardM.deviceElemwise kernels .gateBuf .upBuf .ffnBuf hp.nFf 2 (gpu "GPU swiglu")
  ForwardM.deviceMatvec kernels (tensor "ffn_down") .ffnBuf .ffnOut hp.nEmbd hp.nFf
    (gpu "GPU matvec ffn_down")
  ForwardM.deviceElemwise kernels .hidden .ffnOut .hidden hp.nEmbd 0 (gpu "GPU residual add ffn")

/-- One round of the loop over the layers; an access beyond them throws. -/
def layer (m : HydroXLModel α) (pos : UInt32) (l : ℕ) : ForwardM α PUnit :=
  match m.layers[l]? with
  | none => TwoRuns.Prog.undefined
  | some w => do
    attend ops kernels m.hparams w l pos
    feedForward kernels m.hparams l

/-- What is done with the buffers. -/
def pass (m : HydroXLModel α) (tokenId pos : UInt32) : ForwardM α Unit := do
  let hp := m.hparams
  (ForwardM.embedLookup m.tokEmbd tokenId hp.vocabSize hp.nEmbd .hidden).orFail
    (ofString "Invalid token_id=" ++ ofDecimal tokenId.toNat)
  (List.range hp.nLayers.toNat).forM (layer ops kernels m pos)
  ForwardM.deviceRmsNorm kernels .hidden (ofString "output_norm") .normed hp.nEmbd hp.rmsNormEps
    (ofString "GPU final rmsnorm failed: ")
  ForwardM.deviceMatvec kernels (ofString "output.weight") .normed .logits hp.vocabSize hp.nEmbd
    (ofString "GPU LM head matvec failed: ")

/-- `forward_token` for a vector `logits`: its new content or the text in `err`, and the adapter. -/
def forwardToken (tokenId pos : UInt32) (logits : List α) (a : HydroXLVulkanEngineAdapter α) :
    Option (Except Bytes (List α) × HydroXLVulkanEngineAdapter α) :=
  match a.model, a.kvCache with
  | some m, some kvCache =>
    if !a.vkOps.ready then some (.error (ofString "Model or Vulkan ops not ready"), a)
    else do
      let (result, s) ← (pass ops kernels m tokenId pos).runFrom
        { kvCache
          buffers := Function.update a.buffers .logits
            (HydroXLModel.resize ops.zero logits m.hparams.vocabSize.toNat) }
      some (result.map fun _ => s.buffers .logits,
        { a with
          kvCache := some s.kvCache
          buffers := s.buffers
          calls := a.calls ++ s.calls.map fun call => (pos, call) })
  | _, _ => some (.error (ofString "Model or Vulkan ops not ready"), a)

end Pass

/-! ## Requests -/

/-- The adapter as the model of a generation, the device answering at each position. Behind
undefined behaviour the state is `none`. -/
def languageModel (kernels : UInt32 → VulkanKernels α) (tokenizer : HydroXLTokenizer)
    (kvCache : HydroXLKVCache α) : LanguageModel (Option (HydroXLVulkanEngineAdapter α)) α where
  tokenizer
  maxSeqLen := kvCache.maxSeqLen
  resetCache a := a.map fun a => { a with kvCache := a.kvCache.map (HydroXLKVCache.reset ops.zero) }
  forward tokenId pos logits a :=
    match a.bind (forwardToken ops (kernels pos) tokenId pos logits) with
    | some (result, a) => (result, some a)
    | none => (.error [], none)

/-- What a request works with, if the adapter is ready for it. -/
def ready (a : HydroXLVulkanEngineAdapter α) : Option (HydroXLTokenizer × HydroXLKVCache α) :=
  if a.isReady && a.vkOps.ready then
    match a.model, a.tokenizer, a.kvCache with
    | some _, some tokenizer, some kvCache => some (tokenizer, kvCache)
    | _, _, _ => none
  else none

/-- A request to the adapter, which begins a new log of calls. -/
def serve (kernels : UInt32 → VulkanKernels α) (a : HydroXLVulkanEngineAdapter α) (r : Request α) :
    Option (StreamRun (HydroXLVulkanEngineAdapter α)) :=
  let model := a.ready.map fun (tokenizer, kvCache) => languageModel ops kernels tokenizer kvCache
  let run := runStream ops model r.cb r.req (some { a with calls := [] })
  run.state.map fun a =>
    { returned := run.returned
      result := run.result
      delivered := run.delivered
      state := a }

end HydroXLVulkanEngineAdapter

end HeteroAccel.Orchestration
