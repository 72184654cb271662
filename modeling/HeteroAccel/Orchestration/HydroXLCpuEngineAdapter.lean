import HeteroAccel.HydroXL.ForwardPass
import HeteroAccel.HydroXL.KVRepresentation
import HeteroAccel.Orchestration.HydroXLEngineAdapter

/-!
# The CPU adapter as an object

`HydroXLCpuEngineAdapter` from one call to the next: `initialize` builds a model, a tokenizer, a
cache and a forward pass from a file, and the requests work on them. Undefined behaviour in the
forward pass is undefined behaviour of the request, the result `none`.

The source holds the model and the cache beside the forward pass, which has pointers to them once
they are attached. No request looks at them before, so that they are only in the forward pass here.

## Main definitions

* `HydroXLForwardPass.languageModel`: the forward pass as the model of a generation;
* `HydroXLCpuEngineAdapter.initializeFrom`, `HydroXLCpuEngineAdapter.shutdown`;
* `HydroXLCpuEngineAdapter.serve`, `HydroXLCpuEngineAdapter.serveAll`: requests to the adapter.
-/

namespace HeteroAccel

open Bytes (ofString)

theorem length_nil_le : ([] : List Bytes).length ≤ 2 ^ 24 := Nat.zero_le _

/-- A fresh tokenizer. -/
def HydroXLTokenizer.fresh : HydroXLTokenizer where
  vocab := ⟨[], length_nil_le⟩

namespace HydroXLForwardPass

variable {α δ : Type} (ops : TensorOps α δ)

/-- `reset` of the cache that is attached. -/
def resetCache (p : HydroXLForwardPass α) : HydroXLForwardPass α :=
  { p with kvCache := p.kvCache.map (HydroXLKVCache.reset ops.zero) }

/-- `forward` for a state that has been defined so far, and what is then read from the object. -/
def forwardStep (tokenId pos : UInt32) (logits : List α) (p : Option (HydroXLForwardPass α)) :
    Except Bytes (List α) × Option (HydroXLForwardPass α) :=
  match p.bind fun p => p.forward ops tokenId pos logits with
  | some (true, logits, p) => (.ok logits, some p)
  | some (false, _, p) => (.error p.lastError, some p)
  | none => (.error [], none)

/-- The tokenizer, the forward pass and its cache as the model of a generation. Behind undefined
behaviour the state is `none`. -/
def languageModel (tokenizer : HydroXLTokenizer) (kvCache : HydroXLKVCache α) :
    LanguageModel (Option (HydroXLForwardPass α)) α where
  tokenizer
  maxSeqLen := kvCache.maxSeqLen
  resetCache p := p.map (resetCache ops)
  forward := forwardStep ops

end HydroXLForwardPass

namespace Orchestration

variable {α δ : Type} (ops : TensorOps α δ)

/-- The adapter. A forward pass that has been freed is `none`. -/
structure HydroXLCpuEngineAdapter (α : Type) where
  tokenizer : HydroXLTokenizer := .fresh
  forwardPass : Option (HydroXLForwardPass α) := some {}
  isReady : Bool := false
  modelPath : Bytes := []

/-- How `initialize` ends: its result, the text in `error`, and the adapter. -/
structure Initialization (α : Type) where
  status : LoadStatus
  error : Bytes := []
  adapter : HydroXLCpuEngineAdapter α

/-- A request: `run_stream` with a callback, or `run`, which is `run_stream` without one. -/
structure Request (α : Type) where
  cb : Option StreamCallback := none
  req : InferenceRequest α

namespace HydroXLCpuEngineAdapter

/-- The tokenizer that is loaded from the file. That it cannot be loaded is not looked at. -/
def loadTokenizer (path : Bytes) (entry : DirEntry) : HydroXLTokenizer :=
  let content :=
    match entry with
    | .file content => some content
    | .unreadable => none
    | .missing => none
  match GGUFLoader.open {} path content with
  | (true, gguf) => (HydroXLTokenizer.fresh.loadFromGGUF gguf).2
  | (false, _) => .fresh

/-- The length of the cache for a model. -/
def maxSeq (nCtxMax : UInt32) : UInt32 :=
  let maxSeq := min nCtxMax 2048
  if maxSeq = 0 then 512 else maxSeq

/-- The dimensions of the cache for a model. -/
def cacheDims (hp : Qwen2HParams α) : KVDims :=
  ⟨hp.nLayers, hp.nKvHeads, maxSeq hp.nCtxMax, hp.nHeadDim⟩

/-- `initialize`. An exception of `load`, or of `allocate`, leaves the adapter with components that
are not attached. -/
def initializeFrom (threads : Threads) (outcome : AssignOutcome α) (path : Bytes) (entry : DirEntry)
    (a : HydroXLCpuEngineAdapter α) : Initialization α :=
  if path = [] then { status := .failed, error := ofString "Model path is empty", adapter := a }
  else
    let a := { a with tokenizer := .fresh, forwardPass := some {} }
    match (HydroXLModel.fresh ops).load ops threads path entry with
    | (.thrown, _) => { status := .thrown, adapter := a }
    | (.failed, model) =>
      { status := .failed
        error := ofString "Failed to load GGUF model: " ++ model.lastError
        adapter := a }
    | (.loaded, model) =>
      let a := { a with tokenizer := loadTokenizer path entry }
      let hp := model.hparams
      match HydroXLKVCache.callAllocate ops.zero outcome {} (cacheDims hp) with
      | (none, _) => { status := .thrown, adapter := a }
      | (some false, _) =>
        { status := .failed, error := ofString "Failed to allocate KV cache", adapter := a }
      | (some true, kvCache) =>
        { status := .loaded
          adapter := { a with
            forwardPass := some (HydroXLForwardPass.attach model kvCache {})
            modelPath := path
            isReady := true } }

/-- `shutdown`. -/
def shutdown (_ : HydroXLCpuEngineAdapter α) : HydroXLCpuEngineAdapter α :=
  { forwardPass := none }

/-- The forward pass and its cache, if the adapter is ready for a request. -/
def ready (a : HydroXLCpuEngineAdapter α) :
    Option (HydroXLForwardPass α × HydroXLKVCache α) :=
  if a.isReady then
    a.forwardPass.bind fun p => if p.isReady then p.kvCache.map fun kvCache =>
      (p, kvCache) else none
  else none

/-- A request to the adapter. -/
def serve (a : HydroXLCpuEngineAdapter α) (r : Request α) :
    Option (StreamRun (HydroXLCpuEngineAdapter α)) :=
  match a.ready with
  | none => some (runStream ops (none : Option (LanguageModel _ α)) r.cb r.req a)
  | some (p, kvCache) =>
    let m := HydroXLForwardPass.languageModel ops a.tokenizer kvCache
    let run := runStream ops (some m) r.cb r.req (some p)
    run.state.map fun p =>
      { returned := run.returned
        result := run.result
        delivered := run.delivered
        state := { a with forwardPass := some p } }

/-- The adapter after some requests, however they end. -/
def serveAll (a : HydroXLCpuEngineAdapter α) (rs : List (Request α)) :
    Option (HydroXLCpuEngineAdapter α) :=
  rs.foldlM (fun a r => (a.serve ops r).map fun run => run.state) a

end HydroXLCpuEngineAdapter

end Orchestration

end HeteroAccel
