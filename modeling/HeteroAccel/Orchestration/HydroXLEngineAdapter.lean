import HeteroAccel.HydroXL.Engine

/-!
# The engine adapters

`run` and `run_stream` of the two native adapters, `HydroXLCpuEngineAdapter` and
`HydroXLVulkanEngineAdapter`. The bodies in the source are the same but for the forward pass that
they call and for two fields of the result, so that both are `runStream` here.

## Main definitions

* `runStream`: prefill, and a decoding loop that a callback can end;
* `HydroXLCpuEngineAdapter.runStream`, `HydroXLVulkanEngineAdapter.runStream`, and `run`, which is
  the former without a callback.
-/

namespace HeteroAccel.Orchestration

open Bytes (ofString)

/-- A request, as an engine gets it. -/
structure InferenceRequest (α : Type) where
  promptTokenIds : List TokenID := []
  maxNewTokens : Int32 := 16
  temperature : α
  topP : α

/-- What an engine returns. -/
structure InferenceResult where
  outputTokenIds : List TokenID := []
  outputText : Bytes := []
  promptTokens : Int32 := 0
  outputTokens : Int32 := 0
  gpuUsed : Bool := false
  backendUsed : String := ""
  success : Bool := false
  error : Bytes := []
  deriving DecidableEq

/-- A callback, told by its invocations so far, the present one included. -/
abbrev StreamCallback := List (Bytes × TokenID) → Bool

/-- The variables of the decoding loop. -/
structure Progress (σ α : Type) where
  cursor : Cursor σ α
  sampler : HydroXLSampler α
  outIds : List TokenID := []
  outText : Bytes := []
  /-- The invocations of the callback. -/
  delivered : List (Bytes × TokenID) := []

/-- How the decoding loop ends. -/
inductive Ending where
  | finished
  | cancelled
  | failed (error : Bytes)
  deriving DecidableEq

/-- What `run_stream` returns and leaves. -/
structure StreamRun (σ : Type) where
  returned : Bool
  result : InferenceResult
  delivered : List (Bytes × TokenID) := []
  state : σ

variable {σ α δ : Type} (ops : TensorOps α δ)

namespace InferenceRequest

variable (req : InferenceRequest α)

/-- The tokens of the prompt. -/
def promptTokens (tokenizer : HydroXLTokenizer) : List TokenID :=
  let promptTokens :=
    if req.promptTokenIds ≠ [] then req.promptTokenIds
    else tokenizer.encode (ofString "The capital of France is") tokenizer.addBos
  if promptTokens = [] then [1] else promptTokens

/-- `max_new`. -/
def maxNew : ℕ := (if 0 < req.maxNewTokens then req.maxNewTokens else 16).toNatClampNeg

/-- The parameters of the sampler. -/
def samplerParams : SamplerParams α :=
  { SamplerParams.standard ops with
    temperature := req.temperature
    topK := 40
    topP := req.topP
    seed := 42 }

end InferenceRequest

/-- The prefill loop. -/
def prefill (m : LanguageModel σ α) (promptTokens : List TokenID) (c : Cursor σ α) :
    Except (StepFailure σ) (Cursor σ α) :=
  promptTokens.foldlM m.step c

variable (m : LanguageModel σ α) (cb : Option StreamCallback) (promptTokens : List TokenID)

namespace Progress

variable {m}

/-- The variables after a token was appended to the output and handed to the callback. -/
def emit (p : Progress σ α) (piece : Bytes) (tok : TokenID) : Progress σ α :=
  { p with
    outIds := p.outIds ++ [tok]
    outText := p.outText ++ piece
    delivered := if cb.isSome then p.delivered ++ [(piece, tok)] else p.delivered }

/-- `cb && !cb(piece, tid)`, after the invocation. -/
def declined (p : Progress σ α) : Bool := cb.any fun cb => !cb p.delivered

end Progress

/-- The decoding loop with `left` rounds left. -/
def decodeLoop : (left : ℕ) → Progress σ α → Progress σ α × Ending
  | 0, p => (p, .finished)
  | left + 1, p =>
    if p.cursor.pos ≥ m.maxSeqLen then (p, .finished)
    else
      let (tok, sampler) := p.sampler.sample ops p.cursor.logits (.ofNat p.cursor.logits.length)
        promptTokens
      let p := { p with sampler }
      if m.Stops tok then (p, .finished)
      else
        let p := p.emit cb (m.tokenizer.decodeToken tok) tok
        if p.declined cb then (p, .cancelled)
        else
          match m.step p.cursor tok with
          | .ok cursor => decodeLoop left { p with cursor }
          | .error e => ({ p with cursor.state := e.state }, .failed e.error)

/-- What is returned for the variables that the decoding loop leaves, `res` being the result so
far. -/
def conclude (res : InferenceResult) : Progress σ α × Ending → StreamRun σ
  | (p, ending) =>
    let res := { res with
      outputTokenIds := p.outIds
      outputText := p.outText
      outputTokens := .ofNat p.outIds.length }
    let (returned, res) : Bool × InferenceResult :=
      match ending with
      | .finished => (true, { res with success := true })
      | .cancelled => (false, { res with error := ofString "Cancelled" })
      | .failed error =>
        (false, { res with error := ofString "Forward pass failed during generation: " ++ error })
    { returned, result := res, delivered := p.delivered, state := p.cursor.state }

/-- `run_stream` of both adapters; without a model that is ready it fails. -/
def runStream (backendUsed : String) (gpuUsed : Bool) (model : Option (LanguageModel σ α))
    (cb : Option StreamCallback) (req : InferenceRequest α) (st : σ) : StreamRun σ :=
  let res : InferenceResult := { backendUsed, gpuUsed }
  match model with
  | none =>
    { returned := false
      result := { res with error := ofString "Engine not ready or not initialized" }
      state := st }
  | some m =>
    let promptTokens := req.promptTokens m.tokenizer
    let res := { res with promptTokens := .ofNat promptTokens.length }
    match prefill m promptTokens { state := m.resetCache st } with
    | .error e =>
      { returned := false
        result := { res with error := ofString "Prefill failed: " ++ e.error }
        state := e.state }
    | .ok cursor =>
      conclude res (decodeLoop ops m cb promptTokens req.maxNew
        { cursor, sampler := .new (req.samplerParams ops) })

/-! ## One round of the loop -/

/-- A round from the token on that was sampled, with the `left` rounds behind it. -/
def roundFrom (ops : TensorOps α δ) (m : LanguageModel σ α) (cb : Option StreamCallback)
    (promptTokens : List TokenID) (left : ℕ) (tok : TokenID) (p : Progress σ α) :
    Progress σ α × Ending :=
  let e := p.emit cb (m.tokenizer.decodeToken tok) tok
  if e.declined cb then (e, .cancelled)
  else
    match m.step p.cursor tok with
    | .ok cursor => decodeLoop ops m cb promptTokens left { e with cursor }
    | .error f => ({ e with cursor.state := f.state }, .failed f.error)

/-- A round either ends the loop, or goes on with a token. Which of them, and the token, depend on
the cursor and the sampler only. -/
theorem round_cases (ops : TensorOps α δ) (m : LanguageModel σ α) (promptTokens : List TokenID)
    (cursor : Cursor σ α) (sampler : HydroXLSampler α) : ∃ sampler',
    (∀ cb left (p : Progress σ α), p.cursor = cursor → p.sampler = sampler →
      decodeLoop ops m cb promptTokens (left + 1) p = ({ p with sampler := sampler' }, .finished)) ∨
    ∃ tok, ¬m.Stops tok ∧
      ∀ cb left (p : Progress σ α), p.cursor = cursor → p.sampler = sampler →
        decodeLoop ops m cb promptTokens (left + 1) p =
          roundFrom ops m cb promptTokens left tok { p with sampler := sampler' } := by
  by_cases hpos : cursor.pos ≥ m.maxSeqLen
  · refine ⟨sampler, .inl ?_⟩
    rintro cb left p rfl rfl
    rw [decodeLoop, if_pos hpos]
  · obtain ⟨tok, sampler', hsample⟩ : ∃ tok sampler', sampler.sample ops cursor.logits
        (.ofNat cursor.logits.length) promptTokens = (tok, sampler') := ⟨_, _, rfl⟩
    by_cases hstop : m.Stops tok
    · refine ⟨sampler', .inl ?_⟩
      rintro cb left p rfl rfl
      rw [decodeLoop, if_neg hpos, hsample]
      exact if_pos hstop
    · refine ⟨sampler', .inr ⟨tok, hstop, ?_⟩⟩
      rintro cb left p rfl rfl
      rw [decodeLoop, if_neg hpos, hsample]
      exact if_neg hstop

/-! ## What is returned -/

section Conclude

variable (res : InferenceResult) (r : Progress σ α × Ending)

@[simp]
theorem outputTokenIds_conclude : (conclude res r).result.outputTokenIds = r.1.outIds := by
  obtain ⟨p, ending⟩ := r
  cases ending <;> rfl

@[simp]
theorem outputText_conclude : (conclude res r).result.outputText = r.1.outText := by
  obtain ⟨p, ending⟩ := r
  cases ending <;> rfl

@[simp]
theorem outputTokens_conclude :
    (conclude res r).result.outputTokens = .ofNat r.1.outIds.length := by
  obtain ⟨p, ending⟩ := r
  cases ending <;> rfl

@[simp]
theorem delivered_conclude : (conclude res r).delivered = r.1.delivered := by
  obtain ⟨p, ending⟩ := r
  cases ending <;> rfl

end Conclude

section RunStream

variable {ops m cb} {backendUsed : String} {gpuUsed : Bool} {req : InferenceRequest α} {st : σ}

theorem runStream_of_prefill_error {e : StepFailure σ}
    (h : prefill m (req.promptTokens m.tokenizer) { state := m.resetCache st } = .error e) :
    runStream ops backendUsed gpuUsed (some m) cb req st =
      { returned := false
        result := { backendUsed, gpuUsed, error := ofString "Prefill failed: " ++ e.error
                    promptTokens := .ofNat (req.promptTokens m.tokenizer).length }
        state := e.state } := by
  simp only [runStream, h]

theorem runStream_of_prefill_ok {cursor : Cursor σ α}
    (h : prefill m (req.promptTokens m.tokenizer) { state := m.resetCache st } = .ok cursor) :
    runStream ops backendUsed gpuUsed (some m) cb req st =
      conclude
        { backendUsed, gpuUsed, promptTokens := .ofNat (req.promptTokens m.tokenizer).length }
        (decodeLoop ops m cb (req.promptTokens m.tokenizer) req.maxNew
          { cursor, sampler := .new (req.samplerParams ops) }) := by
  simp only [runStream, h]

end RunStream

namespace HydroXLCpuEngineAdapter

/-- `HydroXLCpuEngineAdapter::run_stream`. -/
def runStream (model : Option (LanguageModel σ α)) (cb : Option StreamCallback)
    (req : InferenceRequest α) (st : σ) : StreamRun σ :=
  Orchestration.runStream ops "hydroxl_cpu" false model cb req st

/-- `HydroXLCpuEngineAdapter::run`. -/
def run (model : Option (LanguageModel σ α)) (req : InferenceRequest α) (st : σ) : StreamRun σ :=
  runStream ops model none req st

end HydroXLCpuEngineAdapter

namespace HydroXLVulkanEngineAdapter

/-- `HydroXLVulkanEngineAdapter::run_stream`. -/
def runStream (model : Option (LanguageModel σ α)) (cb : Option StreamCallback)
    (req : InferenceRequest α) (st : σ) : StreamRun σ :=
  Orchestration.runStream ops "hydroxl_vulkan" true model cb req st

/-- `HydroXLVulkanEngineAdapter::run`. -/
def run (model : Option (LanguageModel σ α)) (req : InferenceRequest α) (st : σ) : StreamRun σ :=
  runStream ops model none req st

end HydroXLVulkanEngineAdapter

end HeteroAccel.Orchestration
