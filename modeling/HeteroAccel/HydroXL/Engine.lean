import HeteroAccel.HydroXL.Sampler

/-!
# Generation in the engine

`HydroXLEngine::doGenerate`: the prompt is tokenized and run through the model, then tokens are
sampled, decoded, streamed and run through the model until one of the limits is met. The tokenizer,
the cache and the forward pass of the loaded model are a `LanguageModel`, over a state `σ` that
holds what the forward pass keeps between two tokens.

## Main definitions

* `LanguageModel.step`: one forward pass, and the position moved on;
* `HydroXLEngine.generateFrom`: `doGenerate` from the token list of the prompt on;
* `HydroXLEngine.doGenerate`.
-/

namespace HeteroAccel

open Bytes (ofString ofDecimal)

/-- What generation uses of a loaded model. -/
structure LanguageModel (σ α : Type) where
  tokenizer : HydroXLTokenizer
  /-- `maxSeqLen` of the cache. -/
  maxSeqLen : UInt32
  /-- `reset` of the cache. -/
  resetCache : σ → σ
  /-- `forward` for a token, a position and the logits vector: its new content, or the last
  error. -/
  forward : UInt32 → UInt32 → List α → σ → Except Bytes (List α) × σ

/-- Where a conversation stands. -/
structure Cursor (σ α : Type) where
  pos : UInt32 := 0
  logits : List α := []
  state : σ

/-- A forward pass that failed. -/
structure StepFailure (σ : Type) where
  error : Bytes
  state : σ

namespace LanguageModel

variable {σ α : Type} (m : LanguageModel σ α)

/-- One forward pass, and `++pos` behind it. -/
def step (c : Cursor σ α) (tok : TokenID) : Except (StepFailure σ) (Cursor σ α) :=
  match m.forward tok.toUInt32 c.pos c.logits c.state with
  | (.ok logits, state) => .ok { pos := c.pos + 1, logits, state }
  | (.error error, state) => .error { error, state }

/-- The tokens that end generation. -/
def Stops (tok : TokenID) : Prop := tok = m.tokenizer.eosId ∨ tok = tokenInvalid

instance : DecidablePred m.Stops :=
  fun tok => inferInstanceAs (Decidable (tok = m.tokenizer.eosId ∨ tok = tokenInvalid))

end LanguageModel

namespace HydroXLEngine

/-- The errors of an engine that end a request at once. -/
inductive EngineErrorKind where
  | cancelled | invalidRequest
  deriving DecidableEq, Repr

/-- What `doGenerate` reads of an `ExecutionContext`. The flag is told by how often it has been
read. -/
structure ExecutionContext (α : Type) where
  prompt : Bytes := []
  maxTokens : Int32 := 256
  temperature : α
  seed : UInt32 := 42
  nCtx : Int32 := 2048
  cancelFlag : Option (ℕ → Bool) := none

/-- What a generation returns. -/
structure ExecutionResult where
  success : Bool := false
  output : Bytes := []
  error : Bytes := []
  promptTokens : Int32 := 0
  outputTokens : Int32 := 0
  deriving DecidableEq

/-- How `doGenerate` ends: its result, its `generated_tokens`, what it has handed to the callback,
what it has set `last_error_` to and the state it leaves. -/
structure Generation (σ : Type) where
  result : ExecutionResult
  generated : List TokenID := []
  streamed : List Bytes := []
  lastError : Option (EngineErrorKind × Bytes) := none
  state : σ

/-- A generation that fails. -/
structure Failure (σ : Type) where
  error : Bytes
  kind : Option EngineErrorKind := none
  state : σ

/-- The variables of the decoding loop. -/
structure Progress (σ α : Type) where
  /-- The reads of the flag so far. -/
  polls : ℕ
  cursor : Cursor σ α
  sampler : HydroXLSampler α
  generatedTokens : List TokenID := []
  outputText : Bytes := []
  streamed : List Bytes := []

variable {σ α δ : Type} (ops : TensorOps α δ) (m : LanguageModel σ α) (ctx : ExecutionContext α)

namespace ExecutionContext

/-- `ctx.cancel_flag && ctx.cancel_flag->load()`. -/
def cancelled (polls : ℕ) : Bool := ctx.cancelFlag.any fun flag => flag polls

/-- `effective_limit`. -/
def effectiveLimit (maxSeqLen : UInt32) : UInt32 :=
  if 0 < ctx.nCtx ∧ ctx.nCtx.toUInt32 < maxSeqLen then ctx.nCtx.toUInt32 else maxSeqLen

/-- `max_new`. -/
def maxNew : ℕ := (if 0 < ctx.maxTokens then ctx.maxTokens else 256).toNatClampNeg

/-- The parameters of the sampler. -/
def samplerParams : SamplerParams α :=
  { SamplerParams.standard ops with
    temperature := ctx.temperature
    topK := 40
    topP := ops.lit (95 / 100)
    seed := ctx.seed }

end ExecutionContext

/-- The prefill loop; `polls` is the number of the prompt token. -/
def prefill (limit : UInt32) (polls : ℕ) : List TokenID → Cursor σ α →
    Except (Failure σ) (Cursor σ α)
  | [], c => .ok c
  | tok :: toks, c =>
    if ctx.cancelled polls then
      .error { error := ofString "Cancelled during prefill", kind := some .cancelled,
               state := c.state }
    else if c.pos ≥ limit then
      .error { error := ofString "Prompt exceeds max_seq_len", state := c.state }
    else
      match m.step c tok with
      | .ok c => prefill limit (polls + 1) toks c
      | .error e =>
        .error { error := ofString "Forward pass failed: " ++ e.error, state := e.state }

/-- The variables after a token was appended to the output and handed to the callback. -/
def Progress.emit (p : Progress σ α) (streaming : Bool) (piece : Bytes) (tok : TokenID) :
    Progress σ α :=
  { p with
    polls := p.polls + 1
    generatedTokens := p.generatedTokens ++ [tok]
    outputText := p.outputText ++ piece
    streamed := if streaming then p.streamed ++ [piece] else p.streamed }

/-- The decoding loop with `left` rounds left, from round `i` on: the variables it leaves, and the
failure that ended it. -/
def decodeLoop (limit : UInt32) (streaming : Bool) : (left i : ℕ) → Progress σ α →
    Progress σ α × Option (Failure σ)
  | 0, _, p => (p, none)
  | left + 1, i, p =>
    if ctx.cancelled p.polls then
      (p, some { error := ofString "Cancelled during generation", kind := some .cancelled,
                 state := p.cursor.state })
    else if p.cursor.pos ≥ limit then (p, none)
    else
      let (tok, sampler) := p.sampler.sample ops p.cursor.logits (.ofNat p.cursor.logits.length)
        p.generatedTokens
      if m.Stops tok then ({ p with sampler }, none)
      else
        let p := { p with sampler }.emit streaming (m.tokenizer.decodeToken tok) tok
        match m.step p.cursor tok with
        | .ok cursor => decodeLoop limit streaming left (i + 1) { p with cursor }
        | .error e =>
          (p, some { error := ofString "Forward pass failed at token " ++ ofDecimal i ++
                       ofString ": " ++ e.error, state := e.state })

/-- A result that reports an error. -/
def failWith (promptTokens : Int32) (f : Failure σ) : Generation σ where
  result := { error := f.error, promptTokens }
  lastError := f.kind.map fun kind => (kind, f.error)
  state := f.state

/-- `doGenerate` from the tokens of the prompt on. -/
def generateFrom (streaming : Bool) (promptTokens : List TokenID) (st : σ) : Generation σ :=
  let n : Int32 := .ofNat promptTokens.length
  let limit := ctx.effectiveLimit m.maxSeqLen
  if promptTokens.length > limit.toNat then
    failWith n { error := ofString "Prompt exceeds max_seq_len", kind := some .invalidRequest,
                 state := st }
  else
    match prefill m ctx limit 0 promptTokens { state := m.resetCache st } with
    | .error f => failWith n f
    | .ok cursor =>
      if promptTokens = [] ∨ cursor.logits.isEmpty then
        failWith n { error := ofString
                       "Prompt encoded to zero tokens — nothing to condition on",
                     state := cursor.state }
      else
        let (p, failure) := decodeLoop ops m ctx limit streaming ctx.maxNew 0
          { polls := promptTokens.length, cursor, sampler := .new (ctx.samplerParams ops) }
        match failure with
        | some f =>
          { failWith n f with generated := p.generatedTokens, streamed := p.streamed }
        | none =>
          { result := { success := true
                        output := p.outputText
                        promptTokens := n
                        outputTokens := .ofNat p.generatedTokens.length }
            generated := p.generatedTokens
            streamed := p.streamed
            state := p.cursor.state }

/-- `doGenerate`; without a model it fails. -/
def doGenerate (model : Option (LanguageModel σ α)) (streaming : Bool) (st : σ) : Generation σ :=
  match model with
  | none => { result := { error := ofString "No model loaded in HydroXLEngine" }, state := st }
  | some m =>
    generateFrom ops m ctx streaming (m.tokenizer.encode ctx.prompt m.tokenizer.addBos) st

/-! ## One round of the loop -/

/-- A round from the token on that was sampled, with the `left` rounds behind it. -/
def roundFrom (ops : TensorOps α δ) (m : LanguageModel σ α) (ctx : ExecutionContext α)
    (limit : UInt32) (streaming : Bool) (left i : ℕ) (tok : TokenID) (p : Progress σ α) :
    Progress σ α × Option (Failure σ) :=
  let e := p.emit streaming (m.tokenizer.decodeToken tok) tok
  match m.step p.cursor tok with
  | .ok cursor => decodeLoop ops m ctx limit streaming left (i + 1) { e with cursor }
  | .error f =>
    (e, some { error := ofString "Forward pass failed at token " ++ ofDecimal i ++
                 ofString ": " ++ f.error, state := f.state })

/-- A round either ends the loop, or goes on with a token. -/
theorem round_cases (limit : UInt32) (streaming : Bool) (left i : ℕ) (p : Progress σ α) :
    ∃ sampler, (∃ failure, decodeLoop ops m ctx limit streaming (left + 1) i p =
      ({ p with sampler }, failure)) ∨
    ∃ tok, decodeLoop ops m ctx limit streaming (left + 1) i p =
      roundFrom ops m ctx limit streaming left i tok { p with sampler } := by
  rw [decodeLoop]
  split
  · exact ⟨p.sampler, .inl ⟨_, rfl⟩⟩
  · split
    · exact ⟨p.sampler, .inl ⟨_, rfl⟩⟩
    · obtain ⟨tok, sampler, hsample⟩ : ∃ tok sampler, p.sampler.sample ops p.cursor.logits
          (.ofNat p.cursor.logits.length) p.generatedTokens = (tok, sampler) := ⟨_, _, rfl⟩
      rw [hsample]
      by_cases hstop : m.Stops tok
      · exact ⟨sampler, .inl ⟨none, if_pos hstop⟩⟩
      · exact ⟨sampler, .inr ⟨tok, if_neg hstop⟩⟩

end HydroXLEngine
end HeteroAccel
