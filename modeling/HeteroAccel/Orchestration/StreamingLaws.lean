import HeteroAccel.Orchestration.HydroXLEngineAdapter

/-!
# Streams that are cut short

A callback that declines its invocation number `k`, counted from 0, against one that never declines.
Up to that invocation both loops go through the same variables; the loop that goes on only appends
to what was delivered (`prefix_delivered_decodeLoop`), so what the other one has delivered is a
prefix of it.

## Main results

* `decodeLoop_stopAfter`: the two loops;
* `streaming_cpu_vulkan`: the laws of `run_stream` and `run`, for both adapters.
-/

namespace HeteroAccel.Orchestration

open Bytes (ofString)

/-- A callback that never declines. -/
def StreamCallback.always : StreamCallback := fun _ => true

/-- A callback that declines exactly its invocation number `k`, counted from 0. -/
def StreamCallback.stopAfter (k : ℕ) : StreamCallback := fun calls => calls.length ≠ k + 1

open StreamCallback (always stopAfter)

variable {σ α δ : Type} {ops : TensorOps α δ} {m : LanguageModel σ α}
  {promptTokens : List TokenID} {left k : ℕ} {p : Progress σ α}

namespace Progress

/-- The variables without the record of the invocations. -/
def forget (p : Progress σ α) : Progress σ α := { p with delivered := [] }

/-- The output is what was delivered. -/
structure Delivered (p : Progress σ α) : Prop where
  outIds : p.outIds = p.delivered.map (·.2)
  outText : p.outText = (p.delivered.map (·.1)).flatten

@[simp]
theorem declined_none (p : Progress σ α) : p.declined none = false := rfl

@[simp]
theorem declined_always (p : Progress σ α) : p.declined (some always) = false := rfl

/-- The callback declines the token behind `k` others. -/
@[simp]
theorem declined_stopAfter (p : Progress σ α) :
    p.declined (some (stopAfter k)) = decide (p.delivered.length = k + 1) := by
  simp [declined, stopAfter]

@[simp]
theorem delivered_emit (p : Progress σ α) (cb : StreamCallback) (piece : Bytes) (tok : TokenID) :
    (p.emit (some cb) piece tok).delivered = p.delivered ++ [(piece, tok)] :=
  rfl

/-- A token that is emitted is delivered. -/
theorem Delivered.emit (h : p.Delivered) (cb : StreamCallback) (piece : Bytes) (tok : TokenID) :
    (p.emit (some cb) piece tok).Delivered where
  outIds := by simp [Progress.emit, h.outIds]
  outText := by simp [Progress.emit, h.outText]

end Progress

/-! ## The whole loop -/

/-- The loop only appends to what was delivered. -/
theorem prefix_delivered_decodeLoop (cb : StreamCallback) (left : ℕ) (p : Progress σ α) :
    p.delivered <+: (decodeLoop ops m (some cb) promptTokens left p).1.delivered := by
  induction left generalizing p with
  | zero => exact List.prefix_rfl
  | succ left ih =>
    obtain ⟨sampler', hfinish | ⟨tok, -, hround⟩⟩ :=
      round_cases ops m promptTokens p.cursor p.sampler
    · rw [hfinish _ _ _ rfl rfl]
    · have hemit : p.delivered <+: p.delivered ++ [(m.tokenizer.decodeToken tok, tok)] :=
        List.prefix_append _ _
      rw [hround _ _ _ rfl rfl, roundFrom]
      split
      · exact hemit
      · split
        · refine List.IsPrefix.trans ?_ (ih _)
          exact hemit
        · exact hemit

variable (ops m promptTokens) in
/-- What the loop outputs is what it delivers. -/
theorem delivered_decodeLoop (cb : StreamCallback) (left : ℕ) {p : Progress σ α}
    (h : p.Delivered) : (decodeLoop ops m (some cb) promptTokens left p).1.Delivered := by
  induction left generalizing p with
  | zero => exact h
  | succ left ih =>
    obtain ⟨sampler', hfinish | ⟨tok, -, hround⟩⟩ :=
      round_cases ops m promptTokens p.cursor p.sampler
    · rw [hfinish _ _ _ rfl rfl]
      exact ⟨h.outIds, h.outText⟩
    · have hemit := h.emit cb (m.tokenizer.decodeToken tok) tok
      rw [hround _ _ _ rfl rfl, roundFrom]
      split
      · exact ⟨hemit.outIds, hemit.outText⟩
      · split
        · exact ih ⟨hemit.outIds, hemit.outText⟩
        · exact ⟨hemit.outIds, hemit.outText⟩

variable (ops m promptTokens) in
/-- A callback that never declines changes nothing but the record of the invocations. -/
theorem decodeLoop_always (left : ℕ) (p : Progress σ α) :
    (decodeLoop ops m (some always) promptTokens left p).map Progress.forget id =
      decodeLoop ops m none promptTokens left p.forget := by
  induction left generalizing p with
  | zero => rfl
  | succ left ih =>
    obtain ⟨sampler', hfinish | ⟨tok, -, hround⟩⟩ :=
      round_cases ops m promptTokens p.cursor p.sampler
    · rw [hfinish _ _ _ rfl rfl, hfinish _ _ p.forget rfl rfl]
      rfl
    · rw [hround _ _ _ rfl rfl, hround _ _ p.forget rfl rfl, roundFrom, roundFrom]
      simp only [Progress.declined_always, Progress.declined_none, Bool.false_eq_true, if_false]
      have hcursor : p.forget.cursor = p.cursor := rfl
      rw [hcursor]
      split
      · exact ih _
      · rfl

variable (ops m promptTokens) in
/-- **Cut streams.** The loop whose callback declines the invocation number `k` is the full loop if
that has at most `k` invocations, and else stops after the first `k + 1` of them. -/
theorem decodeLoop_stopAfter (left : ℕ) {p : Progress σ α} (hk : p.delivered.length ≤ k) :
    let full := decodeLoop ops m (some always) promptTokens left p
    let cut := decodeLoop ops m (some (stopAfter k)) promptTokens left p
    (full.1.delivered.length ≤ k ∧ cut = full) ∨
      ∃ q : Progress σ α, cut = (q, .cancelled) ∧ q.delivered.length = k + 1 ∧
        q.delivered <+: full.1.delivered := by
  induction left generalizing p with
  | zero => exact .inl ⟨hk, rfl⟩
  | succ left ih =>
    dsimp only
    obtain ⟨sampler', hfinish | ⟨tok, -, hround⟩⟩ :=
      round_cases ops m promptTokens p.cursor p.sampler
    · rw [hfinish _ _ _ rfl rfl, hfinish _ _ _ rfl rfl]
      exact .inl ⟨hk, rfl⟩
    · rw [hround _ _ _ rfl rfl, hround _ _ _ rfl rfl, roundFrom, roundFrom]
      simp only [Progress.declined_always, Progress.declined_stopAfter, Progress.delivered_emit,
        List.length_append, List.length_singleton, Nat.add_right_cancel_iff, Bool.false_eq_true,
        if_false, decide_eq_true_eq]
      by_cases hlast : p.delivered.length = k
      · -- this invocation is declined; the full loop goes on from the same variables
        rw [if_pos hlast]
        refine .inr ⟨_, rfl, by simp [hlast], ?_⟩
        split
        · refine List.IsPrefix.trans ?_ (prefix_delivered_decodeLoop always left _)
          exact List.prefix_rfl
        · exact List.prefix_rfl
      · rw [if_neg hlast]
        have hlength : (p.delivered ++ [(m.tokenizer.decodeToken tok, tok)]).length ≤ k := by
          rw [List.length_append, List.length_singleton]
          omega
        split
        · exact ih hlength
        · exact .inl ⟨hlength, rfl⟩

/-! ## The laws -/

/-- What a cut stream has to do with the full one, the invocation number `k` being declined. -/
structure CutLaw (k : ℕ) (full cut : StreamRun σ) : Prop where
  /-- A stream that has no such invocation is not cut. -/
  short : full.delivered.length ≤ k → cut = full
  delivered : k < full.delivered.length → cut.delivered = full.delivered.take (k + 1)
  outputTokenIds : k < full.delivered.length →
    cut.result.outputTokenIds = full.result.outputTokenIds.take (k + 1)
  outputText : k < full.delivered.length →
    cut.result.outputText = ((full.delivered.take (k + 1)).map (·.1)).flatten
  outputTokens : k < full.delivered.length → cut.result.outputTokens = .ofNat (k + 1)
  status : k < full.delivered.length → cut.returned = false ∧ cut.result.success = false ∧
    cut.result.error = ofString "Cancelled"

/-- A run that was not cut. -/
theorem CutLaw.of_eq {full cut : StreamRun σ} (h : cut = full) (hk : full.delivered.length ≤ k) :
    CutLaw k full cut where
  short _ := h
  delivered hlt := absurd hlt (Nat.not_lt.mpr hk)
  outputTokenIds hlt := absurd hlt (Nat.not_lt.mpr hk)
  outputText hlt := absurd hlt (Nat.not_lt.mpr hk)
  outputTokens hlt := absurd hlt (Nat.not_lt.mpr hk)
  status hlt := absurd hlt (Nat.not_lt.mpr hk)

/-- A run that was cut after its invocation number `k`. -/
theorem cutLaw_conclude (res : InferenceResult) (hres : res.success = false)
    {full : Progress σ α × Ending} (hfull : full.1.Delivered) {q : Progress σ α} (hq : q.Delivered)
    (hlength : q.delivered.length = k + 1) (hextends : q.delivered <+: full.1.delivered) :
    CutLaw k (conclude res full) (conclude res (q, .cancelled)) := by
  have htake : q.delivered = full.1.delivered.take (k + 1) := by
    rw [← hlength]
    exact List.prefix_iff_eq_take.mp hextends
  constructor
  · intro hshort
    have := hextends.length_le
    rw [delivered_conclude] at hshort
    omega
  · intro _
    simpa using htake
  · intro _
    simp [hq.outIds, hfull.outIds, htake, List.map_take]
  · intro _
    simp [hq.outText, htake]
  · intro _
    simp [hq.outIds, hlength]
  · intro _
    exact ⟨rfl, hres, rfl⟩

/-- The laws of a `run_stream`, given for each callback, and of `run`. -/
structure StreamingLaws (runStream : Option StreamCallback → StreamRun σ) (run : StreamRun σ) :
    Prop where
  /-- A callback that never declines is handed all tokens and pieces. -/
  ids : (runStream (some always)).result.outputTokenIds =
    (runStream (some always)).delivered.map (·.2)
  text : (runStream (some always)).result.outputText =
    ((runStream (some always)).delivered.map (·.1)).flatten
  cut : ∀ k, CutLaw k (runStream (some always)) (runStream (some (stopAfter k)))
  /-- The result of such a stream is the result of `run`. -/
  run : (runStream (some always)).returned = run.returned ∧
    (runStream (some always)).result = run.result

/-- A run without an invocation, whatever the callback is. -/
theorem streamingLaws_of_silent {run : StreamRun σ} (hdelivered : run.delivered = [])
    (hids : run.result.outputTokenIds = []) (htext : run.result.outputText = []) :
    StreamingLaws (fun _ => run) run where
  ids := by simp [hids, hdelivered]
  text := by simp [htext, hdelivered]
  cut k := .of_eq rfl (by simp [hdelivered])
  run := ⟨rfl, rfl⟩

/-- The laws of what both adapters share. -/
theorem streamingLaws_runStream (ops : TensorOps α δ) (backendUsed : String) (gpuUsed : Bool)
    (model : Option (LanguageModel σ α)) (req : InferenceRequest α) (st : σ) :
    StreamingLaws (fun cb => runStream ops backendUsed gpuUsed model cb req st)
      (runStream ops backendUsed gpuUsed model none req st) := by
  cases model with
  | none => exact streamingLaws_of_silent rfl rfl rfl
  | some m =>
    cases hprefill : prefill m (req.promptTokens m.tokenizer) { state := m.resetCache st } with
    | error e =>
      simp only [runStream_of_prefill_error hprefill]
      exact streamingLaws_of_silent rfl rfl rfl
    | ok cursor =>
      simp only [runStream_of_prefill_ok hprefill]
      have hstart :
          ({ cursor, sampler := .new (req.samplerParams ops) } : Progress σ α).Delivered :=
        ⟨rfl, rfl⟩
      -- what was delivered is what was added, whoever receives it
      have hloop (cb : StreamCallback) :=
        delivered_decodeLoop ops m (req.promptTokens m.tokenizer) cb
        req.maxNew hstart
      refine ⟨by simp [(hloop always).outIds], by simp [(hloop always).outText], fun k => ?_, ?_⟩
      · rcases decodeLoop_stopAfter ops m (req.promptTokens m.tokenizer) req.maxNew
          (p := { cursor, sampler := .new (req.samplerParams ops) }) (Nat.zero_le k) with
          ⟨hk, heq⟩ | ⟨q, hcut, hlength, hextends⟩
        · exact .of_eq (by rw [heq]) (by simpa using hk)
        · have hq := hloop (stopAfter k)
          rw [hcut] at hq ⊢
          exact cutLaw_conclude _ rfl (hloop always) hq hlength hextends
      · -- forgetting the invocations does not change the result
        have halways := decodeLoop_always ops m (req.promptTokens m.tokenizer) req.maxNew
          { cursor, sampler := .new (req.samplerParams ops) }
        have hforget (res : InferenceResult) (r : Progress σ α × Ending) :
            (conclude res (r.map Progress.forget id)).returned = (conclude res r).returned ∧
              (conclude res (r.map Progress.forget id)).result = (conclude res r).result :=
          ⟨rfl, rfl⟩
        rw [← (hforget _ _).1, ← (hforget _ _).2, halways]
        exact ⟨rfl, rfl⟩

/-- **Streaming.** For both adapters, whatever the forward pass does: a stream that is cut at an
invocation is the prefix of the full one up to that invocation, and reports that it was cancelled;
and the full one has the result of `run`. -/
theorem streaming_cpu_vulkan (ops : TensorOps α δ) (model : Option (LanguageModel σ α))
    (req : InferenceRequest α) (st : σ) :
    StreamingLaws (fun cb => HydroXLCpuEngineAdapter.runStream ops model cb req st)
        (HydroXLCpuEngineAdapter.run ops model req st) ∧
      StreamingLaws (fun cb => HydroXLVulkanEngineAdapter.runStream ops model cb req st)
        (HydroXLVulkanEngineAdapter.run ops model req st) :=
  ⟨streamingLaws_runStream ops "hydroxl_cpu" false model req st,
    streamingLaws_runStream ops "hydroxl_vulkan" true model req st⟩

end HeteroAccel.Orchestration
