import HeteroAccel.Orchestration.RequestIsolation

/-!
# Requests to a model that may give up

Two models of which the first may give up: its forward pass fails where that of the second does not.
Until then they cannot be told apart at the positions that a request goes through one after the
other. A request to the first one then either has the answer that it has on the second one, or it
fails, and what it has delivered until then is where the stream of the second one begins.

## Main definitions

* `LanguageModel.Follows`: a model that follows another one;
* `Orchestration.FollowingRun`: what this says about a request.

## Main results

* `Orchestration.runStream_follows`: requests to two models, of which the first follows the second.
-/

namespace HeteroAccel

open Bytes (ofString)

variable {σ σ' α δ : Type} {ops : TensorOps α δ} {m : LanguageModel σ α} {m' : LanguageModel σ' α}
  {R : UInt32 → σ → σ' → Prop} {E : σ → σ' → Prop} {G : Bytes → σ → Prop}

/-- Two forward passes: the first gives up with `G`, or both succeed with the same logits in states
related by `R`, or both fail with the same error in states related by `E`. -/
inductive FollowingPass (R E : σ → σ' → Prop) (G : Bytes → σ → Prop) :
    Except Bytes (List α) × σ → Except Bytes (List α) × σ' → Prop
  | gaveUp {e : Bytes} {st : σ} {r' : Except Bytes (List α) × σ'} (h : G e st) :
    FollowingPass R E G (.error e, st) r'
  | ok {logits : List α} {st : σ} {st' : σ'} (h : R st st') :
    FollowingPass R E G (.ok logits, st) (.ok logits, st')
  | error {e : Bytes} {st : σ} {st' : σ'} (h : E st st') :
    FollowingPass R E G (.error e, st) (.error e, st')

/-- From states related by `R` at a position, a forward pass of `m` ends as that of `m'` does, in
states related by `R` at the next position, or gives up with `G`. -/
structure LanguageModel.Follows (m : LanguageModel σ α) (m' : LanguageModel σ' α)
    (R : UInt32 → σ → σ' → Prop) (E : σ → σ' → Prop) (G : Bytes → σ → Prop) : Prop where
  tokenizer : m.tokenizer = m'.tokenizer
  maxSeqLen : m.maxSeqLen = m'.maxSeqLen
  keeps : ∀ pos st st', R pos st st' → E st st'
  forward : ∀ tok pos logits st st', R pos st st' → FollowingPass (R (pos + 1)) E G
    (m.forward tok pos logits st) (m'.forward tok pos logits st')

/-- The same position and logits, and states that are related at this position. -/
abbrev CursorAt (R : UInt32 → σ → σ' → Prop) (c : Cursor σ α) (c' : Cursor σ' α) : Prop :=
  SameCursor (R c.pos) c c'

/-- Steps, or sequences of steps, of which the first gives up or ends as the second does. -/
inductive FollowingStep (R : UInt32 → σ → σ' → Prop) (E : σ → σ' → Prop) (G : Bytes → σ → Prop) :
    Except (StepFailure σ) (Cursor σ α) → Except (StepFailure σ') (Cursor σ' α) → Prop
  | gaveUp {f : StepFailure σ} {r' : Except (StepFailure σ') (Cursor σ' α)}
    (h : G f.error f.state) : FollowingStep R E G (.error f) r'
  | ok {c : Cursor σ α} {c' : Cursor σ' α} (h : CursorAt R c c') :
    FollowingStep R E G (.ok c) (.ok c')
  | error {e : Bytes} {st : σ} {st' : σ'} (h : E st st') :
    FollowingStep R E G (.error { error := e, state := st }) (.error { error := e, state := st' })

/-- The step of a model that follows another one. -/
theorem LanguageModel.Follows.step (h : m.Follows m' R E G) {c : Cursor σ α} {c' : Cursor σ' α}
    (hc : CursorAt R c c') (tok : TokenID) :
    FollowingStep R E G (m.step c tok) (m'.step c' tok) := by
  have hforward := h.forward tok.toUInt32 c.pos c.logits _ _ hc.state
  unfold LanguageModel.step
  rw [← hc.pos, ← hc.logits]
  generalize m.forward tok.toUInt32 c.pos c.logits c.state = r at hforward ⊢
  generalize m'.forward tok.toUInt32 c.pos c.logits c'.state = r' at hforward ⊢
  cases hforward with
  | gaveUp hG => exact .gaveUp hG
  | ok hstate => exact .ok ⟨rfl, rfl, hstate⟩
  | error hstate => exact .error hstate

/-- Models that follow each other stop at the same tokens. -/
theorem LanguageModel.Follows.stops_iff (h : m.Follows m' R E G) (tok : TokenID) :
    m.Stops tok ↔ m'.Stops tok := by
  rw [LanguageModel.Stops, LanguageModel.Stops, h.tokenizer]

namespace Orchestration

/-- The relation of the states may be weakened. -/
theorem SameProgress.mono {R R' : σ → σ' → Prop} {p : Progress σ α} {p' : Progress σ' α}
    (h : SameProgress R p p') (hle : ∀ st st', R st st' → R' st st') : SameProgress R' p p' :=
  ⟨⟨h.cursor.pos, h.cursor.logits, hle _ _ h.cursor.state⟩, h.sampler, h.outIds, h.outText,
    h.delivered⟩

/-- The prompt is followed token by token. -/
theorem prefill_follows (h : m.Follows m' R E G) (toks : List TokenID) {c : Cursor σ α}
    {c' : Cursor σ' α} (hc : CursorAt R c c') :
    FollowingStep R E G (prefill m toks c) (prefill m' toks c') := by
  induction toks generalizing c c' with
  | nil => exact .ok hc
  | cons tok toks ih =>
    unfold prefill
    rw [List.foldlM_cons, List.foldlM_cons]
    have hstep := h.step hc tok
    generalize m.step c tok = r at hstep ⊢
    generalize m'.step c' tok = r' at hstep ⊢
    cases hstep with
    | gaveUp hG => exact .gaveUp hG
    | ok hnext => exact ih hnext
    | error hstate => exact .error hstate

/-! ## What has been delivered -/

/-- The output of the second goes on where that of the first ends. -/
structure Extends (p : Progress σ α) (p' : Progress σ' α) : Prop where
  outIds : p.outIds <+: p'.outIds
  outText : p.outText <+: p'.outText
  delivered : p.delivered <+: p'.delivered

theorem Extends.trans {σ'' : Type} {p : Progress σ α} {p' : Progress σ' α} {p'' : Progress σ'' α}
    (h : Extends p p') (h' : Extends p' p'') : Extends p p'' :=
  ⟨h.outIds.trans h'.outIds, h.outText.trans h'.outText, h.delivered.trans h'.delivered⟩

theorem extends_emit (cb : Option StreamCallback) (p : Progress σ α) (piece : Bytes)
    (tok : TokenID) : Extends p (p.emit cb piece tok) := by
  refine ⟨List.prefix_append _ _, List.prefix_append _ _, ?_⟩
  rw [Progress.emit]
  split
  · exact List.prefix_append _ _
  · exact List.prefix_rfl

variable (ops m) in
/-- The decoding loop only appends. -/
theorem extends_decodeLoop (cb : Option StreamCallback) (promptTokens : List TokenID) (left : ℕ)
    (p : Progress σ α) : Extends p (decodeLoop ops m cb promptTokens left p).1 := by
  induction left generalizing p with
  | zero => exact ⟨List.prefix_rfl, List.prefix_rfl, List.prefix_rfl⟩
  | succ left ih =>
    obtain ⟨sampler', hfinish | ⟨tok, -, hround⟩⟩ :=
      round_cases ops m promptTokens p.cursor p.sampler
    · rw [hfinish _ _ _ rfl rfl]
      exact ⟨List.prefix_rfl, List.prefix_rfl, List.prefix_rfl⟩
    · set e := { p with sampler := sampler' }.emit cb (m.tokenizer.decodeToken tok) tok with he
      have hemit : Extends p e := by
        obtain ⟨hids, htext, hdelivered⟩ := extends_emit cb { p with sampler := sampler' }
          (m.tokenizer.decodeToken tok) tok
        exact ⟨hids, htext, hdelivered⟩
      rw [hround _ _ _ rfl rfl, roundFrom]
      dsimp only
      rw [← he]
      split
      · exact hemit
      · cases m.step p.cursor tok with
        | ok cursor =>
          have hrest := ih { e with cursor }
          exact hemit.trans ⟨hrest.outIds, hrest.outText, hrest.delivered⟩
        | error f => exact ⟨hemit.outIds, hemit.outText, hemit.delivered⟩

variable (ops) in
/-- The decoding loops: every round makes the same choices, until the first model gives up. -/
theorem decodeLoop_follows (h : m.Follows m' R E G) (cb : Option StreamCallback)
    (promptTokens : List TokenID) (left : ℕ) {p : Progress σ α} {p' : Progress σ' α}
    (hp : SameProgress (R p.cursor.pos) p p') :
    (∃ e, (decodeLoop ops m cb promptTokens left p).2 = .failed e ∧
        G e (decodeLoop ops m cb promptTokens left p).1.cursor.state ∧
        Extends (decodeLoop ops m cb promptTokens left p).1
          (decodeLoop ops m' cb promptTokens left p').1) ∨
      SameProgress E (decodeLoop ops m cb promptTokens left p).1
          (decodeLoop ops m' cb promptTokens left p').1 ∧
        (decodeLoop ops m cb promptTokens left p).2 =
          (decodeLoop ops m' cb promptTokens left p').2 := by
  induction left generalizing p p' with
  | zero => exact .inr ⟨hp.mono (h.keeps _), rfl⟩
  | succ left ih =>
    unfold decodeLoop
    rw [← h.maxSeqLen, ← h.tokenizer, ← hp.cursor.pos, ← hp.cursor.logits, ← hp.sampler]
    by_cases hpos : p.cursor.pos ≥ m.maxSeqLen
    · rw [if_pos hpos, if_pos hpos]
      exact .inr ⟨hp.mono (h.keeps _), rfl⟩
    rw [if_neg hpos, if_neg hpos]
    obtain ⟨tok, sampler⟩ := p.sampler.sample ops p.cursor.logits (.ofNat p.cursor.logits.length)
      promptTokens
    dsimp only
    by_cases hstop : m.Stops tok
    · rw [if_pos hstop, if_pos ((h.stops_iff tok).mp hstop)]
      have hcursor := (hp.mono (h.keeps _)).cursor
      exact .inr ⟨⟨hcursor, rfl, hp.outIds, hp.outText, hp.delivered⟩, rfl⟩
    rw [if_neg hstop, if_neg (mt (h.stops_iff tok).mpr hstop)]
    -- the token is appended and handed to the callback
    set e : Progress σ α :=
      { p with sampler }.emit cb (m.tokenizer.decodeToken tok) tok with he
    set e' : Progress σ' α :=
      { p' with sampler }.emit cb (m.tokenizer.decodeToken tok) tok with he'
    have hemit : SameProgress (R e.cursor.pos) e e' := by
      refine ⟨hp.cursor, rfl, ?_, ?_, ?_⟩
      · exact congrArg (· ++ [tok]) hp.outIds
      · exact congrArg (· ++ m.tokenizer.decodeToken tok) hp.outText
      · rw [he, he']
        simp only [Progress.emit, hp.delivered]
    have hdeclined : e.declined cb = e'.declined cb := by
      rw [Progress.declined, Progress.declined, hemit.delivered]
    rw [← hdeclined]
    by_cases hcancel : e.declined cb = true
    · rw [if_pos hcancel, if_pos hcancel]
      exact .inr ⟨hemit.mono (h.keeps _), rfl⟩
    rw [if_neg hcancel, if_neg hcancel]
    have hstep := h.step hemit.cursor tok
    generalize m.step e.cursor tok = r at hstep ⊢
    generalize m'.step e'.cursor tok = r' at hstep ⊢
    cases hstep with
    | @gaveUp f _ hG =>
      -- the second model goes on alone
      have hsame : Extends e e' :=
        ⟨hemit.outIds ▸ List.prefix_rfl, hemit.outText ▸ List.prefix_rfl,
          hemit.delivered ▸ List.prefix_rfl⟩
      refine .inl ⟨f.error, rfl, hG, ?_⟩
      cases r' with
      | ok cursor =>
        have hrest := extends_decodeLoop ops m' cb promptTokens left { e' with cursor }
        have hboth : Extends e (decodeLoop ops m' cb promptTokens left { e' with cursor }).1 :=
          hsame.trans ⟨hrest.outIds, hrest.outText, hrest.delivered⟩
        exact ⟨hboth.outIds, hboth.outText, hboth.delivered⟩
      | error f' => exact ⟨hsame.outIds, hsame.outText, hsame.delivered⟩
    | ok hnext => exact ih ⟨hnext, rfl, hemit.outIds, hemit.outText, hemit.delivered⟩
    | error hstate =>
      refine .inr ⟨⟨⟨?_, ?_, hstate⟩, rfl, hemit.outIds, hemit.outText, hemit.delivered⟩, rfl⟩
      · exact hemit.cursor.pos
      · exact hemit.cursor.logits

/-! ## Requests -/

/-- The result apart from the backend. -/
def InferenceResult.SameAnswer (r r' : InferenceResult) : Prop :=
  r = { r' with gpuUsed := r.gpuUsed, backendUsed := r.backendUsed }

/-- The same is returned and delivered. -/
structure StreamRun.SameAnswer (r : StreamRun σ) (r' : StreamRun σ') : Prop where
  returned : r.returned = r'.returned
  result : r.result.SameAnswer r'.result
  delivered : r.delivered = r'.delivered

/-- A request that gives up with the error `e` fails with it, and has delivered the beginning of
what the other one delivers. -/
structure GaveUp (e : Bytes) (r : StreamRun σ) (r' : StreamRun σ') : Prop where
  returned : r.returned = false
  success : r.result.success = false
  error : e <:+ r.result.error
  promptTokens : r.result.promptTokens = r'.result.promptTokens
  outputTokenIds : r.result.outputTokenIds <+: r'.result.outputTokenIds
  outputText : r.result.outputText <+: r'.result.outputText
  delivered : r.delivered <+: r'.delivered

/-- The requests have the same answer, or the first one gives up. -/
inductive FollowingRun (E : σ → σ' → Prop) (G : Bytes → σ → Prop) (r : StreamRun σ)
    (r' : StreamRun σ') : Prop
  | same (h : r.SameAnswer r') (hstate : E r.state r'.state)
  | gaveUp {e : Bytes} (h : GaveUp e r r') (hstate : G e r.state)

/-- The count of prompt tokens is that of the request. -/
theorem promptTokens_conclude (res : InferenceResult) (r : Progress σ α × Ending) :
    (conclude res r).result.promptTokens = res.promptTokens := by
  obtain ⟨p, ending⟩ := r
  cases ending <;> rfl

variable (ops) in
/-- The backend is named in every result. -/
theorem backend_runStream (backendUsed : String) (gpuUsed : Bool) (m : LanguageModel σ α)
    (cb : Option StreamCallback) (req : InferenceRequest α) (st : σ) :
    let run := runStream ops backendUsed gpuUsed (some m) cb req st
    run.result.backendUsed = backendUsed ∧ run.result.gpuUsed = gpuUsed := by
  unfold runStream
  dsimp only
  cases prefill m (req.promptTokens m.tokenizer) { state := m.resetCache st } with
  | error f => exact ⟨rfl, rfl⟩
  | ok c =>
    dsimp only
    generalize decodeLoop ops m cb _ req.maxNew _ = r
    obtain ⟨p, ending⟩ := r
    cases ending <;> exact ⟨rfl, rfl⟩

/-- Results with the same answer differ in the backend only. -/
theorem InferenceResult.SameAnswer.eq {r r' : InferenceResult} (h : r.SameAnswer r')
    (hbackend : r.backendUsed = r'.backendUsed) (hgpu : r.gpuUsed = r'.gpuUsed) : r = r' := by
  rw [h, hbackend, hgpu]

variable (ops) in
/-- **Requests to two models, of which the first follows the second.** -/
theorem runStream_follows (h : m.Follows m' R E G) (backendUsed backendUsed' : String)
    (gpuUsed gpuUsed' : Bool) (cb : Option StreamCallback) (req : InferenceRequest α) {st : σ}
    {st' : σ'} (hst : R 0 (m.resetCache st) (m'.resetCache st')) :
    FollowingRun E G (runStream ops backendUsed gpuUsed (some m) cb req st)
      (runStream ops backendUsed' gpuUsed' (some m') cb req st') := by
  have hcursor : CursorAt R ({ state := m.resetCache st } : Cursor σ α)
      { state := m'.resetCache st' } := ⟨rfl, rfl, hst⟩
  -- the prompt
  have hprefill := prefill_follows h (req.promptTokens m.tokenizer) hcursor
  unfold runStream
  dsimp only
  rw [← h.tokenizer]
  generalize prefill m (req.promptTokens m.tokenizer) _ = r at hprefill ⊢
  generalize prefill m' (req.promptTokens m.tokenizer) _ = r' at hprefill ⊢
  cases hprefill with
  | @gaveUp f _ hG =>
    refine .gaveUp (e := f.error) ⟨rfl, rfl, List.suffix_append _ _, ?_, List.nil_prefix,
      List.nil_prefix, List.nil_prefix⟩ hG
    cases r' with
    | error f' => rfl
    | ok c' =>
      dsimp only
      rw [promptTokens_conclude]
  | error hstate => exact .same ⟨rfl, rfl, rfl⟩ hstate
  | @ok c c' hc =>
    let p₀ : Progress σ α := { cursor := c, sampler := .new (req.samplerParams ops) }
    have hstart : SameProgress (R p₀.cursor.pos) p₀
        { cursor := c', sampler := .new (req.samplerParams ops) } := ⟨hc, rfl, rfl, rfl, rfl⟩
    -- the decoding: given up within it, or the same to the end
    have hloop := decodeLoop_follows ops h cb (req.promptTokens m.tokenizer) req.maxNew hstart
    dsimp only
    generalize decodeLoop ops m cb (req.promptTokens m.tokenizer) req.maxNew _ = r at hloop ⊢
    generalize decodeLoop ops m' cb (req.promptTokens m.tokenizer) req.maxNew _ = r' at hloop ⊢
    obtain ⟨p, ending⟩ := r
    obtain ⟨p', ending'⟩ := r'
    rcases hloop with ⟨e, hending, hG, hextends⟩ | ⟨hp, hending⟩
    · obtain rfl : ending = .failed e := hending
      refine .gaveUp (e := e) ⟨rfl, rfl, List.suffix_append _ _, ?_, ?_, ?_, ?_⟩ hG
      · rw [promptTokens_conclude, promptTokens_conclude]
      · rw [outputTokenIds_conclude, outputTokenIds_conclude]
        exact hextends.outIds
      · rw [outputText_conclude, outputText_conclude]
        exact hextends.outText
      · rw [delivered_conclude, delivered_conclude]
        exact hextends.delivered
    · obtain rfl : ending = ending' := hending
      obtain ⟨hcursor, -, hids, htext, hdelivered⟩ := hp
      dsimp only at hids htext
      refine .same ⟨?_, ?_, ?_⟩ ?_
      · cases ending <;> rfl
      · unfold InferenceResult.SameAnswer conclude
        cases ending <;> simp [hids, htext]
      · rw [delivered_conclude, delivered_conclude]
        exact hdelivered
      · cases ending <;> exact hcursor.state

end Orchestration

end HeteroAccel
