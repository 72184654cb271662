import HeteroAccel.HydroXL.ModelFaithful
import HeteroAccel.HydroXL.ModelHistory
import HeteroAccel.HydroXL.PassIndependence
import HeteroAccel.Orchestration.HydroXLCpuEngineAdapter

/-!
# Requests do not leak into each other

An adapter has answered requests, and has its cache, its buffers and its last error from them. The
next request begins with a reset of the cache, and from then on it cannot be told from a request to
an adapter that was just initialized for the same file: the forward pass reads nothing else that it
has not written.

## Main results

* `runStream_rel`: requests to two models whose states cannot be told apart;
* `serve_rel`: requests to two adapters for models with the same weights;
* `serve_after_serveAll`: a request after others and a request to a fresh adapter.
-/

namespace HeteroAccel

open Bytes (ofString)

/-! ## Models whose states cannot be told apart -/

section Simulation

variable {σ σ' α δ : Type} {ops : TensorOps α δ} {m : LanguageModel σ α} {m' : LanguageModel σ' α}
  {R : σ → σ' → Prop}

/-- The forward passes of two models, from states related by `R`, have the same results and leave
states related by `R`. -/
structure LanguageModel.Simulates (m : LanguageModel σ α) (m' : LanguageModel σ' α)
    (R : σ → σ' → Prop) : Prop where
  tokenizer : m.tokenizer = m'.tokenizer
  maxSeqLen : m.maxSeqLen = m'.maxSeqLen
  forward : ∀ tok pos logits st st', R st st' →
    (m.forward tok pos logits st).1 = (m'.forward tok pos logits st').1 ∧
      R (m.forward tok pos logits st).2 (m'.forward tok pos logits st').2

/-- The same position and logits, and related states. -/
structure SameCursor (R : σ → σ' → Prop) (c : Cursor σ α) (c' : Cursor σ' α) : Prop where
  pos : c.pos = c'.pos
  logits : c.logits = c'.logits
  state : R c.state c'.state

/-- Steps, or sequences of steps, that end alike. -/
inductive SameStep (R : σ → σ' → Prop) :
    Except (StepFailure σ) (Cursor σ α) → Except (StepFailure σ') (Cursor σ' α) → Prop
  | ok {c : Cursor σ α} {c' : Cursor σ' α} (h : SameCursor R c c') : SameStep R (.ok c) (.ok c')
  | error {e : Bytes} {st : σ} {st' : σ'} (h : R st st') :
    SameStep R (.error { error := e, state := st }) (.error { error := e, state := st' })

/-- The step of a model that simulates another one. -/
theorem LanguageModel.Simulates.step (h : m.Simulates m' R) {c : Cursor σ α} {c' : Cursor σ' α}
    (hc : SameCursor R c c') (tok : TokenID) : SameStep R (m.step c tok) (m'.step c' tok) := by
  obtain ⟨hresult, hstate⟩ := h.forward tok.toUInt32 c.pos c.logits _ _ hc.state
  unfold LanguageModel.step
  rw [← hc.pos, ← hc.logits]
  generalize m.forward tok.toUInt32 c.pos c.logits c.state = r at hresult hstate ⊢
  generalize m'.forward tok.toUInt32 c.pos c.logits c'.state = r' at hresult hstate ⊢
  obtain ⟨result, st⟩ := r
  obtain ⟨result', st'⟩ := r'
  obtain rfl : result = result' := hresult
  cases result with
  | ok logits => exact .ok ⟨rfl, rfl, hstate⟩
  | error e => exact .error hstate

/-- Models that simulate each other stop at the same tokens. -/
theorem LanguageModel.Simulates.stops_iff (h : m.Simulates m' R) (tok : TokenID) :
    m.Stops tok ↔ m'.Stops tok := by
  rw [LanguageModel.Stops, LanguageModel.Stops, h.tokenizer]

namespace Orchestration

/-- The same variables, and related states. -/
structure SameProgress (R : σ → σ' → Prop) (p : Progress σ α) (p' : Progress σ' α) : Prop where
  cursor : SameCursor R p.cursor p'.cursor
  sampler : p.sampler = p'.sampler
  outIds : p.outIds = p'.outIds
  outText : p.outText = p'.outText
  delivered : p.delivered = p'.delivered

/-- The same is returned and delivered, and the states are related. -/
structure SameRun (R : σ → σ' → Prop) (r : StreamRun σ) (r' : StreamRun σ') : Prop where
  returned : r.returned = r'.returned
  result : r.result = r'.result
  delivered : r.delivered = r'.delivered
  state : R r.state r'.state

/-- The prompt is simulated token by token. -/
theorem prefill_rel (h : m.Simulates m' R) (toks : List TokenID) {c : Cursor σ α} {c' : Cursor σ' α}
    (hc : SameCursor R c c') : SameStep R (prefill m toks c) (prefill m' toks c') := by
  induction toks generalizing c c' with
  | nil => exact .ok hc
  | cons tok toks ih =>
    unfold prefill
    rw [List.foldlM_cons, List.foldlM_cons]
    have hstep := h.step hc tok
    generalize m.step c tok = r at hstep ⊢
    generalize m'.step c' tok = r' at hstep ⊢
    cases hstep with
    | ok hnext => exact ih hnext
    | error hstate => exact .error hstate

variable (ops) in
/-- The decoding loops end alike: every round makes the same choices. -/
theorem decodeLoop_rel (h : m.Simulates m' R) (cb : Option StreamCallback)
    (promptTokens : List TokenID) (left : ℕ) {p : Progress σ α} {p' : Progress σ' α}
    (hp : SameProgress R p p') :
    SameProgress R (decodeLoop ops m cb promptTokens left p).1
        (decodeLoop ops m' cb promptTokens left p').1 ∧
      (decodeLoop ops m cb promptTokens left p).2 =
        (decodeLoop ops m' cb promptTokens left p').2 := by
  induction left generalizing p p' with
  | zero => exact ⟨hp, rfl⟩
  | succ left ih =>
    unfold decodeLoop
    rw [← h.maxSeqLen, ← h.tokenizer, ← hp.cursor.pos, ← hp.cursor.logits, ← hp.sampler]
    by_cases hpos : p.cursor.pos ≥ m.maxSeqLen
    · rw [if_pos hpos, if_pos hpos]
      exact ⟨hp, rfl⟩
    rw [if_neg hpos, if_neg hpos]
    obtain ⟨tok, sampler⟩ := p.sampler.sample ops p.cursor.logits (.ofNat p.cursor.logits.length)
      promptTokens
    dsimp only
    by_cases hstop : m.Stops tok
    · rw [if_pos hstop, if_pos ((h.stops_iff tok).mp hstop)]
      exact ⟨⟨hp.cursor, rfl, hp.outIds, hp.outText, hp.delivered⟩, rfl⟩
    rw [if_neg hstop, if_neg (mt (h.stops_iff tok).mpr hstop)]
    -- the token is appended and handed to the callback
    set e : Progress σ α :=
      { p with sampler }.emit cb (m.tokenizer.decodeToken tok) tok with he
    set e' : Progress σ' α :=
      { p' with sampler }.emit cb (m.tokenizer.decodeToken tok) tok with he'
    have hemit : SameProgress R e e' := by
      refine ⟨hp.cursor, rfl, ?_, ?_, ?_⟩
      · exact congrArg (· ++ [tok]) hp.outIds
      · exact congrArg (· ++ m.tokenizer.decodeToken tok) hp.outText
      · rw [he, he']
        simp only [Progress.emit, hp.delivered]
    have hdeclined : e.declined cb = e'.declined cb := by
      rw [Progress.declined, Progress.declined, hemit.delivered]
    rw [← hdeclined]
    by_cases hcancel : e.declined cb = true
    · rw [if_pos hcancel, if_pos hcancel]
      exact ⟨hemit, rfl⟩
    rw [if_neg hcancel, if_neg hcancel]
    have hstep := h.step hemit.cursor tok
    generalize m.step e.cursor tok = r at hstep ⊢
    generalize m'.step e'.cursor tok = r' at hstep ⊢
    cases hstep with
    | ok hnext => exact ih ⟨hnext, rfl, hemit.outIds, hemit.outText, hemit.delivered⟩
    | error hstate =>
      refine ⟨⟨⟨?_, ?_, hstate⟩, rfl, hemit.outIds, hemit.outText, hemit.delivered⟩, rfl⟩
      · exact hemit.cursor.pos
      · exact hemit.cursor.logits

/-- What is returned for variables that are the same. -/
theorem conclude_rel {p : Progress σ α} {p' : Progress σ' α} (hp : SameProgress R p p')
    (res : InferenceResult) (ending : Ending) :
    SameRun R (conclude res (p, ending)) (conclude res (p', ending)) := by
  unfold conclude
  dsimp only
  rw [hp.outIds, hp.outText]
  exact ⟨rfl, rfl, hp.delivered, hp.cursor.state⟩

variable (ops) in
/-- **Requests to two models.** If the states behind the reset of the cache cannot be told apart,
the requests cannot. -/
theorem runStream_rel (h : m.Simulates m' R) (backendUsed : String) (gpuUsed : Bool)
    (cb : Option StreamCallback) (req : InferenceRequest α) {st : σ} {st' : σ'}
    (hst : R (m.resetCache st) (m'.resetCache st')) :
    SameRun R (runStream ops backendUsed gpuUsed (some m) cb req st)
      (runStream ops backendUsed gpuUsed (some m') cb req st') := by
  unfold runStream
  dsimp only
  rw [← h.tokenizer]
  -- the prompt
  have hcursor : SameCursor R ({ state := m.resetCache st } : Cursor σ α)
      { state := m'.resetCache st' } := ⟨rfl, rfl, hst⟩
  have hprefill := prefill_rel h (req.promptTokens m.tokenizer) hcursor
  generalize prefill m (req.promptTokens m.tokenizer) _ = r at hprefill ⊢
  generalize prefill m' (req.promptTokens m.tokenizer) _ = r' at hprefill ⊢
  cases hprefill with
  | error hstate => exact ⟨rfl, rfl, rfl, hstate⟩
  | @ok c c' hc =>
    -- the decoding
    have hstart : SameProgress R
        ({ cursor := c, sampler := .new (req.samplerParams ops) } : Progress σ α)
        { cursor := c', sampler := .new (req.samplerParams ops) } := ⟨hc, rfl, rfl, rfl, rfl⟩
    obtain ⟨hp, hending⟩ :=
      decodeLoop_rel ops h cb (req.promptTokens m.tokenizer) req.maxNew hstart
    dsimp only
    generalize decodeLoop ops m cb (req.promptTokens m.tokenizer) req.maxNew _ = r at hp hending ⊢
    generalize decodeLoop ops m' cb (req.promptTokens m.tokenizer) req.maxNew _ = r' at hp hending ⊢
    obtain ⟨p, ending⟩ := r
    obtain ⟨p', ending'⟩ := r'
    obtain rfl : ending = ending' := hending
    exact conclude_rel hp _ ending

end Orchestration

end Simulation

/-! ## Models that are loaded -/

namespace HydroXLModel

variable {α δ : Type} {ops : TensorOps α δ} {threads threads' : Threads} {path : Bytes}
  {content : FileContent} {m m' : HydroXLModel α}

/-- A required tensor of a model that is loaded is not empty. -/
theorem tensor_ne_nil {f : TensorFile} {hp : Qwen2HParams α} (hf : f.InLimits)
    (hover : LoadedOver ops f hp (fresh ops) m) {slot : Slot}
    (hslot : slot ∈ Slot.used hp.nLayers.toNat)
    (h : (f.outcome ops hp slot).status = .loaded) : m.tensor slot ≠ [] := by
  obtain ⟨v, hv⟩ := TensorOutcome.exists_loaded h
  rw [hover.tensor slot hslot, TensorFile.stored_of_loaded hv]
  exact ne_nil_of_loaded hf hv

/-- What a load has checked is what a forward pass relies on, if the heads have a dimension. -/
theorem sound_of_load (h : load ops threads path (.file content) (fresh ops) = (.loaded, m))
    (hdim : m.hparams.nHeadDim ≠ 0) : m.Sound := by
  obtain ⟨gguf, hp, hloads⟩ := loads_of_load h
  obtain ⟨m₀, hm₀, hover⟩ := hloads.load threads (fresh ops)
  obtain rfl : m₀ = m := congrArg Prod.snd (hm₀.symm.trans h)
  have hlimits : gguf.tensorFile.InLimits := hloads.inLimits
  have hvalid := valid_of_hparamsOf hloads.hparams
  have hrequired : ∀ slot ∈ Slot.used hp.nLayers.toNat, slot.optional = false →
      m₀.tensor slot ≠ [] := by
    intro slot hslot hoptional
    obtain ⟨v, hv⟩ := (hloads.admits slot hslot).exists_loaded hoptional
    exact tensor_ne_nil hlimits hover hslot (by rw [hv]; rfl)
  have hne : ∀ {n : UInt32}, 0 < n.toNat → n ≠ 0 := by
    rintro n hn rfl
    exact Nat.lt_irrefl 0 hn
  -- the heads fill at most the embedding, so that their product does not wrap
  have hheads : (hp.nHeads * hp.nHeadDim).toNat = hp.nHeads.toNat * hp.nHeadDim.toNat := by
    rw [UInt32.toNat_mul, Nat.mod_eq_of_lt]
    rw [hvalid.nHeadDim]
    exact Nat.lt_of_le_of_lt (Nat.mul_div_le _ _) hp.nEmbd.toNat_lt
  rw [hover.hparams] at hdim
  refine ⟨loaded_of_load h, ?nEmbd, ?nFf, ?heads, ?toNat_heads, ?tokEmbd, ?outputNorm, ?lmHead,
    ?layers⟩
  case nEmbd =>
    rw [hover.hparams]
    exact hne hvalid.nEmbd
  case nFf =>
    rw [hover.hparams]
    exact hne hvalid.nFf
  case heads =>
    rw [hover.hparams]
    refine hne ?_
    rw [hheads]
    exact Nat.mul_pos hvalid.nHeads
      (Nat.pos_of_ne_zero fun hzero => hdim (UInt32.toNat_inj.mp hzero))
  case toNat_heads => rw [hover.hparams, hheads]
  case tokEmbd => exact hrequired .tokEmbd (by simp [Slot.used]) rfl
  case outputNorm => exact hrequired .outputNorm (by simp [Slot.used]) rfl
  case lmHead =>
    -- the LM head is loaded, or the embedding takes its place
    have hmem : Slot.lmHead ∈ Slot.used hp.nLayers.toNat := by simp [Slot.used]
    rw [lmHeadWeights, hover.tied]
    obtain hloaded | ⟨-, hfailed⟩ := hloads.admits .lmHead hmem
    · rw [if_neg (by simp [hloaded])]
      exact tensor_ne_nil hlimits hover hmem hloaded
    · rw [if_pos (by simp [hfailed])]
      exact hrequired .tokEmbd (by simp [Slot.used]) rfl
  case layers =>
    intro w hw t ht
    obtain ⟨l, hl, rfl⟩ := List.mem_iff_getElem.mp hw
    have hlayer := hrequired (.layer l t) (Slot.layer_mem_used (hl.trans_eq hover.layers) t) ht
    simpa [tensor, List.getD_eq_getElem?_getD, List.getElem?_eq_getElem hl] using hlayer

/-- The threads that decode do not show. -/
theorem sameWeights_of_load (h : load ops threads path (.file content) (fresh ops) = (.loaded, m))
    (h' : load ops threads' path (.file content) (fresh ops) = (.loaded, m')) :
    SameWeights m m' := by
  obtain ⟨gguf, hp, hloads⟩ := loads_of_load h
  obtain ⟨m₀, hm₀, hover⟩ := hloads.load threads (fresh ops)
  obtain ⟨m₁, hm₁, hover'⟩ := hloads.load threads' (fresh ops)
  obtain rfl : m₀ = m := congrArg Prod.snd (hm₀.symm.trans h)
  obtain rfl : m₁ = m' := congrArg Prod.snd (hm₁.symm.trans h')
  exact (sameWeights_iff hover hover').mpr fun slot _ => by rw [tensor_fresh]

end HydroXLModel

/-! ## Requests to an adapter -/

namespace HydroXLForwardPass

variable {α δ : Type} {ops : TensorOps α δ} {m m' : HydroXLModel α} {cleared : HydroXLKVCache α}

/-- Two forward passes with the same content in their caches cannot be told apart. -/
theorem simulates_languageModel (hm : m.Sound) (hm' : m'.Sound) (hsame : m.SameWeights m')
    (halloc : cleared.allocated = true) (tokenizer : HydroXLTokenizer)
    {kvCache kvCache' : HydroXLKVCache α} (hmax : kvCache.maxSeqLen = kvCache'.maxSeqLen) :
    (languageModel ops tokenizer kvCache).Simulates (languageModel ops tokenizer kvCache')
      (Option.Rel (SamePass ops m m' cleared)) where
  tokenizer := rfl
  maxSeqLen := hmax
  forward tok pos logits st st' hst := by
    cases hst with
    | none => exact ⟨rfl, .none⟩
    | @some p p' hp =>
      have hcall := forward_rel hm hm' hsame halloc hp tok pos logits logits
      change (forwardStep ops tok pos logits (some p)).1 =
          (forwardStep ops tok pos logits (some p')).1 ∧
        Option.Rel (SamePass ops m m' cleared) (forwardStep ops tok pos logits (some p)).2
          (forwardStep ops tok pos logits (some p')).2
      unfold forwardStep
      rw [Option.bind_some, Option.bind_some]
      generalize p.forward ops tok pos logits = r at hcall ⊢
      generalize p'.forward ops tok pos logits = r' at hcall ⊢
      cases hcall with
      | none => exact ⟨rfl, .none⟩
      | @some r r' hr =>
        obtain ⟨returned, logits₁, q⟩ := r
        obtain ⟨returned', logits₂, q'⟩ := r'
        -- both calls return alike, with the logits or the error
        obtain ⟨hreturned, hlogits, herror, hafter⟩ := hr
        obtain rfl : returned = returned' := hreturned
        cases returned with
        | true => exact ⟨congrArg Except.ok (hlogits rfl), .some hafter⟩
        | false => exact ⟨congrArg Except.error (herror rfl), .some hafter⟩

end HydroXLForwardPass

namespace Orchestration

variable {α δ : Type}

/-- What a request gives, apart from the state that it leaves. -/
def StreamRun.answer {σ : Type} (r : StreamRun σ) :
    Bool × InferenceResult × List (Bytes × TokenID) :=
  (r.returned, r.result, r.delivered)

namespace HydroXLCpuEngineAdapter

/-- The adapter serves requests with the tokenizer and the model, and its cache clears to
`cleared`. -/
structure Serves (ops : TensorOps α δ) (tokenizer : HydroXLTokenizer) (m : HydroXLModel α)
    (cleared : HydroXLKVCache α) (a : HydroXLCpuEngineAdapter α) : Prop where
  isReady : a.isReady = true
  tokenizer : a.tokenizer = tokenizer
  forwardPass : ∃ p, a.forwardPass = some p ∧ p.model = some m ∧
    p.kvCache.map (HydroXLKVCache.reset ops.zero) = some cleared

section Requests

variable {ops : TensorOps α δ} {tokenizer : HydroXLTokenizer} {m m' : HydroXLModel α}
  {cleared : HydroXLKVCache α} {a a' : HydroXLCpuEngineAdapter α}

/-- An adapter that serves requests is ready for them. -/
theorem Serves.ready_eq (h : Serves ops tokenizer m cleared a) (halloc : cleared.allocated = true) :
    ∃ p kvCache, a.ready = some (p, kvCache) ∧ p.model = some m ∧ p.kvCache = some kvCache ∧
      kvCache.reset ops.zero = cleared := by
  obtain ⟨p, hp, hmodel, hclears⟩ := h.forwardPass
  obtain ⟨kvCache, hkv, hreset⟩ := Option.map_eq_some_iff.mp hclears
  have hallocated : kvCache.allocated = true := by
    rw [← hreset] at halloc
    exact halloc
  refine ⟨p, kvCache, ?_, hmodel, hkv, hreset⟩
  have hready : p.isReady = true := by
    simp [HydroXLForwardPass.isReady, hmodel, hkv, hallocated]
  simp [ready, h.isReady, hp, hready, hkv]

/-- **A request to two adapters.** For models with the same weights, the answer is the same,
whatever the caches, the buffers and the texts of errors hold; and both are as ready as before. -/
theorem serve_rel (hm : m.Sound) (hm' : m'.Sound) (hsame : m.SameWeights m')
    (halloc : cleared.allocated = true) (ha : Serves ops tokenizer m cleared a)
    (ha' : Serves ops tokenizer m' cleared a') (r : Request α) :
    Option.Rel (fun run run' => run.answer = run'.answer ∧
        Serves ops tokenizer m cleared run.state ∧ Serves ops tokenizer m' cleared run'.state)
      (a.serve ops r) (a'.serve ops r) := by
  obtain ⟨p, kvCache, hready, hmodel, hkv, hreset⟩ := ha.ready_eq halloc
  obtain ⟨p', kvCache', hready', hmodel', hkv', hreset'⟩ := ha'.ready_eq halloc
  have hmax : kvCache.maxSeqLen = kvCache'.maxSeqLen := by
    change (kvCache.reset ops.zero).maxSeqLen = (kvCache'.reset ops.zero).maxSeqLen
    rw [hreset, hreset']
  -- a reset leaves the same in both caches, and clears what is clear already
  have hpass : HydroXLForwardPass.SamePass ops m m' cleared (p.resetCache ops)
      (p'.resetCache ops) := by
    have hclear : cleared.reset ops.zero = cleared := by
      rw [← hreset]
      simp [HydroXLKVCache.reset]
    refine ⟨hmodel, hmodel', ?_, ?_⟩
    · simp [HydroXLForwardPass.resetCache, hkv, hkv', hreset, hreset']
    · simp [HydroXLForwardPass.resetCache, hkv, hreset, hclear]
  have hstart : Option.Rel (HydroXLForwardPass.SamePass ops m m' cleared)
      ((HydroXLForwardPass.languageModel ops tokenizer kvCache).resetCache (some p))
      ((HydroXLForwardPass.languageModel ops tokenizer kvCache').resetCache (some p')) :=
        .some hpass
  have hrun := runStream_rel ops
    (HydroXLForwardPass.simulates_languageModel hm hm' hsame halloc tokenizer hmax) "hydroxl_cpu"
    false r.cb r.req hstart
  unfold serve
  rw [hready, hready', ha.tokenizer, ha'.tokenizer]
  dsimp only
  obtain ⟨hreturned, hresult, hdelivered, hstate⟩ := hrun
  refine TwoRuns.rel_map hstate fun q q' hq => ⟨?_, ?_, ?_⟩
  · exact Prod.ext hreturned (Prod.ext hresult hdelivered)
  · exact ⟨ha.isReady, rfl, q, rfl, hq.model, hq.clears⟩
  · exact ⟨ha'.isReady, rfl, q', rfl, hq.model', hq.kvCache ▸ hq.clears⟩

/-- A request leaves an adapter that serves requests. -/
theorem Serves.serve (hm : m.Sound) (halloc : cleared.allocated = true)
    (ha : Serves ops tokenizer m cleared a) {r : Request α}
    {run : StreamRun (HydroXLCpuEngineAdapter α)} (h : a.serve ops r = some run) :
    Serves ops tokenizer m cleared run.state := by
  have hself := serve_rel hm hm ⟨rfl, rfl, rfl, rfl, rfl, rfl⟩ halloc ha ha r
  rw [h] at hself
  cases hself with
  | some hrun => exact hrun.2.1

/-- So do any requests. -/
theorem Serves.serveAll (hm : m.Sound) (halloc : cleared.allocated = true) (rs : List (Request α))
    (ha : Serves ops tokenizer m cleared a) (h : a.serveAll ops rs = some a') :
    Serves ops tokenizer m cleared a' := by
  refine Buffer.foldlM_induction (P := Serves ops tokenizer m cleared)
    (fun r _ b b' hb hround => ?_)
    ha h
  obtain ⟨run, hrun, rfl⟩ := Option.map_eq_some_iff.mp hround
  exact hb.serve hm halloc hrun

/-! ## From the initialization on -/

/-- The model and the cache that a successful initialization leaves. -/
theorem serves_of_initializeFrom {threads : Threads} {outcome : AssignOutcome α} {path : Bytes}
    {entry : DirEntry}
    (h : (initializeFrom ops threads outcome path entry a).status = .loaded) :
    ∃ content m kvCache, entry = .file content ∧
      HydroXLModel.load ops threads path (.file content) (HydroXLModel.fresh ops) = (.loaded, m) ∧
      HydroXLKVCache.allocate ops.zero outcome {} m.hparams.nLayers m.hparams.nKvHeads
        (maxSeq m.hparams.nCtxMax) m.hparams.nHeadDim = (true, kvCache) ∧
      Serves ops (loadTokenizer path entry) m (kvCache.reset ops.zero)
        (initializeFrom ops threads outcome path entry a).adapter := by
  unfold initializeFrom at h ⊢
  by_cases hpath : path = []
  · rw [if_pos hpath] at h
    cases h
  rw [if_neg hpath] at h ⊢
  dsimp only at h ⊢
  cases hload : HydroXLModel.load ops threads path entry (HydroXLModel.fresh ops) with
  | mk status m =>
    rw [hload] at h
    cases status with
    | thrown => cases h
    | failed => cases h
    | loaded =>
      dsimp only at h ⊢
      cases halloc : HydroXLKVCache.callAllocate ops.zero outcome {} (cacheDims m.hparams) with
      | mk granted kvCache =>
        rw [halloc] at h
        rcases granted with - | (- | -)
        · cases h
        · cases h
        · -- a model was loaded, so the path names a file
          cases entry with
          | missing => cases hload
          | unreadable => cases hload
          | file content =>
            refine ⟨content, m, kvCache, rfl, hload, HydroXLKVCache.callAllocate_eq_true halloc,
              rfl, rfl, ?_⟩
            exact ⟨_, rfl, rfl, rfl⟩

variable (ops) in
/-- **Requests do not leak.** An adapter that was initialized has answered any requests, with any
callbacks and however they ended. The next request has the answer that it has on another adapter
that was just initialized for the same file. -/
theorem serve_after_serveAll (threads threads' : Threads) (outcome outcome' : AssignOutcome α)
    (path : Bytes) (entry : DirEntry) (a₀ b₀ : HydroXLCpuEngineAdapter α)
    (ha : (initializeFrom ops threads outcome path entry a₀).status = .loaded)
    (hb : (initializeFrom ops threads' outcome' path entry b₀).status = .loaded)
    (earlier : List (Request α))
    (hearlier : (initializeFrom ops threads outcome path entry a₀).adapter.serveAll ops earlier =
      some a) (r : Request α) :
    (a.serve ops r).map StreamRun.answer =
      ((initializeFrom ops threads' outcome' path entry b₀).adapter.serve ops r).map
        StreamRun.answer := by
  obtain ⟨content, m, kvCache, rfl, hload, halloc, hserves⟩ := serves_of_initializeFrom ha
  obtain ⟨content', m', kvCache', heq, hload', halloc', hserves'⟩ := serves_of_initializeFrom hb
  cases heq
  have hsame : m.SameWeights m' := HydroXLModel.sameWeights_of_load hload hload'
  obtain ⟨-, -, -, hdim, hkv⟩ := HydroXLKVCache.allocate_eq_true halloc
  obtain ⟨-, -, -, hdim', hkv'⟩ := HydroXLKVCache.allocate_eq_true halloc'
  have hm := HydroXLModel.sound_of_load hload hdim
  have hm' := HydroXLModel.sound_of_load hload' hdim'
  -- both caches have been allocated with the same dimensions
  have hcaches : kvCache' = kvCache := by
    rw [hkv', hkv, hsame.hparams]
  have hallocated : (kvCache.reset ops.zero).allocated = true := by
    rw [hkv]
    rfl
  rw [hcaches] at hserves'
  have hafter := hserves.serveAll hm hallocated earlier hearlier
  exact TwoRuns.map_eq_of_rel (serve_rel hm hm' hsame hallocated hafter hserves' r)
    fun _ _ hrun => hrun.1

end Requests

/-! ### A cancelled request before another one -/

/-- An adapter that has loaded the file without biases. -/
def sampleStart : Initialization ℚ :=
  initializeFrom rationalOps {} .granted (ofString "a") (.file HydroXLModel.withoutBias) {}

/-- A greedy request for two tokens. -/
def sampleRequest : Request ℚ where
  req := { promptTokenIds := [0], maxNewTokens := 2, temperature := 0, topP := 1 }

/-- A request whose callback declines the first token. -/
def cancelledRequest : Request ℚ := { sampleRequest with cb := some fun _ => false }

/-- The adapter is initialized, and it serves the request that is cancelled. -/
theorem sampleStart_serves : sampleStart.status = .loaded ∧
    (sampleStart.adapter.serveAll rationalOps [cancelledRequest]).isSome := by
  decide +kernel

/-- The request behind a cancelled one is answered as if it were the first. -/
theorem serve_after_cancelledRequest :
    ∃ a, sampleStart.adapter.serveAll rationalOps [cancelledRequest] = some a ∧
      (a.serve rationalOps sampleRequest).map StreamRun.answer =
        (sampleStart.adapter.serve rationalOps sampleRequest).map StreamRun.answer := by
  obtain ⟨hstart, hserved⟩ := sampleStart_serves
  obtain ⟨a, ha⟩ := Option.isSome_iff_exists.mp hserved
  exact ⟨a, ha, serve_after_serveAll rationalOps {} {} .granted .granted (ofString "a") _ {} {}
    hstart hstart [cancelledRequest] ha sampleRequest⟩

end HydroXLCpuEngineAdapter

end Orchestration

end HeteroAccel
