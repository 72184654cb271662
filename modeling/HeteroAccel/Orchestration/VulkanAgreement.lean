import HeteroAccel.Orchestration.AdapterReadiness
import HeteroAccel.Orchestration.ForwardSteps
import HeteroAccel.Orchestration.StreamFailures
import HeteroAccel.Orchestration.VulkanPass

/-!
# The Vulkan adapter and the CPU adapter

Two adapters for the same file, one on a device that runs the shaders and one on the CPU, each
behind any requests. Without rounding a request to the first has the answer of the second, whatever
is left in its buffers, up to the first call of the device that fails: then the request fails with
the text of that call, and what it has delivered is the beginning of what the CPU delivers.

## Main results

* `forwardToken_follows`: one token;
* `serve_follows`: a request;
* `serve_after_requests`: a request behind others, from the initialization on.
-/

namespace HeteroAccel

namespace Orchestration.HydroXLVulkanEngineAdapter

open Bytes (ofString)
open CallLog (Answered FailedWith)
open HydroXLForwardPass (Clear bufferSize forwardStep_of_runFrom)
open TwoRuns (Prog)

variable {α δ : Type} {ops : TensorOps α δ} {m m' : HydroXLModel α} {d : KVDims}
  {cleared : HydroXLKVCache α} {tokenizer : HydroXLTokenizer} {a : HydroXLVulkanEngineAdapter α}
  {p : HydroXLForwardPass α}

/-- The adapter serves requests with the tokenizer and the model, its cache clears to `cleared`, and
its buffers have their sizes. -/
structure Serves (ops : TensorOps α δ) (tokenizer : HydroXLTokenizer) (m : HydroXLModel α)
    (cleared : HydroXLKVCache α) (a : HydroXLVulkanEngineAdapter α) : Prop where
  isReady : a.isReady = true
  deviceReady : a.vkOps.ready = true
  tokenizer : a.tokenizer = some tokenizer
  model : a.model = some m
  clears : a.kvCache.map (HydroXLKVCache.reset ops.zero) = some cleared
  sized : ∀ b, b ≠ .logits →
    (a.buffers b).length = (bufferSize m.hparams cleared.maxSeqLen b).toNat

/-- How a call for a position ends. -/
def answerAt (answers : UInt32 → VulkanKernels α) (call : UInt32 × DeviceCall α) :
    Except Bytes (List α) :=
  (answers call.1).answer call.2

/-- The adapter and a forward pass of the CPU have the same in their caches. -/
structure Beside (ops : TensorOps α δ) (tokenizer : HydroXLTokenizer) (m m' : HydroXLModel α)
    (cleared : HydroXLKVCache α) (a : HydroXLVulkanEngineAdapter α) (p : HydroXLForwardPass α) :
    Prop where
  serves : Serves ops tokenizer m cleared a
  model : p.model = some m'
  kvCache : p.kvCache = a.kvCache

/-- The adapter behind a pass that has left its buffers with their sizes. -/
theorem Serves.behind (h : Serves ops tokenizer m cleared a) {s : ForwardState α}
    {calls : List (UInt32 × DeviceCall α)}
    (hclears : s.kvCache.reset ops.zero = cleared)
    (hsized : ∀ b, (s.buffers b).length = (bufferSize m.hparams cleared.maxSeqLen b).toNat) :
    Serves ops tokenizer m cleared
      { a with
        kvCache := some s.kvCache
        buffers := s.buffers
        calls } where
  isReady := h.isReady
  deviceReady := h.deviceReady
  tokenizer := h.tokenizer
  model := h.model
  clears := congrArg some hclears
  sized b _ := hsized b

section Exact

variable [Field α] [LinearOrder α] {gpu : ShaderOps α} {answers : UInt32 → VulkanKernels α}

/-- The pass of the CPU is defined. -/
theorem exists_runFrom_pass (h : Comparison ops gpu m d) (tokenId pos : UInt32)
    {t : ForwardState α} (ht : HydroXLForwardPass.Inside m d t) :
    ∃ r, (HydroXLForwardPass.pass ops m tokenId pos).runFrom t = some r := by
  have hwidth : d.width < 2 ^ 32 := by
    rw [KVDims.width, h.suits.nKvHeads, h.suits.headDim]
    exact h.fits.kvSize
  -- there is a layer, whose weights bound the columns
  have hff : m.hparams.nFf.toNat < 2 ^ 32 - 4 := by
    obtain ⟨w, hw, hlayer, -⟩ := HydroXLForwardPass.exists_layer h.suits
      (HydroXLForwardPass.nLayers_pos h.suits)
    exact (h.nFf_le (HydroXLForwardPass.nLayers_pos h.suits) hlayer).trans_lt (by decide)
  have hmeets : OneRun.Meets False (HydroXLForwardPass.Inside m d)
      (HydroXLForwardPass.pass ops m tokenId pos) _ fun _ => True :=
    HydroXLForwardPass.meets_pass ops h.suits h.kvSuit
      (HydroXLForwardPass.serves_of_dims h.suits hwidth pos) (.inl hff) fun _ _ _ => trivial
  have hends := hmeets t ht
  cases hrun : (HydroXLForwardPass.pass ops m tokenId pos).runFrom t with
  | none =>
    rw [hrun] at hends
    cases hends with
    | undefined hfalse => exact hfalse.elim
  | some r => exact ⟨r, rfl⟩

/-- **A token** on the device and on the CPU, behind calls of the device that were answered. -/
theorem forwardToken_follows (h : Comparison ops gpu m d) (hsame : m.SameWeights m')
    (hm' : m'.loaded = true) (hclear : Clear ops d cleared)
    (hanswers : ∀ pos, (answers pos).RunShaders gpu (uploads m))
    (hap : Beside ops tokenizer m m' cleared a p) (hanswered : Answered (answerAt answers) a.calls)
    (tokenId pos : UInt32) (logits : List α) :
    ∃ result a', a.forwardToken ops (answers pos) tokenId pos logits = some (result, a') ∧
      ((∃ e e', result = .error e ∧ FailedWith (answerAt answers) a'.calls e' ∧ e' <:+ e ∧
          Serves ops tokenizer m cleared a') ∨
        Answered (answerAt answers) a'.calls ∧
          ∃ p', HydroXLForwardPass.forwardStep ops tokenId pos logits (some p) =
            (result, some p') ∧ Beside ops tokenizer m m' cleared a' p') := by
  obtain ⟨hserves, hmodel, hkv⟩ := hap
  obtain ⟨kvCache, hcache, hclears⟩ := Option.map_eq_some_iff.mp hserves.clears
  have hsized : kvCache.Sized := HydroXLKVCache.sized_of_reset (hclears.symm ▸ hclear.sized)
  have hmax : kvCache.maxSeqLen = cleared.maxSeqLen := by
    rw [← hclears]
    rfl
  have hdims : kvCache.dims = d := by
    rw [← hclear.dims, ← hclears]
    rfl
  -- the states in which the passes begin
  obtain ⟨s, hs⟩ : ∃ s : ForwardState α, s =
    { kvCache
      buffers := Function.update a.buffers .logits
        (HydroXLModel.resize ops.zero logits m.hparams.vocabSize.toNat) } := ⟨_, rfl⟩
  obtain ⟨t, ht⟩ : ∃ t, t = p.start ops m' kvCache logits := ⟨_, rfl⟩
  have hstart : Agree ops (bufferSize m.hparams cleared.maxSeqLen) cleared [] s t := by
    subst hs ht
    refine ⟨rfl, hclears, fun b => ?_, fun b => ?_, by simp⟩
    · dsimp only
      by_cases hb : b = .logits
      · rw [hb, Function.update_self]
        exact HydroXLModel.length_resize _ _ _
      · rw [Function.update_of_ne hb]
        exact hserves.sized b hb
    · rw [← hmax, hsame.hparams]
      exact HydroXLForwardPass.length_start logits kvCache b
  have hinside : HydroXLForwardPass.Inside m d t := by
    refine ⟨fun b => ?_, ?_, ?_⟩
    · rw [hstart.sized', ← hclear.dims]
      rfl
    · rw [ht]
      exact hsized
    · rw [ht]
      exact hdims
  obtain ⟨r', hr'⟩ := exists_runFrom_pass h tokenId pos hinside
  have hdevice : a.forwardToken ops (answers pos) tokenId pos logits =
      ((pass ops (answers pos) m tokenId pos).runFrom s).map fun r =>
        (r.1.map fun _ => r.2.buffers .logits,
          { a with
            kvCache := some r.2.kvCache
            buffers := r.2.buffers
            calls := a.calls ++ r.2.calls.map fun call => (pos, call) }) := by
    unfold forwardToken
    simp only [hserves.model, hcache, hserves.deviceReady, Bool.not_true, Bool.false_eq_true,
      if_false, ← hs]
    cases (pass ops (answers pos) m tokenId pos).runFrom s with
    | none => rfl
    | some r => rfl
  obtain ⟨q, hhost, hqmodel, hqcache⟩ := forwardStep_of_runFrom hm' hmodel (hkv.trans hcache)
    hsized.allocated (by rw [← HydroXLForwardPass.pass_congr hsame, ← ht, hr'])
  -- the pass begins a log of its own, which is put behind that of the adapter
  have hbegin : Answered (answers pos).answer s.calls := by
    rw [hs]
    exact CallLog.answered_nil
  rcases tracks_pass cleared h (hanswers pos) tokenId pos s t ⟨hstart, hbegin⟩ with
    ⟨e, s', hgave, ⟨e', hfailed, hsuffix⟩, hclears', hsized'⟩ | hends
  · rw [hdevice, hgave]
    have hfailed' : FailedWith (fun call => answerAt answers (pos, call)) s'.calls e' := hfailed
    have hlog : FailedWith (answerAt answers) (s'.calls.map fun call => (pos, call)) e' :=
      hfailed'.map
    exact ⟨_, _, rfl, .inl ⟨e, e', rfl, hlog.prepend hanswered, hsuffix,
      hserves.behind hclears' hsized'⟩⟩
  · rw [hr'] at hends
    generalize hrun : (pass ops (answers pos) m tokenId pos).runFrom s = r at hends
    cases hends with
    | some hr =>
      rw [hdevice, hrun]
      have hlog : ∀ s' : ForwardState α, Answered (answers pos).answer s'.calls →
          Answered (answerAt answers) (a.calls ++ s'.calls.map fun call => (pos, call)) :=
        fun s' hs' => hanswered.append (CallLog.answered_map.mpr hs')
      cases hr with
      | @ok v w s' t' hagree =>
        obtain ⟨hagree, hall⟩ := hagree
        refine ⟨_, _, rfl, .inr ⟨hlog s' hall, q, ?_⟩⟩
        rw [hhost]
        refine ⟨Prod.ext (congrArg Except.ok (hagree.known .logits (by simp)).symm) rfl, ?_⟩
        exact ⟨hserves.behind hagree.clears hagree.sized, hqmodel,
          hqcache.trans (congrArg some hagree.kvCache.symm)⟩
      | @error e s' t' hagree =>
        obtain ⟨hagree, hall⟩ := hagree
        refine ⟨_, _, rfl, .inr ⟨hlog s' hall, q, ?_⟩⟩
        rw [hhost]
        exact ⟨rfl, hserves.behind hagree.clears hagree.sized, hqmodel,
          hqcache.trans (congrArg some hagree.kvCache.symm)⟩

/-! ## Requests -/

/-- States of a request on the device and of one on the CPU, all calls of the device in the request
having been answered. -/
def BesideState (ops : TensorOps α δ) (answers : UInt32 → VulkanKernels α)
    (tokenizer : HydroXLTokenizer) (m m' : HydroXLModel α)
    (cleared : HydroXLKVCache α) (st : Option (HydroXLVulkanEngineAdapter α))
    (st' : Option (HydroXLForwardPass α)) : Prop :=
  ∃ a p, st = some a ∧ st' = some p ∧ Beside ops tokenizer m m' cleared a p ∧
    Answered (answerAt answers) a.calls

/-- A state in which a request on the device gives up: its last call has failed. -/
def GaveUpState (ops : TensorOps α δ) (answers : UInt32 → VulkanKernels α)
    (tokenizer : HydroXLTokenizer) (m : HydroXLModel α) (cleared : HydroXLKVCache α) (e : Bytes)
    (st : Option (HydroXLVulkanEngineAdapter α)) : Prop :=
  ∃ a e', st = some a ∧ FailedWith (answerAt answers) a.calls e' ∧ e' <:+ e ∧
    Serves ops tokenizer m cleared a

theorem languageModel_follows (h : Comparison ops gpu m d) (hsame : m.SameWeights m')
    (hm' : m'.loaded = true) (hclear : Clear ops d cleared)
    (hanswers : ∀ pos, (answers pos).RunShaders gpu (uploads m))
    {kvCache kvCache' : HydroXLKVCache α}
    (hmax : kvCache.maxSeqLen = kvCache'.maxSeqLen) :
    (languageModel ops answers tokenizer kvCache).Follows
      (HydroXLForwardPass.languageModel ops tokenizer kvCache')
      (fun _ => BesideState ops answers tokenizer m m' cleared)
      (BesideState ops answers tokenizer m m' cleared)
      (GaveUpState ops answers tokenizer m cleared) where
  tokenizer := rfl
  maxSeqLen := hmax
  keeps _ _ _ hst := hst
  forward tok pos logits st st' hst := by
    obtain ⟨a, p, rfl, rfl, hap, hanswered⟩ := hst
    obtain ⟨result, a', hforward, hend⟩ :=
      forwardToken_follows h hsame hm' hclear hanswers hap hanswered tok pos logits
    have hdevice : (languageModel ops answers tokenizer kvCache).forward tok pos logits (some a) =
        (result, some a') := by
      simp only [languageModel, Option.bind_some, hforward]
    rw [hdevice]
    -- either the device gives up, or it goes on beside the CPU
    rcases hend with ⟨e, e', rfl, hfailed, hsuffix, hserves⟩ | ⟨hanswered', p', hhost, hap'⟩
    · exact .gaveUp ⟨a', e', rfl, hfailed, hsuffix, hserves⟩
    · have hhost : (HydroXLForwardPass.languageModel ops tokenizer kvCache').forward tok pos logits
          (some p) = (result, some p') := hhost
      rw [hhost]
      cases result with
      | ok logits' => exact .ok ⟨a', p', rfl, rfl, hap', hanswered'⟩
      | error e => exact .error ⟨a', p', rfl, rfl, hap', hanswered'⟩

/-- A call of the CPU's forward pass is defined, and leaves a cache that clears as before. -/
theorem exists_forwardStep (h : Comparison ops gpu m d) (hsame : m.SameWeights m')
    (hm' : m'.Sound) (hclear : Clear ops d cleared) (hmodel : p.model = some m')
    (hclears : p.kvCache.map (HydroXLKVCache.reset ops.zero) = some cleared) (tokenId pos : UInt32)
    (logits : List α) :
    ∃ result q, HydroXLForwardPass.forwardStep ops tokenId pos logits (some p) =
        (result, some q) ∧
      q.model = some m' ∧ q.kvCache.map (HydroXLKVCache.reset ops.zero) = some cleared := by
  obtain ⟨kvCache, hkv, hreset⟩ := Option.map_eq_some_iff.mp hclears
  have hinside := hclear.inside_start (p := p) hsame.hparams hreset logits
  obtain ⟨r, hr⟩ := exists_runFrom_pass h tokenId pos hinside
  rw [HydroXLForwardPass.pass_congr hsame] at hr
  obtain ⟨q, hstep, hqmodel, hqcache⟩ := forwardStep_of_runFrom hm'.loaded hmodel hkv
    hinside.cache.allocated hr
  refine ⟨_, q, hstep, hqmodel, ?_⟩
  rw [hqcache]
  exact congrArg some (HydroXLForwardPass.reset_of_runFrom hm' hreset hr)

variable (tokenizer) in
/-- A request on the CPU is defined. -/
theorem exists_state_runStream (h : Comparison ops gpu m d) (hsame : m.SameWeights m')
    (hm' : m'.Sound) (hclear : Clear ops d cleared) (hmodel : p.model = some m')
    (hclears : p.kvCache.map (HydroXLKVCache.reset ops.zero) = some cleared)
    (kvCache : HydroXLKVCache α) (backendUsed : String) (gpuUsed : Bool)
    (cb : Option StreamCallback) (req : InferenceRequest α) :
    ∃ q, (Orchestration.runStream ops backendUsed gpuUsed
        (some (HydroXLForwardPass.languageModel ops tokenizer kvCache)) cb req (some p)).state =
          some q ∧
      q.model = some m' ∧ q.kvCache.map (HydroXLKVCache.reset ops.zero) = some cleared := by
  -- the invariant, as a relation of the run to itself
  let Fine (st st' : Option (HydroXLForwardPass α)) : Prop := st = st' ∧ ∃ q, st = some q ∧
    q.model = some m' ∧ q.kvCache.map (HydroXLKVCache.reset ops.zero) = some cleared
  have hself : (HydroXLForwardPass.languageModel ops tokenizer kvCache).Simulates
      (HydroXLForwardPass.languageModel ops tokenizer kvCache) Fine := by
    refine ⟨rfl, rfl, ?_⟩
    rintro tok pos logits st - ⟨rfl, q, rfl, hqmodel, hqclears⟩
    obtain ⟨result, q', hstep, hfine⟩ :=
      exists_forwardStep h hsame hm' hclear hqmodel hqclears tok pos logits
    exact ⟨rfl, rfl, q', congrArg Prod.snd hstep, hfine⟩
  have hstart : Fine
      ((HydroXLForwardPass.languageModel ops tokenizer kvCache).resetCache (some p))
      ((HydroXLForwardPass.languageModel ops tokenizer kvCache).resetCache (some p)) := by
    refine ⟨rfl, p.resetCache ops, rfl, hmodel, ?_⟩
    obtain ⟨c, hc, hreset⟩ := Option.map_eq_some_iff.mp hclears
    simp [HydroXLForwardPass.resetCache, hc, hreset, hclear.reset]
  obtain ⟨-, q, hq, hfine⟩ :=
    (runStream_rel ops hself backendUsed gpuUsed cb req hstart).state
  exact ⟨q, hq, hfine⟩

variable {b : HydroXLCpuEngineAdapter α}

/-- **A request** to both adapters. -/
theorem serve_follows (h : Comparison ops gpu m d) (hsame : m.SameWeights m') (hm' : m'.Sound)
    (hclear : Clear ops d cleared) (hanswers : ∀ pos, (answers pos).RunShaders gpu (uploads m))
    (ha : Serves ops tokenizer m cleared a)
    (hb : HydroXLCpuEngineAdapter.Serves ops tokenizer m' cleared b) (r : Request α) :
    ∃ run run', a.serve ops answers r = some run ∧ b.serve ops r = some run' ∧
      Serves ops tokenizer m cleared run.state ∧
      HydroXLCpuEngineAdapter.Serves ops tokenizer m' cleared run'.state ∧
      (Answered (answerAt answers) run.state.calls ∧ run.SameAnswer run' ∨
        ∃ e, FailedWith (answerAt answers) run.state.calls e ∧ GaveUp e run run') := by
  obtain ⟨kvCache, hcache, hreset⟩ := Option.map_eq_some_iff.mp ha.clears
  obtain ⟨p, kvCache', hready', hmodel', hkv', hreset'⟩ := hb.ready_eq hclear.sized.allocated
  have hready : a.ready = some (tokenizer, kvCache) := by
    simp [ready, ha.isReady, ha.deviceReady, ha.model, ha.tokenizer, hcache]
  have hmax : kvCache.maxSeqLen = kvCache'.maxSeqLen := by
    change (kvCache.reset ops.zero).maxSeqLen = (kvCache'.reset ops.zero).maxSeqLen
    rw [hreset, hreset']
  have hclears : p.kvCache.map (HydroXLKVCache.reset ops.zero) = some cleared := by
    rw [hkv', Option.map_some, hreset']
  -- a reset leaves the same in both caches
  have hstart : BesideState ops answers tokenizer m m' cleared
      ((languageModel ops answers tokenizer kvCache).resetCache (some { a with calls := [] }))
      ((HydroXLForwardPass.languageModel ops tokenizer kvCache').resetCache (some p)) := by
    refine ⟨_, _, rfl, rfl, ⟨⟨ha.isReady, ha.deviceReady, ha.tokenizer, ha.model, ?_, ha.sized⟩,
      hmodel', ?_⟩, CallLog.answered_nil⟩
    · simp [hcache, hreset, hclear.reset]
    · change p.kvCache.map (HydroXLKVCache.reset ops.zero) =
        a.kvCache.map (HydroXLKVCache.reset ops.zero)
      rw [hclears, ha.clears]
  obtain ⟨q, hq, hqmodel, hqclears⟩ := exists_state_runStream tokenizer h hsame hm' hclear
    hmodel' hclears kvCache' "hydroxl_cpu" false r.cb r.req
  have hrun := runStream_follows ops
    (languageModel_follows h hsame hm'.loaded hclear hanswers hmax) "hydroxl_vulkan"
    "hydroxl_cpu" true false r.cb r.req hstart
  unfold serve HydroXLCpuEngineAdapter.serve
  rw [hready, hready', hb.tokenizer]
  dsimp only [Option.map_some, runStream, HydroXLCpuEngineAdapter.runStream]
  generalize Orchestration.runStream ops "hydroxl_vulkan" true _ r.cb r.req _ = run at hrun ⊢
  generalize Orchestration.runStream ops "hydroxl_cpu" false _ r.cb r.req _ = run' at hrun hq ⊢
  rw [hq]
  cases hrun with
  | same hanswer hstate =>
    obtain ⟨a', q', ha', -, hbeside, hanswered⟩ := hstate
    rw [ha']
    exact ⟨_, _, rfl, rfl, hbeside.serves, ⟨hb.isReady, rfl, q, rfl, hqmodel, hqclears⟩,
      .inl ⟨hanswered, hanswer.returned, hanswer.result, hanswer.delivered⟩⟩
  | @gaveUp e hgave hstate =>
    obtain ⟨a', e', ha', hfailed, hsuffix, hserves⟩ := hstate
    rw [ha']
    refine ⟨_, _, rfl, rfl, hserves, ⟨hb.isReady, rfl, q, rfl, hqmodel, hqclears⟩,
      .inr ⟨e', hfailed, ?_⟩⟩
    exact ⟨hgave.returned, hgave.success, hsuffix.trans hgave.error, hgave.promptTokens,
      hgave.outputTokenIds, hgave.outputText, hgave.delivered⟩

end Exact

/-! ## From the initialization on -/

/-- The model and the cache that a successful initialization leaves. -/
theorem serves_of_initializeFrom {threads : Threads} {outcome : AssignOutcome α}
    {device : VulkanDevice α} {path : Bytes} {entry : DirEntry}
    (h : (initializeFrom ops threads outcome device path entry a).status = .loaded) :
    ∃ content m kvCache, entry = .file content ∧
      HydroXLModel.load ops threads path (.file content) (HydroXLModel.fresh ops) = (.loaded, m) ∧
      HydroXLKVCache.allocate ops.zero outcome {} m.hparams.nLayers m.hparams.nKvHeads
        (HydroXLCpuEngineAdapter.maxSeq m.hparams.nCtxMax) m.hparams.nHeadDim = (true, kvCache) ∧
      Serves ops (HydroXLCpuEngineAdapter.loadTokenizer path entry) m (kvCache.reset ops.zero)
        (initializeFrom ops threads outcome device path entry a).adapter := by
  unfold initializeFrom at h ⊢
  by_cases hpath : path = []
  · rw [if_pos hpath] at h
    cases h
  rw [if_neg hpath] at h ⊢
  have hinit := a.vkOps.ready_initializeFrom device
  generalize a.vkOps.initializeFrom device = v at h hinit ⊢
  obtain ⟨started, vkOps⟩ := v
  cases started with
  | error e => cases h
  | ok u =>
    have hdevice : vkOps.ready = true := hinit.mpr rfl
    dsimp only at h ⊢
    cases hload : HydroXLModel.load ops threads path entry (HydroXLModel.fresh ops) with
    | mk status m =>
      rw [hload] at h
      cases status with
      | thrown => cases h
      | failed => cases h
      | loaded =>
        dsimp only at h ⊢
        cases hcall : HydroXLKVCache.callAllocate ops.zero outcome {}
            (HydroXLCpuEngineAdapter.cacheDims m.hparams) with
        | mk granted kvCache =>
          rw [hcall] at h
          rcases granted with - | (- | -)
          · cases h
          · cases h
          · have halloc := HydroXLKVCache.callAllocate_eq_true hcall
            dsimp only at h ⊢
            have hstill := ready_uploadAll device (uploads m) vkOps
            generalize uploadAll device (uploads m) vkOps = r at h hstill ⊢
            obtain ⟨uploaded, vkOps'⟩ := r
            cases uploaded with
            | error e => cases h
            | ok u =>
              cases entry with
              | missing => cases hload
              | unreadable => cases hload
              | file content =>
                -- the buffers have the sizes of the model and the cache
                obtain ⟨-, -, -, -, hkv⟩ := HydroXLKVCache.allocate_eq_true halloc
                refine ⟨content, m, kvCache, rfl, hload, halloc, rfl, hstill.trans hdevice, rfl,
                  rfl, rfl, fun b hb => ?_⟩
                dsimp only
                rw [if_neg hb, HydroXLModel.length_resize, hkv]
                rfl

/-- The adapter after some requests, with what the device answers to each of them. -/
def serveAll (ops : TensorOps α δ) (a : HydroXLVulkanEngineAdapter α)
    (rs : List ((UInt32 → VulkanKernels α) × Request α)) :
    Option (HydroXLVulkanEngineAdapter α) :=
  rs.foldlM (fun a r => (a.serve ops r.1 r.2).map fun run => run.state) a

section Exact

variable [Field α] [LinearOrder α] {gpu : ShaderOps α} {b : HydroXLCpuEngineAdapter α}

/-- Requests leave adapters that serve requests. -/
theorem exists_serveAll (h : Comparison ops gpu m d) (hsame : m.SameWeights m') (hm' : m'.Sound)
    (hclear : Clear ops d cleared) (hb : HydroXLCpuEngineAdapter.Serves ops tokenizer m' cleared b)
    {rs : List ((UInt32 → VulkanKernels α) × Request α)}
    (hrs : ∀ r ∈ rs, ∀ pos, (r.1 pos).RunShaders gpu (uploads m))
    (ha : Serves ops tokenizer m cleared a) :
    ∃ a', serveAll ops a rs = some a' ∧ Serves ops tokenizer m cleared a' := by
  refine Buffer.exists_foldlM (Serves ops tokenizer m cleared) (fun r hr a ha => ?_) ha
  obtain ⟨run, -, hrun, -, hserves, -⟩ := serve_follows h hsame hm' hclear (hrs r hr) ha hb r.2
  exact ⟨run.state, by rw [hrun]; rfl, hserves⟩

/-- The same of the CPU's adapter. -/
theorem exists_serveAll_cpu (h : Comparison ops gpu m d) (hsame : m.SameWeights m')
    (hm' : m'.Sound) (hclear : Clear ops d cleared) (ha : Serves ops tokenizer m cleared a)
    (rs : List (Request α)) (hb : HydroXLCpuEngineAdapter.Serves ops tokenizer m' cleared b) :
    ∃ b', b.serveAll ops rs = some b' ∧
      HydroXLCpuEngineAdapter.Serves ops tokenizer m' cleared b' := by
  refine Buffer.exists_foldlM (HydroXLCpuEngineAdapter.Serves ops tokenizer m' cleared)
    (fun r _ b hb => ?_) hb
  -- any device will do
  have hany : ∀ pos : UInt32, (shaderKernels gpu (uploads m)).RunShaders gpu (uploads m) :=
    fun _ => runShaders_shaderKernels gpu (uploads m)
  obtain ⟨-, run, -, hrun, -, hserves, -⟩ := serve_follows h hsame hm' hclear hany ha hb r
  exact ⟨run.state, by rw [hrun]; rfl, hserves⟩

/-- **The device answers as the CPU.** Two adapters have been initialized for the same file, and
have answered any requests. The next request is defined on both. When the device has answered all
calls that the request made of it, the answer is the same; otherwise the last of these calls has
failed, and the request with its text. -/
theorem serve_after_requests (hops : ops.IsExact) (hdoubles : ops.ExactDoubles)
    (hgpu : gpu.IsExact ops) (threads threads' : Threads) (outcome outcome' : AssignOutcome α)
    (device : VulkanDevice α) (path : Bytes) (entry : DirEntry)
    (a₀ : HydroXLVulkanEngineAdapter α) (b₀ : HydroXLCpuEngineAdapter α)
    (ha : (initializeFrom ops threads outcome device path entry a₀).status = .loaded)
    (hb : (HydroXLCpuEngineAdapter.initializeFrom ops threads' outcome' path entry b₀).status =
      .loaded)
    (hm : (initializeFrom ops threads outcome device path entry a₀).adapter.model = some m)
    (hfits : DeviceFits m) (earlier : List ((UInt32 → VulkanKernels α) × Request α))
    (hearlier : ∀ r ∈ earlier, ∀ pos, (r.1 pos).RunShaders gpu (uploads m))
    (earlier' : List (Request α)) (answers : UInt32 → VulkanKernels α)
    (hanswers : ∀ pos, (answers pos).RunShaders gpu (uploads m)) (r : Request α) :
    ∃ a b run run',
      serveAll ops (initializeFrom ops threads outcome device path entry a₀).adapter earlier =
        some a ∧
      (HydroXLCpuEngineAdapter.initializeFrom ops threads' outcome' path entry b₀).adapter.serveAll
        ops earlier' = some b ∧
      a.serve ops answers r = some run ∧ b.serve ops r = some run' ∧
      (Answered (answerAt answers) run.state.calls ∧ run.SameAnswer run' ∨
        ∃ e, FailedWith (answerAt answers) run.state.calls e ∧ GaveUp e run run') := by
  obtain ⟨content, m₁, kvCache, rfl, hload, halloc, hserves⟩ := serves_of_initializeFrom ha
  obtain ⟨content', m', kvCache', heq, hload', halloc', hserves'⟩ :=
    HydroXLCpuEngineAdapter.serves_of_initializeFrom hb
  cases heq
  obtain rfl : m₁ = m := Option.some.inj (hserves.model.symm.trans hm)
  have hsame : m₁.SameWeights m' := HydroXLModel.sameWeights_of_load hload hload'
  obtain ⟨-, -, -, hdim, hkv⟩ := HydroXLKVCache.allocate_eq_true halloc
  obtain ⟨-, -, -, hdim', hkv'⟩ := HydroXLKVCache.allocate_eq_true halloc'
  have hm' := HydroXLModel.sound_of_load hload' hdim'
  have hcaches : kvCache' = kvCache := by
    rw [hkv', hkv, hsame.hparams]
  rw [hcaches] at hserves'
  -- what the load has checked
  obtain ⟨gguf, hp, hequipped⟩ := HydroXLForwardPass.exists_equipped hload halloc
  have hcompare : Comparison ops gpu m₁ kvCache.dims := by
    refine ⟨hops, hdoubles, hgpu, hequipped.suits, hequipped.kvSuit ?_, hfits⟩
    rw [← hequipped.content.hparams]
    exact hfits.kvSize
  have hclear : Clear ops kvCache.dims (kvCache.reset ops.zero) := .of_sized hequipped.sized
  obtain ⟨a, hserved, ha'⟩ := exists_serveAll hcompare hsame hm' hclear hserves' hearlier hserves
  obtain ⟨b, hserved', hb'⟩ :=
    exists_serveAll_cpu hcompare hsame hm' hclear hserves earlier' hserves'
  obtain ⟨run, run', hrun, hrun', -, -, hanswer⟩ :=
    serve_follows hcompare hsame hm' hclear hanswers ha' hb' r
  exact ⟨a, b, run, run', hserved, hserved', hrun, hrun', hanswer⟩

end Exact

/-! ### A request behind a cancelled one -/

/-- A device whose calls all succeed. -/
def sampleDevice : VulkanDevice ℚ where
  start := .ok ()
  handles := true
  descriptorPool := true
  loadPipeline _ := .ok ()
  createBuffer _ := true
  upload _ _ := true

/-- An adapter that has loaded the file without biases, with a device. -/
def sampleStart : Initialization ℚ :=
  initializeFrom rationalOps {} .granted sampleDevice (ofString "a")
    (.file HydroXLModel.withoutBias) {}

/-- The model of the adapter. -/
def sampleModel : HydroXLModel ℚ := sampleStart.adapter.model.getD (.fresh rationalOps)

/-- The device runs the shaders for every position. -/
def sampleAnswers (_ : UInt32) : VulkanKernels ℚ :=
  shaderKernels rationalShaderOps (uploads sampleModel)

/-- No call of the device fails in the second of two requests. -/
theorem answered_sampleRequest {a : HydroXLVulkanEngineAdapter ℚ}
    {run : StreamRun (HydroXLVulkanEngineAdapter ℚ)}
    (ha : serveAll rationalOps sampleStart.adapter
      [(sampleAnswers, HydroXLCpuEngineAdapter.cancelledRequest)] = some a)
    (hrun : a.serve rationalOps sampleAnswers HydroXLCpuEngineAdapter.sampleRequest = some run) :
    Answered (answerAt sampleAnswers) run.state.calls := by
  have hall : (((serveAll rationalOps sampleStart.adapter
      [(sampleAnswers, HydroXLCpuEngineAdapter.cancelledRequest)]).bind fun a =>
        a.serve rationalOps sampleAnswers HydroXLCpuEngineAdapter.sampleRequest).all fun run =>
          run.state.calls.all fun c => (answerAt sampleAnswers c).isOk) = true := by
    decide +kernel
  rw [ha, Option.bind_some, hrun, Option.all_some] at hall
  intro c hc
  have hok := List.all_eq_true.mp hall c hc
  cases hanswer : answerAt sampleAnswers c with
  | ok v => exact ⟨v, rfl⟩
  | error e =>
    rw [hanswer] at hok
    cases hok

theorem serve_after_cancelledRequest_device : ∃ a b run run',
    serveAll rationalOps sampleStart.adapter
      [(sampleAnswers, HydroXLCpuEngineAdapter.cancelledRequest)] = some a ∧
    HydroXLCpuEngineAdapter.sampleStart.adapter.serveAll rationalOps [] = some b ∧
    a.serve rationalOps sampleAnswers HydroXLCpuEngineAdapter.sampleRequest = some run ∧
    b.serve rationalOps HydroXLCpuEngineAdapter.sampleRequest = some run' ∧
    run.SameAnswer run' := by
  have hstart' : HydroXLCpuEngineAdapter.sampleStart.status = .loaded :=
    HydroXLCpuEngineAdapter.sampleStart_serves.1
  obtain ⟨hstart, hmodel, hsmall, hkv⟩ : sampleStart.status = .loaded ∧
      sampleStart.adapter.model.isSome ∧
      (uploads sampleModel).all (fun t => t.2.length ≤ 2 ^ 32 - 256) = true ∧
      sampleModel.hparams.nKvHeads.toNat * sampleModel.hparams.nHeadDim.toNat < 2 ^ 32 := by
    decide +kernel
  have hm : sampleStart.adapter.model = some sampleModel := by
    obtain ⟨m, hm⟩ := Option.isSome_iff_exists.mp hmodel
    rw [sampleModel, hm]
    rfl
  have hanswers : ∀ pos, (sampleAnswers pos).RunShaders rationalShaderOps (uploads sampleModel) :=
    fun _ => runShaders_shaderKernels rationalShaderOps (uploads sampleModel)
  have hfits : DeviceFits sampleModel :=
    ⟨fun t ht => of_decide_eq_true (List.all_eq_true.mp hsmall t ht), hkv⟩
  have hearlier : ∀ r ∈ [(sampleAnswers, HydroXLCpuEngineAdapter.cancelledRequest)], ∀ pos,
      (r.1 pos).RunShaders rationalShaderOps (uploads sampleModel) := by
    intro r hr
    rw [List.mem_singleton.mp hr]
    exact hanswers
  unfold sampleStart at hm hstart
  obtain ⟨a, b, run, run', ha, hb, hrun, hrun', hanswer⟩ :=
    serve_after_requests isExact_rationalOps exactDoubles_rationalOps isExact_rationalShaderOps
      {} {} .granted .granted sampleDevice (ofString "a") (.file HydroXLModel.withoutBias) {} {}
      hstart hstart' hm hfits [(sampleAnswers, HydroXLCpuEngineAdapter.cancelledRequest)] hearlier
      [] sampleAnswers hanswers HydroXLCpuEngineAdapter.sampleRequest
  have ha' : serveAll rationalOps sampleStart.adapter
      [(sampleAnswers, HydroXLCpuEngineAdapter.cancelledRequest)] = some a := by
    unfold sampleStart
    exact ha
  refine ⟨a, b, run, run', ha', hb, hrun, hrun', ?_⟩
  rcases hanswer with ⟨-, hsame⟩ | ⟨e, hfailed, -⟩
  · exact hsame
  · exact absurd (answered_sampleRequest ha' hrun) hfailed.not_answered

end Orchestration.HydroXLVulkanEngineAdapter

end HeteroAccel
