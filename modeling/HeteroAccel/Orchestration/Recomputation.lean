import HeteroAccel.HydroXL.CachedDecoding
import HeteroAccel.Orchestration.ForwardSteps
import HeteroAccel.Orchestration.StreamFailures

/-!
# Decoding with a cache and without one

What a request to the CPU adapter is for: a model that remembers the tokens, and computes the logits
of the last one from all of them. It has no cache and no buffers. For models with one key-value head
the adapter answers every request as this model does, in any arithmetic.

## Main definitions

* `Transformer.recomputing`: the model;
* `Remembers`: a forward pass whose cache holds the keys and values of the tokens.

## Main results

* `languageModel_follows`: the forward pass and the model, one token after the other;
* `serve_recomputes`: a request behind others, from the initialization on.
-/

namespace HeteroAccel

open Bytes (ofString ofDecimal)
open OneRun (Fails Meets)
open Orchestration (HydroXLCpuEngineAdapter Request StreamRun)

variable {α δ : Type} {ops : TensorOps α δ} {m : HydroXLModel α} {d : KVDims}
  {cleared kvCache : HydroXLKVCache α} {p : HydroXLForwardPass α} {tokenizer : HydroXLTokenizer}
  {history : List UInt32} {tokenId pos : UInt32} {logits : List α}

variable (ops m) in
/-- The transformer as the model of a generation. Its state is the tokens so far. -/
def Transformer.recomputing (tokenizer : HydroXLTokenizer) (maxSeqLen : UInt32) :
    LanguageModel (List UInt32) α where
  tokenizer
  maxSeqLen
  resetCache _ := []
  forward tokenId pos _ history :=
    if tokenId ≥ m.hparams.vocabSize then
      (.error (ofString "Invalid token_id=" ++ ofDecimal tokenId.toNat), history)
    -- the first layer stores the position, or there is no room for it
    else if maxSeqLen ≤ pos then
      (.error (ofString "KV cache write failed at layer " ++ ofDecimal 0), history)
    else (.ok (Transformer.logits ops m (history ++ [tokenId])), history ++ [tokenId])

namespace HydroXLForwardPass

/-- The forward pass is attached to the model and to a cache that clears to `cleared`. -/
structure Attached (ops : TensorOps α δ) (m : HydroXLModel α) (cleared : HydroXLKVCache α)
    (p : HydroXLForwardPass α) : Prop where
  model : p.model = some m
  clears : p.kvCache.map (HydroXLKVCache.reset ops.zero) = some cleared

/-- What the layers store of a sequence of tokens. -/
def tokenRows (ops : TensorOps α δ) (m : HydroXLModel α) (tokens : List UInt32) : CacheRows α :=
  fun l => (Transformer.stack ops m).entries l
    ((Transformer.stack ops m).run l (tokens.map (Transformer.embed ops m)))

/-- The cache begins with the keys and values of the tokens. -/
structure Remembers (ops : TensorOps α δ) (m : HydroXLModel α) (cleared : HydroXLKVCache α)
    (tokens : List UInt32) (p : HydroXLForwardPass α) : Prop extends Attached ops m cleared p where
  stored : ∀ kvCache, p.kvCache = some kvCache → ∀ l < m.hparams.nLayers.toNat,
    kvCache.Stored l (tokenRows ops m tokens l)

theorem Attached.resetCache (h : Attached ops m cleared p) (hclear : Clear ops d cleared) :
    Remembers ops m cleared [] (p.resetCache ops) := by
  obtain ⟨c, hc, hreset⟩ := Option.map_eq_some_iff.mp h.clears
  refine ⟨⟨h.model, ?_⟩, fun kvCache _ l _ => ?_⟩
  · simp [HydroXLForwardPass.resetCache, hc, hreset, hclear.reset]
  · have hnil : tokenRows ops m [] l = [] := by
      apply List.eq_nil_of_length_eq_zero
      simp [tokenRows]
    rw [hnil]
    exact kvCache.stored_nil l

section Step

variable (hm : OneHead m d) (hsound : m.Sound) (hclear : Clear ops d cleared)

/-- At a position the forward pass remembers the tokens before it. -/
def RemembersAt (ops : TensorOps α δ) (m : HydroXLModel α) (cleared : HydroXLKVCache α)
    (pos : UInt32) (st : Option (HydroXLForwardPass α)) (tokens : List UInt32) : Prop :=
  tokens.length = pos.toNat ∧ ∃ p, st = some p ∧ Remembers ops m cleared tokens p

/-- The forward pass is defined. -/
def StaysAttached (ops : TensorOps α δ) (m : HydroXLModel α) (cleared : HydroXLKVCache α)
    (st : Option (HydroXLForwardPass α)) (_ : List UInt32) : Prop :=
  ∃ p, st = some p ∧ Attached ops m cleared p

include hm hsound hclear in
/-- **One token.** -/
theorem recomputes_forwardStep (h : Remembers ops m cleared history p)
    (hpos : history.length = pos.toNat) (tokenId : UInt32) (logits : List α) :
    FollowingPass (RemembersAt ops m cleared (pos + 1)) (StaysAttached ops m cleared)
      (fun _ _ => False) (forwardStep ops tokenId pos logits (some p))
      ((Transformer.recomputing ops m tokenizer cleared.maxSeqLen).forward tokenId pos logits
        history) := by
  obtain ⟨kvCache, hkv, hreset⟩ := Option.map_eq_some_iff.mp h.clears
  have hinside := hclear.inside_start (p := p) (rfl : m.hparams = m.hparams) hreset logits
  have hmax : cleared.maxSeqLen = d.maxSeqLen := congrArg KVDims.maxSeqLen hclear.dims
  have hstart : Knows m d (fun _ => none) (tokenRows ops m history)
      (p.start ops m kvCache logits) := by
    refine ⟨hinside, fun b v hb => (by cases hb), fun l hl => ?_⟩
    exact h.stored kvCache hkv l (hm.nLayers ▸ hl)
  -- a pass that fails leaves the forward pass attached
  have hfails : ∀ e, Fails e (Knows m d (fun _ => none) (tokenRows ops m history))
      (pass ops m tokenId pos) → ∀ tokens', FollowingPass (RemembersAt ops m cleared (pos + 1))
        (StaysAttached ops m cleared) (fun _ _ => False)
        (forwardStep ops tokenId pos logits (some p)) (.error e, tokens') := by
    intro e hfail tokens'
    obtain ⟨t, ht⟩ := hfail _ hstart
    obtain ⟨q, hstep, hmodel, hcache⟩ := forwardStep_of_runFrom hm.loaded h.model hkv
      hinside.cache.allocated ht
    rw [hstep]
    refine .error ⟨q, rfl, hmodel, ?_⟩
    rw [hcache]
    exact congrArg some (reset_of_runFrom hsound hreset ht)
  rw [Transformer.recomputing]
  dsimp only
  by_cases htoken : tokenId ≥ m.hparams.vocabSize
  · rw [if_pos htoken]
    exact hfails _ (fails_pass_of_token ops htoken) _
  rw [if_neg htoken]
  by_cases hfull : cleared.maxSeqLen ≤ pos
  · rw [if_pos hfull]
    exact hfails _ (fails_pass_of_full ops hm htoken (hmax ▸ hfull)) _
  rw [if_neg hfull]
  have hlt : pos < d.maxSeqLen := hmax ▸ UInt32.not_le.mp hfull
  -- the pass is one step of decoding over the rows of the tokens
  have hcaches : (Transformer.stack ops m).Caches m.hparams.nLayers.toNat
      (history.map (Transformer.embed ops m)) (tokenRows ops m history) := fun _ _ => rfl
  have hrows : ∀ l < m.hparams.nLayers.toNat, (tokenRows ops m history l).length = pos.toNat := by
    intro l _
    rw [tokenRows, CausalStack.length_entries, CausalStack.length_run, List.length_map, hpos]
  have hends := meets_pass_decode (U := False) (E := fun _ => False) ops hm htoken hlt hrows _
    hstart
  cases hrun : (pass ops m tokenId pos).runFrom (p.start ops m kvCache logits) with
  | none =>
    rw [hrun] at hends
    cases hends with
    | undefined hfalse => exact hfalse.elim
  | some r =>
    obtain ⟨result, t⟩ := r
    rw [hrun] at hends
    cases hends with
    | error hfalse => exact hfalse.elim
    | ok hknows =>
      obtain ⟨q, hstep, hmodel, hcache⟩ := forwardStep_of_runFrom hm.loaded h.model hkv
        hinside.cache.allocated hrun
      have hlength : (history.map (Transformer.embed ops m)).length = pos.toNat := by
        rw [List.length_map, hpos]
      have hrun' := CausalStack.run_append (x := Transformer.embed ops m tokenId) hcaches
      have hnext := hcaches.decode (x := Transformer.embed ops m tokenId)
      rw [hlength] at hrun' hnext
      have hlogits : t.buffers .logits = Transformer.logits ops m (history ++ [tokenId]) := by
        rw [hknows.known .logits _ rfl, Transformer.logits, Transformer.hidden, List.map_append,
          List.map_singleton, hrun', List.getLastD_concat]
      rw [hstep, ← hlogits]
      refine .ok ⟨?_, q, rfl, ⟨hmodel, ?_⟩, fun c hc l hl => ?_⟩
      · rw [List.length_append, hpos, toNat_add_one hlt]
        rfl
      · rw [hcache]
        exact congrArg some (reset_of_runFrom hsound hreset hrun)
      · cases hcache.symm.trans hc
        have hstored := hknows.stored l (hm.nLayers.symm ▸ hl)
        rw [hnext l hl] at hstored
        simpa [tokenRows] using hstored

variable (tokenizer) in
include hm hsound hclear in
/-- **The model of the adapter** follows the transformer without giving up. -/
theorem languageModel_follows (hmax : kvCache.maxSeqLen = cleared.maxSeqLen) :
    (languageModel ops tokenizer kvCache).Follows
      (Transformer.recomputing ops m tokenizer cleared.maxSeqLen)
      (RemembersAt ops m cleared) (StaysAttached ops m cleared) (fun _ _ => False) where
  tokenizer := rfl
  maxSeqLen := hmax
  keeps _ _ _ h := by
    obtain ⟨-, p, hp, hremembers⟩ := h
    exact ⟨p, hp, hremembers.toAttached⟩
  forward tok pos logits st tokens h := by
    obtain ⟨hpos, p, rfl, hremembers⟩ := h
    exact recomputes_forwardStep hm hsound hclear hremembers hpos tok logits

end Step

end HydroXLForwardPass

namespace Orchestration.HydroXLCpuEngineAdapter

open HydroXLForwardPass (Clear OneHead)

/-! ## Requests -/

/-- A request to the transformer without a cache. -/
def recompute (ops : TensorOps α δ) (m : HydroXLModel α) (tokenizer : HydroXLTokenizer)
    (maxSeqLen : UInt32) (r : Request α) : StreamRun (List UInt32) :=
  runStream ops (some (Transformer.recomputing ops m tokenizer maxSeqLen)) r.cb r.req []

variable {a : HydroXLCpuEngineAdapter α}

/-- A request to an adapter that serves requests. -/
theorem Serves.recomputes (hm : OneHead m d) (hsound : m.Sound) (hclear : Clear ops d cleared)
    (ha : Serves ops tokenizer m cleared a) (r : Request α) :
    ∃ run, a.serve ops r = some run ∧ Serves ops tokenizer m cleared run.state ∧
      run.answer = (recompute ops m tokenizer cleared.maxSeqLen r).answer := by
  obtain ⟨p, kvCache, hready, hmodel, hkv, hreset⟩ := ha.ready_eq hclear.sized.allocated
  have hmax : kvCache.maxSeqLen = cleared.maxSeqLen := by
    rw [← hreset]
    rfl
  -- the pass is attached to the cache, which is cleared for the request
  have hattached : HydroXLForwardPass.Attached ops m cleared p :=
    ⟨hmodel, by rw [hkv, Option.map_some, hreset]⟩
  have hstart : HydroXLForwardPass.RemembersAt ops m cleared 0
      ((HydroXLForwardPass.languageModel ops tokenizer kvCache).resetCache (some p))
      ((Transformer.recomputing ops m tokenizer cleared.maxSeqLen).resetCache []) :=
    ⟨rfl, _, rfl, hattached.resetCache hclear⟩
  -- the cached run follows the one that computes each prefix anew
  have hrun := runStream_follows ops
    (HydroXLForwardPass.languageModel_follows tokenizer hm hsound hclear hmax) "hydroxl_cpu"
    "hydroxl_cpu" false false r.cb r.req hstart
  have hbackend := backend_runStream ops "hydroxl_cpu" false
    (HydroXLForwardPass.languageModel ops tokenizer kvCache) r.cb r.req (some p)
  have hbackend' := backend_runStream ops "hydroxl_cpu" false
    (Transformer.recomputing ops m tokenizer cleared.maxSeqLen) r.cb r.req []
  unfold HydroXLCpuEngineAdapter.serve recompute runStream
  rw [hready, ha.tokenizer]
  dsimp only at hbackend hbackend' ⊢
  generalize Orchestration.runStream ops "hydroxl_cpu" false _ r.cb r.req (some p) = run
    at hrun hbackend ⊢
  generalize Orchestration.runStream ops "hydroxl_cpu" false _ r.cb r.req [] = run'
    at hrun hbackend' ⊢
  cases hrun with
  | gaveUp _ hfalse => exact hfalse.elim
  | same hanswer hstate =>
    obtain ⟨q, hq, hqmodel, hqclears⟩ := hstate
    rw [hq]
    refine ⟨_, rfl, ⟨ha.isReady, rfl, q, rfl, hqmodel, hqclears⟩, ?_⟩
    refine Prod.ext hanswer.returned (Prod.ext ?_ hanswer.delivered)
    exact hanswer.result.eq (hbackend.1.trans hbackend'.1.symm) (hbackend.2.trans hbackend'.2.symm)

/-- **Decoding with a cache.** An adapter has been initialized for a model with one key-value head,
and has answered any requests. The next request is defined, and has the answer of the transformer
that computes every token from all tokens before it. -/
theorem serve_recomputes (threads : Threads) (outcome : AssignOutcome α) (path : Bytes)
    (entry : DirEntry) (a₀ : HydroXLCpuEngineAdapter α)
    (ha : (initializeFrom ops threads outcome path entry a₀).status = .loaded)
    (hmodel : (initializeFrom ops threads outcome path entry a₀).adapter.forwardPass.bind
      (fun p => p.model) = some m)
    (hone : m.hparams.nKvHeads = 1) (hff : m.hparams.nFf.toNat < 2 ^ 32 - 4)
    (earlier : List (Request α)) (r : Request α) :
    ∃ a run,
      (initializeFrom ops threads outcome path entry a₀).adapter.serveAll ops earlier = some a ∧
      a.serve ops r = some run ∧
      run.answer =
        (recompute ops m (loadTokenizer path entry) (maxSeq m.hparams.nCtxMax) r).answer := by
  obtain ⟨content, m₁, kvCache, rfl, hload, halloc, hserves⟩ := serves_of_initializeFrom ha
  obtain ⟨p, hp, hpmodel, -⟩ := hserves.forwardPass
  obtain rfl : m₁ = m := by
    rw [hp, Option.bind_some, hpmodel] at hmodel
    exact Option.some.inj hmodel
  obtain ⟨-, -, -, hdim, hkv⟩ := HydroXLKVCache.allocate_eq_true halloc
  have hsound := HydroXLModel.sound_of_load hload hdim
  obtain ⟨gguf, hp, hequipped⟩ := HydroXLForwardPass.exists_equipped hload halloc
  have hm : OneHead m₁ kvCache.dims := by
    refine ⟨hequipped.suits, hequipped.kvSuit ?_, hff, hone⟩
    rw [← hequipped.content.hparams, Qwen2HParams.kvSize, hone]
    exact (Nat.one_mul _).trans_lt (UInt32.toNat_lt _)
  have hclear : Clear ops kvCache.dims (kvCache.reset ops.zero) := .of_sized hequipped.sized
  have hmax : (kvCache.reset ops.zero).maxSeqLen = maxSeq m₁.hparams.nCtxMax := by
    rw [hkv]
    rfl
  -- the earlier requests leave an adapter that serves requests
  obtain ⟨a, hserved, ha'⟩ : ∃ a, serveAll ops _ earlier = some a ∧
      Serves ops (loadTokenizer path (.file content)) m₁ (kvCache.reset ops.zero) a := by
    refine Buffer.exists_foldlM (Serves ops _ m₁ (kvCache.reset ops.zero))
      (fun r _ b hb => ?_) hserves
    obtain ⟨run, hrun, hserves', -⟩ := hb.recomputes hm hsound hclear r
    exact ⟨run.state, by rw [hrun]; rfl, hserves'⟩
  obtain ⟨run, hrun, -, hanswer⟩ := ha'.recomputes hm hsound hclear r
  rw [hmax] at hanswer
  exact ⟨a, run, hserved, hrun, hanswer⟩

/-- A request to a model with one key-value head, behind a cancelled one. -/
theorem serve_recomputes_after_cancelledRequest : ∃ a run,
    sampleStart.adapter.serveAll rationalOps [cancelledRequest] = some a ∧
    a.serve rationalOps sampleRequest = some run ∧
    run.answer = (recompute rationalOps
      ((sampleStart.adapter.forwardPass.bind fun p => p.model).getD (.fresh rationalOps))
      (loadTokenizer (ofString "a") (.file HydroXLModel.withoutBias))
      (maxSeq ((sampleStart.adapter.forwardPass.bind fun p => p.model).getD
        (.fresh rationalOps)).hparams.nCtxMax) sampleRequest).answer := by
  have hstart : sampleStart.status = .loaded := sampleStart_serves.1
  obtain ⟨hmodel, hone, hff⟩ : (sampleStart.adapter.forwardPass.bind fun p => p.model).isSome ∧
      ((sampleStart.adapter.forwardPass.bind fun p => p.model).getD
        (.fresh rationalOps)).hparams.nKvHeads = 1 ∧
      ((sampleStart.adapter.forwardPass.bind fun p => p.model).getD
        (.fresh rationalOps)).hparams.nFf.toNat < 2 ^ 32 - 4 := by
    decide +kernel
  obtain ⟨m, hm⟩ := Option.isSome_iff_exists.mp hmodel
  rw [hm, Option.getD_some] at hone hff ⊢
  unfold sampleStart at hm hstart ⊢
  exact serve_recomputes {} .granted (ofString "a") _ {} hstart hm hone hff _ _

end Orchestration.HydroXLCpuEngineAdapter

end HeteroAccel
