import HeteroAccel.HydroXL.PassFrame
import HeteroAccel.Orchestration.HydroXLVulkanEngineAdapter
import HeteroAccel.Orchestration.RequestIsolation

/-!
# What a request leaves of an adapter

A request computes in the buffers of an adapter and writes vectors into its cache. It leaves the
flag of readiness, the model, the tokenizer, the device and, up to its content, the cache.

## Main definitions

* `ForwardM.ClearsTo`: what is kept of a cache into which vectors are written.

## Main results

* `runStream_keeps`: what the forward passes keep, a request keeps;
* `HydroXLCpuEngineAdapter.serve_keeps`, `HydroXLVulkanEngineAdapter.serve_keeps`.
-/

namespace HeteroAccel

open Bytes (ofString)
open OneRun

variable {α δ : Type} {ops : TensorOps α δ}

/-! ## A forward pass keeps the cache -/

namespace ForwardM

variable {cleared : HydroXLKVCache α}

/-- A reset of the cache leaves `cleared`. -/
def ClearsTo (ops : TensorOps α δ) (cleared : HydroXLKVCache α) (s : ForwardState α) : Prop :=
  s.kvCache.reset ops.zero = cleared

/-- What a cache is cleared to does not depend on the buffers. -/
theorem ignoresBuffers_clearsTo : IgnoresBuffers (ClearsTo ops cleared) where
  put _ _ _ hs := hs
  report _ _ hs := hs

/-- A write into the cache clears as what was written over. -/
theorem clearsTo_writeKV (layer pos : UInt32) (k v : ForwardBuffer) :
    Keeps (ClearsTo ops cleared) (writeKV layer pos k v) :=
  keeps_writeKV ignoresBuffers_clearsTo fun _ _ _ hwrite hs =>
    (HydroXLKVCache.reset_writeKV hwrite).trans hs

/-- A call of a device does nothing to the cache. -/
theorem clearsTo_deviceOp (kernels : VulkanKernels α) (out : ForwardBuffer) (n : UInt32)
    (text : Bytes) (call : ForwardState α → Option (Option (DeviceCall α))) :
    Keeps (ClearsTo ops cleared) (deviceOp kernels out n text call) :=
  keeps_deviceOp ignoresBuffers_clearsTo (fun _ _ hs => hs) kernels out n text call

end ForwardM

namespace HydroXLForwardPass

open ForwardM

variable {cleared : HydroXLKVCache α}

variable (ops cleared) in
/-- A pass on the CPU keeps what the cache is cleared to. -/
theorem clearsTo_pass (m : HydroXLModel α) (tokenId pos : UInt32) :
    Keeps (ClearsTo ops cleared) (pass ops m tokenId pos) := by
  refine ((keeps_operate ignoresBuffers_clearsTo _ _).orFail _).bind fun _ => ?_
  refine Keeps.bind (Meets.forM fun l _ => ?_) fun _ => ?_
  · unfold layer
    split
    · exact fun _ _ => .undefined trivial
    · refine Keeps.bind ?_ fun _ => ?_
      · refine ((keeps_operate ignoresBuffers_clearsTo _ _).orFail _).bind fun _ => ?_
        refine Keeps.bind ?_ fun _ => ?_
        · refine (keeps_operate ignoresBuffers_clearsTo _ _).bind fun _ => ?_
          refine (keeps_operate ignoresBuffers_clearsTo _ _).bind fun _ => ?_
          refine (keeps_operate ignoresBuffers_clearsTo _ _).bind fun _ => ?_
          refine (keeps_addBias ignoresBuffers_clearsTo _ _ _).bind fun _ => ?_
          refine (keeps_addBias ignoresBuffers_clearsTo _ _ _).bind fun _ => ?_
          refine (keeps_addBias ignoresBuffers_clearsTo _ _ _).bind fun _ => ?_
          exact (keeps_operate₂ ignoresBuffers_clearsTo _ _ _).bind fun _ => keeps_pure _
        · refine ((clearsTo_writeKV _ _ _ _).orFail _).bind fun _ => ?_
          refine ((keeps_operate₂ ignoresBuffers_clearsTo _ _ _).orFail _).bind fun _ => ?_
          exact (keeps_operate ignoresBuffers_clearsTo _ _).bind fun _ =>
            keeps_overwrite ignoresBuffers_clearsTo _ _
      · refine ((keeps_operate ignoresBuffers_clearsTo _ _).orFail _).bind fun _ => ?_
        refine (keeps_operate ignoresBuffers_clearsTo _ _).bind fun _ => ?_
        refine (keeps_operate ignoresBuffers_clearsTo _ _).bind fun _ => ?_
        refine (keeps_overwrite ignoresBuffers_clearsTo _ _).bind fun _ => ?_
        exact (keeps_operate ignoresBuffers_clearsTo _ _).bind fun _ =>
          keeps_overwrite ignoresBuffers_clearsTo _ _
  · refine ((keeps_operate ignoresBuffers_clearsTo _ _).orFail _).bind fun _ => ?_
    exact (keeps_operate ignoresBuffers_clearsTo _ _).bind fun _ => keeps_pure _

end HydroXLForwardPass

namespace Orchestration.HydroXLVulkanEngineAdapter

open ForwardM

variable {cleared : HydroXLKVCache α}

variable (ops cleared) in
/-- A pass with a device keeps what the cache is cleared to. -/
theorem clearsTo_pass (kernels : VulkanKernels α) (m : HydroXLModel α) (tokenId pos : UInt32) :
    Keeps (ClearsTo ops cleared) (pass ops kernels m tokenId pos) := by
  refine ((keeps_operate ignoresBuffers_clearsTo _ _).orFail _).bind fun _ => ?_
  refine Keeps.bind (Meets.forM fun l _ => ?_) fun _ => ?_
  · unfold layer
    split
    · exact fun _ _ => .undefined trivial
    · refine Keeps.bind ?_ fun _ => ?_
      · refine (clearsTo_deviceOp _ _ _ _ _).bind fun _ => ?_
        refine (clearsTo_deviceOp _ _ _ _ _).bind fun _ => ?_
        refine (clearsTo_deviceOp _ _ _ _ _).bind fun _ => ?_
        refine (clearsTo_deviceOp _ _ _ _ _).bind fun _ => ?_
        refine (keeps_addBias ignoresBuffers_clearsTo _ _ _).bind fun _ => ?_
        refine (keeps_addBias ignoresBuffers_clearsTo _ _ _).bind fun _ => ?_
        refine (keeps_addBias ignoresBuffers_clearsTo _ _ _).bind fun _ => ?_
        refine (keeps_operate₂ ignoresBuffers_clearsTo _ _ _).bind fun _ => ?_
        refine ((clearsTo_writeKV _ _ _ _).orFail _).bind fun _ => ?_
        refine ((keeps_operate₂ ignoresBuffers_clearsTo _ _ _).orFail _).bind fun _ => ?_
        exact (clearsTo_deviceOp _ _ _ _ _).bind fun _ => clearsTo_deviceOp _ _ _ _ _
      · refine (clearsTo_deviceOp _ _ _ _ _).bind fun _ => ?_
        refine (clearsTo_deviceOp _ _ _ _ _).bind fun _ => ?_
        refine (clearsTo_deviceOp _ _ _ _ _).bind fun _ => ?_
        refine (clearsTo_deviceOp _ _ _ _ _).bind fun _ => ?_
        exact (clearsTo_deviceOp _ _ _ _ _).bind fun _ => clearsTo_deviceOp _ _ _ _ _
  · exact (clearsTo_deviceOp _ _ _ _ _).bind fun _ => clearsTo_deviceOp _ _ _ _ _

end Orchestration.HydroXLVulkanEngineAdapter

/-! ## What a request leaves -/

namespace Orchestration

section RunStream

variable {σ : Type} (m : LanguageModel σ α) (backendUsed : String) (gpuUsed : Bool)
  (cb : Option StreamCallback) (req : InferenceRequest α) (st : σ)

variable (ops) in
/-- What the forward passes keep, a request keeps. -/
theorem runStream_keeps (I : σ → Prop)
    (h : ∀ tok pos logits st, I st → I (m.forward tok pos logits st).2)
    (hst : I (m.resetCache st)) :
    I (runStream ops backendUsed gpuUsed (some m) cb req st).state := by
  have hself : m.Simulates m fun st st' => st = st' ∧ I st := by
    refine ⟨rfl, rfl, ?_⟩
    rintro tok pos logits st _ ⟨rfl, hst⟩
    exact ⟨rfl, rfl, h tok pos logits st hst⟩
  exact (runStream_rel ops hself backendUsed gpuUsed cb req ⟨rfl, hst⟩).state.2

/-- The text for a request to an adapter that is not ready. -/
def notReady : Bytes := ofString "Engine not ready or not initialized"

/-- It is the text of no other failure. -/
theorem error_runStream_ne :
    (runStream ops backendUsed gpuUsed (some m) cb req st).result.error ≠ notReady := by
  have happend (s : String) (e : Bytes) (hs : (ofString s).head? ≠ notReady.head?)
      (hne : ofString s ≠ []) : ofString s ++ e ≠ notReady := by
    intro heq
    refine hs ?_
    rw [← heq, List.head?_append_of_ne_nil _ hne]
  unfold runStream
  dsimp only
  split
  · exact happend _ _ (by decide) (by decide)
  · generalize decodeLoop ops m cb _ _ _ = r
    obtain ⟨p, ending⟩ := r
    cases ending with
    | finished => exact show ([] : Bytes) ≠ notReady by decide
    | cancelled => exact show ofString "Cancelled" ≠ notReady by decide
    | failed e => exact happend _ _ (by decide) (by decide)

end RunStream

end Orchestration

namespace HydroXLForwardPass

variable (ops) in
/-- What a request finds attached: the model, and the cache behind its reset. -/
def found (p : HydroXLForwardPass α) : Option (HydroXLModel α) × Option (HydroXLKVCache α) :=
  (p.model, p.kvCache.map (HydroXLKVCache.reset ops.zero))

variable {p p' : HydroXLForwardPass α}

/-- A reset keeps what a request will find. -/
theorem found_resetCache : (p.resetCache ops).found ops = p.found ops := by
  obtain ⟨model, kvCache, lastError, buffers⟩ := p
  cases kvCache with
  | none => rfl
  | some c => simp [found, resetCache, HydroXLKVCache.reset]

/-- A call keeps the model and the cache, up to what is in it. -/
theorem found_forward {tok pos : UInt32} {logits logits' : List α} {ok : Bool}
    (h : p.forward ops tok pos logits = some (ok, logits', p')) : p'.found ops = p.found ops := by
  unfold forward at h
  split at h
  next m kvCache hmodel hkv =>
    split_ifs at h
    · cases h
      rfl
    · cases h
      rfl
    · have hends := clearsTo_pass ops _ m tok pos (p.start ops m kvCache logits) rfl
      generalize (pass ops m tok pos).runFrom (p.start ops m kvCache logits) = r at h hends
      unfold found
      rw [hkv]
      cases hends with
      | undefined => cases h
      | ok hcache =>
        cases h
        exact Prod.ext rfl (congrArg some hcache)
      | error hcache =>
        cases h
        exact Prod.ext rfl (congrArg some hcache)
  next =>
    cases h
    rfl

/-- A forward step keeps what the next request will find. -/
theorem found_forwardStep {tok pos : UInt32} {logits : List α}
    (h : (forwardStep ops tok pos logits (some p)).2 = some p') : p'.found ops = p.found ops := by
  unfold forwardStep at h
  rw [Option.bind_some] at h
  cases hcall : p.forward ops tok pos logits with
  | none =>
    rw [hcall] at h
    cases h
  | some result =>
    obtain ⟨ok, logits', p₂⟩ := result
    rw [hcall] at h
    cases ok <;> cases h <;> exact found_forward hcall

end HydroXLForwardPass

namespace Orchestration

variable {r : Request α}

/-- What an adapter that is ready for a request works with. -/
theorem HydroXLCpuEngineAdapter.forwardPass_of_ready {a : HydroXLCpuEngineAdapter α}
    {p : HydroXLForwardPass α} {kvCache : HydroXLKVCache α} (h : a.ready = some (p, kvCache)) :
    a.forwardPass = some p := by
  unfold ready at h
  split_ifs at h
  obtain ⟨p', hp', h⟩ := Option.bind_eq_some_iff.mp h
  split_ifs at h
  obtain ⟨kvCache', -, h⟩ := Option.map_eq_some_iff.mp h
  cases h
  exact hp'

/-- Requests leave the flag, the tokenizer, the model and the cache. -/
theorem HydroXLCpuEngineAdapter.serve_keeps {a : HydroXLCpuEngineAdapter α}
    {run : StreamRun (HydroXLCpuEngineAdapter α)} (h : a.serve ops r = some run) :
    run.state.isReady = a.isReady ∧ run.state.tokenizer = a.tokenizer ∧
      run.state.forwardPass.map (HydroXLForwardPass.found ops) =
        a.forwardPass.map (HydroXLForwardPass.found ops) := by
  unfold serve at h
  cases hready : a.ready with
  | none =>
    rw [hready] at h
    cases h
    exact ⟨rfl, rfl, rfl⟩
  | some attached =>
    obtain ⟨p, kvCache⟩ := attached
    rw [hready] at h
    obtain ⟨q, hq, rfl⟩ := Option.map_eq_some_iff.mp h
    -- every step of the run keeps what the next request finds
    have hkeeps := runStream_keeps ops
      (HydroXLForwardPass.languageModel ops a.tokenizer kvCache) "hydroxl_cpu" false r.cb r.req
      (some p) (fun st => ∀ q ∈ st, q.found ops = p.found ops) ?_ ?_
    · refine ⟨rfl, rfl, ?_⟩
      rw [forwardPass_of_ready hready]
      exact congrArg some (hkeeps q hq)
    · intro tok pos logits st hst q hq
      cases st with
      | none => cases hq
      | some p₁ => exact (HydroXLForwardPass.found_forwardStep hq).trans (hst p₁ rfl)
    · rintro q ⟨⟩
      exact HydroXLForwardPass.found_resetCache

namespace HydroXLVulkanEngineAdapter

variable {a a' : HydroXLVulkanEngineAdapter α}

variable (ops) in
/-- All that a request may not change, the cache behind its reset. -/
structure Keeps (a a' : HydroXLVulkanEngineAdapter α) : Prop where
  isReady : a'.isReady = a.isReady
  vkOps : a'.vkOps = a.vkOps
  model : a'.model = a.model
  tokenizer : a'.tokenizer = a.tokenizer
  kvCache : a'.kvCache.map (HydroXLKVCache.reset ops.zero) =
    a.kvCache.map (HydroXLKVCache.reset ops.zero)

theorem Keeps.refl (a : HydroXLVulkanEngineAdapter α) : Keeps ops a a := ⟨rfl, rfl, rfl, rfl, rfl⟩

/-- Two calls that keep the adapter do so one behind the other. -/
theorem Keeps.trans {a'' : HydroXLVulkanEngineAdapter α} (h : Keeps ops a a')
    (h' : Keeps ops a' a'') : Keeps ops a a'' :=
  ⟨h'.isReady.trans h.isReady, h'.vkOps.trans h.vkOps, h'.model.trans h.model,
    h'.tokenizer.trans h.tokenizer, h'.kvCache.trans h.kvCache⟩

theorem forwardToken_keeps {kernels : VulkanKernels α} {tok pos : UInt32} {logits : List α}
    {result : Except Bytes (List α)}
    (h : a.forwardToken ops kernels tok pos logits = some (result, a')) : Keeps ops a a' := by
  unfold forwardToken at h
  split at h
  next m kvCache hmodel hkv =>
    split_ifs at h
    · cases h
      exact .refl a
    · -- the pass writes buffers and rows, which clearing restores
      have hends := clearsTo_pass ops _ kernels m tok pos
        { kvCache
          buffers := Function.update a.buffers .logits
            (HydroXLModel.resize ops.zero logits m.hparams.vocabSize.toNat) } rfl
      generalize (pass ops kernels m tok pos).runFrom _ = r at h hends
      cases hends with
      | undefined => cases h
      | ok hcache =>
        cases h
        refine ⟨rfl, rfl, rfl, rfl, ?_⟩
        rw [hkv]
        exact congrArg some hcache
      | error hcache =>
        cases h
        refine ⟨rfl, rfl, rfl, rfl, ?_⟩
        rw [hkv]
        exact congrArg some hcache
  next =>
    cases h
    exact .refl a

/-- Requests leave the flag, the device and what has been built. -/
theorem serve_keeps {kernels : UInt32 → VulkanKernels α}
    {run : StreamRun (HydroXLVulkanEngineAdapter α)} (h : a.serve ops kernels r = some run) :
    Keeps ops a run.state := by
  unfold serve at h
  obtain ⟨a', ha', rfl⟩ := Option.map_eq_some_iff.mp h
  dsimp only
  cases hready : a.ready with
  | none =>
    rw [hready] at ha'
    cases ha'
    exact ⟨rfl, rfl, rfl, rfl, rfl⟩
  | some attached =>
    obtain ⟨tokenizer, kvCache⟩ := attached
    rw [hready] at ha'
    refine runStream_keeps ops (languageModel ops kernels tokenizer kvCache)
      "hydroxl_vulkan" true r.cb r.req _ (fun st => ∀ a' ∈ st, Keeps ops a a') ?_ ?_ a' ha'
    · intro tok pos logits st hst a' ha'
      cases st with
      | none => cases ha'
      | some a₁ =>
        dsimp only [languageModel] at ha'
        split at ha'
        next result a₂ hcall =>
          cases ha'
          exact (hst a₁ rfl).trans (forwardToken_keeps hcall)
        next => cases ha'
    · rintro a' ⟨⟩
      refine ⟨rfl, rfl, rfl, rfl, ?_⟩
      cases hkv : a.kvCache with
      | none => simp
      | some c => simp [HydroXLKVCache.reset]

end HydroXLVulkanEngineAdapter

end Orchestration

end HeteroAccel
