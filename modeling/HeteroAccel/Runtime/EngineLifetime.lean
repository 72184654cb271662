import HeteroAccel.Runtime.HeteroRuntime

/-!
# The lifetime of engines

Between `doGenerate`'s release of the runtime's mutex and the call to `execute`, the engine that was
picked should keep its model, with the placement that was decided. A call that decides another
placement for the same path unloads it: the runtime's map and the call share the engine.

## Main definitions

* `EngineKept`: a picked engine holds the model with the placement of the call;
* `Undisturbed`: the steps that do not unload a picked engine;
* `Owned`: the invariant of the runtime's map of engines;
* `engineKept_of_reachable`: in runs of undisturbed steps, picked engines are kept.
-/

namespace HeteroAccel.Runtime

/-- A call that is about to execute has an engine that holds its model. -/
def EngineKept (s : Sys) : Prop :=
  ∀ call ∈ s.calls, ∀ e tcfg, call.phase = .picked e tcfg →
    (s.runtime.objects e).Holds call.modelPath tcfg.nGpuLayers

/-- The engine that a call is about to use. -/
def GenerateCall.Uses (call : GenerateCall) (e : ℕ) : Prop :=
  match call.phase with
  | .picked e' _ => e' = e
  | _ => False

/-- Another placement than the loaded one is decided for a path only when no call is about to use
its engine. -/
def Sys.Undisturbed (s : Sys) (modelPath : String) (tcfg : TuningConfig) : Prop :=
  ∀ e ∈ s.runtime.engines.lookup modelPath, s.runtime.loadedLayers modelPath ≠ tcfg.nGpuLayers →
    ∀ call ∈ s.calls, ¬ call.Uses e

/-- The guard of a step: no other call uses the engine that it would load anew or unload. -/
def Undisturbed (s : Sys) (a : Act) : Prop :=
  match a with
  | .select c tcfg _ => ∀ call ∈ s.calls[c]?, s.Undisturbed call.modelPath tcfg
  | .loadModel modelPath tcfg _ _ => s.Undisturbed modelPath tcfg
  | _ => True

/-- The engines of a runtime. -/
structure HeteroRuntime.Owned (rt : HeteroRuntime) : Prop where
  /-- A loaded engine holds its model with the placement on record. -/
  holds : ∀ path e, rt.engines.lookup path = some e →
    (rt.objects e).Holds path (rt.loadedLayers path)
  /-- New engines are new objects. -/
  fresh : ∀ path e, rt.engines.lookup path = some e → e < rt.nextObject

namespace HeteroRuntime

variable {rt rt' : HeteroRuntime} {modelPath : String} {tcfg : TuningConfig} {nCtx : Int}
  {outcome : Option LoadOutcome}

/-- Two paths do not share an engine, since an engine holds one model. -/
theorem Owned.injective (h : rt.Owned) {p p' : String} {e : ℕ} (hp : rt.engines.lookup p = some e)
    (hp' : rt.engines.lookup p' = some e) : p = p' :=
  (h.holds p e hp).2.2.1.symm.trans (h.holds p' e hp').2.2.1

/-- A change to the engines by which those in use keep their models. -/
structure Keeps (Used : ℕ → Prop) (rt rt' : HeteroRuntime) : Prop where
  owned : rt'.Owned
  grows : rt.nextObject ≤ rt'.nextObject
  objects : ∀ e < rt.nextObject, Used e → ∀ path nGpuLayers,
    (rt.objects e).Holds path nGpuLayers → (rt'.objects e).Holds path nGpuLayers

variable {Used : ℕ → Prop}

theorem Keeps.refl (h : rt.Owned) : Keeps Used rt rt := ⟨h, Nat.le.refl, fun _ _ _ _ _ => id⟩

theorem Keeps.trans {rt'' : HeteroRuntime} (h : Keeps Used rt rt') (h' : Keeps Used rt' rt'') :
    Keeps Used rt rt'' :=
  ⟨h'.owned, h.grows.trans h'.grows, fun e he hused path nGpuLayers hholds =>
    h'.objects e (Nat.lt_of_lt_of_le he h.grows) hused _ _
      (h.objects e he hused path nGpuLayers hholds)⟩

/-- The engine that is still loaded after `dropStale` has the placement. -/
theorem loadedLayers_dropStale {e : ℕ}
    (h : (rt.dropStale modelPath tcfg).engines.lookup modelPath = some e) :
    (rt.dropStale modelPath tcfg).loadedLayers modelPath = tcfg.nGpuLayers := by
  rcases dropStale_cases rt modelPath tcfg with ⟨hnone, hdrop⟩ | ⟨e, -, hlayers, hdrop⟩ |
    ⟨e, -, -, hdrop⟩
  · rw [hdrop, hnone] at h
    cases h
  · rw [hdrop]
    exact hlayers
  · rw [hdrop] at h
    rw [show AList.lookup modelPath (rt.engines.erase modelPath) =
      none from AList.lookup_erase _ _] at h
    cases h

/-- `dropStale` unloads no other engine than the stale one. -/
theorem Owned.dropStale (h : rt.Owned)
    (hused : ∀ e ∈ rt.engines.lookup modelPath, rt.loadedLayers modelPath ≠ tcfg.nGpuLayers →
      ¬ Used e) : Keeps Used rt (rt.dropStale modelPath tcfg) := by
  rcases dropStale_cases rt modelPath tcfg with ⟨-, hdrop⟩ | ⟨e, -, -, hdrop⟩ |
    ⟨e, hlookup, hne, hdrop⟩
  · rw [hdrop]
    exact .refl h
  · rw [hdrop]
    exact .refl h
  · rw [hdrop]
    have hstale : ¬ Used e := hused e hlookup hne
    -- what is loaded for another path is another engine
    have hother : ∀ path e', (rt.engines.erase modelPath).lookup path = some e' →
        path ≠ modelPath ∧ e' ≠ e ∧ rt.engines.lookup path = some e' := by
      intro path e' hpath
      rw [KeyedMap.lookup_erase_eq_ite] at hpath
      split at hpath
      next => cases hpath
      next hpath_ne =>
        refine ⟨hpath_ne, ?_, hpath⟩
        rintro rfl
        exact hpath_ne (h.injective hpath hlookup)
    refine ⟨⟨?_, ?_⟩, Nat.le.refl, ?_⟩
    · intro path e' hpath
      obtain ⟨hpath_ne, hne', hold⟩ := hother path e' hpath
      dsimp only [loadedLayers]
      rw [Function.update_of_ne hne', AList.lookup_erase_ne hpath_ne]
      exact h.holds path e' hold
    · intro path e' hpath
      exact h.fresh path e' (hother path e' hpath).2.2
    · intro e' _ hused' path nGpuLayers hholds
      have hne' : e' ≠ e := by
        rintro rfl
        exact hstale hused'
      dsimp only
      rw [Function.update_of_ne hne']
      exact hholds

/-- A new engine. -/
theorem Owned.addEngine (h : rt.Owned) (Used : ℕ → Prop)
    (hadd : rt.addEngine modelPath tcfg nCtx outcome = .ok rt') :
    Keeps Used rt rt' ∧ rt'.engines.lookup modelPath = some rt.nextObject ∧
      rt'.loadedLayers modelPath = tcfg.nGpuLayers := by
  obtain ⟨engine, hholds, rfl⟩ := addEngine_ok hadd
  refine ⟨⟨⟨?_, ?_⟩, Nat.le_succ _, ?_⟩, AList.lookup_insert _, ?_⟩
  · -- the entry of the new engine, then the others
    intro path e hpath
    dsimp only [loadedLayers] at hpath ⊢
    rw [KeyedMap.lookup_insert_eq_ite] at hpath
    rw [KeyedMap.lookup_insert_eq_ite]
    split at hpath
    next heq =>
      cases hpath
      rw [Function.update_self, if_pos heq, heq]
      exact hholds
    next hne =>
      rw [Function.update_of_ne (h.fresh path e hpath).ne, if_neg hne]
      exact h.holds path e hpath
  · intro path e hpath
    dsimp only at hpath
    rw [KeyedMap.lookup_insert_eq_ite] at hpath
    split at hpath
    next =>
      cases hpath
      exact Nat.lt_succ_self _
    next => exact Nat.lt_succ_of_lt (h.fresh path e hpath)
  · intro e he _ path nGpuLayers hholds
    dsimp only
    rw [Function.update_of_ne he.ne]
    exact hholds
  · dsimp only [loadedLayers]
    rw [AList.lookup_insert]
    rfl

/-- The engine that is picked holds the model. -/
theorem Owned.selectEngine (h : rt.Owned) (nCtx : Int) (outcome : Option LoadOutcome)
    (hused : ∀ e ∈ rt.engines.lookup modelPath, rt.loadedLayers modelPath ≠ tcfg.nGpuLayers →
      ¬ Used e) :
    Keeps Used rt (rt.selectEngine modelPath tcfg nCtx outcome).2 ∧
      ∀ e, (rt.selectEngine modelPath tcfg nCtx outcome).1 = .ok e →
        ((rt.selectEngine modelPath tcfg nCtx outcome).2.objects e).Holds modelPath
          tcfg.nGpuLayers ∧
          e < (rt.selectEngine modelPath tcfg nCtx outcome).2.nextObject := by
  -- the stale engine goes first, then one is found or loaded
  have hdrop := h.dropStale hused
  unfold HeteroRuntime.selectEngine
  dsimp only
  split
  next e hlookup =>
    refine ⟨hdrop, fun e' heq => ?_⟩
    cases heq
    have hholds := hdrop.owned.holds _ _ hlookup
    rw [loadedLayers_dropStale hlookup] at hholds
    exact ⟨hholds, hdrop.owned.fresh _ _ hlookup⟩
  next =>
    split
    next hadd =>
      obtain ⟨hkeeps, hlookup, hlayers⟩ := hdrop.owned.addEngine Used hadd
      refine ⟨hdrop.trans hkeeps, fun e heq => ?_⟩
      cases heq
      have hholds := hkeeps.owned.holds _ _ hlookup
      rw [hlayers] at hholds
      exact ⟨hholds, hkeeps.owned.fresh _ _ hlookup⟩
    next => exact ⟨hdrop, fun e heq => by cases heq⟩
    next => exact ⟨hdrop, fun e heq => by cases heq⟩

theorem Owned.loadModel (h : rt.Owned)
    (hused : ∀ e ∈ rt.engines.lookup modelPath, rt.loadedLayers modelPath ≠ tcfg.nGpuLayers →
      ¬ Used e) : Keeps Used rt (rt.loadModel modelPath tcfg nCtx outcome).2 := by
  have hdrop := h.dropStale hused
  unfold HeteroRuntime.loadModel
  dsimp only
  split
  next => exact .refl h
  next =>
    split
    next => exact hdrop
    next =>
      split
      next hadd => exact hdrop.trans (hdrop.owned.addEngine Used hadd).1
      next => exact ⟨⟨hdrop.owned.holds, hdrop.owned.fresh⟩, hdrop.grows, hdrop.objects⟩
      next => exact ⟨⟨hdrop.owned.holds, hdrop.owned.fresh⟩, hdrop.grows, hdrop.objects⟩

/-- An execution leaves the models loaded. -/
theorem Owned.execute (h : rt.Owned) (e : ℕ) (outcome : ExecutionResult) :
    Keeps Used rt { rt with
      objects := Function.update rt.objects e ((rt.objects e).execute outcome).2 } := by
  have hholds : ∀ e' path nGpuLayers, (rt.objects e').Holds path nGpuLayers →
      (Function.update rt.objects e ((rt.objects e).execute outcome).2 e').Holds path
        nGpuLayers := by
    intro e' path nGpuLayers hholds
    by_cases heq : e' = e
    · rw [heq] at hholds ⊢
      rw [Function.update_self]
      exact (LlamaCppExecutionEngine.holds_execute outcome path nGpuLayers).mpr hholds
    · rw [Function.update_of_ne heq]
      exact hholds
  exact ⟨⟨fun path e' hpath => hholds e' _ _ (h.holds path e' hpath), h.fresh⟩, Nat.le.refl,
    fun e' _ _ => hholds e'⟩

/-- A change that is not one to the engines. -/
theorem Keeps.of_eq (h : rt.Owned) (hengines : rt'.engines = rt.engines)
    (hconfigs : rt'.loadedConfigs = rt.loadedConfigs) (hobjects : rt'.objects = rt.objects)
    (hnext : rt'.nextObject = rt.nextObject) : Keeps Used rt rt' := by
  obtain ⟨_, _, _, _, _, _, _⟩ := rt'
  cases hengines
  cases hconfigs
  cases hobjects
  cases hnext
  exact ⟨⟨h.holds, h.fresh⟩, Nat.le.refl, fun _ _ _ _ _ => id⟩

theorem publish_eq (rt : HeteroRuntime) (workloadId : ℕ) (res : ExecutionResult) :
    ∃ workloadRegistry, rt.publish workloadId res = { rt with workloadRegistry } := by
  unfold publish
  split
  next => exact ⟨_, rfl⟩
  next =>
    split
    next => exact ⟨_, rfl⟩
    next =>
      split
      next => exact ⟨_, rfl⟩
      next => exact ⟨_, rfl⟩

end HeteroRuntime

/-! ## Runs -/

open HeteroRuntime

variable {s s' : Sys} {a : Act}

/-- The engines of the runtime and of the calls. -/
structure EnginesKept (s : Sys) : Prop where
  owned : s.runtime.Owned
  picked : ∀ call ∈ s.calls, ∀ e tcfg, call.phase = .picked e tcfg →
    e < s.runtime.nextObject ∧ (s.runtime.objects e).Holds call.modelPath tcfg.nGpuLayers

/-- The engines that calls are about to use. -/
def Sys.InUse (s : Sys) (e : ℕ) : Prop := ∃ call ∈ s.calls, call.Uses e

/-- A step that keeps the engines in use, after which the calls are old ones or have an engine. -/
theorem EnginesKept.of_keeps (h : EnginesKept s) (hkeeps : Keeps s.InUse s.runtime s'.runtime)
    (hcalls : ∀ call ∈ s'.calls, call ∈ s.calls ∨ ∀ e tcfg, call.phase = .picked e tcfg →
      e < s'.runtime.nextObject ∧ (s'.runtime.objects e).Holds call.modelPath tcfg.nGpuLayers) :
    EnginesKept s' := by
  refine ⟨hkeeps.owned, fun call hcall e tcfg hphase => ?_⟩
  rcases hcalls call hcall with hold | hnew
  · obtain ⟨hlt, hholds⟩ := h.picked call hold e tcfg hphase
    have hused : s.InUse e := ⟨call, hold, by rw [GenerateCall.Uses, hphase]⟩
    exact ⟨Nat.lt_of_lt_of_le hlt hkeeps.grows, hkeeps.objects e hlt hused _ _ hholds⟩
  · exact hnew e tcfg hphase

/-- A step of one call. -/
theorem EnginesKept.entered (h : EnginesKept s)
    (hkeeps : Keeps s.InUse s.runtime s'.runtime) {c : ℕ}
    {call : GenerateCall} (hcalls : s'.calls = s.calls.set c call)
    (hnew : ∀ e tcfg, call.phase = .picked e tcfg →
      e < s'.runtime.nextObject ∧ (s'.runtime.objects e).Holds call.modelPath tcfg.nGpuLayers) :
    EnginesKept s' := by
  refine h.of_keeps hkeeps fun call' hcall' => ?_
  rw [hcalls] at hcall'
  rcases List.mem_or_eq_of_mem_set hcall' with hold | rfl
  · exact .inl hold
  · exact .inr hnew

theorem EnginesKept.callStep (h : EnginesKept s) (ha : Undisturbed s a) {c : ℕ}
    {call : GenerateCall}
    (hcaller : a.caller = some c) (hc : s.calls[c]? = some call)
    (hstep : s.callStep a c call = some s') : EnginesKept s' := by
  have hsame : Keeps s.InUse s.runtime s.runtime := .refl h.owned
  cases Sys.callStep_cases hcaller hstep with
  | setRunning =>
    have hkeeps : Keeps s.InUse s.runtime { s.runtime with
        workloadRegistry := if call.workloadId ≠ 0 then
          s.runtime.workloadRegistry.setRunning call.workloadId
        else s.runtime.workloadRegistry } := .of_eq h.owned rfl rfl rfl rfl
    exact h.entered hkeeps rfl fun e tcfg hphase => by cases hphase
  | @selected tcfg outcome =>
    -- the engine that is picked, while those of other calls are kept
    have hunused : ∀ e ∈ s.runtime.engines.lookup call.modelPath,
        s.runtime.loadedLayers call.modelPath ≠ tcfg.nGpuLayers → ¬ s.InUse e := by
      rintro e hlookup hne ⟨call', hcall', huses⟩
      exact ha call hc e hlookup hne call' hcall' huses
    obtain ⟨hkeeps, hholds⟩ := h.owned.selectEngine call.nCtx outcome hunused
    refine h.entered hkeeps rfl fun e tcfg' hphase => ?_
    dsimp only at hphase ⊢
    split at hphase
    next engine hengine =>
      cases hphase
      exact (hholds e hengine).symm
    next => cases hphase
  | @executed outcome e =>
    exact h.entered (h.owned.execute e outcome) rfl fun e' tcfg' hphase => by cases hphase
  | @published res =>
    obtain ⟨workloadRegistry, hpublish⟩ := publish_eq s.runtime call.workloadId res
    have hkeeps : Keeps s.InUse s.runtime (s.runtime.publish call.workloadId res) := by
      rw [hpublish]
      exact .of_eq h.owned rfl rfl rfl rfl
    exact h.entered hkeeps rfl fun e tcfg hphase => by cases hphase
  | _ => exact h.entered hsame rfl fun e tcfg hphase => by cases hphase

/-- Undisturbed steps keep the engines. -/
theorem EnginesKept.step (h : EnginesKept s) (ha : Undisturbed s a) (hstep : s.step a = some s') :
    EnginesKept s' := by
  have hsame : ∀ {rt' : HeteroRuntime} (workloadRegistry : WorkloadRegistry),
      rt' = { s.runtime with workloadRegistry } → Keeps s.InUse s.runtime rt' := by
    rintro _ workloadRegistry rfl
    exact .of_eq h.owned rfl rfl rfl rfl
  rcases Sys.step_cases hstep with ⟨modelPath, prompt, nCtx, rfl, rfl⟩ |
    ⟨modelPath, prompt, nCtx, priority, wclass, rfl, rfl⟩ |
    ⟨modelPath, tcfg, nCtx, outcome, rfl, -, rfl⟩ | ⟨id, rfl, rfl⟩ | ⟨c, call, hcaller, hc, hcall⟩
  · refine h.of_keeps (.refl h.owned) fun call hcall => ?_
    rcases List.mem_append.mp hcall with hold | hnew
    · exact .inl hold
    · rw [List.mem_singleton.mp hnew]
      exact .inr fun e tcfg hphase => by cases hphase
  · refine h.of_keeps (hsame _ rfl) fun call hcall => ?_
    rcases List.mem_append.mp hcall with hold | hnew
    · exact .inl hold
    · rw [List.mem_singleton.mp hnew]
      exact .inr fun e tcfg hphase => by cases hphase
  · refine h.of_keeps (h.owned.loadModel ?_) fun call hcall => .inl hcall
    rintro e hlookup hne ⟨call, hcall, huses⟩
    exact ha e hlookup hne call hcall huses
  · exact h.of_keeps (hsame _ rfl) fun call hcall => .inl hcall
  · exact h.callStep ha hcaller hc hcall

/-- **Engines are kept.** In runs of undisturbed steps, a call that is about to execute has an
engine that holds its model, with the placement that was decided. -/
theorem engineKept_of_reachable (h : system.Reachable Undisturbed s) : EngineKept s := by
  have hkept : EnginesKept s := by
    refine h.invariant (P := EnginesKept) ?_ fun s a s' hs ha hstep => hs.step ha hstep
    rintro s rfl
    refine ⟨⟨?_, ?_⟩, ?_⟩
    · intro path e hpath
      cases hpath
    · intro path e hpath
      cases hpath
    · intro call hcall
      cases hcall
  exact fun call hcall e tcfg hphase => (hkept.picked call hcall e tcfg hphase).2

/-! ### Sample runs -/

instance (call : GenerateCall) (e : ℕ) : Decidable (call.Uses e) := by
  unfold GenerateCall.Uses
  split <;> infer_instance

instance (s : Sys) (modelPath : String) (tcfg : TuningConfig) :
    Decidable (s.Undisturbed modelPath tcfg) := by
  unfold Sys.Undisturbed
  infer_instance

instance (s : Sys) (a : Act) : Decidable (Undisturbed s a) := by
  unfold Undisturbed
  split <;> infer_instance

/-- Two calls that share an engine. -/
def sharedActs : List Act :=
  [.generate "model.gguf" "prompt" 2048, .generate "model.gguf" "prompt" 2048, .lock 0,
    .setRunning 0, .select 0 { nGpuLayers := 20 } (some {}), .lock 1, .setRunning 1,
    .select 1 { nGpuLayers := 20 } none]

theorem engineKept_sharedActs :
    (sampleRun sharedActs).calls.map GenerateCall.phase =
        [.picked 0 { nGpuLayers := 20 }, .picked 0 { nGpuLayers := 20 }] ∧
      EngineKept (sampleRun sharedActs) :=
  ⟨by decide +kernel, engineKept_of_reachable (reachable_sampleRun (by decide +kernel))⟩

/-- The second call decides to use the CPU. -/
def replacedActs : List Act :=
  [.generate "model.gguf" "prompt" 2048, .generate "model.gguf" "prompt" 2048, .lock 0,
    .setRunning 0, .select 0 { nGpuLayers := 20 } (some {}), .lock 1, .setRunning 1,
    .select 1 { nGpuLayers := 0 } (some {})]

/-- The first call has lost its model. -/
theorem not_engineKept_replacedActs :
    ¬∀ s : Sys, system.Reachable TransitionSystem.anyCall s → EngineKept s := by
  intro hall
  have hkept := hall (sampleRun replacedActs) (reachable_sampleRun (by decide +kernel))
  have hcalls : (sampleRun replacedActs).calls =
      [{ modelPath := "model.gguf"
         prompt := "prompt"
         phase := .picked 0 { nGpuLayers := 20 } },
       { modelPath := "model.gguf"
         prompt := "prompt"
         phase := .picked 1 { nGpuLayers := 0 } }] := by decide +kernel
  have hholds := hkept _ (hcalls ▸ List.mem_cons_self) 0 _ rfl
  have hloaded : ((sampleRun replacedActs).runtime.objects 0).modelLoaded = false := by
    decide +kernel
  exact absurd (hloaded.symm.trans hholds.2.1) Bool.false_ne_true

end HeteroAccel.Runtime
