import HeteroAccel.Lib.Transition
import HeteroAccel.Runtime.LlamaCppExecutionEngine
import HeteroAccel.Runtime.WorkloadRegistry
import Mathlib.Logic.Function.Basic

/-!
# The runtime and its calls

`HeteroRuntime` of `HeteroRuntime.cpp`: the loaded engines, and any number of calls to `generate`,
`generateStreaming`, `generateWorkload` and `loadModel` that run at the same time. A step is what a
call does in one critical section of the runtime's, the registry's or an engine's mutex; within the
runtime's own section, `cancelWorkload` may come between two accesses to the registry.

What the policy decides is an argument of the step that uses it, as are the answers of the file
system and of the backend. Telemetry, the profiler and the tuner's records are left out.
-/

namespace HeteroAccel.Runtime

/-- The configuration of an engine; an engine is loaded anew when it changes. -/
structure TuningConfig where
  nGpuLayers : Int := 99
  nThreads : Int := 4
  deriving DecidableEq, Repr

/-- The runtime. Engine objects are shared, so that they are kept by address. -/
structure HeteroRuntime where
  initialized : Bool := false
  engines : KeyedMap String ℕ := ∅
  loadedConfigs : KeyedMap String TuningConfig := ∅
  workloadRegistry : WorkloadRegistry := {}
  lastError : String := ""
  objects : ℕ → LlamaCppExecutionEngine := fun _ => {}
  nextObject : ℕ := 0

/-- Why there is no new engine. -/
inductive EngineFailure where
  | notCreated
  | notLoaded (error : String)

namespace HeteroRuntime

variable (rt : HeteroRuntime)

/-- The layer count of the engine that is loaded for a path. -/
def loadedLayers (modelPath : String) : Int :=
  ((rt.loadedConfigs.lookup modelPath).getD {}).nGpuLayers

/-- Unloading the engine of a path when it has another placement. -/
def dropStale (modelPath : String) (tcfg : TuningConfig) : HeteroRuntime :=
  match rt.engines.lookup modelPath with
  | none => rt
  | some e =>
    if rt.loadedLayers modelPath ≠ tcfg.nGpuLayers then
      { rt with
        objects := Function.update rt.objects e (rt.objects e).unloadModel
        engines := rt.engines.erase modelPath
        loadedConfigs := rt.loadedConfigs.erase modelPath }
    else rt

/-- The descriptor that the runtime builds. -/
def descriptorOf (modelPath : String) (tcfg : TuningConfig) (nCtx : Int) : ModelDescriptor where
  modelId := modelPath
  sourcePath := modelPath
  nGpuLayers := tcfg.nGpuLayers
  cpuOnly := decide (tcfg.nGpuLayers = 0)
  nCtx

/-- Creating and loading an engine; `outcome` is `none` when the engine registry has none. -/
def addEngine (modelPath : String) (tcfg : TuningConfig) (nCtx : Int)
    (outcome : Option LoadOutcome) : Except EngineFailure HeteroRuntime :=
  match outcome with
  | none => .error .notCreated
  | some outcome =>
    let (loaded, engine) := LlamaCppExecutionEngine.initializeEngine {} |>.loadModel
      (descriptorOf modelPath tcfg nCtx) outcome
    if loaded then
      .ok { rt with
        objects := Function.update rt.objects rt.nextObject engine
        nextObject := rt.nextObject + 1
        engines := rt.engines.insert modelPath rt.nextObject
        loadedConfigs := rt.loadedConfigs.insert modelPath tcfg }
    else .error (.notLoaded engine.lastError)

/-- `loadModel`, with the configuration that `resolveAndApplyConfig` returns. -/
def loadModel (modelPath : String) (tcfg : TuningConfig) (nCtx : Int)
    (outcome : Option LoadOutcome) : Bool × HeteroRuntime :=
  if !rt.initialized then (false, rt)
  else
    let rt := rt.dropStale modelPath tcfg
    match rt.engines.lookup modelPath with
    | some _ => (true, rt)
    | none =>
      match rt.addEngine modelPath tcfg nCtx outcome with
      | .ok rt => (true, rt)
      | .error .notCreated =>
        (false, { rt with lastError :=
          "Failed to create llama.cpp execution engine from registry" })
      | .error (.notLoaded error) =>
        (false, { rt with lastError := "Failed to load model: " ++ error })

/-- How `doGenerate` picks its engine. -/
def selectEngine (modelPath : String) (tcfg : TuningConfig) (nCtx : Int)
    (outcome : Option LoadOutcome) : Except String ℕ × HeteroRuntime :=
  let rt := rt.dropStale modelPath tcfg
  match rt.engines.lookup modelPath with
  | some engine => (.ok engine, rt)
  | none =>
    match rt.addEngine modelPath tcfg nCtx outcome with
    | .ok rt' => (.ok rt.nextObject, rt')
    | .error .notCreated => (.error "Failed to create execution engine from registry", rt)
    | .error (.notLoaded error) => (.error ("Failed to load model: " ++ error), rt)

/-- The errors of an execution that has seen its cancellation flag. -/
def cancelErrors : List String := ["Generation cancelled", "Cancelled before evaluation"]

/-- What `doGenerate` tells the registry of a result. -/
def publish (workloadId : ℕ) (res : ExecutionResult) : HeteroRuntime :=
  if workloadId = 0 then rt
  else if res.success then
    { rt with workloadRegistry := rt.workloadRegistry.setCompleted workloadId }
  else if res.error ∈ cancelErrors then rt
  else { rt with workloadRegistry := rt.workloadRegistry.setFailed workloadId res.error }

/-! ### Picking an engine -/

variable {rt} {modelPath : String} {tcfg : TuningConfig} {nCtx : Int}
  {outcome : Option LoadOutcome}

/-- An engine is dropped exactly when it has another placement. -/
theorem dropStale_cases (rt : HeteroRuntime) (modelPath : String) (tcfg : TuningConfig) :
    (rt.engines.lookup modelPath = none ∧ rt.dropStale modelPath tcfg = rt) ∨
    (∃ e, rt.engines.lookup modelPath = some e ∧ rt.loadedLayers modelPath = tcfg.nGpuLayers ∧
      rt.dropStale modelPath tcfg = rt) ∨
    (∃ e, rt.engines.lookup modelPath = some e ∧ rt.loadedLayers modelPath ≠ tcfg.nGpuLayers ∧
      rt.dropStale modelPath tcfg = { rt with
        objects := Function.update rt.objects e (rt.objects e).unloadModel
        engines := rt.engines.erase modelPath
        loadedConfigs := rt.loadedConfigs.erase modelPath }) := by
  unfold dropStale
  split
  next hlookup => exact .inl ⟨hlookup, rfl⟩
  next e hlookup =>
    split
    next hne => exact .inr (.inr ⟨e, hlookup, hne, rfl⟩)
    next heq => exact .inr (.inl ⟨e, hlookup, Decidable.not_not.mp heq, rfl⟩)

/-- A new engine is a new object that holds the model. -/
theorem addEngine_ok {rt' : HeteroRuntime}
    (h : rt.addEngine modelPath tcfg nCtx outcome = .ok rt') :
    ∃ engine : LlamaCppExecutionEngine, engine.Holds modelPath tcfg.nGpuLayers ∧
      rt' = { rt with
        objects := Function.update rt.objects rt.nextObject engine
        nextObject := rt.nextObject + 1
        engines := rt.engines.insert modelPath rt.nextObject
        loadedConfigs := rt.loadedConfigs.insert modelPath tcfg } := by
  unfold addEngine at h
  split at h
  next => cases h
  next o =>
    rcases (LlamaCppExecutionEngine.initializeEngine {}).loadModel_cases
      (descriptorOf modelPath tcfg nCtx) o with hfails | ⟨hloads, hinit⟩
    · generalize LlamaCppExecutionEngine.loadModel _ _ _ = result at h hfails
      obtain ⟨_, engine⟩ := result
      cases hfails
      cases h
    · rw [hloads] at h
      dsimp only at h
      rw [if_pos rfl] at h
      cases h
      refine ⟨_, ?_, rfl⟩
      exact ⟨hinit, rfl, rfl, rfl, rfl⟩

/-- A model that can be loaded is loaded. -/
theorem addEngine_of_loads (rt : HeteroRuntime) (tcfg : TuningConfig) (nCtx : Int)
    (hpath : modelPath ≠ "")
    (h : ∃ o ∈ outcome, o.fileExists ∧ o.modelLoads ∧ o.contextCreated) :
    ∃ rt', rt.addEngine modelPath tcfg nCtx outcome = .ok rt' := by
  obtain ⟨o, rfl, hfile, hmodel, hcontext⟩ := h
  simp [addEngine, LlamaCppExecutionEngine.loadModel, LlamaCppExecutionEngine.initializeEngine,
    descriptorOf, hpath, hfile, hmodel, hcontext]

/-- To unload a stale engine leaves the workloads. -/
theorem registry_dropStale (rt : HeteroRuntime) (modelPath : String) (tcfg : TuningConfig) :
    (rt.dropStale modelPath tcfg).workloadRegistry = rt.workloadRegistry ∧
      (rt.dropStale modelPath tcfg).initialized = rt.initialized := by
  rcases dropStale_cases rt modelPath tcfg with ⟨-, h⟩ | ⟨e, -, -, h⟩ | ⟨e, -, -, h⟩ <;>
    rw [h] <;> exact ⟨rfl, rfl⟩

/-- Picking an engine leaves the workloads as they are. -/
theorem registry_selectEngine (rt : HeteroRuntime) (modelPath : String) (tcfg : TuningConfig)
    (nCtx : Int) (outcome : Option LoadOutcome) :
    (rt.selectEngine modelPath tcfg nCtx outcome).2.workloadRegistry = rt.workloadRegistry ∧
      (rt.selectEngine modelPath tcfg nCtx outcome).2.initialized = rt.initialized := by
  have hdrop := registry_dropStale rt modelPath tcfg
  unfold selectEngine
  dsimp only
  split
  next => exact hdrop
  next =>
    split
    next hadd =>
      obtain ⟨engine, -, rfl⟩ := addEngine_ok hadd
      exact hdrop
    next => exact hdrop
    next => exact hdrop

/-- So does loading a model. -/
theorem registry_loadModel (rt : HeteroRuntime) (modelPath : String) (tcfg : TuningConfig)
    (nCtx : Int) (outcome : Option LoadOutcome) :
    (rt.loadModel modelPath tcfg nCtx outcome).2.workloadRegistry = rt.workloadRegistry ∧
      (rt.loadModel modelPath tcfg nCtx outcome).2.initialized = rt.initialized := by
  have hdrop := registry_dropStale rt modelPath tcfg
  unfold loadModel
  dsimp only
  split
  next => exact ⟨rfl, rfl⟩
  next =>
    split
    next => exact hdrop
    next =>
      split
      next hadd =>
        obtain ⟨engine, -, rfl⟩ := addEngine_ok hadd
        exact hdrop
      next => exact hdrop
      next => exact hdrop

end HeteroRuntime

/-! ## Calls -/

/-- How far a call of `doGenerate` has come. -/
inductive Phase where
  /-- Before the runtime's mutex is taken. -/
  | started
  /-- Holding the mutex, behind the check of the cancellation flag. -/
  | checked
  /-- Holding the mutex, behind `setRunning`. -/
  | running
  /-- The mutex is released, and `execute` not yet called. -/
  | picked (engine : ℕ) (tcfg : TuningConfig)
  /-- Before the result is published. -/
  | executed (res : ExecutionResult)
  | returning (res : ExecutionResult)
  | returned (res : ExecutionResult)
  deriving DecidableEq

/-- A call of `doGenerate`; the workload id is 0 when there is no workload. -/
structure GenerateCall where
  modelPath : String
  prompt : String
  nCtx : Int := 2048
  workloadId : ℕ := 0
  phase : Phase := .started
  deriving DecidableEq

/-- The runtime, the call that holds its mutex across steps, and all calls. -/
structure Sys where
  runtime : HeteroRuntime := {}
  holder : Option ℕ := none
  calls : List GenerateCall := []

/-- What may happen next: a call comes in, or one in progress makes a step. -/
inductive Act where
  /-- `generate` or `generateStreaming` is called. -/
  | generate (modelPath prompt : String) (nCtx : Int)
  /-- `generateWorkload` registers a workload and calls `doGenerate`. -/
  | generateWorkload (modelPath prompt : String) (nCtx : Int) (priority : WorkloadPriority)
    (wclass : WorkloadClass)
  /-- A call takes the mutex and makes its checks. -/
  | lock (c : ℕ)
  /-- `setRunning`, if there is a workload. -/
  | setRunning (c : ℕ)
  /-- The call picks its engine and releases the mutex. -/
  | select (c : ℕ) (tcfg : TuningConfig) (outcome : Option LoadOutcome)
  /-- `execute` or `executeStreaming` of the engine. -/
  | execute (c : ℕ) (outcome : ExecutionResult)
  /-- The call publishes its result, holding the mutex again. -/
  | publish (c : ℕ)
  | leave (c : ℕ)
  /-- A whole call of `loadModel`, which holds the mutex throughout. -/
  | loadModel (modelPath : String) (tcfg : TuningConfig) (nCtx : Int) (outcome : Option LoadOutcome)
  | cancelWorkload (id : ℕ)

/-- The call that takes the step. -/
def Act.caller : Act → Option ℕ
  | .lock c | .setRunning c | .select c _ _ | .execute c _ | .publish c | .leave c => some c
  | _ => none

namespace Sys

variable (s : Sys)

/-- The call comes to another phase. -/
def enter (c : ℕ) (call : GenerateCall) (phase : Phase) : Sys :=
  { s with calls := s.calls.set c { call with phase } }

/-- The checks at the start of `doGenerate`: the error, if any. -/
def refusal (call : GenerateCall) : Option String :=
  if !s.runtime.initialized then some "HeteroRuntime not initialized"
  else if call.prompt = "" then some "Prompt is empty"
  else if call.workloadId ≠ 0 ∧ s.runtime.workloadRegistry.isCancelled call.workloadId then
    some "Workload cancelled before execution"
  else none

/-- The steps of a call of `doGenerate`. -/
def callStep (a : Act) (c : ℕ) (call : GenerateCall) : Option Sys :=
  match a, call.phase with
  | .lock _, .started =>
    if s.holder = none then
      match s.refusal call with
      | some error => some (s.enter c call (.returning { error }))
      | none => some { s.enter c call .checked with holder := some c }
    else none
  | .setRunning _, .checked =>
    if call.workloadId ≠ 0 then
      some { s.enter c call .running with runtime := { s.runtime with
        workloadRegistry := s.runtime.workloadRegistry.setRunning call.workloadId } }
    else some (s.enter c call .running)
  | .select _ tcfg outcome, .running =>
    match s.runtime.selectEngine call.modelPath tcfg call.nCtx outcome with
    | (.ok engine, runtime) =>
      some { s.enter c call (.picked engine tcfg) with runtime, holder := none }
    | (.error error, runtime) =>
      some { s.enter c call (.returning { error }) with runtime, holder := none }
  | .execute _ outcome, .picked e _ =>
    let (res, engine) := (s.runtime.objects e).execute outcome
    some { s.enter c call (.executed res) with
      runtime := { s.runtime with objects := Function.update s.runtime.objects e engine } }
  | .publish _, .executed res =>
    if s.holder = none then
      some { s.enter c call (.returning res) with runtime := s.runtime.publish call.workloadId res }
    else none
  | .leave _, .returning res => some (s.enter c call (.returned res))
  | _, _ => none

/-- The step that a label describes, where it is possible. -/
def step (a : Act) : Option Sys :=
  match a with
  | .generate modelPath prompt nCtx =>
    some { s with calls := s.calls ++ [{ modelPath, prompt, nCtx }] }
  | .generateWorkload modelPath prompt nCtx priority wclass =>
    let (workloadId, workloadRegistry) :=
      s.runtime.workloadRegistry.registerWorkload "inference" modelPath priority wclass
    some { s with
      runtime := { s.runtime with workloadRegistry }
      calls := s.calls ++ [{ modelPath, prompt, nCtx, workloadId }] }
  | .loadModel modelPath tcfg nCtx outcome =>
    if s.holder = none then
      some { s with runtime := (s.runtime.loadModel modelPath tcfg nCtx outcome).2 }
    else none
  | .cancelWorkload id =>
    some { s with runtime := { s.runtime with
      workloadRegistry := (s.runtime.workloadRegistry.cancel id).2 } }
  | .lock c | .setRunning c | .select c _ _ | .execute c _ | .publish c | .leave c =>
    match s.calls[c]? with
    | some call => s.callStep a c call
    | none => none

variable {s} {s' : Sys} {a : Act} {c : ℕ} {call : GenerateCall}

/-- The calls after one of them has changed. -/
theorem getElem?_set_cases {calls : List GenerateCall} {call' : GenerateCall} {i : ℕ}
    (h : (calls.set c call)[i]? = some call') :
    (i = c ∧ call' = call) ∨ (i ≠ c ∧ calls[i]? = some call') := by
  rw [List.getElem?_set] at h
  split at h
  next heq =>
    split at h
    next => exact .inl ⟨heq.symm, (Option.some.inj h).symm⟩
    next => cases h
  next hne => exact .inr ⟨fun heq => hne heq.symm, h⟩

/-- The steps of a call, by the phase they start from. -/
inductive CallCase (s : Sys) (c : ℕ) (call : GenerateCall) : Act → Sys → Prop where
  | refused {error : String} (hphase : call.phase = .started) (hholder : s.holder = none)
      (hrefusal : s.refusal call = some error) :
      CallCase s c call (.lock c) (s.enter c call (.returning { error }))
  | checked (hphase : call.phase = .started) (hholder : s.holder = none)
      (hrefusal : s.refusal call = none) :
      CallCase s c call (.lock c) { s.enter c call .checked with holder := some c }
  | setRunning (hphase : call.phase = .checked) :
      CallCase s c call (.setRunning c)
        { s.enter c call .running with runtime := { s.runtime with
          workloadRegistry := if call.workloadId ≠ 0 then
            s.runtime.workloadRegistry.setRunning call.workloadId
          else s.runtime.workloadRegistry } }
  | selected {tcfg : TuningConfig} {outcome : Option LoadOutcome}
      (hphase : call.phase = .running) :
      CallCase s c call (.select c tcfg outcome)
        { s with
          runtime := (s.runtime.selectEngine call.modelPath tcfg call.nCtx outcome).2
          holder := none
          calls := s.calls.set c { call with
            phase := match (s.runtime.selectEngine call.modelPath tcfg call.nCtx outcome).1 with
              | .ok engine => .picked engine tcfg
              | .error error => .returning { error } } }
  | executed {outcome : ExecutionResult} {e : ℕ} {tcfg : TuningConfig}
      (hphase : call.phase = .picked e tcfg) :
      CallCase s c call (.execute c outcome)
        { s.enter c call (.executed ((s.runtime.objects e).execute outcome).1) with
          runtime := { s.runtime with
            objects := Function.update s.runtime.objects e
              ((s.runtime.objects e).execute outcome).2 } }
  | published {res : ExecutionResult} (hphase : call.phase = .executed res)
      (hholder : s.holder = none) :
      CallCase s c call (.publish c) { s.enter c call (.returning res) with
        runtime := s.runtime.publish call.workloadId res }
  | left {res : ExecutionResult} (hphase : call.phase = .returning res) :
      CallCase s c call (.leave c) (s.enter c call (.returned res))

theorem callStep_cases (hcaller : a.caller = some c) (h : s.callStep a c call = some s') :
    CallCase s c call a s' := by
  unfold callStep at h
  split at h
  next i hphase =>
    cases hcaller
    split at h
    next hholder =>
      split at h
      next error hrefusal =>
        cases h
        exact .refused hphase hholder hrefusal
      next hrefusal =>
        cases h
        exact .checked hphase hholder hrefusal
    next => cases h
  next i hphase =>
    cases hcaller
    -- a call without a workload changes no entry
    have hcase := CallCase.setRunning (s := s) (c := c) hphase
    split at h
    next hid =>
      cases h
      rwa [if_pos hid] at hcase
    next hid =>
      cases h
      rwa [if_neg hid] at hcase
  next i tcfg outcome hphase =>
    cases hcaller
    have hcase := @CallCase.selected s c call tcfg outcome hphase
    split at h
    next engine runtime hselect =>
      cases h
      rwa [hselect] at hcase
    next error runtime hselect =>
      cases h
      rwa [hselect] at hcase
  next i outcome e tcfg hphase =>
    cases hcaller
    cases h
    exact .executed hphase
  next i res hphase =>
    cases hcaller
    split at h
    next hholder =>
      cases h
      exact .published hphase hholder
    next => cases h
  next i res hphase =>
    cases hcaller
    cases h
    exact .left hphase
  next => cases h

/-- A step of a call is one of a call that has begun. -/
theorem step_cases (h : s.step a = some s') :
    (∃ modelPath prompt nCtx, a = .generate modelPath prompt nCtx ∧
      s' = { s with calls := s.calls ++ [{ modelPath, prompt, nCtx }] }) ∨
    (∃ modelPath prompt nCtx priority wclass,
      a = .generateWorkload modelPath prompt nCtx priority wclass ∧
      s' = { s with
        runtime := { s.runtime with
          workloadRegistry := (s.runtime.workloadRegistry.registerWorkload "inference" modelPath
            priority wclass).2 }
        calls := s.calls ++
          [{ modelPath, prompt, nCtx, workloadId := s.runtime.workloadRegistry.nextId }] }) ∨
    (∃ modelPath tcfg nCtx outcome, a = .loadModel modelPath tcfg nCtx outcome ∧
      s.holder = none ∧
      s' = { s with runtime := (s.runtime.loadModel modelPath tcfg nCtx outcome).2 }) ∨
    (∃ id, a = .cancelWorkload id ∧
      s' = { s with runtime := { s.runtime with
        workloadRegistry := (s.runtime.workloadRegistry.cancel id).2 } }) ∨
    (∃ c call, a.caller = some c ∧ s.calls[c]? = some call ∧ s.callStep a c call = some s') := by
  unfold step at h
  split at h
  next modelPath prompt nCtx =>
    exact .inl ⟨modelPath, prompt, nCtx, rfl, (Option.some.inj h).symm⟩
  next modelPath prompt nCtx priority wclass =>
    exact .inr (.inl ⟨modelPath, prompt, nCtx, priority, wclass, rfl, (Option.some.inj h).symm⟩)
  next modelPath tcfg nCtx outcome =>
    split at h
    next hholder =>
      exact .inr (.inr (.inl
        ⟨modelPath, tcfg, nCtx, outcome, rfl, hholder, (Option.some.inj h).symm⟩))
    next => cases h
  next id => exact .inr (.inr (.inr (.inl ⟨id, rfl, (Option.some.inj h).symm⟩)))
  -- the remaining actions belong to a call
  all_goals
    split at h
    next call hcall => exact .inr (.inr (.inr (.inr ⟨_, call, rfl, hcall, h⟩)))
    next => cases h

end Sys

/-- An initialized runtime, from the end of `initialize` on. -/
def system : TransitionSystem Sys Act where
  Init s := s = { runtime := { initialized := true } }
  Step s a s' := s.step a = some s'

/-! ## Sample runs -/

/-- The state after a step; where the step is not possible, nothing changes. -/
def Sys.next (s : Sys) (a : Act) : Sys := (s.step a).getD s

/-- An initialized runtime after a list of steps. -/
def sampleRun (acts : List Act) : Sys := acts.foldl Sys.next { runtime := { initialized := true } }

/-- A list of steps that are possible leads to a reachable state. -/
theorem reachable_sampleRun {guard : Sys → Act → Prop} {acts : List Act}
    (h : TransitionSystem.Along (fun s a => guard s a ∧ (s.step a).isSome) Sys.next
      { runtime := { initialized := true } } acts) : system.Reachable guard (sampleRun acts) := by
  have hinit : system.Reachable guard ({ runtime := { initialized := true } } : Sys) := .init rfl
  refine hinit.foldl (fun s a hsa => ⟨hsa.1, ?_⟩) h
  obtain ⟨s', hs'⟩ := Option.isSome_iff_exists.mp hsa.2
  show s.step a = some (s.next a)
  rw [Sys.next, hs', Option.getD_some]

end HeteroAccel.Runtime
