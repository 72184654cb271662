import Mathlib.Data.Nat.Notation

/-!
# The llama.cpp engine

`LlamaCppExecutionEngine`: whether a model is loaded, and from which descriptor. What the file
system and llama.cpp do is given by a `LoadOutcome` for a load and by an `ExecutionResult` for an
execution; telemetry and the parameters of a request are left out.
-/

namespace HeteroAccel.Runtime

/-- A model descriptor, with the metadata that the runtime writes into it. -/
structure ModelDescriptor where
  modelId : String := ""
  sourcePath : String := ""
  nGpuLayers : Int := 99
  cpuOnly : Bool := false
  nCtx : Int := 2048
  deriving DecidableEq, Repr

/-- The result of an execution. -/
structure ExecutionResult where
  success : Bool := false
  output : String := ""
  error : String := ""
  deriving DecidableEq, Repr

/-- What the file system and the backend answer to a load. -/
structure LoadOutcome where
  fileExists : Bool := true
  modelLoads : Bool := true
  contextCreated : Bool := true
  backendError : String := ""
  deriving DecidableEq, Repr

/-- The state of an engine. -/
structure LlamaCppExecutionEngine where
  initialized : Bool := false
  currentDescriptor : ModelDescriptor := {}
  modelLoaded : Bool := false
  lastError : String := ""
  deriving DecidableEq, Repr

namespace LlamaCppExecutionEngine

variable (e : LlamaCppExecutionEngine)

/-- `initialize`. -/
def initializeEngine : LlamaCppExecutionEngine :=
  if e.initialized then e else { e with initialized := true, lastError := "" }

/-- `loadModel`: an engine that is not initialized, a missing path and a missing file are errors. -/
def loadModel (descriptor : ModelDescriptor) (outcome : LoadOutcome) :
    Bool × LlamaCppExecutionEngine :=
  if !e.initialized then
    (false, { e with lastError := "Engine not initialised. Call initialize() first." })
  else if descriptor.sourcePath = "" then
    (false, { e with lastError := "ModelDescriptor.source_path is empty." })
  else if !outcome.fileExists then
    (false, { e with lastError := "Model file not found: " ++ descriptor.sourcePath })
  else if !outcome.modelLoads || !outcome.contextCreated then
    (false, { e with modelLoaded := false, lastError := outcome.backendError })
  else
    (true, { e with modelLoaded := true, currentDescriptor := descriptor, lastError := "" })

/-- `unloadModel`, which also an engine without a model accepts. -/
def unloadModel : LlamaCppExecutionEngine := { e with modelLoaded := false }

/-- `execute` and `executeStreaming`; `outcome` is the backend's result. -/
def execute (outcome : ExecutionResult) : ExecutionResult × LlamaCppExecutionEngine :=
  if !e.initialized then
    ({ error := "Engine not initialised" }, { e with lastError := "Engine not initialised" })
  else if !e.modelLoaded then
    ({ error := "No model loaded" }, { e with lastError := "No model loaded" })
  else (outcome, { e with lastError := if outcome.success then "" else outcome.error })

/-- The engine has a model loaded, with a placement. -/
def Holds (path : String) (nGpuLayers : Int) : Prop :=
  e.initialized = true ∧ e.modelLoaded = true ∧ e.currentDescriptor.sourcePath = path ∧
    e.currentDescriptor.nGpuLayers = nGpuLayers ∧
    e.currentDescriptor.cpuOnly = decide (nGpuLayers = 0)

variable {e}

/-- The descriptor of a load that succeeds is the current one. -/
theorem loadModel_cases (e : LlamaCppExecutionEngine) (descriptor : ModelDescriptor)
    (outcome : LoadOutcome) :
    (e.loadModel descriptor outcome).1 = false ∨
      e.loadModel descriptor outcome = (true, { e with
        modelLoaded := true
        currentDescriptor := descriptor
        lastError := "" }) ∧ e.initialized = true := by
  unfold loadModel
  split
  next => exact .inl rfl
  next hinit =>
    split
    next => exact .inl rfl
    next =>
      split
      next => exact .inl rfl
      next =>
        split
        next => exact .inl rfl
        next => exact .inr ⟨rfl, by simpa using hinit⟩

/-- An execution neither loads nor unloads. -/
theorem holds_execute (outcome : ExecutionResult) (path : String) (nGpuLayers : Int) :
    (e.execute outcome).2.Holds path nGpuLayers ↔ e.Holds path nGpuLayers := by
  unfold execute
  split
  next => exact .rfl
  next =>
    split <;> exact .rfl

end LlamaCppExecutionEngine
end HeteroAccel.Runtime
