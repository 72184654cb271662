import Mathlib.Data.UInt

/-!
# Execution plans

`ModelExecutionPlan` of `ExecutionPlan.h`: where the planner wants a model to be computed and what
it wants resident there. A plan is a decision, not an execution.
-/

namespace HeteroAccel.Planner

/-- Compute placement selected by the planner. -/
inductive ExecutionMode where
  | cpu | vulkan | cuda
  /-- The workload is split across CPU and an accelerator. -/
  | hybrid
  | unsupported
  deriving DecidableEq, Repr

/-- The name of a mode in the texts of a plan. -/
def ExecutionMode.toString : ExecutionMode → String
  | .cpu => "CPU"
  | .vulkan => "Vulkan"
  | .cuda => "CUDA"
  | .hybrid => "HYBRID"
  | .unsupported => "UNSUPPORTED"

/-- Where a plan wants the tensors of the model. -/
inductive ExecutionStrategy where
  | auto | fullResident | partialResident | streaming | memoryPressure | cpuFallback
  | acceleratorOffload | hybrid
  deriving DecidableEq, Repr

/-- Reason for a planning decision or rejection. -/
inductive PlanReason where
  | vulkanFeasible | cudaFeasible | acceleratorMemorySufficient | acceleratorMemoryInsufficient
  | engineUnavailable | engineRejected | cpuFallback | streamingRequired | unsupportedModel
  | unknownMemory | insufficientRam | noRegisteredEngines | invalidConfiguration
  | contradictoryCapability | futureCapability | partialResidency | quantizationUnknown
  deriving DecidableEq, Repr

/-- The planner's result. The default is a plan that is not viable. -/
structure ModelExecutionPlan where
  viable : Bool := false
  /-- Whether a currently shipped engine can carry the plan out. -/
  executable : Bool := false
  engineKey : String := ""
  mode : ExecutionMode := .unsupported
  residency : ExecutionStrategy := .auto
  fallback : ExecutionStrategy := .auto
  streamingRequired : Bool := false
  memoryBudgetBytes : UInt64 := 0
  estimatedModelMemoryBytes : UInt64 := 0
  gpuLayerBudget : Option UInt32 := none
  contextLimit : Option UInt32 := none
  confidence : ℤ := 0
  reasons : List PlanReason := []
  explanation : String := ""
  warnings : List String := []
  rejectedEngines : List String := []
  deriving DecidableEq, Repr

namespace ModelExecutionPlan

variable (plan : ModelExecutionPlan)

/-- The plan gives this reason. -/
def hasReason (reason : PlanReason) : Bool := reason ∈ plan.reasons

/-- One more reason, unless the plan gives it already. -/
def addReason (reason : PlanReason) : ModelExecutionPlan :=
  if plan.hasReason reason then plan else { plan with reasons := plan.reasons ++ [reason] }

/-- `warnings.push_back`. -/
def warn (text : String) : ModelExecutionPlan := { plan with warnings := plan.warnings ++ [text] }

/-- What a plan decides, without its reasons, budgets of layers and texts. -/
structure Decision where
  viable : Bool
  engineKey : String
  mode : ExecutionMode
  residency : ExecutionStrategy
  memoryBudgetBytes : UInt64
  deriving DecidableEq, Repr

/-- What the plan decides, without reasons, warnings and texts. -/
def decision : Decision where
  viable := plan.viable
  engineKey := plan.engineKey
  mode := plan.mode
  residency := plan.residency
  memoryBudgetBytes := plan.memoryBudgetBytes

@[simp]
theorem decision_addReason (reason : PlanReason) :
    (plan.addReason reason).decision = plan.decision := by
  unfold addReason
  split <;> rfl

@[simp]
theorem decision_warn (text : String) : (plan.warn text).decision = plan.decision := rfl

end ModelExecutionPlan

/-- Knobs of the planner. -/
structure PlannerConfig where
  allowAccelerator : Bool := true
  allowPartialResidency : Bool := true
  allowStreamingPlan : Bool := true
  allowCpuFallback : Bool := true
  /-- `0` means no extra ceiling beyond the model's reported context. -/
  contextCeiling : UInt32 := 0
  deriving DecidableEq, Repr

end HeteroAccel.Planner
