import HeteroAccel.Lib.ByteStream
import HeteroAccel.Mem.Transactions
import HeteroAccel.Model.StreamingRuns

/-!
# The cost model of the scheduler

`evaluateCandidate` of `CostModel`: what a workload costs on a device, with a transfer for each
block that is not where the device works. It looks for the data of a GPU at the location
`ACCELERATOR`; the memory manager places blocks at `CPU` and `GPU` only.

Times are exact rational numbers, with `⊤` for the largest double.

## Main definitions

* `CostModel.evaluateCandidate`: the plan for a device;
* `ChargesElsewhere`: a transfer is charged exactly for the blocks that are elsewhere.

## Main results

* `chargesElsewhere_iff`: it is so on the CPU, and on a GPU when no block is in GPU memory.
-/

namespace HeteroAccel.Scheduler

open HeteroAccel.Mem HeteroAccel.Model

/-- A device that a workload may be planned for. -/
structure ComputeDevice where
  backend : ComputeBackend := .cpu
  name : Bytes := []
  memoryAvailable : UInt64 := 0

/-- A workload; a callback is present or not. -/
structure Workload where
  inputBytes : UInt64 := 0
  outputBytes : UInt64 := 0
  computeOpsEstimate : UInt64 := 0
  inputBlock : MemoryBlock := {}
  outputBlock : MemoryBlock := {}
  computeIntensive : Bool := true
  cpuExecute : Bool := false
  vulkanExecute : Bool := false
  cudaExecute : Bool := false

/-- The output of the cost model. -/
structure ExecutionPlan where
  selectedBackend : ComputeBackend := .cpu
  deviceName : Bytes := []
  estimatedTransferMs : ℚ := 0
  estimatedComputeMs : ℚ := 0
  estimatedQueuePenaltyMs : ℚ := 0
  totalCostMs : WithTop ℚ := 0
  requiresInputTransfer : Bool := false
  requiresOutputTransfer : Bool := false

/-- The metrics of the backends; all three have an entry from the construction on. -/
structure PerformanceHistory where
  emaOpsPerMs : ComputeBackend → ℚ
  emaBandwidthPerMs : ComputeBackend → ℚ

namespace PerformanceHistory

variable (history : PerformanceHistory) (backend : ComputeBackend)

/-- The throughput of a backend, as the history estimates it. -/
def getEstimatedOpsPerMs : ℚ := history.emaOpsPerMs backend

/-- The bandwidth of a backend, as the history estimates it. -/
def getEstimatedBandwidthBytesPerMs : ℚ := history.emaBandwidthPerMs backend

end PerformanceHistory

/-- The cost model reads the history. -/
structure CostModel where
  history : PerformanceHistory

namespace CostModel

variable (cm : CostModel)

/-- The location at which the data of a backend are expected. -/
def targetLoc (backend : ComputeBackend) : MemoryLocation :=
  if backend = .vulkan ∨ backend = .cuda then .accelerator else .cpu

/-- The checks in front of the estimates: the memory and the callback. -/
def infeasible (workload : Workload) (device : ComputeDevice) : Bool :=
  let requiredMemory := workload.inputBytes + workload.outputBytes
  (requiredMemory > 0 && device.memoryAvailable > 0 && device.memoryAvailable < requiredMemory) ||
    (device.backend = .cpu && !workload.cpuExecute) ||
    (device.backend = .vulkan && !workload.vulkanExecute) ||
    (device.backend = .cuda && !workload.cudaExecute)

/-- The plan for one device; its cost is infinite where the device is infeasible. -/
def evaluateCandidate (workload : Workload) (device : ComputeDevice) : ExecutionPlan :=
  let plan : ExecutionPlan :=
    { selectedBackend := device.backend, deviceName := device.name, totalCostMs := ⊤ }
  if infeasible workload device then plan
  else
    let opsPerMs := cm.history.getEstimatedOpsPerMs device.backend
    let plan := { plan with estimatedComputeMs := workload.computeOpsEstimate.toNat / opsPerMs }
    let bwPerMs := cm.history.getEstimatedBandwidthBytesPerMs device.backend
    let targetLoc := targetLoc device.backend
    let plan :=
      if workload.inputBlock.isValid && workload.inputBlock.location ≠ targetLoc then
        { plan with
          estimatedTransferMs := plan.estimatedTransferMs + workload.inputBytes.toNat / bwPerMs
          requiresInputTransfer := true }
      else plan
    let plan :=
      if workload.outputBlock.isValid && workload.outputBlock.location ≠ targetLoc then
        { plan with
          estimatedTransferMs := plan.estimatedTransferMs + workload.outputBytes.toNat / bwPerMs
          requiresOutputTransfer := true }
      else plan
    let plan : ExecutionPlan := { plan with
      estimatedQueuePenaltyMs := if device.backend = .cpu then 2 else 10 }
    let totalCostMs : ℚ :=
      plan.estimatedComputeMs + plan.estimatedTransferMs + plan.estimatedQueuePenaltyMs
    { plan with
      totalCostMs :=
        -- an artificial penalty for compute intensive tasks
        if device.backend = .cpu && workload.computeIntensive then (totalCostMs * (3 / 2) : ℚ)
        else totalCostMs }

end CostModel

/-! ## The property -/

/-- What `allocate` returns, in any state of the manager. -/
def Placed (block : MemoryBlock) : Prop :=
  ∃ (s : Sys) (env : Environment) (size : UInt64) (preferred : MemoryLocation)
    (priority : MemoryPriority), system.Reachable TransitionSystem.anyCall s ∧ env.Fresh s.mm ∧
    block = (s.mm.allocate env size preferred priority).1

/-- A valid block that is not in the memory on which a backend works. -/
def Elsewhere (backend : ComputeBackend) (block : MemoryBlock) : Prop :=
  block.isValid = true ∧ block.location ≠ backend.memory.location

instance (backend : ComputeBackend) (block : MemoryBlock) : Decidable (Elsewhere backend block) :=
  inferInstanceAs (Decidable (_ ∧ _))

/-- The plan for a device requires and charges a transfer exactly for the blocks that are
elsewhere. -/
def ChargesElsewhere (cm : CostModel) (workload : Workload) (device : ComputeDevice) : Prop :=
  let plan := cm.evaluateCandidate workload device
  let bwPerMs := cm.history.getEstimatedBandwidthBytesPerMs device.backend
  (plan.requiresInputTransfer = true ↔ Elsewhere device.backend workload.inputBlock) ∧
    (plan.requiresOutputTransfer = true ↔ Elsewhere device.backend workload.outputBlock) ∧
    plan.estimatedTransferMs =
      (if Elsewhere device.backend workload.inputBlock then workload.inputBytes.toNat / bwPerMs
        else 0) +
      (if Elsewhere device.backend workload.outputBlock then workload.outputBytes.toNat / bwPerMs
        else 0)

/-! ## What is charged -/

/-- A block that is charged: a valid one that is not at the expected location. -/
def Charged (backend : ComputeBackend) (block : MemoryBlock) : Prop :=
  block.isValid = true ∧ block.location ≠ CostModel.targetLoc backend

instance (backend : ComputeBackend) (block : MemoryBlock) : Decidable (Charged backend block) :=
  inferInstanceAs (Decidable (_ ∧ _))

variable {cm : CostModel} {workload : Workload} {device : ComputeDevice} {block : MemoryBlock}

variable (cm) in
/-- The transfers of a feasible plan. -/
theorem transfers_evaluateCandidate (hfeasible : CostModel.infeasible workload device = false) :
    let plan := cm.evaluateCandidate workload device
    let bwPerMs := cm.history.getEstimatedBandwidthBytesPerMs device.backend
    (plan.requiresInputTransfer = true ↔ Charged device.backend workload.inputBlock) ∧
      (plan.requiresOutputTransfer = true ↔ Charged device.backend workload.outputBlock) ∧
      plan.estimatedTransferMs =
        (if Charged device.backend workload.inputBlock then workload.inputBytes.toNat / bwPerMs
          else 0) +
        (if Charged device.backend workload.outputBlock then workload.outputBytes.toNat / bwPerMs
          else 0) := by
  have hcharged : ∀ block : MemoryBlock, (block.isValid &&
      decide (block.location ≠ CostModel.targetLoc device.backend)) = true ↔
        Charged device.backend block := by
    intro block
    simp [Charged]
  unfold CostModel.evaluateCandidate
  rw [if_neg (by simp [hfeasible])]
  simp only [hcharged]
  by_cases hin : Charged device.backend workload.inputBlock <;>
    by_cases hout : Charged device.backend workload.outputBlock <;>
    simp [hin, hout]

/-- A placed block is in one of the two memories. -/
theorem Placed.location (h : Placed block) (hvalid : block.isValid = true) :
    ∃ sp : Space, block.location = sp.location := by
  obtain ⟨s, env, size, preferred, priority, hreach, hfresh, rfl⟩ := h
  obtain ⟨-, hnone⟩ | ⟨sp, -, -, halloc⟩ := MemoryManager.allocate_cases
    (tracked_of_reachable hreach) hfresh size preferred priority
  · rw [hnone] at hvalid
    cases hvalid
  · exact ⟨sp, halloc.location⟩

/-- A placed block is charged exactly when it is elsewhere, unless it is on the GPU and the backend
is one for GPUs. -/
theorem Placed.charged_iff (h : Placed block) (backend : ComputeBackend) :
    (Charged backend block ↔ Elsewhere backend block) ↔
      backend = .cpu ∨ ¬(block.isValid = true ∧ block.location = .gpu) := by
  by_cases hvalid : block.isValid = true
  · obtain ⟨sp, hloc⟩ := h.location hvalid
    unfold Charged Elsewhere
    rw [hloc]
    cases sp <;> cases backend <;>
      simp [hvalid, CostModel.targetLoc, ComputeBackend.memory, Space.location]
  · simp [Charged, Elsewhere, hvalid]

/-- **Transfers.** For blocks that the memory manager has placed, a feasible candidate is charged
exactly for the blocks that are elsewhere when the device is the CPU, or no block is on the GPU. -/
theorem chargesElsewhere_iff (hinput : Placed workload.inputBlock)
    (houtput : Placed workload.outputBlock)
    (hfeasible : CostModel.infeasible workload device = false) :
    ChargesElsewhere cm workload device ↔ device.backend = .cpu ∨
      (¬(workload.inputBlock.isValid = true ∧ workload.inputBlock.location = .gpu) ∧
        ¬(workload.outputBlock.isValid = true ∧ workload.outputBlock.location = .gpu)) := by
  obtain ⟨hin, hout, htransfer⟩ := transfers_evaluateCandidate cm hfeasible
  have hiff := hinput.charged_iff device.backend
  have hiff' := houtput.charged_iff device.backend
  constructor
  · rintro ⟨hin', hout', -⟩
    have h := hiff.mp (hin.symm.trans hin')
    have h' := hiff'.mp (hout.symm.trans hout')
    by_cases hcpu : device.backend = .cpu
    · exact .inl hcpu
    · exact .inr ⟨h.resolve_left hcpu, h'.resolve_left hcpu⟩
  · intro h
    have hcharged := hiff.mpr (h.imp_right And.left)
    have hcharged' := hiff'.mpr (h.imp_right And.right)
    refine ⟨hin.trans hcharged, hout.trans hcharged', ?_⟩
    rw [htransfer]
    simp only [hcharged, hcharged']

/-- The metrics that a new history has. -/
def PerformanceHistory.new : PerformanceHistory where
  emaOpsPerMs
    | .cpu => 500
    | .vulkan => 2500
    | .cuda => 4000
  emaBandwidthPerMs
    | .cpu => 20 * 1024 * 1024
    | .vulkan => 10 * 1024 * 1024
    | .cuda => 12 * 1024 * 1024

/-- A block of 64 bytes from a new manager. -/
def sampleBlock (preferred : MemoryLocation) : MemoryBlock :=
  ((MemoryManager.new 0 0).allocate { malloc := 1000, createBuffer := 7 } 64 preferred .normal).1

theorem placed_sampleBlock (preferred : MemoryLocation) : Placed (sampleBlock preferred) := by
  have hreach : system.Reachable TransitionSystem.anyCall { mm := .new 0 0 } := .init ⟨0, 0, rfl⟩
  have hfresh : ({ malloc := 1000, createBuffer := 7 } : Environment).Fresh (.new 0 0) := by
    decide +kernel
  exact ⟨_, _, 64, preferred, .normal, hreach, hfresh, rfl⟩

/-- A workload that reads a block and writes CPU memory, and runs on every backend. -/
def sampleWorkload (input : MemoryLocation) : Workload where
  inputBytes := 64
  inputBlock := sampleBlock input
  outputBlock := sampleBlock .cpu
  cpuExecute := true
  vulkanExecute := true
  cudaExecute := true

/-- Data of the GPU are charged for on the CPU, data of the CPU on the GPU. -/
theorem chargesElsewhere_sampleWorkload :
    ChargesElsewhere ⟨.new⟩ (sampleWorkload .gpu) {} ∧
      ChargesElsewhere ⟨.new⟩ (sampleWorkload .cpu) { backend := .cuda } :=
  ⟨(chargesElsewhere_iff (placed_sampleBlock .gpu) (placed_sampleBlock .cpu)
      (by decide +kernel)).mpr (.inl rfl),
    (chargesElsewhere_iff (placed_sampleBlock .cpu) (placed_sampleBlock .cpu)
      (by decide +kernel)).mpr (.inr ⟨by decide +kernel, by decide +kernel⟩)⟩

/-- Data in GPU memory are charged for on the GPU. -/
theorem not_chargesElsewhere : ¬∀ (cm : CostModel) (workload : Workload) (device : ComputeDevice),
    Placed workload.inputBlock → Placed workload.outputBlock →
    CostModel.infeasible workload device = false → ChargesElsewhere cm workload device := by
  intro h
  obtain ⟨hinput, -⟩ := h ⟨.new⟩ (sampleWorkload .gpu) { backend := .vulkan }
    (placed_sampleBlock .gpu) (placed_sampleBlock .cpu) (by decide +kernel)
  have hrequired : (CostModel.evaluateCandidate ⟨.new⟩ (sampleWorkload .gpu)
      { backend := .vulkan }).requiresInputTransfer = true := by decide +kernel
  exact absurd (hinput.mp hrequired) (by decide +kernel)

end HeteroAccel.Scheduler
