import HeteroAccel.Scheduler.CostModel
import HeteroAccel.Scheduler.DurationHistory
import Mathlib.Data.List.Infix

/-!
# The samples of the cost model

`PerformanceHistory::recordCompletion` takes the rates of a backend from the tasks that it has
completed: the first counted sample replaces the rates that a new history has, and the later ones
are blended with them. `CostModel` divides by the rates.

A division by zero has no result here; otherwise doubles are exact rational numbers.

## Main definitions

* `recordCompletion`: the update of the rates;
* `CostModel.evaluate`: the cheapest plan over all devices;
* `WellDefined`: the rates are positive and no cost divides by zero;
* `FirstSamplesWork`: the samples that replace the rates have a positive estimate of operations.

## Main results

* `wellDefined_iff`: the first holds throughout exactly when the second does;
* `not_wellDefined`: a first sample without operations.
-/

namespace HeteroAccel.Scheduler

open HeteroAccel.Model (ComputeBackend)

/-- What is measured of a task. -/
structure TaskResult where
  success : Bool := false
  transferMs : ℚ := 0
  computeMs : ℚ := 0

/-- The metrics of the backends, with the numbers of their samples. -/
structure SampledHistory extends PerformanceHistory where
  sampleCount : ComputeBackend → UInt64

/-- A new history. -/
def SampledHistory.new : SampledHistory where
  toPerformanceHistory := .new
  sampleCount _ := 0

/-- A completion that is recorded. -/
structure Sample where
  backend : ComputeBackend
  workload : Workload
  result : TaskResult

namespace Sample

variable (s : Sample)

/-- Only a task that succeeded and took time counts. -/
def counts : Bool := s.result.success && decide (0 < s.result.computeMs)

/-- The throughput of one sample. -/
def currentOpsPerMs : ℚ := s.workload.computeOpsEstimate.toNat / s.result.computeMs

/-- The bandwidth of the transfer, or the one so far where nothing was transferred. -/
def currentBwPerMs (emaBandwidthPerMs : ℚ) : ℚ :=
  let totalBytes : ℚ := (s.workload.inputBytes + s.workload.outputBytes).toNat
  if s.result.transferMs > 0 ∧ totalBytes > 0 then totalBytes / s.result.transferMs
  else emaBandwidthPerMs

end Sample

namespace SampledHistory

variable (history : SampledHistory)

/-- `recordCompletion`. -/
def recordCompletion (s : Sample) : SampledHistory :=
  if !s.counts then history
  else
    let ops := history.emaOpsPerMs s.backend
    let bandwidth := history.emaBandwidthPerMs s.backend
    let first := history.sampleCount s.backend = 0
    { emaOpsPerMs := Function.update history.emaOpsPerMs s.backend
        (if first then s.currentOpsPerMs else alpha * s.currentOpsPerMs + (1 - alpha) * ops)
      emaBandwidthPerMs := Function.update history.emaBandwidthPerMs s.backend
        (if first then s.currentBwPerMs bandwidth
          else alpha * s.currentBwPerMs bandwidth + (1 - alpha) * bandwidth)
      sampleCount := Function.update history.sampleCount s.backend
        (history.sampleCount s.backend + 1) }

/-- The history after the completions. -/
def after (samples : List Sample) : SampledHistory := samples.foldl recordCompletion .new

end SampledHistory

/-! ## Costs -/

namespace CostModel

variable (cm : CostModel) (workload : Workload) (device : ComputeDevice)

/-- The divisors of `evaluateCandidate`: the operations always, the bandwidth for a transfer. -/
def divisors : List ℚ :=
  if infeasible workload device then []
  else
    cm.history.getEstimatedOpsPerMs device.backend ::
      ([workload.inputBlock, workload.outputBlock].filter fun block =>
        decide (Charged device.backend block)).map
          fun _ => cm.history.getEstimatedBandwidthBytesPerMs device.backend

/-- The plan for a device, if its cost is a number. -/
def candidate : Option ExecutionPlan :=
  if (0 : ℚ) ∈ cm.divisors workload device then none
  else some (cm.evaluateCandidate workload device)

/-- The better one of the best plan so far and that for a device, if it is available. -/
def consider (bestPlan : ExecutionPlan) (d : ComputeDevice × Bool) : Option ExecutionPlan :=
  if !d.2 then some bestPlan
  else (cm.candidate workload d.1).map fun candidate =>
    if candidate.totalCostMs < bestPlan.totalCostMs then candidate else bestPlan

/-- `evaluate`, over the devices of which the available ones are marked. -/
def evaluate (devices : List (ComputeDevice × Bool)) : Option ExecutionPlan := do
  let bestPlan ← devices.foldlM (cm.consider workload) { totalCostMs := ⊤ }
  -- when no device will do, the CPU has to
  if bestPlan.totalCostMs = ⊤ then
    match devices.find? fun d => d.1.backend = .cpu with
    | none => some bestPlan
    | some cpu => (cm.candidate workload cpu.1).map fun plan =>
      { plan with totalCostMs := (999999 : ℚ) }
  else some bestPlan

end CostModel

/-! ## The property -/

/-- The rates of all backends are positive, so that costs are numbers. -/
structure WellDefined (cm : CostModel) : Prop where
  ops : ∀ backend, 0 < cm.history.getEstimatedOpsPerMs backend
  bandwidth : ∀ backend, 0 < cm.history.getEstimatedBandwidthBytesPerMs backend
  /-- The cost of a feasible candidate is finite. -/
  finite : ∀ workload device, CostModel.infeasible workload device = false →
    ∃ plan cost, cm.candidate workload device = some plan ∧ plan.totalCostMs = (cost : ℚ)
  /-- Only costs that are numbers are compared. -/
  compares : ∀ workload devices, (cm.evaluate workload devices).isSome

/-- The counted samples of a backend. -/
def countedOn (backend : ComputeBackend) (samples : List Sample) : List Sample :=
  samples.filter fun s => decide (s.backend = backend) && s.counts

/-- The samples that replace the rates of a backend have operations: the first counted one, and each
after which the 64-bit count begins again. -/
def FirstSamplesWork (samples : List Sample) : Prop :=
  ∀ earlier s, earlier ++ [s] <+: samples → s.counts = true →
    (countedOn s.backend earlier).length % 2 ^ 64 = 0 → s.workload.computeOpsEstimate ≠ 0

/-! ## Costs from positive rates -/

/-- The rates of all backends are positive. -/
structure PerformanceHistory.Positive (history : PerformanceHistory) : Prop where
  ops : ∀ backend, 0 < history.emaOpsPerMs backend
  bandwidth : ∀ backend, 0 < history.emaBandwidthPerMs backend

section Costs

variable {cm : CostModel}

/-- With positive estimates every device has a plan. -/
theorem candidate_of_positive (h : cm.history.Positive) (workload : Workload)
    (device : ComputeDevice) :
    cm.candidate workload device = some (cm.evaluateCandidate workload device) := by
  refine if_neg fun hzero => ?_
  unfold CostModel.divisors at hzero
  split_ifs at hzero
  · cases hzero
  · obtain hzero | hzero := List.mem_cons.mp hzero
    · exact (h.ops device.backend).ne hzero
    · obtain ⟨-, -, hzero⟩ := List.mem_map.mp hzero
      exact (h.bandwidth device.backend).ne' hzero

/-- A feasible candidate costs a number of milliseconds. -/
theorem exists_totalCostMs (cm : CostModel) {workload : Workload} {device : ComputeDevice}
    (hfeasible : CostModel.infeasible workload device = false) :
    ∃ cost : ℚ, (cm.evaluateCandidate workload device).totalCostMs = cost := by
  unfold CostModel.evaluateCandidate
  rw [if_neg (by simp [hfeasible])]
  dsimp only
  split_ifs
  all_goals exact ⟨_, rfl⟩

/-- With positive estimates every device can be considered. -/
theorem consider_of_positive (h : cm.history.Positive) (workload : Workload)
    (bestPlan : ExecutionPlan) (d : ComputeDevice × Bool) :
    ∃ next, cm.consider workload bestPlan d = some next := by
  unfold CostModel.consider
  rw [candidate_of_positive h]
  split_ifs
  · exact ⟨bestPlan, rfl⟩
  · exact ⟨_, rfl⟩

/-- With positive estimates the evaluation has a result. -/
theorem evaluate_of_positive (h : cm.history.Positive) (workload : Workload)
    (devices : List (ComputeDevice × Bool)) : (cm.evaluate workload devices).isSome := by
  have hloop : ∀ (ds : List (ComputeDevice × Bool)) (bestPlan : ExecutionPlan),
      ∃ best, ds.foldlM (cm.consider workload) bestPlan = some best := by
    intro ds
    induction ds with
    | nil => exact fun bestPlan => ⟨bestPlan, rfl⟩
    | cons d ds ih =>
      intro bestPlan
      obtain ⟨next, hnext⟩ := consider_of_positive h workload bestPlan d
      rw [List.foldlM_cons, hnext]
      exact ih next
  obtain ⟨best, hbest⟩ := hloop devices { totalCostMs := ⊤ }
  unfold CostModel.evaluate
  rw [hbest, Option.bind_eq_bind, Option.bind_some]
  split_ifs
  · cases devices.find? fun d => d.1.backend = .cpu with
    | none => rfl
    | some cpu =>
      dsimp only
      rw [candidate_of_positive h]
      rfl
  · rfl

/-- Positive rates make all costs numbers. -/
theorem wellDefined_of_positive (h : cm.history.Positive) : WellDefined cm where
  ops := h.ops
  bandwidth := h.bandwidth
  finite workload device hfeasible := by
    obtain ⟨cost, hcost⟩ := exists_totalCostMs cm hfeasible
    exact ⟨_, cost, candidate_of_positive h workload device, hcost⟩
  compares := evaluate_of_positive h

end Costs

/-! ## Rates after samples -/

namespace SampledHistory

variable {history : SampledHistory} {samples : List Sample} {s : Sample} {backend : ComputeBackend}

theorem positive_new : SampledHistory.new.Positive := by
  constructor <;> intro backend <;> cases backend <;> norm_num [new, PerformanceHistory.new]

theorem after_concat : after (samples ++ [s]) = (after samples).recordCompletion s := by
  simp [after]

/-- The counted samples of a backend, sample by sample. -/
theorem countedOn_concat : countedOn backend (samples ++ [s]) =
    countedOn backend samples ++ if s.backend = backend ∧ s.counts = true then [s] else [] := by
  unfold countedOn
  by_cases h : s.backend = backend ∧ s.counts = true <;> simp [List.filter_append, h]

/-- The 64-bit counts. -/
theorem sampleCount_after :
    (after samples).sampleCount backend = UInt64.ofNat (countedOn backend samples).length := by
  induction samples using List.reverseRecOn with
  | nil => rfl
  | append_singleton samples s ih =>
    rw [after_concat, countedOn_concat, recordCompletion]
    by_cases hcounts : s.counts = true
    · rw [if_neg (by simp [hcounts])]
      dsimp only
      by_cases hbackend : s.backend = backend
      · subst hbackend
        rw [Function.update_self, ih, if_pos ⟨rfl, hcounts⟩, List.length_append,
          List.length_singleton, UInt64.ofNat_add]
        rfl
      · rw [Function.update_of_ne (Ne.symm hbackend), ih, if_neg (fun h => hbackend h.1),
          List.append_nil]
    · rw [if_pos (by simp [hcounts]), if_neg (fun h => hcounts h.2), List.append_nil, ih]

/-- The counter of a backend is 0 where the number of its samples is a multiple of 2^64. -/
theorem sampleCount_after_eq_zero_iff :
    (after samples).sampleCount backend = 0 ↔ (countedOn backend samples).length % 2 ^ 64 = 0 := by
  rw [sampleCount_after, ← UInt64.toNat_inj, UInt64.toNat_ofNat', UInt64.toNat_zero]

/-- A sample that counts has a positive duration. -/
theorem computeMs_pos (h : s.counts = true) : 0 < s.result.computeMs :=
  of_decide_eq_true (Bool.and_eq_true_iff.mp h).2

/-- A sample that counts has a positive throughput exactly when there was something to compute. -/
theorem currentOpsPerMs_pos_iff (h : s.counts = true) :
    0 < s.currentOpsPerMs ↔ s.workload.computeOpsEstimate ≠ 0 := by
  unfold Sample.currentOpsPerMs
  rw [div_pos_iff_of_pos_right (computeMs_pos h), Nat.cast_pos, Nat.pos_iff_ne_zero, Ne,
    ← UInt64.toNat_zero, UInt64.toNat_inj]

/-- A sample keeps a positive bandwidth positive. -/
theorem currentBwPerMs_pos {bandwidth : ℚ} (h : 0 < bandwidth) :
    0 < s.currentBwPerMs bandwidth := by
  unfold Sample.currentBwPerMs
  dsimp only
  split_ifs with hmoved
  · exact div_pos hmoved.2 hmoved.1
  · exact h

/-- A blend of a rate that is not negative with a positive one is positive. -/
theorem blend_pos {sample rate : ℚ} (hsample : 0 ≤ sample) (hrate : 0 < rate) :
    0 < alpha * sample + (1 - alpha) * rate := by
  have halpha : (0 : ℚ) ≤ alpha := by norm_num [alpha]
  have halpha' : (0 : ℚ) < 1 - alpha := by norm_num [alpha]
  exact add_pos_of_nonneg_of_pos (mul_nonneg halpha hsample) (mul_pos halpha' hrate)

/-- A sample keeps the rates positive, unless it is a first one without operations. -/
theorem positive_recordCompletion (h : history.Positive)
    (hfirst : s.counts = true → history.sampleCount s.backend = 0 →
      s.workload.computeOpsEstimate ≠ 0) : (history.recordCompletion s).Positive := by
  unfold recordCompletion
  by_cases hcounts : s.counts = true
  · rw [if_neg (by simp [hcounts])]
    have hbandwidth := currentBwPerMs_pos (s := s) (h.bandwidth s.backend)
    constructor
    · intro backend
      dsimp only
      -- only the averages of the sample's backend change
      by_cases hbackend : backend = s.backend
      · subst hbackend
        rw [Function.update_self]
        split_ifs with hzero
        · exact (currentOpsPerMs_pos_iff hcounts).mpr (hfirst hcounts hzero)
        · exact blend_pos (div_nonneg (Nat.cast_nonneg _) (computeMs_pos hcounts).le)
            (h.ops s.backend)
      · rw [Function.update_of_ne hbackend]
        exact h.ops backend
    · intro backend
      dsimp only
      by_cases hbackend : backend = s.backend
      · subst hbackend
        rw [Function.update_self]
        split_ifs with hzero
        · exact hbandwidth
        · exact blend_pos hbandwidth.le (h.bandwidth s.backend)
      · rw [Function.update_of_ne hbackend]
        exact h.bandwidth backend
  · rw [if_pos (by simp [hcounts])]
    exact h

/-- All rates are positive after samples of which the first ones have operations. -/
theorem positive_after (h : FirstSamplesWork samples) : (after samples).Positive := by
  induction samples using List.reverseRecOn with
  | nil => exact positive_new
  | append_singleton samples s ih =>
    rw [after_concat]
    refine positive_recordCompletion (ih ?_) fun hcounts hzero => ?_
    · intro earlier s' hearlier
      exact h earlier s' (hearlier.trans (List.prefix_append _ _))
    · exact h samples s List.prefix_rfl hcounts (sampleCount_after_eq_zero_iff.mp hzero)

end SampledHistory

open SampledHistory (after)

/-- **Divisions.** The rates stay positive, and the costs numbers, throughout a sequence of samples
exactly when the samples that replace the rates of a backend have operations. -/
theorem wellDefined_iff (samples : List Sample) :
    (∀ earlier, earlier <+: samples → WellDefined ⟨(after earlier).toPerformanceHistory⟩) ↔
      FirstSamplesWork samples := by
  constructor
  · intro h earlier s hearlier hcounts hcount
    have hzero := SampledHistory.sampleCount_after_eq_zero_iff.mpr hcount
    have hpos := (h _ hearlier).ops s.backend
    rw [PerformanceHistory.getEstimatedOpsPerMs, SampledHistory.after_concat,
      SampledHistory.recordCompletion, if_neg (by simp [hcounts])] at hpos
    dsimp only at hpos
    rw [Function.update_self, if_pos hzero] at hpos
    exact (SampledHistory.currentOpsPerMs_pos_iff hcounts).mp hpos
  · intro h earlier hearlier
    refine wellDefined_of_positive (SampledHistory.positive_after ?_)
    intro earliest s hearliest
    exact h earliest s (hearliest.trans hearlier)

/-- After a first task without operations the CPU makes no operations per millisecond. -/
theorem not_wellDefined :
    ¬∀ samples : List Sample, WellDefined ⟨(after samples).toPerformanceHistory⟩ := by
  intro h
  have hpos := (h [⟨.cpu, {}, { success := true, computeMs := 1 }⟩]).ops .cpu
  exact absurd hpos (by decide +kernel)

end HeteroAccel.Scheduler
