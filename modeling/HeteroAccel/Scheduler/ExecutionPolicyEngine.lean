import HeteroAccel.Lib.Rounding
import HeteroAccel.Mem.MemoryTypes
import HeteroAccel.Planner.ExecutionPlan
import HeteroAccel.Runtime.WorkloadRegistry
import HeteroAccel.Scheduler.DurationHistory
import Mathlib.Data.Rat.Floor

/-!
# The policy engine

`ExecutionPolicyEngine::selectStrategy`: from the sizes of the model and of the GPU memory, the
pressure, the history and the class of a workload it selects a strategy, and with it the number of
layers that go to the GPU. The number is the part of 32 layers that fits, whatever the depth of the
model is.

Doubles are rational numbers, and every conversion, quotient and product is rounded to the nearest
double. The pressures of the memory manager and the statistics of the profile key are arguments.

## Main definitions

* `selectStrategy`: the decision;
* `MemorySafe`: the layers that go to the GPU fit its memory, for a model of a given depth;
* `leastQuotient`: the quotient of the two sizes from which on a number of the 32 layers is reached.

## Main results

* `le_computeGpuLayers_iff`: which sizes give a number of layers;
* `memorySafe_iff`: the layers fit when none is offloaded, for more than 32 layers, or when the
  quotient stays below the one that gives a layer too many;
* `lt_leastQuotient_iff`: for sizes up to 2^48 no rounding shows;
* `not_memorySafe`: a model of eight layers.
-/

namespace HeteroAccel.Scheduler

open Lib.Rounding (binary64)
open Mem (PressureLevel)
open Planner (ExecutionStrategy)
open Profiler (HistoricalStats)
open HeteroAccel.Runtime (WorkloadClass)

/-- The place of a level in the enumeration. -/
def severity : PressureLevel → ℕ
  | .normal => 0
  | .warning => 1
  | .high => 2
  | .critical => 3

/-- `toString` of a strategy. -/
def strategyName : ExecutionStrategy → String
  | .auto => "AUTO"
  | .fullResident => "FULL_RESIDENT"
  | .partialResident => "PARTIAL_RESIDENT"
  | .streaming => "STREAMING"
  | .memoryPressure => "MEMORY_PRESSURE"
  | .cpuFallback => "CPU_FALLBACK"
  | .acceleratorOffload => "ACCELERATOR_OFFLOAD"
  | .hybrid => "HYBRID"

/-- The conversion of a size or a count to a double. -/
def toDouble (n : UInt64) : ℚ := binary64.round n.toNat

/-- `HistoricalStats::reliability`. -/
def reliability (hist : HistoricalStats ℚ) : ℚ :=
  if hist.sampleCount = 0 then 1
  else
    let failRate := binary64.round (toDouble hist.failureCount / toDouble hist.sampleCount)
    binary64.round (1 - failRate)

/-- What the decision is made on. -/
structure PolicyInput where
  modelSizeBytes : UInt64 := 0
  availableGpuMem : UInt64 := 0
  memoryPressure : PressureLevel := .normal
  gpuAvailable : Bool := false
  wclass : WorkloadClass := .default
  activeWorkloadCount : ℤ := 0

/-- The strategy, with what follows from it and the reason. -/
structure PolicyDecision where
  strategy : ExecutionStrategy := .auto
  nGpuLayers : ℤ := 99
  nThreads : ℤ := 4
  prefetchDistance : ℤ := 1
  streamingEnabled : Bool := true
  reason : String := ""
  deriving DecidableEq, Repr

namespace ExecutionPolicyEngine

/-- The part of the GPU memory that a model may take to go there as a whole, 0.85 as a double. -/
def kFullResidentThreshold : ℚ := binary64.round (85 / 100)

/-- The part of the model that has to fit for some layers to go there, 0.15 as a double. -/
def kPartialResidentMin : ℚ := binary64.round (15 / 100)

/-- The quotient of the two sizes, as a double. -/
def memoryFraction (gpuMemBytes modelSizeBytes : UInt64) : ℚ :=
  binary64.round (toDouble gpuMemBytes / toDouble modelSizeBytes)

/-- `computeGpuLayers`. -/
def computeGpuLayers (modelSizeBytes gpuMemBytes : UInt64) (totalLayers : ℤ) : ℤ :=
  if gpuMemBytes = 0 || totalLayers = 0 then 0
  else if modelSizeBytes = 0 then totalLayers
  else
    let fraction := memoryFraction gpuMemBytes modelSizeBytes
    let fraction := min fraction 1
    ⌊binary64.round (fraction * totalLayers)⌋

/-- `adaptivePrefetchDistance`. -/
def adaptivePrefetchDistance (pressure : PressureLevel) (baseDistance : ℤ) : ℤ :=
  match pressure with
  | .normal => max 1 baseDistance
  | .warning => max 1 (baseDistance.tdiv 2)
  | .high => 1
  | .critical => 0

/-- The highest of the pressures of the memory manager and the one that the caller supplies. -/
def pressureOf (gpuPressure cpuPressure : PressureLevel) (input : PolicyInput) : PressureLevel :=
  let pressure := if severity gpuPressure > severity cpuPressure then gpuPressure else cpuPressure
  if severity input.memoryPressure > severity pressure then input.memoryPressure else pressure

/-- `history_suggests_cpu`. -/
def historySuggestsCpu (hist : HistoricalStats ℚ) : Bool :=
  hist.sampleCount > 3 && hist.regressionDetected && decide (reliability hist < 5 / 10)

/-- The decision on the sizes. -/
def decideBySize (pressure : PressureLevel) (input : PolicyInput) : PolicyDecision :=
  let gpuMem := input.availableGpuMem
  let modelSz := input.modelSizeBytes
  if modelSz = 0 ||
      (gpuMem > 0 &&
        (modelSz.toNat : ℤ) ≤ ⌊binary64.round (toDouble gpuMem * kFullResidentThreshold)⌋) then
    { strategy := .fullResident
      nGpuLayers := 99
      nThreads := 4
      streamingEnabled := false
      prefetchDistance := 0
      reason := "Model fits fully in GPU mem -> FULL_RESIDENT" }
  else if gpuMem > 0 && modelSz > 0 &&
      decide (memoryFraction gpuMem modelSz ≥ kPartialResidentMin) then
    let gpuLayers := computeGpuLayers modelSz gpuMem 32
    let strategy :=
      if severity pressure ≥ severity .high then .memoryPressure else .partialResident
    { strategy
      nGpuLayers := gpuLayers
      nThreads := 4
      streamingEnabled := true
      prefetchDistance := adaptivePrefetchDistance pressure 2
      reason := "Model partially fits (" ++ toString gpuMem ++ "/" ++ toString modelSz ++ ") -> " ++
        strategyName strategy ++ " layers=" ++ toString gpuLayers }
  else
    { strategy := .streaming
      nGpuLayers := 0
      nThreads := 6
      streamingEnabled := true
      prefetchDistance := adaptivePrefetchDistance pressure 1
      reason := "Model too large for GPU -> STREAMING" }

/-- The adjustment for the class of the workload. -/
def adjustForClass (wclass : WorkloadClass) (decision : PolicyDecision) : PolicyDecision :=
  if wclass = .background ∨ wclass = .batch then
    { decision with
      nThreads := max 2 (decision.nThreads - 2)
      reason := decision.reason ++ " [bg/batch: reduced threads]" }
  else if wclass = .interactive ∨ wclass = .lowLatency then
    { decision with
      reason := decision.reason ++
        " [interactive: maximise responsiveness within policy ceiling]" }
  else decision

/-- The adjustment for several workloads. -/
def adjustForContention (pressure : PressureLevel) (activeWorkloadCount : ℤ)
    (decision : PolicyDecision) : PolicyDecision :=
  if activeWorkloadCount > 1 ∧ severity pressure ≥ severity .warning then
    { decision with
      prefetchDistance := max 0 (decision.prefetchDistance - 1)
      reason := decision.reason ++ " [contention: reduced prefetch]" }
  else decision

/-- `selectStrategy`; `showDouble` is the text of a double. -/
def selectStrategy (showDouble : ℚ → String) (gpuPressure cpuPressure : PressureLevel)
    (hist : HistoricalStats ℚ) (input : PolicyInput) : PolicyDecision :=
  let pressure := pressureOf gpuPressure cpuPressure input
  if pressure = .critical then
    { strategy := .cpuFallback
      nGpuLayers := 0
      nThreads := 4
      streamingEnabled := true
      prefetchDistance := 0
      reason := "CRITICAL memory pressure -> CPU_FALLBACK" }
  else if !input.gpuAvailable then
    { strategy := .cpuFallback
      nGpuLayers := 0
      nThreads := 8
      streamingEnabled := true
      prefetchDistance := adaptivePrefetchDistance pressure 2
      reason := "No GPU available -> CPU_FALLBACK" }
  else if historySuggestsCpu hist then
    { strategy := .cpuFallback
      nGpuLayers := 0
      nThreads := 8
      streamingEnabled := true
      prefetchDistance := adaptivePrefetchDistance pressure 2
      reason := "Phase8 history: GPU unreliable (reliability=" ++ showDouble (reliability hist) ++
        ") -> CPU_FALLBACK" }
  else
    adjustForContention pressure input.activeWorkloadCount
      (adjustForClass input.wclass (decideBySize pressure input))

/-! ## The property -/

/-- The layers that go to the GPU fit: `nGpuLayers` of them, or all of the model's. -/
def MemorySafe (nGpuLayers : ℤ) (layers : ℕ) (modelSizeBytes gpuMem : UInt64) : Prop :=
  min nGpuLayers layers * modelSizeBytes.toNat ≤ layers * gpuMem.toNat

/-- What leads to layers on the GPU: nothing speaks for the CPU, and 15% of the model fit. -/
structure Offloads (gpuPressure cpuPressure : PressureLevel) (hist : HistoricalStats ℚ)
    (input : PolicyInput) : Prop where
  pressure : pressureOf gpuPressure cpuPressure input ≠ .critical
  gpu : input.gpuAvailable = true
  history : historySuggestsCpu hist = false
  size : kPartialResidentMin ≤ memoryFraction input.availableGpuMem input.modelSizeBytes

/-- The least quotient of the sizes that gives `j` of 32 layers: half a unit in the last place below
`j / 32`. -/
def leastQuotient (j : ℕ) : ℚ := j / 32 - 2 ^ Nat.log2 (j - 1) / 2 ^ 58

/-! ## Sizes as doubles -/

section Doubles

variable {modelSizeBytes gpuMemBytes : UInt64}

/-- A size as a double is right to 53 bits. -/
theorem abs_toDouble_sub_le (n : UInt64) : |toDouble n - n.toNat| ≤ n.toNat / 2 ^ 53 := by
  rcases Nat.eq_zero_or_pos n.toNat with hzero | hpos
  · simp [toDouble, hzero]
  · apply binary64.abs_round_sub_le
    have hone : (1 : ℚ) ≤ n.toNat := by exact_mod_cast hpos
    exact le_trans (zpow_le_one_of_nonpos₀ one_le_two (by decide)) hone

/-- A size up to 2^53 is kept. -/
theorem toDouble_eq {n : UInt64} (h : n.toNat ≤ 2 ^ 53) : toDouble n = n.toNat :=
  binary64.round_of_representable (binary64.representable_natCast h (by decide))

/-- A size is not negative as a double. -/
theorem toDouble_nonneg (n : UInt64) : 0 ≤ toDouble n := by
  have herr := (abs_le.mp (abs_toDouble_sub_le n)).1
  have hnonneg : (0 : ℚ) ≤ n.toNat := Nat.cast_nonneg _
  linarith

/-- A size that is not zero is one at least. -/
theorem one_le_toNat {n : UInt64} (h : n ≠ 0) : (1 : ℚ) ≤ n.toNat := by
  exact_mod_cast UInt64.lt_iff_toNat_lt.mp (UInt64.pos_iff_ne_zero.mpr h)

/-- A size that is not zero is positive as a double. -/
theorem toDouble_pos {n : UInt64} (h : n ≠ 0) : 0 < toDouble n := by
  have herr := (abs_le.mp (abs_toDouble_sub_le n)).1
  have hone := one_le_toNat h
  linarith

/-- The quotient of the sizes is rounded to 53 bits. -/
theorem abs_memoryFraction_sub_le (hgpu : gpuMemBytes ≠ 0) (hmodel : modelSizeBytes ≠ 0) :
    |memoryFraction gpuMemBytes modelSizeBytes - toDouble gpuMemBytes / toDouble modelSizeBytes| ≤
      toDouble gpuMemBytes / toDouble modelSizeBytes / 2 ^ 53 := by
  apply binary64.abs_round_sub_le
  have hnum := (abs_le.mp (abs_toDouble_sub_le gpuMemBytes)).1
  have hden := (abs_le.mp (abs_toDouble_sub_le modelSizeBytes)).2
  have hone := one_le_toNat hgpu
  have hmax : (modelSizeBytes.toNat : ℚ) ≤ 2 ^ 64 := by exact_mod_cast modelSizeBytes.toNat_lt.le
  -- the sizes have 64 bits, so the quotient is far above the subnormal numbers
  calc (2 : ℚ) ^ (binary64.minExponent + (binary64.precision - 1)) ≤ 2 ^ (-66 : ℤ) :=
        zpow_le_zpow_right₀ one_le_two (by decide)
    _ = 1 / 2 / 2 ^ 65 := by norm_num
    _ ≤ toDouble gpuMemBytes / toDouble modelSizeBytes := by
        apply div_le_div₀ (by linarith) (by linarith) (toDouble_pos hmodel)
        linarith

/-- The least part of the model is 0.15 to 53 bits. -/
theorem abs_kPartialResidentMin_sub_le : |kPartialResidentMin - 15 / 100| ≤ 15 / 100 / 2 ^ 53 := by
  apply binary64.abs_round_sub_le
  calc (2 : ℚ) ^ (binary64.minExponent + (binary64.precision - 1)) ≤ 2 ^ (-3 : ℤ) :=
        zpow_le_zpow_right₀ one_le_two (by decide)
    _ ≤ 15 / 100 := by norm_num

/-- The greatest part of the GPU memory is 0.85 to 53 bits. -/
theorem abs_kFullResidentThreshold_sub_le :
    |kFullResidentThreshold - 85 / 100| ≤ 85 / 100 / 2 ^ 53 := by
  apply binary64.abs_round_sub_le
  calc (2 : ℚ) ^ (binary64.minExponent + (binary64.precision - 1)) ≤ 2 ^ (-1 : ℤ) :=
        zpow_le_zpow_right₀ one_le_two (by decide)
    _ ≤ 85 / 100 := by norm_num

/-- A model that is larger than the GPU memory does not go there as a whole. -/
theorem floor_kFullResidentThreshold_lt (hlt : gpuMemBytes < modelSizeBytes) :
    ⌊binary64.round (toDouble gpuMemBytes * kFullResidentThreshold)⌋ < modelSizeBytes.toNat := by
  have hlt' : (gpuMemBytes.toNat : ℚ) < modelSizeBytes.toNat := by
    exact_mod_cast UInt64.lt_iff_toNat_lt.mp hlt
  rw [Int.floor_lt, Int.cast_natCast]
  refine lt_of_le_of_lt ?_ hlt'
  by_cases hgpu : gpuMemBytes = 0
  · simp [hgpu, toDouble]
  have hthreshold := abs_le.mp abs_kFullResidentThreshold_sub_le
  have hnum := abs_le.mp (abs_toDouble_sub_le gpuMemBytes)
  have hone := one_le_toNat hgpu
  -- three roundings of 53 bits do not make up for the 15% that have to stay free
  have hproduct : toDouble gpuMemBytes * kFullResidentThreshold ≤ 9 / 10 * gpuMemBytes.toNat := by
    calc toDouble gpuMemBytes * kFullResidentThreshold
        ≤ ((1 + 1 / 2 ^ 53) * gpuMemBytes.toNat) * (86 / 100) := by
          apply mul_le_mul _ (by linarith) (by linarith) (by positivity)
          linarith
      _ ≤ 9 / 10 * gpuMemBytes.toNat := by linarith
  have hlow : (1 : ℚ) / 2 ^ 2 ≤ toDouble gpuMemBytes * kFullResidentThreshold := by
    calc (1 : ℚ) / 2 ^ 2 = 1 / 2 * (1 / 2) := by norm_num
      _ ≤ toDouble gpuMemBytes * kFullResidentThreshold := by
          apply mul_le_mul <;> linarith
  have herr := abs_le.mp (binary64.abs_round_sub_le (q := toDouble gpuMemBytes *
    kFullResidentThreshold) (le_trans (zpow_le_zpow_right₀ one_le_two (n := -2) (by decide))
      (by norm_num at hlow ⊢; exact hlow)))
  have hbits : toDouble gpuMemBytes * kFullResidentThreshold / 2 ^ binary64.precision ≤
      toDouble gpuMemBytes * kFullResidentThreshold / 2 ^ 4 := by
    apply div_le_div_of_nonneg_left (by linarith) (by norm_num)
    exact pow_le_pow_right₀ one_le_two (by decide)
  linarith

end Doubles

/-! ## The number of layers -/

section Layers

variable {showDouble : ℚ → String} {gpuPressure cpuPressure pressure : PressureLevel}
  {hist : HistoricalStats ℚ} {input : PolicyInput} {modelSizeBytes gpuMemBytes : UInt64}

/-- The product with 32 is not rounded. -/
theorem computeGpuLayers_eq (hgpu : gpuMemBytes ≠ 0) (hmodel : modelSizeBytes ≠ 0) :
    computeGpuLayers modelSizeBytes gpuMemBytes 32 =
      ⌊min (memoryFraction gpuMemBytes modelSizeBytes) 1 * 32⌋ := by
  have hmin : binary64.Representable (min (memoryFraction gpuMemBytes modelSizeBytes) 1) := by
    rcases min_choice (memoryFraction gpuMemBytes modelSizeBytes) 1 with h | h <;> rw [h]
    · exact binary64.representable_round _
    · exact_mod_cast binary64.representable_natCast (n := 1) (by decide) (by decide)
  have hproduct := binary64.round_of_representable (hmin.mul_two_pow 5)
  rw [computeGpuLayers, if_neg (by simp [hgpu]), if_neg hmodel]
  norm_num at hproduct ⊢
  rw [hproduct]

/-- A part `j / 32` of the model is reached from half a unit in the last place below it on. -/
theorem le_memoryFraction_iff {j k : ℕ} (hlow : 2 ^ k < j) (hhigh : j ≤ 2 ^ (k + 1)) (hk : k ≤ 4) :
    (j / 32 : ℚ) ≤ memoryFraction gpuMemBytes modelSizeBytes ↔
      (j / 32 - 2 ^ k / 2 ^ 58 : ℚ) ≤ toDouble gpuMemBytes / toDouble modelSizeBytes := by
  have hnonneg : 0 ≤ toDouble gpuMemBytes / toDouble modelSizeBytes := by
    apply div_nonneg <;> exact toDouble_nonneg _
  -- `j / 32` with 53 bits before the exponent
  have hunit : (2 : ℚ) ^ ((k : ℤ) - 57) = 2 ^ k / 2 ^ 57 := by
    rw [zpow_sub₀ two_ne_zero, zpow_natCast]
    rfl
  have hpow : (2 : ℤ) ^ k * 2 ^ (52 - k) = 2 ^ 52 := by
    rw [← pow_add, Nat.add_sub_cancel' (by omega)]
  have hpowQ : (2 : ℚ) ^ k * 2 ^ (52 - k) = 2 ^ 52 := by exact_mod_cast hpow
  have hbits : (0 : ℤ) < 2 ^ (52 - k) := pow_pos two_pos _
  have hround := binary64.le_round_iff (n := j * 2 ^ (52 - k)) (e := k - 57)
    (q := toDouble gpuMemBytes / toDouble modelSizeBytes)
    ((even_two.pow_of_ne_zero (by omega)).mul_left _)
    (by
      have hmul := mul_lt_mul_of_pos_right (show (2 : ℤ) ^ k < j by exact_mod_cast hlow) hbits
      rwa [hpow] at hmul)
    (by
      have hmul := mul_le_mul_of_nonneg_right
        (show (j : ℤ) ≤ 2 ^ (k + 1) by exact_mod_cast hhigh) hbits.le
      rwa [pow_succ, mul_right_comm, hpow] at hmul)
    (show (-1074 : ℤ) ≤ k - 57 by omega) hnonneg
  have hthreshold : ((j * 2 ^ (52 - k) : ℤ) : ℚ) * 2 ^ ((k : ℤ) - 57) = j / 32 := by
    rw [hunit]
    push_cast
    calc (j : ℚ) * 2 ^ (52 - k) * (2 ^ k / 2 ^ 57)
        = (j : ℚ) * (2 ^ k * 2 ^ (52 - k)) / 2 ^ 57 := by ring
      _ = (j : ℚ) / 32 := by rw [hpowQ]; ring
  rw [sub_mul, hthreshold, hunit] at hround
  rw [memoryFraction, hround]
  ring_nf

/-- A number of layers is reached from its least quotient on. -/
theorem le_computeGpuLayers_iff {j : ℕ} (hgpu : gpuMemBytes ≠ 0) (hmodel : modelSizeBytes ≠ 0)
    (hlow : 2 ≤ j) (hhigh : j ≤ 32) :
    (j : ℤ) ≤ computeGpuLayers modelSizeBytes gpuMemBytes 32 ↔
      leastQuotient j ≤ toDouble gpuMemBytes / toDouble modelSizeBytes := by
  have hj : (j : ℚ) ≤ 32 := by exact_mod_cast hhigh
  have hpart : (j : ℚ) ≤ min (memoryFraction gpuMemBytes modelSizeBytes) 1 * 32 ↔
      (j / 32 : ℚ) ≤ memoryFraction gpuMemBytes modelSizeBytes := by
    rw [← div_le_iff₀ (by norm_num), le_min_iff, and_iff_left]
    linarith
  have hbits : 2 ^ Nat.log2 (j - 1) ≤ j - 1 := Nat.log2_self_le (by omega)
  rw [computeGpuLayers_eq hgpu hmodel, Int.le_floor, Int.cast_natCast, hpart]
  apply le_memoryFraction_iff (by omega)
  · have hlt := Nat.lt_log2_self (n := j - 1)
    omega
  · exact Nat.lt_succ_iff.mp ((Nat.log2_lt (by omega)).mpr (by omega))

/-- The least quotient is below the part of the layers. -/
theorem leastQuotient_le (j : ℕ) : leastQuotient j ≤ j / 32 :=
  sub_le_self _ (by positivity)

/-- If 15% of the model fit, by the rounded numbers, a seventh of it does. -/
theorem one_div_seven_le (hgpu : gpuMemBytes ≠ 0) (hmodel : modelSizeBytes ≠ 0)
    (hsize : kPartialResidentMin ≤ memoryFraction gpuMemBytes modelSizeBytes) :
    1 / 7 ≤ toDouble gpuMemBytes / toDouble modelSizeBytes := by
  have hmin := (abs_le.mp abs_kPartialResidentMin_sub_le).1
  have hfraction := (abs_le.mp (abs_memoryFraction_sub_le hgpu hmodel)).2
  linarith

/-- If 15% of the model fit, each number of layers is reached from its least quotient on, the first
layer included. -/
theorem le_computeGpuLayers_iff_of_size {j : ℕ} (hgpu : gpuMemBytes ≠ 0)
    (hmodel : modelSizeBytes ≠ 0)
    (hsize : kPartialResidentMin ≤ memoryFraction gpuMemBytes modelSizeBytes)
    (hlow : 1 ≤ j) (hhigh : j ≤ 32) :
    (j : ℤ) ≤ computeGpuLayers modelSizeBytes gpuMemBytes 32 ↔
      leastQuotient j ≤ toDouble gpuMemBytes / toDouble modelSizeBytes := by
  rcases hlow.eq_or_lt with rfl | hmore
  · -- one layer takes 1/32 of the model
    have hseventh := one_div_seven_le hgpu hmodel hsize
    have hmin := (abs_le.mp abs_kPartialResidentMin_sub_le).1
    refine iff_of_true ?_ ?_
    · rw [computeGpuLayers_eq hgpu hmodel, Int.le_floor, Nat.cast_one, Int.cast_one,
        ← div_le_iff₀ (by norm_num), le_min_iff]
      constructor <;> linarith
    · have hleast := leastQuotient_le 1
      rw [Nat.cast_one] at hleast
      linarith
  · exact le_computeGpuLayers_iff hgpu hmodel hmore hhigh

/-- The layers that go to the GPU take 33 parts of 32 of its memory at most. -/
theorem computeGpuLayers_mul_le (hgpu : gpuMemBytes ≠ 0) (hmodel : modelSizeBytes ≠ 0) :
    (computeGpuLayers modelSizeBytes gpuMemBytes 32 : ℚ) * modelSizeBytes.toNat ≤
      33 * gpuMemBytes.toNat := by
  have hfraction := (abs_le.mp (abs_memoryFraction_sub_le hgpu hmodel)).2
  have hnum := (abs_le.mp (abs_toDouble_sub_le gpuMemBytes)).2
  have hden := (abs_le.mp (abs_toDouble_sub_le modelSizeBytes)).1
  have hpos := toDouble_pos hmodel
  have hmodelOne := one_le_toNat hmodel
  have hfloor : (computeGpuLayers modelSizeBytes gpuMemBytes 32 : ℚ) ≤
      32 * memoryFraction gpuMemBytes modelSizeBytes := by
    have hle := Int.floor_le (min (memoryFraction gpuMemBytes modelSizeBytes) 1 * 32)
    have hmin := min_le_left (memoryFraction gpuMemBytes modelSizeBytes) 1
    rw [computeGpuLayers_eq hgpu hmodel]
    linarith
  -- the quotient, with the rounding of the quotient and of the memory
  have hquotient : memoryFraction gpuMemBytes modelSizeBytes * toDouble modelSizeBytes ≤
      (1 + 1 / 2 ^ 53) * ((1 + 1 / 2 ^ 53) * gpuMemBytes.toNat) := by
    calc memoryFraction gpuMemBytes modelSizeBytes * toDouble modelSizeBytes
        ≤ (1 + 1 / 2 ^ 53) * (toDouble gpuMemBytes / toDouble modelSizeBytes) *
            toDouble modelSizeBytes := mul_le_mul_of_nonneg_right (by linarith) hpos.le
      _ = (1 + 1 / 2 ^ 53) * toDouble gpuMemBytes := by
          rw [mul_assoc, div_mul_cancel₀ _ hpos.ne']
      _ ≤ (1 + 1 / 2 ^ 53) * ((1 + 1 / 2 ^ 53) * gpuMemBytes.toNat) :=
          mul_le_mul_of_nonneg_left (by linarith) (by norm_num)
  -- the rounding of the model's size
  have hmodelSize : (1 - 1 / 2 ^ 53) * modelSizeBytes.toNat ≤ toDouble modelSizeBytes := by linarith
  have hfractionNonneg : 0 ≤ memoryFraction gpuMemBytes modelSizeBytes := by
    have herr := (abs_le.mp (abs_memoryFraction_sub_le hgpu hmodel)).1
    have hnonneg := div_nonneg (toDouble_nonneg gpuMemBytes) (toDouble_nonneg modelSizeBytes)
    linarith
  have hscaled := mul_le_mul_of_nonneg_left hmodelSize hfractionNonneg
  have hlayers := mul_le_mul_of_nonneg_right hfloor (zero_le_one.trans hmodelOne)
  have hgpuOne := one_le_toNat hgpu
  linarith

/-- Without GPU memory no part of the model fits. -/
theorem gpu_ne_zero_of_size
    (hsize : kPartialResidentMin ≤ memoryFraction gpuMemBytes modelSizeBytes) :
    gpuMemBytes ≠ 0 := by
  rintro rfl
  have hmin := (abs_le.mp abs_kPartialResidentMin_sub_le).1
  have hzero : memoryFraction 0 modelSizeBytes = 0 := by simp [memoryFraction, toDouble]
  linarith

/-- The larger of two sizes is not zero. -/
theorem model_ne_zero_of_lt (hlt : gpuMemBytes < modelSizeBytes) : modelSizeBytes ≠ 0 := by
  rintro rfl
  exact absurd (UInt64.lt_iff_toNat_lt.mp hlt) (Nat.not_lt_zero _)

/-- The decision on the sizes offloads a part of 32 layers of a model that is larger than the GPU
memory, if 15% of it fit. -/
theorem nGpuLayers_decideBySize (hlt : input.availableGpuMem < input.modelSizeBytes) :
    (decideBySize pressure input).nGpuLayers =
      if kPartialResidentMin ≤ memoryFraction input.availableGpuMem input.modelSizeBytes then
        computeGpuLayers input.modelSizeBytes input.availableGpuMem 32
      else 0 := by
  have hmodel := model_ne_zero_of_lt hlt
  have hfull := not_le.mpr (floor_kFullResidentThreshold_lt hlt)
  rw [decideBySize]
  dsimp only
  rw [if_neg (by simp [hmodel, hfull])]
  by_cases hsize : kPartialResidentMin ≤ memoryFraction input.availableGpuMem input.modelSizeBytes
  · have hgpu := gpu_ne_zero_of_size hsize
    rw [if_pos hsize, if_pos (by simp [UInt64.pos_iff_ne_zero, hgpu, hmodel, hsize])]
  · rw [if_neg hsize, if_neg (by simp [hsize])]

/-- The adjustments keep the number of layers. -/
theorem nGpuLayers_adjust (wclass : WorkloadClass) (activeWorkloadCount : ℤ)
    (decision : PolicyDecision) :
    (adjustForContention pressure activeWorkloadCount
      (adjustForClass wclass decision)).nGpuLayers = decision.nGpuLayers := by
  unfold adjustForContention adjustForClass
  split_ifs <;> rfl

/-- When nothing speaks against it, a part of 32 layers is offloaded. -/
theorem nGpuLayers_of_offloads (h : Offloads gpuPressure cpuPressure hist input)
    (hlt : input.availableGpuMem < input.modelSizeBytes) :
    (selectStrategy showDouble gpuPressure cpuPressure hist input).nGpuLayers =
      computeGpuLayers input.modelSizeBytes input.availableGpuMem 32 := by
  unfold selectStrategy
  dsimp only
  rw [if_neg h.pressure, if_neg (by simp [h.gpu]), if_neg (by simp [h.history]),
    nGpuLayers_adjust, nGpuLayers_decideBySize hlt, if_pos h.size]

/-- Otherwise no layer is. -/
theorem nGpuLayers_of_not_offloads (h : ¬Offloads gpuPressure cpuPressure hist input)
    (hlt : input.availableGpuMem < input.modelSizeBytes) :
    (selectStrategy showDouble gpuPressure cpuPressure hist input).nGpuLayers = 0 := by
  unfold selectStrategy
  dsimp only
  split_ifs with hcritical hgpu hhist
  · rfl
  · rfl
  · rfl
  · rw [nGpuLayers_adjust, nGpuLayers_decideBySize hlt, if_neg]
    intro hsize
    exact h ⟨hcritical, by simpa using hgpu, by simpa using hhist, hsize⟩

/-- For a model that does not fit as a whole, a number of layers beyond the depth never fits. -/
theorem memorySafe_iff_mul_le {n : ℤ} {layers : ℕ} (hlt : gpuMemBytes < modelSizeBytes)
    (hlayers : 1 ≤ layers) :
    MemorySafe n layers modelSizeBytes gpuMemBytes ↔
      n * modelSizeBytes.toNat ≤ layers * gpuMemBytes.toNat := by
  have hlt' : (gpuMemBytes.toNat : ℤ) < modelSizeBytes.toNat := by
    exact_mod_cast UInt64.lt_iff_toNat_lt.mp hlt
  rw [MemorySafe]
  rcases le_total n layers with hle | hle
  · rw [min_eq_left hle]
  · have hall : (layers * gpuMemBytes.toNat : ℤ) < layers * modelSizeBytes.toNat :=
      mul_lt_mul_of_pos_left hlt' (by exact_mod_cast hlayers)
    have hmore : (layers * modelSizeBytes.toNat : ℤ) ≤ n * modelSizeBytes.toNat :=
      mul_le_mul_of_nonneg_right hle (Nat.cast_nonneg _)
    rw [min_eq_right hle]
    exact iff_of_false (by omega) (by omega)

/-- Not all layers of a model that does not fit as a whole fit. -/
theorem div_lt_layers {layers : ℕ} (hlt : gpuMemBytes < modelSizeBytes) (hlayers : 1 ≤ layers) :
    layers * gpuMemBytes.toNat / modelSizeBytes.toNat < layers := by
  have hlt' := UInt64.lt_iff_toNat_lt.mp hlt
  rw [Nat.div_lt_iff_lt_mul (by omega)]
  exact Nat.mul_lt_mul_of_pos_left hlt' hlayers

/-- The layers that fit, and the first that does not. -/
theorem mul_le_iff_not_le {n : ℤ} {modelSize gpuMem layers : ℕ} (hmodel : 0 < modelSize) :
    n * modelSize ≤ layers * gpuMem ↔ ¬((layers * gpuMem / modelSize + 1 : ℕ) : ℤ) ≤ n := by
  rw [← Int.le_ediv_iff_mul_le (by exact_mod_cast hmodel)]
  push_cast
  omega

end Layers

/-- **Memory safety.** For a model that is larger than the GPU memory, in layers of equal size, the
layers that go to the GPU fit exactly when none goes there, the model has more than 32 layers, or
the quotient of the sizes is below the least that gives one layer more than fit. -/
theorem memorySafe_iff (showDouble : ℚ → String) (gpuPressure cpuPressure : PressureLevel)
    (hist : HistoricalStats ℚ) (input : PolicyInput) {layers : ℕ} (hlayers : 1 ≤ layers)
    (hlt : input.availableGpuMem < input.modelSizeBytes) :
    MemorySafe (selectStrategy showDouble gpuPressure cpuPressure hist input).nGpuLayers layers
        input.modelSizeBytes input.availableGpuMem ↔
      ¬Offloads gpuPressure cpuPressure hist input ∨ 33 ≤ layers ∨
        toDouble input.availableGpuMem / toDouble input.modelSizeBytes <
          leastQuotient
            (layers * input.availableGpuMem.toNat / input.modelSizeBytes.toNat + 1) := by
  have hmodel := model_ne_zero_of_lt hlt
  rw [memorySafe_iff_mul_le hlt hlayers]
  by_cases hoff : Offloads gpuPressure cpuPressure hist input
  · have hgpu := gpu_ne_zero_of_size hoff.size
    rw [nGpuLayers_of_offloads hoff hlt, or_iff_right (not_not.mpr hoff)]
    by_cases hdeep : 33 ≤ layers
    · -- the rounding stays below the share of one layer more
      refine iff_of_true ?_ (.inl hdeep)
      have hbound := computeGpuLayers_mul_le hgpu hmodel
      have hmore : (33 * input.availableGpuMem.toNat : ℤ) ≤ layers * input.availableGpuMem.toNat :=
        mul_le_mul_of_nonneg_right (by exact_mod_cast hdeep) (Nat.cast_nonneg _)
      exact le_trans (by exact_mod_cast hbound) hmore
    · -- few layers: unsafe exactly where the quotient rounds up to one layer more
      have hfew := Nat.succ_le_of_lt
        ((div_lt_layers hlt hlayers).trans_le (Nat.lt_succ_iff.mp (not_le.mp hdeep)))
      rw [or_iff_right hdeep,
        mul_le_iff_not_le (UInt64.lt_iff_toNat_lt.mp (UInt64.pos_iff_ne_zero.mpr hmodel)),
        le_computeGpuLayers_iff_of_size hgpu hmodel hoff.size (Nat.le_add_left 1 _) hfew, not_le]
  · rw [nGpuLayers_of_not_offloads hoff hlt, zero_mul]
    exact iff_of_true (by positivity) (.inl hoff)

/-- For sizes up to 2^48 the rounding does not show: the quotient is below the least one exactly
when it is below `j` parts of 32. -/
theorem lt_leastQuotient_iff {modelSizeBytes gpuMemBytes : UInt64} {j : ℕ}
    (hmodel : modelSizeBytes ≠ 0) (hgpuSize : gpuMemBytes.toNat ≤ 2 ^ 48)
    (hmodelSize : modelSizeBytes.toNat ≤ 2 ^ 48) (hj : j ≤ 32) :
    toDouble gpuMemBytes / toDouble modelSizeBytes < leastQuotient j ↔
      32 * gpuMemBytes.toNat < j * modelSizeBytes.toNat := by
  have hpos : (0 : ℚ) < modelSizeBytes.toNat := zero_lt_one.trans_le (one_le_toNat hmodel)
  have hgap : (2 : ℚ) ^ Nat.log2 (j - 1) ≤ 2 ^ 4 := by
    refine pow_le_pow_right₀ one_le_two ?_
    by_cases hzero : j - 1 = 0
    · simp [hzero]
    · exact Nat.lt_succ_iff.mp ((Nat.log2_lt hzero).mpr (by omega))
  rw [toDouble_eq (by omega), toDouble_eq (by omega), leastQuotient, div_lt_iff₀ hpos]
  constructor
  · intro hlt
    have hbelow : (32 * gpuMemBytes.toNat : ℚ) < j * modelSizeBytes.toNat := by
      have hnonneg : 0 ≤ (2 : ℚ) ^ Nat.log2 (j - 1) / 2 ^ 58 * modelSizeBytes.toNat := by positivity
      linarith
    exact_mod_cast hbelow
  · intro hlt
    -- the numbers differ by one at least, which is more than the gap of the doubles
    have hone : (32 * gpuMemBytes.toNat + 1 : ℚ) ≤ j * modelSizeBytes.toNat := by
      exact_mod_cast hlt
    have hsmall : (2 : ℚ) ^ Nat.log2 (j - 1) / 2 ^ 58 * modelSizeBytes.toNat ≤
        2 ^ 4 / 2 ^ 58 * 2 ^ 48 := by
      apply mul_le_mul _ (by exact_mod_cast hmodelSize) hpos.le (by norm_num)
      exact div_le_div_of_nonneg_right hgap (by norm_num)
    linarith

/-- Half of the model is more than the least part. -/
theorem kPartialResidentMin_le {modelSizeBytes gpuMemBytes : UInt64} (hgpu : gpuMemBytes ≠ 0)
    (hmodel : modelSizeBytes ≠ 0)
    (hhalf : 1 / 2 ≤ toDouble gpuMemBytes / toDouble modelSizeBytes) :
    kPartialResidentMin ≤ memoryFraction gpuMemBytes modelSizeBytes := by
  have hmin := (abs_le.mp abs_kPartialResidentMin_sub_le).2
  have hfraction := (abs_le.mp (abs_memoryFraction_sub_le hgpu hmodel)).1
  linarith

/-- Two sizes with the same double, such as 2^60 - 1 and 2^60, offload 32 layers, which is all of a
model that has no more. -/
theorem not_memorySafe_of_toDouble_eq {showDouble : ℚ → String}
    {gpuPressure cpuPressure : PressureLevel} {hist : HistoricalStats ℚ} {input : PolicyInput}
    {layers : ℕ} (hlayers : 1 ≤ layers) (hfew : layers ≤ 32)
    (hlt : input.availableGpuMem < input.modelSizeBytes)
    (hsame : toDouble input.availableGpuMem = toDouble input.modelSizeBytes)
    (hoff : Offloads gpuPressure cpuPressure hist input) :
    ¬MemorySafe (selectStrategy showDouble gpuPressure cpuPressure hist input).nGpuLayers layers
        input.modelSizeBytes input.availableGpuMem := by
  have hmodel := model_ne_zero_of_lt hlt
  have hdepth : ((layers * input.availableGpuMem.toNat / input.modelSizeBytes.toNat + 1 : ℕ) : ℚ) ≤
      32 := by exact_mod_cast (Nat.succ_le_of_lt (div_lt_layers hlt hlayers)).trans hfew
  rw [memorySafe_iff showDouble gpuPressure cpuPressure hist input hlayers hlt, hsame,
    div_self (toDouble_pos hmodel).ne']
  rintro (hnot | hdeep | hbelow)
  · exact hnot hoff
  · omega
  · have hleast := leastQuotient_le
      (layers * input.availableGpuMem.toNat / input.modelSizeBytes.toNat + 1)
    linarith

/-- A model of two bytes in 32 layers with one byte of GPU memory: 16 of its layers go there. -/
theorem memorySafe_halfOf32 :
    MemorySafe (selectStrategy (fun _ => "") .normal .normal noStats
        { modelSizeBytes := 2, availableGpuMem := 1, gpuAvailable := true }).nGpuLayers 32 2 1 :=
  (memorySafe_iff (fun _ => "") .normal .normal noStats
    { modelSizeBytes := 2, availableGpuMem := 1, gpuAvailable := true } (by decide)
    (by decide)).mpr (.inr (.inr
      ((lt_leastQuotient_iff (by decide) (by decide) (by decide) (by decide)).mpr (by decide))))

/-- Of a model in 8 layers that is twice as large as the GPU memory all layers go there, as half of
32 is 16. -/
theorem not_memorySafe :
    ¬∀ (showDouble : ℚ → String) (gpuPressure cpuPressure : PressureLevel)
      (hist : HistoricalStats ℚ) (input : PolicyInput) (layers : ℕ), 1 ≤ layers →
      input.availableGpuMem < input.modelSizeBytes →
      MemorySafe (selectStrategy showDouble gpuPressure cpuPressure hist input).nGpuLayers layers
        input.modelSizeBytes input.availableGpuMem := by
  intro h
  have hsafe := h (fun _ => "") .normal .normal noStats
    { modelSizeBytes := 16, availableGpuMem := 8, gpuAvailable := true } 8 (by decide) (by decide)
  have hhalf : (1 / 2 : ℚ) ≤ toDouble 8 / toDouble 16 := by
    rw [toDouble_eq (by decide), toDouble_eq (by decide)]
    change (1 / 2 : ℚ) ≤ (8 : ℕ) / (16 : ℕ)
    norm_num
  have hoff : Offloads .normal .normal noStats
      { modelSizeBytes := 16, availableGpuMem := 8, gpuAvailable := true } :=
    ⟨by decide, rfl, by decide, kPartialResidentMin_le (by decide) (by decide) hhalf⟩
  have hlayers : (5 : ℤ) ≤ computeGpuLayers 16 8 32 := by
    apply (le_computeGpuLayers_iff (by decide) (by decide) (by decide) (by decide)).mpr
    exact (leastQuotient_le 5).trans (le_trans (by norm_num) hhalf)
  rw [nGpuLayers_of_offloads hoff (by decide), memorySafe_iff_mul_le (by decide) (by decide)]
    at hsafe
  have hfew : computeGpuLayers 16 8 32 * 16 ≤ 8 * 8 := hsafe
  omega

end ExecutionPolicyEngine

end HeteroAccel.Scheduler
