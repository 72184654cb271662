import Mathlib.Algebra.Order.Ring.Rat
import Mathlib.Data.Rat.Floor
import Mathlib.Data.UInt
import Mathlib.Data.List.Nodup
import Mathlib.Data.String.Basic

/-!
# Backends, hardware and memory

What the orchestrator knows of a backend (`BackendCapabilities.h`), of the machine
(`HardwareDetector`) and of the memory a model takes (`MemoryEstimator`). Sizes are 64-bit and wrap,
the products of dimensions inside them are 32-bit. Floating point is a parameter (`ScoreOps`).
-/

namespace HeteroAccel.Orchestration

/-- The floating-point operations of the orchestrator, over floats `φ`. -/
structure ScoreOps (φ : Type) where
  /-- A literal. -/
  lit : ℚ → φ
  /-- `static_cast<float>` of a size. -/
  ofSize : UInt64 → φ
  ofInt : Int32 → φ
  /-- `static_cast<size_t>` of a float. -/
  toSize : φ → UInt64
  add : φ → φ → φ
  sub : φ → φ → φ
  mul : φ → φ → φ
  div : φ → φ → φ
  lt : φ → φ → Bool
  le : φ → φ → Bool
  /-- `static_cast<size_t>(n * q)`, where the product is a double. -/
  scale : UInt64 → ℚ → UInt64
  /-- `std::fixed << std::setprecision(2)`. -/
  toFixed : φ → String

namespace ScoreOps

variable {φ : Type} (ops : ScoreOps φ)

/-- `std::max`. -/
def max (a b : φ) : φ := if ops.lt a b then b else a

/-- `std::min`. -/
def min (a b : φ) : φ := if ops.lt b a then b else a

end ScoreOps

/-- Exact arithmetic. -/
def exactOps : ScoreOps ℚ where
  lit q := q
  ofSize n := n.toNat
  ofInt n := n.toInt
  toSize q := .ofNat q.floor.toNat
  add := (· + ·)
  sub := (· - ·)
  mul := (· * ·)
  div := (· / ·)
  lt a b := a < b
  le a b := a ≤ b
  scale n q := .ofNat (n.toNat * q).floor.toNat
  toFixed q :=
    let hundredths := (|q| * 100 + 1 / 2).floor.toNat
    (if q < 0 then "-" else "") ++ toString (hundredths / 100) ++ "." ++
      toString (hundredths % 100 / 10) ++ toString (hundredths % 10)

/-! ## Hardware -/

namespace APISupport

/-- The bits of the programming interfaces that a device supports. -/
def cpu : UInt32 := 1

def vulkan : UInt32 := 2

def cuda : UInt32 := 4

end APISupport

/-- A device that the detector has found. -/
structure DeviceInfo where
  /-- Bitmask of `APISupport`. -/
  apiSupport : UInt32 := 0
  vramBytes : UInt64 := 0
  vulkanOk : Bool := false
  cudaOk : Bool := false
  deriving DecidableEq, Repr

/-- What `HardwareDetector` and the operating system report. -/
structure HardwareDetector where
  devices : List DeviceInfo := []
  hasVulkan : Bool := false
  hasCuda : Bool := false
  availableSystemRam : UInt64 := 0
  /-- `MemoryEstimator::available_ram_bytes`. -/
  availableRamBytes : UInt64 := 16 * 1024 * 1024 * 1024
  deriving DecidableEq, Repr

namespace HardwareDetector

/-- The GPU with the most memory, the first of them. -/
def bestGpu (hw : HardwareDetector) : Option DeviceInfo :=
  hw.devices.foldl
    (fun best dev =>
      let isGpu := dev.apiSupport &&& APISupport.vulkan ≠ 0 ||
        dev.apiSupport &&& APISupport.cuda ≠ 0 || dev.vulkanOk || dev.cudaOk || dev.vramBytes > 0
      if dev.apiSupport = APISupport.cpu then best
      else if isGpu && best.all fun b => dev.vramBytes > b.vramBytes then some dev
      else best)
    none

end HardwareDetector

/-! ## Backends -/

/-- What a backend needs of the machine and what it supports of models. -/
structure BackendCapabilities (φ : Type) where
  backendId : String
  /-- GGML types; empty for every type. -/
  supportedQuantTypes : List Int32 := []
  /-- Architectures; empty for every architecture. -/
  supportedArch : List String := []
  requiresCuda : Bool := false
  requiresVulkan : Bool := false
  minVramBytes : UInt64 := 0
  minRamBytes : UInt64 := 0
  relativeThroughput : φ
  initCostMs : φ
  priority : Int32 := 0

namespace BackendCapabilities

variable {φ : Type} (b : BackendCapabilities φ)

/-- The machine has what the backend requires. -/
def isAvailable (hw : HardwareDetector) : Bool :=
  if b.requiresCuda && !hw.hasCuda then false
  else if b.requiresVulkan && !hw.hasVulkan then false
  else if b.minVramBytes > 0 && hw.bestGpu.all fun gpu => gpu.vramBytes < b.minVramBytes then false
  else if b.minRamBytes > 0 && hw.availableSystemRam < b.minRamBytes then false
  else true

/-- The backend supports a type of tensors. -/
def supportsQuant (quantType : Int32) : Bool :=
  b.supportedQuantTypes.isEmpty || b.supportedQuantTypes.any fun q => q = quantType

/-- The backend supports an architecture, by its name without regard to case; no name is supported
by all. -/
def supportsArch (arch : String) : Bool :=
  arch = "" || b.supportedArch.isEmpty || b.supportedArch.any fun a => a.toLower = arch.toLower

/-- `requires_vulkan || requires_cuda`. -/
def needsGpu : Bool := b.requiresVulkan || b.requiresCuda

end BackendCapabilities

/-- The backends that are registered: at most one for each id. -/
structure Backends (φ : Type) where
  list : List (BackendCapabilities φ) := []
  nodup : (list.map BackendCapabilities.backendId).Nodup := by simp

namespace Backends

variable {φ : Type}

/-- `register_backend`: a backend takes the place of the one with its id. -/
def register (backends : Backends φ) (caps : BackendCapabilities φ) : Backends φ where
  list :=
    if caps.backendId ∈ backends.list.map BackendCapabilities.backendId then
      backends.list.map fun b => if b.backendId = caps.backendId then caps else b
    else backends.list ++ [caps]
  nodup := by
    split
    next =>
      -- the ids stay what they are
      have hids : (backends.list.map fun b => if b.backendId = caps.backendId then caps else b).map
          BackendCapabilities.backendId = backends.list.map BackendCapabilities.backendId := by
        rw [List.map_map]
        refine List.map_congr_left fun b _ => ?_
        show (if b.backendId = caps.backendId then caps else b).backendId = b.backendId
        split
        next h => exact h.symm
        next => rfl
      rw [hids]
      exact backends.nodup
    next hnew =>
      rw [List.map_append, List.nodup_append_comm]
      exact List.nodup_cons.mpr ⟨hnew, backends.nodup⟩

/-- An id names one backend. -/
theorem eq_of_backendId {backends : Backends φ} {b b' : BackendCapabilities φ}
    (h : b ∈ backends.list) (h' : b' ∈ backends.list) (hid : b.backendId = b'.backendId) : b = b' :=
  List.inj_on_of_nodup_map backends.nodup h h' hid

end Backends

/-! ## Memory -/

/-- What `MemoryEstimator::estimate` finds. -/
structure ModelMemoryEstimate where
  weightsBytes : UInt64 := 0
  kvCacheBytes : UInt64 := 0
  activationsBytes : UInt64 := 0
  overheadBytes : UInt64 := 0
  totalEstimated : UInt64 := 0
  deriving DecidableEq, Repr

/-- `MemoryEstimator::estimate`. -/
def estimate {φ : Type} (ops : ScoreOps φ)
    (nLayers nEmbd nHeads nKvHeads nFf vocabSize maxSeqLen : UInt32) (safetyFactor : φ) :
    ModelMemoryEstimate :=
  if nLayers = 0 || nEmbd = 0 || nHeads = 0 || nKvHeads = 0 || vocabSize = 0 then {}
  else
    let headDim := nEmbd / nHeads
    let headDim := if headDim = 0 then 64 else headDim
    let maxSeqLen := if maxSeqLen = 0 then 512 else maxSeqLen
    let embd := nEmbd.toUInt64
    -- the products of heads and dimensions are 32-bit
    let layerWeights : UInt64 := 2 * embd + embd * (nHeads * headDim).toUInt64 +
      embd * (nKvHeads * headDim).toUInt64 + embd * (nKvHeads * headDim).toUInt64 +
      (nHeads * headDim).toUInt64 * embd + embd * nFf.toUInt64 + embd * nFf.toUInt64 +
      nFf.toUInt64 * embd + (nHeads * headDim + 2 * nKvHeads * headDim).toUInt64
    let totalLayerWeights := nLayers.toUInt64 * layerWeights
    let nonLayerWeights := vocabSize.toUInt64 * embd + embd + vocabSize.toUInt64 * embd
    let weightsBytes := (totalLayerWeights + nonLayerWeights) * 4
    let kvCacheBytes := 2 * nLayers.toUInt64 * nKvHeads.toUInt64 * headDim.toUInt64 *
      maxSeqLen.toUInt64 * 4
    let activationsBytes := (10 * embd + 3 * nFf.toUInt64 + maxSeqLen.toUInt64) * 4
    let safetyFactor := if ops.lt safetyFactor (ops.lit 1) then ops.lit 1 else safetyFactor
    let baseBytes := weightsBytes + kvCacheBytes + activationsBytes
    let overheadBytes :=
      ops.toSize (ops.mul (ops.ofSize baseBytes) (ops.sub safetyFactor (ops.lit 1)))
    { weightsBytes
      kvCacheBytes
      activationsBytes
      overheadBytes
      totalEstimated := baseBytes + overheadBytes }

end HeteroAccel.Orchestration
