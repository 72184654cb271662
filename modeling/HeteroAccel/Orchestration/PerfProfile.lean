import HeteroAccel.Orchestration.BackendCapabilities

/-!
# Performance profiles

`PerfProfile`: the throughput observed for each backend and model, one record for each workload, and
the text that `save` writes for it.
-/

namespace HeteroAccel.Orchestration

variable {φ : Type}

/-- The speed of one backend with one model. -/
structure PerfRecord (φ : Type) where
  backendId : String
  modelHash : String
  quantType : UInt32 := 0
  nLayers : UInt32 := 0
  nEmbd : UInt32 := 0
  tokensPerSecond : φ
  timestampUnix : UInt64 := 0
  sampleCount : UInt32 := 0
  deriving DecidableEq, Repr

/-- The records, in the order in which they were first made. -/
structure PerfProfile (φ : Type) where
  records : List (PerfRecord φ) := []
  deriving DecidableEq, Repr

/-- A measurement, with the time it is recorded at. -/
structure Measurement (φ : Type) where
  backendId : String
  modelHash : String
  quantType : UInt32 := 0
  nLayers : UInt32 := 0
  nEmbd : UInt32 := 0
  tokensPerSecond : φ
  nowTs : UInt64 := 0
  deriving DecidableEq, Repr

namespace Measurement

variable (m : Measurement φ)

/-- The record is one of the measured workload. -/
def matchesRecord (r : PerfRecord φ) : Bool :=
  r.backendId = m.backendId && r.modelHash = m.modelHash && r.quantType = m.quantType &&
    r.nLayers = m.nLayers && r.nEmbd = m.nEmbd

/-- The record with its running average updated. -/
def update (ops : ScoreOps φ) (r : PerfRecord φ) : PerfRecord φ :=
  let total := ops.add (ops.mul r.tokensPerSecond (ops.ofSize r.sampleCount.toUInt64))
    m.tokensPerSecond
  { r with
    sampleCount := r.sampleCount + 1
    tokensPerSecond := ops.div total (ops.ofSize (r.sampleCount + 1).toUInt64)
    timestampUnix := m.nowTs }

/-- The record of a first measurement. -/
def toRecord : PerfRecord φ where
  backendId := m.backendId
  modelHash := m.modelHash
  quantType := m.quantType
  nLayers := m.nLayers
  nEmbd := m.nEmbd
  tokensPerSecond := m.tokensPerSecond
  timestampUnix := m.nowTs
  sampleCount := 1

end Measurement

namespace PerfProfile

variable (ops : ScoreOps φ) (profile : PerfProfile φ)

/-- The records, with the first one of the measured workload updated, or a new one for it. -/
def recordIn (m : Measurement φ) : List (PerfRecord φ) → List (PerfRecord φ)
  | [] => [m.toRecord]
  | r :: rest => if m.matchesRecord r then m.update ops r :: rest else r :: recordIn m rest

/-- `record`: a measurement joins its record, or makes one; one without a backend or a positive
speed is ignored. -/
def record (m : Measurement φ) : PerfProfile φ :=
  if m.backendId = "" || ops.le m.tokensPerSecond (ops.lit 0) then profile
  else { records := recordIn ops m profile.records }

/-- `reset`: all records are dropped. -/
def reset : PerfProfile φ := {}

/-- The line of a record. -/
def line (r : PerfRecord φ) : String :=
  "backend=" ++ r.backendId ++
    " model_hash=" ++ (if r.modelHash = "" then "none" else r.modelHash) ++
    " quant=" ++ toString r.quantType ++ " layers=" ++ toString r.nLayers ++
    " embd=" ++ toString r.nEmbd ++ " toks_per_s=" ++ ops.toFixed r.tokensPerSecond ++
    " ts=" ++ toString r.timestampUnix ++ " n=" ++ toString r.sampleCount

/-- The lines that `save` writes. -/
def save : List String := "# HeteroAccel performance profile v1" :: profile.records.map (line ops)

end PerfProfile

end HeteroAccel.Orchestration
