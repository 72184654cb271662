import HeteroAccel.Model.ModelResidencyManager
import HeteroAccel.Planner.ExecutionPlan

/-!
# The plan residency adapter

`PlanResidencyAdapter::apply`: makes the regions of a model resident, in turn, as a plan asks for.
What the extractor returns for the model file is an argument, and so is what each turn meets. The
extractor numbers the tensors of a file with 32-bit integers, so the counters never wrap.

## Main definitions

* `Turn`, `Progress`: what the turn of a region meets, and what the turns have done so far;
* `apply`: the adapter.
-/

namespace HeteroAccel.PlanResidencyAdapter

open Planner

variable {ρ σ α : Type}

/-- What `apply` reports: its success, and what it counted on the way. -/
structure PlanResidencyResult where
  success : Bool := false
  regionsTotal : ℕ := 0
  regionsRam : ℕ := 0
  regionsAccel : ℕ := 0
  explanation : String := ""
  error : String := ""
  deriving DecidableEq

/-- What `GGUFRegionExtractor` returns for the model file. -/
structure Extraction where
  /-- `extract(model_path, 1)`. -/
  extracted : List ModelRegion
  /-- `wholeFileRegion(model_path, 1)`. -/
  whole : ModelRegion
  lastError : String

/-- The regions that are worked on. -/
def Extraction.regions (e : Extraction) : Option (List ModelRegion) :=
  if e.extracted = [] then if e.whole.valid then some [e.whole] else none else some e.extracted

/-- What the turn of one region meets. -/
structure Turn (ρ α : Type) where
  /-- The cancel flag, at the top of the loop. -/
  cancelled : Bool
  /-- The first request for the region. -/
  load : ResidencyCall ρ α
  /-- The request for the accelerator that follows it under `PARTIAL_RESIDENT`. -/
  upload : ResidencyCall ρ α

/-- What the turns have done so far. `placed` records the regions that were put on the accelerator;
the adapter has no such variable. -/
structure Progress (σ : Type) where
  mgr : ModelResidencyManager σ
  regionsRam : ℕ := 0
  regionsAccel : ℕ := 0
  uploadedBytes : UInt64 := 0
  placed : List ModelRegion := []

/-- The target of a plan that may use an accelerator. -/
def targetOf (useAccel : Bool) : ModelResidencyTarget := if useAccel then .accelerator else .ram

/-- A turn that asks for the target of the plan. -/
def loadRegion (cx : ResidencyContext ρ σ α) (useAccel : Bool) (p : Progress σ)
    (t : ModelRegion × Turn ρ α) : Progress σ :=
  match p.mgr.ensureResident cx t.1 (targetOf useAccel) t.2.load with
  | (.error _, mgr) => { p with mgr }
  | (.ok _, mgr) =>
    { p with
      mgr
      regionsRam := p.regionsRam + 1
      regionsAccel := if useAccel then p.regionsAccel + 1 else p.regionsAccel
      placed := if useAccel then p.placed ++ [t.1] else p.placed }

/-- A turn of `PARTIAL_RESIDENT`: to RAM, and on to the accelerator within the budget. -/
def loadPart (cx : ResidencyContext ρ σ α) (useAccel : Bool) (accelBudget : UInt64)
    (p : Progress σ) (t : ModelRegion × Turn ρ α) : Progress σ :=
  match p.mgr.ensureResident cx t.1 .ram t.2.load with
  | (.error _, mgr) => { p with mgr }
  | (.ok _, mgr) =>
    let p := { p with mgr, regionsRam := p.regionsRam + 1 }
    if useAccel && accelBudget > 0 && p.uploadedBytes + t.1.size ≤ accelBudget then
      match p.mgr.ensureResident cx t.1 .accelerator t.2.upload with
      | (.error _, mgr) => { p with mgr }
      | (.ok _, mgr) =>
        { p with
          mgr
          regionsAccel := p.regionsAccel + 1
          uploadedBytes := p.uploadedBytes + t.1.size
          placed := p.placed ++ [t.1] }
    else p

/-- The turns, until the cancel flag is seen; `false` says that it was. -/
def forRegions (body : Progress σ → ModelRegion × Turn ρ α → Progress σ) :
    Progress σ → List (ModelRegion × Turn ρ α) → Bool × Progress σ
  | p, [] => (true, p)
  | p, t :: rest => if t.2.cancelled then (false, p) else forRegions body (body p t) rest

/-- The result after the turns, with the explanation at a cancellation and at the end. -/
def finish (total : ℕ) (running explanation : String) (success : Progress σ → Bool) :
    Bool × Progress σ → PlanResidencyResult × Progress σ
  | (false, p) =>
    ({ regionsTotal := total
       regionsRam := p.regionsRam
       regionsAccel := p.regionsAccel
       explanation := running
       error := "Cancelled" }, p)
  | (true, p) =>
    ({ success := success p
       regionsTotal := total
       regionsRam := p.regionsRam
       regionsAccel := p.regionsAccel
       explanation
       error := if success p then "" else p.mgr.lastError }, p)

/-- Whether a plan uses an accelerator. -/
def usesAccel (plan : ModelExecutionPlan) : Bool := plan.mode = .vulkan || plan.mode = .cuda

/-- The strategies of `apply`. -/
def carryOut (cx : ResidencyContext ρ σ α) (plan : ModelExecutionPlan)
    (turns : List (ModelRegion × Turn ρ α)) (mgr : ModelResidencyManager σ) :
    PlanResidencyResult × Progress σ :=
  let useAccel := usesAccel plan
  let total := turns.length
  match plan.residency with
  | .cpuFallback =>
    let text := "CPU_FALLBACK: loading " ++ toString total ++ " region(s) to RAM."
    finish total text text (fun p => p.regionsRam = total)
      (forRegions (loadRegion cx false) { mgr } turns)
  | .streaming =>
    ({ success := true
       regionsTotal := total
       explanation := "STREAMING: on-demand file-backed residency. No pre-loading performed. " ++
         "Regions will be loaded individually as needed." }, { mgr })
  | .fullResident | .auto =>
    let text := "FULL_RESIDENT: loading " ++ toString total ++ " region(s)" ++
      if useAccel then " + accelerator upload." else " to RAM only."
    finish total text text (fun p => p.regionsRam > 0)
      (forRegions (loadRegion cx useAccel) { mgr } turns)
  | .partialResident | .acceleratorOffload =>
    let text := "PARTIAL_RESIDENT: loading " ++ toString total ++ " region(s) to RAM; " ++
      if useAccel then "uploading subset to accelerator within budget." else "no accelerator."
    finish total text text (fun p => p.regionsRam > 0)
      (forRegions (loadPart cx useAccel plan.memoryBudgetBytes) { mgr } turns)
  | .hybrid =>
    finish total "" "HYBRID: mixed CPU/accelerator residency." (fun p => p.regionsRam > 0)
      (forRegions (loadRegion cx useAccel) { mgr } turns)
  -- the turns of an unknown strategy do not look at the cancel flag
  | .memoryPressure =>
    let text := "Unknown strategy — falling back to RAM-only residency."
    finish total text text (fun p => p.regionsRam > 0)
      (true, turns.foldl (loadRegion cx false) { mgr })

/-- The regions with what their turns meet. -/
def turnsOf (turns : ℕ → Turn ρ α) (regions : List ModelRegion) : List (ModelRegion × Turn ρ α) :=
  regions.zipIdx.map fun r => (r.1, turns r.2)

/-- `apply`: the regions of the plan's model are extracted and made resident as the plan says. -/
def apply (cx : ResidencyContext ρ σ α) (plan : ModelExecutionPlan) (extraction : Extraction)
    (turns : ℕ → Turn ρ α) (mgr : ModelResidencyManager σ) : PlanResidencyResult × Progress σ :=
  if !plan.viable || plan.mode = .unsupported then
    ({ error := "Plan is not viable: " ++ plan.explanation
       explanation := "UNSUPPORTED plan — no residency operations performed." }, { mgr })
  else
    match extraction.regions with
    | none => ({ error := "Cannot extract model regions: " ++ extraction.lastError }, { mgr })
    | some regions => carryOut cx plan (turnsOf turns regions) mgr

end HeteroAccel.PlanResidencyAdapter
