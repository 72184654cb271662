import HeteroAccel.Model.PlanResidency
import HeteroAccel.Planner.ExecutionPlanner

/-!
# Partial residency, planned and carried out

The planner gives a plan of partial residency the mode `HYBRID`; the adapter uploads regions for the
modes `VULKAN` and `CUDA` only. Between the two, a partial residency puts nothing on the
accelerator.

## Main definitions

* `admitted`: the regions that a budget admits, in order;
* `placed_of_usesAccel`: the adapter follows the budget when the plan names an accelerator;
* `carriesOut_plan_iff`: when the adapter carries out a partial residency of the planner.
-/

namespace HeteroAccel.PlanResidencyAdapter

open Planner TransitionSystem

variable {ρ σ α : Type}

/-- The regions that are admitted, in order, while the total stays within a budget of which `used`
bytes are taken. -/
def admitted (budget : ℕ) : ℕ → List ModelRegion → List ModelRegion
  | _, [] => []
  | used, region :: rest =>
    if used + region.size.toNat ≤ budget then
      region :: admitted budget (used + region.size.toNat) rest
    else admitted budget used rest

/-- Nothing is admitted exactly when no region fits by itself. -/
theorem admitted_eq_nil_iff {budget : ℕ} {regions : List ModelRegion} :
    admitted budget 0 regions = [] ↔ ∀ region ∈ regions, budget < region.size.toNat := by
  induction regions with
  | nil => exact iff_of_true rfl nofun
  | cons region rest ih =>
    rw [List.forall_mem_cons, ← ih]
    show (if 0 + region.size.toNat ≤ budget then _ else _) = [] ↔ _
    rw [Nat.zero_add]
    split
    next hfits => exact iff_of_false (List.cons_ne_nil _ _) fun h => absurd h.1 (by omega)
    next hfits => exact (and_iff_right (by omega)).symm

/-! ## Plans that name an accelerator -/

/-- The requests that a turn of a partial residency would make are granted. -/
def PartGranted (cx : ResidencyContext ρ σ α) (p : Progress σ)
    (t : ModelRegion × Turn ρ α) : Prop :=
  (p.mgr.ensureResident cx t.1 .ram t.2.load).1 = .ok () ∧
    ((p.mgr.ensureResident cx t.1 .ram t.2.load).2.ensureResident cx t.1 .accelerator
      t.2.upload).1 = .ok ()

instance (cx : ResidencyContext ρ σ α) (p : Progress σ) (t : ModelRegion × Turn ρ α) :
    Decidable (PartGranted cx p t) :=
  inferInstanceAs (Decidable (_ ∧ _))

/-- A granted turn uploads its region when it is within the budget. -/
theorem loadPart_of_fits {cx : ResidencyContext ρ σ α} {budget : UInt64} {p : Progress σ}
    {t : ModelRegion × Turn ρ α} (h : PartGranted cx p t)
    (hfits : budget > 0 ∧ p.uploadedBytes + t.1.size ≤ budget) :
    (loadPart cx true budget p t).placed = p.placed ++ [t.1] ∧
      (loadPart cx true budget p t).uploadedBytes = p.uploadedBytes + t.1.size := by
  obtain ⟨hload, hupload⟩ := h
  unfold loadPart
  generalize p.mgr.ensureResident cx t.1 .ram t.2.load = result at hload hupload ⊢
  obtain ⟨f | _, mgr⟩ := result
  · cases hload
  · dsimp only at hupload ⊢
    rw [if_pos (by simpa using hfits)]
    generalize mgr.ensureResident cx t.1 .accelerator t.2.upload = result at hupload ⊢
    obtain ⟨f | _, mgr'⟩ := result
    · cases hupload
    · exact ⟨rfl, rfl⟩

/-- Otherwise it does not. -/
theorem loadPart_of_not_fits (cx : ResidencyContext ρ σ α) (useAccel : Bool) (budget : UInt64)
    (p : Progress σ) (t : ModelRegion × Turn ρ α)
    (hfits : ¬ (useAccel = true ∧ budget > 0 ∧ p.uploadedBytes + t.1.size ≤ budget)) :
    (loadPart cx useAccel budget p t).placed = p.placed ∧
      (loadPart cx useAccel budget p t).uploadedBytes = p.uploadedBytes ∧
      (loadPart cx useAccel budget p t).regionsAccel = p.regionsAccel := by
  unfold loadPart
  generalize p.mgr.ensureResident cx t.1 .ram t.2.load = result
  obtain ⟨f | _, mgr⟩ := result
  · exact ⟨rfl, rfl, rfl⟩
  · dsimp only
    rw [if_neg (by simpa [and_assoc] using hfits)]
    exact ⟨rfl, rfl, rfl⟩

/-- Turns that are all granted place the regions that the budget admits. -/
theorem placed_foldl_loadPart {cx : ResidencyContext ρ σ α} {budget : UInt64}
    {turns : List (ModelRegion × Turn ρ α)} {p : Progress σ}
    (hgranted : Along (PartGranted cx) (loadPart cx true budget) p turns)
    (hsize : p.uploadedBytes.toNat + (turns.map fun t => t.1.size.toNat).sum < 2 ^ 64)
    (hvalid : ∀ t ∈ turns, t.1.valid = true) :
    (turns.foldl (loadPart cx true budget) p).placed =
      p.placed ++ admitted budget.toNat p.uploadedBytes.toNat (turns.map Prod.fst) := by
  induction turns generalizing p with
  | nil => exact (List.append_nil _).symm
  | cons t rest ih =>
    obtain ⟨ht, hrest⟩ := hgranted
    rw [List.map_cons, List.sum_cons] at hsize
    have hpos : 0 < t.1.size.toNat := by
      have := hvalid t (List.mem_cons_self ..)
      simpa [ModelRegion.valid, UInt64.lt_iff_toNat_lt] using this
    have hsum : (p.uploadedBytes + t.1.size).toNat = p.uploadedBytes.toNat + t.1.size.toNat := by
      rw [UInt64.toNat_add, Nat.mod_eq_of_lt (by omega)]
    -- the sum of 64 bits does not wrap
    have hiff : (budget > 0 ∧ p.uploadedBytes + t.1.size ≤ budget) ↔
        p.uploadedBytes.toNat + t.1.size.toNat ≤ budget.toNat := by
      rw [gt_iff_lt, UInt64.lt_iff_toNat_lt, UInt64.le_iff_toNat_le, hsum]
      exact ⟨And.right, fun h => ⟨by rw [UInt64.toNat_zero]; omega, h⟩⟩
    have hvalid' : ∀ t ∈ rest, t.1.valid = true :=
      fun t ht => hvalid t (List.mem_cons_of_mem _ ht)
    rw [List.foldl_cons, List.map_cons, admitted]
    by_cases hfits : budget > 0 ∧ p.uploadedBytes + t.1.size ≤ budget
    · obtain ⟨hplaced, hbytes⟩ := loadPart_of_fits ht hfits
      rw [if_pos (hiff.mp hfits), ih hrest (by rw [hbytes, hsum]; omega) hvalid', hplaced, hbytes,
        hsum, List.append_assoc]
      rfl
    · obtain ⟨hplaced, hbytes, -⟩ := loadPart_of_not_fits cx true budget p t fun h => hfits h.2
      rw [if_neg (mt hiff.mpr hfits), ih hrest (by rw [hbytes]; omega) hvalid', hplaced, hbytes]

/-! ## The plans of the planner -/

/-- Turns of a plan that names no accelerator place nothing. -/
theorem placed_forRegions (cx : ResidencyContext ρ σ α) (budget : UInt64)
    (turns : List (ModelRegion × Turn ρ α)) (p : Progress σ) :
    (forRegions (loadPart cx false budget) p turns).2.placed = p.placed ∧
      (forRegions (loadPart cx false budget) p turns).2.regionsAccel = p.regionsAccel := by
  induction turns generalizing p with
  | nil => exact ⟨rfl, rfl⟩
  | cons t rest ih =>
    unfold forRegions
    split
    next => exact ⟨rfl, rfl⟩
    next =>
      obtain ⟨hplaced, -, haccel⟩ := loadPart_of_not_fits cx false budget p t fun h => by cases h.1
      rw [(ih _).1, (ih _).2, hplaced, haccel]
      exact ⟨rfl, rfl⟩

/-- A plan of partial residency is carried out: the regions placed on the accelerator are those its
budget admits, they are counted, and none is placed only where none fits. -/
structure CarriesOut (plan : ModelExecutionPlan) (regions : List ModelRegion)
    (outcome : PlanResidencyResult × Progress σ) : Prop where
  placed : outcome.2.placed = admitted plan.memoryBudgetBytes.toNat 0 regions
  counted : outcome.1.regionsAccel = (admitted plan.memoryBudgetBytes.toNat 0 regions).length
  allRam : outcome.2.placed = [] →
    ∀ region ∈ regions, plan.memoryBudgetBytes.toNat < region.size.toNat

/-- The adapter carries out a partial residency of the planner exactly when no region fits the
budget by itself. -/
theorem carriesOut_plan_iff (cx : ResidencyContext ρ σ α) (requirements : ModelRequirements)
    (report : CapabilityReport) (registry : ExecutionEngineRegistry) (config : PlannerConfig)
    (extraction : Extraction) (regions : List ModelRegion) (turns : ℕ → Turn ρ α)
    (m : ModelResidencyManager σ)
    (hviable : (plan requirements report registry config).viable = true)
    (hpart : (plan requirements report registry config).residency = .partialResident)
    (hregions : extraction.regions = some regions) :
    CarriesOut (plan requirements report registry config) regions
        (apply cx (plan requirements report registry config) extraction turns m) ↔
      ∀ region ∈ regions,
        (plan requirements report registry config).memoryBudgetBytes.toNat < region.size.toNat := by
  obtain ⟨hmode, -⟩ := hybrid_of_partialResident hviable hpart
  generalize plan requirements report registry config = plan at hviable hpart hmode ⊢
  have huses : usesAccel plan = false := by
    rw [usesAccel, hmode]
    decide
  -- the mode is neither of those the adapter uploads for
  obtain ⟨hplaced, haccel⟩ : (apply cx plan extraction turns m).2.placed = [] ∧
      (apply cx plan extraction turns m).1.regionsAccel = 0 := by
    unfold apply
    rw [if_neg (by simp [hviable, hmode]), hregions]
    dsimp only
    unfold carryOut
    dsimp only
    rw [hpart, huses]
    dsimp only
    obtain ⟨hplaced, haccel⟩ := placed_forRegions cx plan.memoryBudgetBytes
      (turnsOf turns regions) { mgr := m }
    generalize forRegions (loadPart cx false plan.memoryBudgetBytes) { mgr := m }
      (turnsOf turns regions) = looped at hplaced haccel ⊢
    obtain ⟨_ | _, p⟩ := looped
    · exact ⟨hplaced, haccel⟩
    · exact ⟨hplaced, haccel⟩
  constructor
  · intro h
    exact admitted_eq_nil_iff.mp (h.placed.symm.trans hplaced)
  · intro hlarge
    have hnil := admitted_eq_nil_iff.mpr hlarge
    exact ⟨hplaced.trans hnil.symm, by rw [haccel, hnil]; rfl, fun _ => hlarge⟩

/-! ## Samples -/

/-- An engine for the CPU and for Vulkan. -/
def sampleRegistry : ExecutionEngineRegistry :=
  (∅ : ExecutionEngineRegistry).insert "llama.cpp"
    (some (({} : EngineCapabilitySet).add .backendCpu |>.add .backendVulkan))

/-- A Vulkan device of four bytes. -/
def sampleReport : CapabilityReport where
  devices :=
    [{ backendType := "Vulkan", available := true, supported := true, memoryCapacity := 4 }]

/-- A model of eight bytes. -/
def sampleRequirements : ModelRequirements where
  format := .gguf
  quantization := .q4
  estimatedMemoryBytes := some 8

example :
    (plan sampleRequirements sampleReport sampleRegistry {}).mode = .hybrid := by decide +kernel

/-- The only region is as large as the model, and the accelerator has room for half of it. -/
theorem carriesOut_sample :
    CarriesOut (plan sampleRequirements sampleReport sampleRegistry {}) [{ id := 1, size := 8 }]
      (apply sampleContext (plan sampleRequirements sampleReport sampleRegistry {})
        { extracted := [{ id := 1, size := 8 }], whole := { id := 1, size := 8 }, lastError := "" }
        sampleTurns (sampleRun [])) := by
  refine (carriesOut_plan_iff sampleContext sampleRequirements sampleReport sampleRegistry {} _ _
    sampleTurns (sampleRun []) ?_ ?_ ?_).mpr ?_
  all_goals decide +kernel

/-- Two regions of two bytes fit the four bytes of the accelerator, every request for them is
granted, and none of them is put there. -/
theorem not_carriesOut_sample :
    ¬ ∀ (requirements : ModelRequirements) (report : CapabilityReport)
      (registry : ExecutionEngineRegistry) (config : PlannerConfig) (extraction : Extraction)
      (regions : List ModelRegion) (turns : ℕ → Turn FileReadEnv (Option ℕ))
      (m : ModelResidencyManager HostAcceleratorMemory),
      (residencySystem sampleContext (.construct 4)).Reachable anyCall m →
      (plan requirements report registry config).viable = true →
      (plan requirements report registry config).residency = .partialResident →
      extraction.regions = some regions → (∀ i, (turns i).cancelled = false) →
      (∀ useAccel, Along (PartGranted sampleContext)
        (loadPart sampleContext useAccel
          (plan requirements report registry config).memoryBudgetBytes)
        { mgr := m } (turnsOf turns regions)) →
      CarriesOut (plan requirements report registry config) regions
        (apply sampleContext (plan requirements report registry config) extraction turns m) := by
  intro hall
  have h := hall sampleRequirements sampleReport sampleRegistry {} (sampleExtraction 2)
    [sampleRegion 1 0, sampleRegion 2 2] sampleTurns (sampleRun []) (reachable_foldl _ _ [])
    (by decide +kernel) (by decide +kernel) (by decide +kernel) (fun _ => rfl)
    (fun useAccel => by cases useAccel <;> decide +kernel)
  have hcounted := h.counted
  revert hcounted
  decide +kernel

end HeteroAccel.PlanResidencyAdapter
