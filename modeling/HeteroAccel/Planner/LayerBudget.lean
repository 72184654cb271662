import HeteroAccel.Planner.PlannerSoundness

/-!
# The layers of a partial residency

A plan of partial residency says how many layers are put on the accelerator: the layers in
proportion to the capacity, rounded down, but one at least. The test in front of it compares 100
times the capacity with 15 times the size of the model. All products are of 64 bits.

## Main definitions

* `BudgetFits`: the layers of the budget fit the capacity, and so do 15% of the model.

## Main results

* `budgetFits_iff`: it is so when one layer fits, and the product with the size does not wrap around
  more often than the other one;
* `not_budgetFits`: the one layer of a model that is half as large as the capacity.
-/

namespace HeteroAccel.Planner

variable {requirements : ModelRequirements} {report : CapabilityReport}
  {registry : ExecutionEngineRegistry} {config : PlannerConfig}

/-- A budget of `b` layers for a model of `layers` layers of equal size. -/
structure BudgetFits (layers : UInt32) (modelBytes capacity : UInt64) (b : UInt32) : Prop where
  fewer : b < layers
  fits : b.toNat * modelBytes.toNat ≤ layers.toNat * capacity.toNat
  percent : 15 * modelBytes.toNat ≤ 100 * capacity.toNat
  below : capacity < modelBytes

/-! ## The number of layers -/

section Layers

variable {layers : UInt32} {modelBytes capacity : UInt64}

/-- The layers in proportion to the capacity, with the product as it wraps around. -/
theorem toNat_proportion : (layers.toUInt64 * capacity / modelBytes).toNat =
    layers.toNat * capacity.toNat % 2 ^ 64 / modelBytes.toNat := by
  rw [UInt64.toNat_div, UInt64.toNat_mul, UInt32.toNat_toUInt64]

/-- There are fewer layers in proportion than the model has. -/
theorem proportion_lt (hlayers : layers ≠ 0) (hbelow : capacity < modelBytes) :
    (layers.toUInt64 * capacity / modelBytes).toNat < layers.toNat := by
  have hpos : 0 < layers.toNat := Nat.pos_of_ne_zero fun h => hlayers (UInt32.toNat_inj.mp h)
  rw [UInt64.lt_iff_toNat_lt] at hbelow
  rw [toNat_proportion, Nat.div_lt_iff_lt_mul (by omega)]
  calc layers.toNat * capacity.toNat % 2 ^ 64 ≤ layers.toNat * capacity.toNat := Nat.mod_le _ _
    _ < layers.toNat * modelBytes.toNat := Nat.mul_lt_mul_of_pos_left hbelow hpos

/-- The number of layers: in proportion, and one at least. -/
theorem toNat_partialLayers (hlayers : requirements.layerCount = some layers) (hpos : layers ≠ 0)
    (hbelow : capacity < modelBytes) :
    (partialLayers requirements capacity modelBytes).toNat =
      max 1 (layers.toUInt64 * capacity / modelBytes).toNat := by
  have hmodel : modelBytes ≠ 0 := by
    rintro rfl
    exact absurd hbelow (UInt64.not_lt.mpr (UInt64.le_iff_toNat_le.mpr (Nat.zero_le _)))
  have hlt := proportion_lt hpos hbelow
  have hsmall := layers.toNat_lt
  have hone : 1 ≤ layers.toNat := Nat.pos_of_ne_zero fun h => hpos (UInt32.toNat_inj.mp h)
  unfold partialLayers
  rw [hlayers]
  dsimp only
  rw [if_neg (by simp [hpos, hmodel])]
  generalize layers.toUInt64 * capacity / modelBytes = q at hlt ⊢
  by_cases hq : q = 0
  · subst hq
    rw [if_pos rfl]
    by_cases hge : (1 : UInt64) ≥ layers.toUInt64
    · -- a single layer: none is left, and one is taken all the same
      have hsingle : layers.toUInt64 = 1 := by
        rw [ge_iff_le, UInt64.le_iff_toNat_le, UInt32.toNat_toUInt64] at hge
        rw [← UInt64.toNat_inj, UInt32.toNat_toUInt64]
        exact Nat.le_antisymm hge hone
      rw [if_pos hge, hsingle]
      rfl
    · rw [if_neg hge]
      rfl
  · have hqpos : 1 ≤ q.toNat := Nat.pos_of_ne_zero fun h => hq (UInt64.toNat_inj.mp h)
    -- a share that is not 0 is below the number of layers
    have hge : ¬q ≥ layers.toUInt64 := by
      rw [ge_iff_le, UInt64.le_iff_toNat_le, UInt32.toNat_toUInt64]
      omega
    rw [if_neg hq, if_neg hge, if_neg hq, UInt64.toNat_toUInt32, Nat.mod_eq_of_lt (by omega),
      max_eq_right hqpos]

/-- The layers of the budget fit exactly when one layer does. -/
theorem partialLayers_fit_iff (hlayers : requirements.layerCount = some layers) (hpos : layers ≠ 0)
    (hbelow : capacity < modelBytes) :
    (partialLayers requirements capacity modelBytes < layers ∧
      (partialLayers requirements capacity modelBytes).toNat * modelBytes.toNat ≤
        layers.toNat * capacity.toNat) ↔
      modelBytes.toNat ≤ layers.toNat * capacity.toNat := by
  have hb := toNat_partialLayers hlayers hpos hbelow
  have hlt := proportion_lt hpos hbelow
  rw [UInt32.lt_iff_toNat_lt, hb]
  rw [UInt64.lt_iff_toNat_lt] at hbelow
  constructor
  · rintro ⟨-, hfits⟩
    exact (Nat.le_mul_of_pos_left _ (by omega)).trans hfits
  · intro hone
    -- the model has more than one layer
    have htwo : 1 < layers.toNat := by
      by_contra hle
      have hmul : layers.toNat * capacity.toNat ≤ 1 * capacity.toNat :=
        Nat.mul_le_mul_right _ (by omega)
      omega
    refine ⟨max_lt htwo hlt, ?_⟩
    rcases max_cases 1 (layers.toUInt64 * capacity / modelBytes).toNat with ⟨h, -⟩ | ⟨h, -⟩
    · rw [h, Nat.one_mul]
      exact hone
    · rw [h, toNat_proportion]
      exact (Nat.div_mul_le_self _ _).trans (Nat.mod_le _ _)

/-- A test of wrapped products holds of the products when the smaller one wraps around no more often
than the other. -/
theorem le_iff_div_le {a b m : ℕ} (hmod : a % m ≤ b % m) : a ≤ b ↔ a / m ≤ b / m := by
  constructor
  · exact fun h => Nat.div_le_div_right h
  · intro h
    have ha := Nat.div_add_mod a m
    have hb := Nat.div_add_mod b m
    have hmul : m * (a / m) ≤ m * (b / m) := Nat.mul_le_mul_left _ h
    omega

end Layers

/-! ## Plans -/

section Budget

open ModelExecutionPlan (gpuLayerBudget)

variable {p : Placement} (plan : ModelExecutionPlan)

/-- A reason is no part of the layer budget. -/
@[simp]
theorem gpuLayerBudget_addReason (reason : PlanReason) :
    (plan.addReason reason).gpuLayerBudget = plan.gpuLayerBudget := by
  unfold ModelExecutionPlan.addReason
  split <;> rfl

@[simp]
theorem gpuLayerBudget_warn (text : String) :
    (plan.warn text).gpuLayerBudget = plan.gpuLayerBudget := rfl

/-- The context limit is no part of the layer budget. -/
theorem gpuLayerBudget_finishContext :
    (p.finishContext plan).gpuLayerBudget = plan.gpuLayerBudget := by
  unfold Placement.finishContext
  split <;> (dsimp only; split <;> rfl)

/-- No budget is set before a placement is chosen. -/
theorem gpuLayerBudget_prepared :
    (p.finishContext (p.noteRejections p.start)).gpuLayerBudget = none := by
  rw [gpuLayerBudget_finishContext]
  show gpuLayerBudget (ite _ _ _) = _
  simp only [gpuLayerBudget_warn, gpuLayerBudget_addReason, apply_ite gpuLayerBudget, ite_self]

/-- A reason is no part of the memory budget. -/
theorem memoryBudgetBytes_addReason (reason : PlanReason) :
    (plan.addReason reason).memoryBudgetBytes = plan.memoryBudgetBytes :=
  congrArg ModelExecutionPlan.Decision.memoryBudgetBytes (plan.decision_addReason reason)

/-- A partial residency has the layer budget that was computed for it. -/
theorem gpuLayerBudget_describePartial (choice : Choice) (engine : Candidate) :
    (p.describePartial choice engine plan).gpuLayerBudget =
      if partialLayers p.requirements plan.memoryBudgetBytes p.modelBytes > 0 then
        some (partialLayers p.requirements plan.memoryBudgetBytes p.modelBytes)
      else plan.gpuLayerBudget := by
  unfold Placement.describePartial
  simp only [apply_ite ModelExecutionPlan.memoryBudgetBytes, apply_ite gpuLayerBudget,
    memoryBudgetBytes_addReason, gpuLayerBudget_addReason, ite_self]

/-- The budget of a partial residency. -/
theorem gpuLayerBudget_complete (engine : Candidate) {choice : Choice}
    (hresidency : choice.residency = .partialResident) :
    (p.complete choice engine).gpuLayerBudget =
      if partialLayers p.requirements (p.capacity choice.device) p.modelBytes > 0 then
        some (partialLayers p.requirements (p.capacity choice.device) p.modelBytes)
      else none := by
  unfold Placement.complete
  dsimp only
  rw [apply_ite gpuLayerBudget, gpuLayerBudget_warn, ite_self]
  simp only [hresidency]
  rw [gpuLayerBudget_describePartial]
  dsimp only
  rw [gpuLayerBudget_prepared]

end Budget

/-- A plan of partial residency is for an accelerator that is smaller than the model and passes the
test of the percentage, and has the budget that is computed for it. -/
theorem budget_of_partialResident
    (hpart : (plan requirements report registry config).residency = .partialResident) :
    ∃ kind : DeviceKind, kind ≠ .cpu ∧
      (placementOf requirements report registry config).partlyFits kind = true ∧
      (plan requirements report registry config).memoryBudgetBytes =
        (placementOf requirements report registry config).capacity kind ∧
      ∀ b, (plan requirements report registry config).gpuLayerBudget = some b →
        b = partialLayers requirements
            ((placementOf requirements report registry config).capacity kind)
            (placementOf requirements report registry config).modelBytes ∧ 0 < b := by
  obtain ⟨choice, engine, hchoose, -, hplan, hresidency, -⟩ :=
    plan_of_residency (by rw [hpart]; decide)
  rw [hpart] at hresidency
  rw [hplan]
  generalize hp : placementOf requirements report registry config = p at hchoose
  have hreq : p.requirements = requirements := by rw [← hp]; rfl
  have hdecision := congrArg ModelExecutionPlan.Decision.memoryBudgetBytes
    (Placement.decision_complete (p := p) choice engine)
  -- one choice alone leaves a model partly resident
  cases Placement.chosen_of_choose hchoose with
  | full => cases hresidency
  | streaming => cases hresidency
  | cpuFallback => cases hresidency
  | @partlyResident kind haccel hallowed hfits hengine =>
    refine ⟨kind, haccel, hfits, hdecision, fun b hb => ?_⟩
    rw [← hreq]
    rw [gpuLayerBudget_complete engine rfl] at hb
    split_ifs at hb with hpos
    cases hb
    exact ⟨rfl, hpos⟩

/-- **Budgets.** The budget of a partial residency is below the number of layers and fits the
accelerator, which holds 15% of the model and not all of it, exactly when one layer fits, and 15
times the size of the model wraps around no more often than 100 times the capacity. -/
theorem budgetFits_iff
    (hpart : (plan requirements report registry config).residency = .partialResident) {b : UInt32}
    (hbudget : (plan requirements report registry config).gpuLayerBudget = some b) :
    ∃ kind : DeviceKind, ∃ layers : UInt32, kind ≠ .cpu ∧ requirements.layerCount = some layers ∧
      (plan requirements report registry config).memoryBudgetBytes =
        (placementOf requirements report registry config).capacity kind ∧
      (BudgetFits layers (placementOf requirements report registry config).modelBytes
          (plan requirements report registry config).memoryBudgetBytes b ↔
        (placementOf requirements report registry config).modelBytes.toNat ≤ layers.toNat *
            ((placementOf requirements report registry config).capacity kind).toNat ∧
          15 * (placementOf requirements report registry config).modelBytes.toNat / 2 ^ 64 ≤
            100 * ((placementOf requirements report registry config).capacity kind).toNat /
              2 ^ 64) := by
  obtain ⟨kind, haccel, hfits, hcapacity, hlayers⟩ := budget_of_partialResident hpart
  obtain ⟨rfl, hpos⟩ := hlayers b hbudget
  rw [hcapacity]
  clear hcapacity hlayers hbudget hpart
  generalize placementOf requirements report registry config = p at hfits hpos ⊢
  -- a model without layers has no budget
  obtain ⟨layers, hcount, hne⟩ : ∃ layers, requirements.layerCount = some layers ∧ layers ≠ 0 := by
    unfold partialLayers at hpos
    split at hpos
    next => exact absurd hpos (by decide)
    next layers hcount =>
      refine ⟨layers, hcount, ?_⟩
      rintro rfl
      simp at hpos
  unfold Placement.partlyFits at hfits
  split_ifs at hfits with hallowed hoff
  simp only [Bool.or_eq_true, decide_eq_true_eq, not_or, ge_iff_le, UInt64.not_le] at hoff hfits
  have hpercent : p.modelBytes.toNat * 15 % 2 ^ 64 ≤ (p.capacity kind).toNat * 100 % 2 ^ 64 := by
    have hle := UInt64.le_iff_toNat_le.mp hfits
    rw [UInt64.toNat_mul, UInt64.toNat_mul] at hle
    exact hle
  have hiff := partialLayers_fit_iff hcount hne hoff.2
  refine ⟨kind, layers, haccel, hcount, rfl, ?_⟩
  rw [← hiff, Nat.mul_comm 15, Nat.mul_comm 100, ← le_iff_div_le hpercent]
  constructor
  · intro h
    exact ⟨⟨h.fewer, h.fits⟩, by have := h.percent; omega⟩
  · rintro ⟨⟨hfewer, hb⟩, hpercent⟩
    exact ⟨hfewer, hb, by omega, hoff.2⟩

/-! ## Samples -/

/-- An engine for the CPU and for Vulkan. -/
def vulkanRegistry : ExecutionEngineRegistry :=
  (∅ : ExecutionEngineRegistry).insert "llama.cpp"
    (some (({} : EngineCapabilitySet).add .backendCpu |>.add .backendVulkan))

/-- A Vulkan device of four bytes. -/
def vulkanReport : CapabilityReport where
  devices := [{
    backendType := "Vulkan"
    available := true
    supported := true
    memoryCapacity := 4 }]

/-- A model of eight bytes in equal layers. -/
def layeredModel (layers : UInt32) : ModelRequirements where
  format := .gguf
  quantization := .q4
  estimatedMemoryBytes := some 8
  layerCount := some layers

/-- Of a model of four layers two fit. -/
theorem budgetFits_four : ∃ kind : DeviceKind, ∃ layers : UInt32, kind ≠ .cpu ∧
    (layeredModel 4).layerCount = some layers ∧
    (plan (layeredModel 4) vulkanReport vulkanRegistry {}).memoryBudgetBytes =
      (placementOf (layeredModel 4) vulkanReport vulkanRegistry {}).capacity kind ∧
    (BudgetFits layers 8
        (plan (layeredModel 4) vulkanReport vulkanRegistry {}).memoryBudgetBytes 2 ↔
      8 ≤ layers.toNat *
          ((placementOf (layeredModel 4) vulkanReport vulkanRegistry {}).capacity kind).toNat ∧
        15 * 8 / 2 ^ 64 ≤ 100 *
          ((placementOf (layeredModel 4) vulkanReport vulkanRegistry {}).capacity kind).toNat /
            2 ^ 64) := by
  have hpart : (plan (layeredModel 4) vulkanReport vulkanRegistry {}).residency =
      .partialResident := by decide +kernel
  have hbudget : (plan (layeredModel 4) vulkanReport vulkanRegistry {}).gpuLayerBudget =
      some 2 := by decide +kernel
  exact budgetFits_iff hpart hbudget

/-- The budget of a model of one layer is that layer, of which a half fits. -/
theorem not_budgetFits : ¬∀ (requirements : ModelRequirements) (report : CapabilityReport)
    (registry : ExecutionEngineRegistry) (config : PlannerConfig) (b : UInt32),
    (plan requirements report registry config).residency = .partialResident →
    (plan requirements report registry config).gpuLayerBudget = some b →
    BudgetFits (requirements.layerCount.getD 0)
      (placementOf requirements report registry config).modelBytes
      (plan requirements report registry config).memoryBudgetBytes b := by
  intro hall
  have h := hall (layeredModel 1) vulkanReport vulkanRegistry {} 1 (by decide +kernel)
    (by decide +kernel)
  exact absurd h.fewer (by decide)

end HeteroAccel.Planner
