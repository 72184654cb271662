import HeteroAccel.Planner.ExecutionPlanner

/-!
# What a plan promises

The planner chooses a placement first and looks the engine for it up afterwards. A placement on one
device, and a partial one, was only chosen because there is an engine for it. A streaming placement
was chosen because there is an engine for *some* mode, and the engine that is looked up for it may
then be one that cannot drive the device, or there may be none.

## Main definitions

* `EngineEligible`: what an engine has passed, and `Offers`: there is one for a mode;
* `PlanSound`: what every plan should promise, and `planSound_iff`: when it does;
* `PlanComplete`: a model that fits the memory of the CPU is given a plan, and `planComplete_iff`.
-/

namespace HeteroAccel.Planner

variable {requirements : ModelRequirements} {report : CapabilityReport}
  {registry : ExecutionEngineRegistry} {config : PlannerConfig}

/-! ## Engines that are found -/

section SelectEngine

variable {candidates : List Candidate} {mode : ExecutionMode}

/-- What the search over the candidates does with the last one. -/
theorem selectEngine_concat (rest : List Candidate) (candidate : Candidate) :
    selectEngine (rest ++ [candidate]) mode =
      if !candidate.eligible then selectEngine rest mode
      else if !hasBackend candidate.caps mode then selectEngine rest mode
      else
        match selectEngine rest mode with
        | none => some candidate
        | some b => if candidate.key < b.key then some candidate else selectEngine rest mode :=
  List.foldl_concat ..

/-- An engine that is found is an eligible candidate with the backend of the mode. -/
theorem selectEngine_spec {engine : Candidate} (h : selectEngine candidates mode = some engine) :
    engine ∈ candidates ∧ engine.eligible = true ∧ hasBackend engine.caps mode = true := by
  induction candidates using List.reverseRecOn with
  | nil => cases h
  | append_singleton rest candidate ih =>
    rw [selectEngine_concat] at h
    have hrest : selectEngine rest mode = some engine →
        engine ∈ rest ++ [candidate] ∧ engine.eligible = true ∧
          hasBackend engine.caps mode = true :=
      fun h => ⟨List.mem_append_left _ (ih h).1, (ih h).2⟩
    split at h
    next => exact hrest h
    next heligible =>
      split at h
      next => exact hrest h
      next hbackend =>
        -- the last candidate is taken where it is eligible and fits the mode
        have hself : some candidate = some engine →
            engine ∈ rest ++ [candidate] ∧ engine.eligible = true ∧
              hasBackend engine.caps mode = true := by
          intro h
          obtain rfl := Option.some.inj h
          exact ⟨by simp, by simpa using heligible, by simpa using hbackend⟩
        split at h
        next => exact hself h
        next =>
          split at h
          next => exact hself h
          next => exact hrest h

/-- No engine is found only when no eligible candidate has the backend of the mode. -/
theorem selectEngine_eq_none_iff :
    selectEngine candidates mode = none ↔
      ∀ candidate ∈ candidates, candidate.eligible = true →
        hasBackend candidate.caps mode = false := by
  induction candidates using List.reverseRecOn with
  | nil => exact iff_of_true rfl nofun
  | append_singleton rest candidate ih =>
    rw [List.forall_mem_append, List.forall_mem_singleton, ← ih, selectEngine_concat]
    split
    next h =>
      have heligible : candidate.eligible = false := by simpa using h
      exact (and_iff_left fun h => by rw [heligible] at h; cases h).symm
    next heligible =>
      split
      next h => exact (and_iff_left fun _ => by simpa using h).symm
      next hbackend =>
        -- the last candidate is taken, or an earlier one stays
        refine iff_of_false ?_ fun h => hbackend ?_
        · split
          next => exact nofun
          next hbest =>
            rw [hbest]
            split <;> exact nofun
        · rw [h.2 (by simpa using heligible)]
          rfl

/-- An engine is selected exactly when an eligible one has the backend. -/
theorem selectEngine_isSome_iff :
    (selectEngine candidates mode).isSome = true ↔
      ∃ candidate ∈ candidates, candidate.eligible = true ∧
        hasBackend candidate.caps mode = true := by
  rw [Option.isSome_iff_ne_none, ne_eq, selectEngine_eq_none_iff]
  push Not
  simp

end SelectEngine

/-- What an engine of the registry has passed before it is considered for a workload. -/
structure EngineEligible (requirements : ModelRequirements) (report : CapabilityReport)
    (registry : ExecutionEngineRegistry) (key : String) (caps : EngineCapabilitySet) : Prop where
  registered : registry.lookup key = some (some caps)
  /-- The report lists the engine, or lists no engine at all. -/
  listed : report.engines = [] ∨ ∃ entry ∈ report.engines, entry.engineName = key
  /-- The first entry of the report for the engine supports it. -/
  supported : ∀ entry, (report.engines.find? fun entry => entry.engineName = key) = some entry →
    entry.supported = true
  covers : coversRequired caps requirements = true

/-- Some eligible engine advertises the backends of a mode. -/
def Offers (requirements : ModelRequirements) (report : CapabilityReport)
    (registry : ExecutionEngineRegistry) (mode : ExecutionMode) : Prop :=
  ∃ key caps, EngineEligible requirements report registry key caps ∧ hasBackend caps mode = true

/-- An engine that has passed every check is an eligible candidate. -/
theorem candidateFor_of_eligible {key : String} {caps : EngineCapabilitySet}
    (h : EngineEligible requirements report registry key caps) :
    candidateFor requirements report registry key = { key, caps, eligible := true } := by
  unfold candidateFor
  rw [h.registered]
  dsimp only
  rw [if_neg, if_neg (by simp [h.covers])]
  · split
    next entry hentry =>
      obtain ⟨hfound, hsupported⟩ := Option.filter_eq_some_iff.mp hentry
      rw [h.supported entry hfound] at hsupported
      cases hsupported
    next => rfl
  · -- a report without engines lists none and rejects none
    rcases h.listed with hnil | ⟨entry, hentry, hname⟩
    · simp [hnil]
    · have hfound : (report.engines.find? fun entry => entry.engineName = key).isSome = true :=
        List.find?_isSome.mpr ⟨entry, hentry, by simpa using hname⟩
      simp [Option.isNone_iff_eq_none, Option.isSome_iff_ne_none.mp hfound]

/-- An eligible candidate stands for an engine that has passed every check. -/
theorem eligible_of_candidateFor {key : String} {candidate : Candidate}
    (hcandidate : candidateFor requirements report registry key = candidate)
    (h : candidate.eligible = true) :
    EngineEligible requirements report registry candidate.key candidate.caps := by
  unfold candidateFor at hcandidate
  split at hcandidate
  next => subst hcandidate; cases h
  next => subst hcandidate; cases h
  next caps hlookup =>
    dsimp only at hcandidate
    split at hcandidate
    next => subst hcandidate; cases h
    next hlisted =>
      split at hcandidate
      next => subst hcandidate; cases h
      next hsupported =>
        split at hcandidate
        next => subst hcandidate; cases h
        next hcovers =>
          subst hcandidate
          refine ⟨hlookup, ?_, ?_, by simpa using hcovers⟩
          · simpa [or_iff_not_imp_left] using hlisted
          · intro entry hentry
            rw [hentry] at hsupported
            simpa [Option.filter] using hsupported

/-- The candidates are the registered engines. -/
theorem mem_candidatesOf {candidate : Candidate} :
    candidate ∈ candidatesOf requirements report registry ↔
      ∃ key ∈ registry, candidateFor requirements report registry key = candidate := by
  simp [candidatesOf, AList.mem_keys]

/-- An engine is found for a mode exactly when an eligible engine advertises its backends. -/
theorem selectEngine_isSome_iff_offers {mode : ExecutionMode} :
    (selectEngine (candidatesOf requirements report registry) mode).isSome = true ↔
      Offers requirements report registry mode := by
  rw [selectEngine_isSome_iff]
  constructor
  · rintro ⟨candidate, hmem, heligible, hbackend⟩
    obtain ⟨key, -, hcandidate⟩ := mem_candidatesOf.mp hmem
    exact ⟨_, _, eligible_of_candidateFor hcandidate heligible, hbackend⟩
  · rintro ⟨key, caps, heligible, hbackend⟩
    have hkey : key ∈ registry := AList.lookup_isSome.mp (by rw [heligible.registered]; rfl)
    exact ⟨_, mem_candidatesOf.mpr ⟨key, hkey, candidateFor_of_eligible heligible⟩, rfl, hbackend⟩

/-- The engine that is found has passed every check and has the backends of the mode. -/
theorem eligible_of_selectEngine {mode : ExecutionMode} {engine : Candidate}
    (h : selectEngine (candidatesOf requirements report registry) mode = some engine) :
    EngineEligible requirements report registry engine.key engine.caps ∧
      hasBackend engine.caps mode = true := by
  obtain ⟨hmem, heligible, hbackend⟩ := selectEngine_spec h
  obtain ⟨key, -, hcandidate⟩ := mem_candidatesOf.mp hmem
  exact ⟨eligible_of_candidateFor hcandidate heligible, hbackend⟩

/-! ## The order of the registrations -/

/-- The order in which the engines were registered does not matter. -/
theorem plan_of_perm {registry' : ExecutionEngineRegistry}
    (h : registry'.entries.Perm registry.entries) :
    plan requirements report registry' config = plan requirements report registry config := by
  have hkeys : registry'.keys.Perm registry.keys := h.map Sigma.fst
  have hsorted : registry'.keys.insertionSort (· ≤ ·) = registry.keys.insertionSort (· ≤ ·) :=
    List.Perm.eq_of_sortedLE (List.sortedLE_insertionSort) (List.sortedLE_insertionSort)
      (((List.perm_insertionSort _ _).trans hkeys).trans (List.perm_insertionSort _ _).symm)
  have hlookup : ∀ key, registry'.lookup key = registry.lookup key := fun key =>
    AList.perm_lookup h
  have hcandidates : candidatesOf requirements report registry' =
      candidatesOf requirements report registry := by
    unfold candidatesOf
    rw [hsorted]
    refine List.map_congr_left fun key _ => ?_
    rw [candidateFor, candidateFor, hlookup]
  have hnil : registry'.keys = [] ↔ registry.keys = [] := by
    rw [← List.length_eq_zero_iff, ← List.length_eq_zero_iff, hkeys.length_eq]
  unfold plan placementOf
  simp only [hcandidates, hnil]

/-! ## Placements and their engines -/

namespace Placement

variable {p : Placement}

/-- No usable accelerator with an engine for it can hold the model, or enough of it. -/
def NoResidency (p : Placement) : Prop :=
  ∀ kind : DeviceKind, kind ≠ .cpu → p.fits kind = true ∨ p.partlyFits kind = true →
    selectEngine p.candidates kind.mode = none

/-- The accelerator a streaming placement is for. -/
def streamDevice (p : Placement) : DeviceKind := if p.usable .vulkan then .vulkan else .cuda

/-- The choice of a streaming plan. -/
def streamChoice (p : Placement) : Choice where
  mode := .hybrid
  residency := .streaming
  device := p.streamDevice
  executable := false
  confidence := 40

/-- The model is left to be streamed to a usable accelerator. -/
structure Streams (p : Placement) : Prop where
  allowed : p.config.allowAccelerator = true
  possible : p.streamingPossible = true
  usable : p.usable .vulkan = true ∨ p.usable .cuda = true
  noResidency : p.NoResidency

theorem tryFull_eq_none_iff {kind : DeviceKind} {mode : ExecutionMode} :
    p.tryFull mode kind = none ↔
      (p.config.allowAccelerator = true → p.fits kind = true →
        selectEngine p.candidates mode = none) := by
  unfold tryFull
  split
  next h =>
    have hnone : p.config.allowAccelerator = false ∨ p.fits kind = false := by simpa using h
    rcases hnone with hnone | hnone <;> simp [hnone]
  next h =>
    obtain ⟨hallowed, hfits⟩ : p.config.allowAccelerator = true ∧ p.fits kind = true := by
      simpa using h
    split <;> simp_all

/-- When no partial residency is offered. -/
theorem tryPartial_eq_none_iff {kind : DeviceKind} {mode : ExecutionMode} :
    p.tryPartial mode kind = none ↔
      (p.config.allowAccelerator = true → p.partlyFits kind = true →
        selectEngine p.candidates mode = none) := by
  unfold tryPartial
  split
  next h =>
    have hnone : p.config.allowAccelerator = false ∨ p.partlyFits kind = false := by simpa using h
    rcases hnone with hnone | hnone <;> simp [hnone]
  next h =>
    obtain ⟨hallowed, hfits⟩ : p.config.allowAccelerator = true ∧ p.partlyFits kind = true := by
      simpa using h
    split <;> simp_all

/-- Without a resident placement the model is streamed, or computed on the CPU. -/
theorem choose_of_noResidency (h : p.NoResidency) :
    p.choose = (p.tryStreaming <|> p.tryCpuFallback) := by
  have hfull : ∀ kind : DeviceKind, kind ≠ .cpu → p.tryFull kind.mode kind = none :=
    fun kind hkind => tryFull_eq_none_iff.mpr fun _ hfits => h kind hkind (.inl hfits)
  have hpart : ∀ kind : DeviceKind, kind ≠ .cpu → p.tryPartial kind.mode kind = none :=
    fun kind hkind => tryPartial_eq_none_iff.mpr fun _ hfits => h kind hkind (.inr hfits)
  unfold choose
  rw [show p.tryFull .cuda .cuda = none from hfull .cuda (by decide),
    show p.tryFull .vulkan .vulkan = none from hfull .vulkan (by decide),
    show p.tryPartial .cuda .cuda = none from hpart .cuda (by decide),
    show p.tryPartial .vulkan .vulkan = none from hpart .vulkan (by decide)]
  rfl

theorem residency_of_tryFull {mode : ExecutionMode} {kind : DeviceKind} {choice : Choice}
    (h : p.tryFull mode kind = some choice) : choice.residency = .fullResident := by
  unfold tryFull at h
  split at h
  next => cases h
  next =>
    split at h
    next => cases h
    next =>
      cases h
      rfl

theorem residency_of_tryPartial {mode : ExecutionMode} {kind : DeviceKind} {choice : Choice}
    (h : p.tryPartial mode kind = some choice) : choice.residency = .partialResident := by
  unfold tryPartial at h
  split at h
  next => cases h
  next =>
    split at h
    next => cases h
    next =>
      cases h
      rfl

/-- Unless the model is wholly resident on an accelerator, no usable accelerator with an engine for
it holds the whole model. -/
theorem no_full_of_choose {choice : Choice} (h : p.choose = some choice)
    (hfull : choice.residency ≠ .fullResident) (hallowed : p.config.allowAccelerator = true)
    {kind : DeviceKind} (hkind : kind ≠ .cpu) (hfits : p.fits kind = true) :
    selectEngine p.candidates kind.mode = none := by
  simp only [choose, Option.orElse_eq_orElse, Option.orElse_eq_or, Option.or_eq_some_iff] at h
  rcases h with h | ⟨hcuda, h | ⟨hvulkan, -⟩⟩
  · exact absurd (residency_of_tryFull h) hfull
  · exact absurd (residency_of_tryFull h) hfull
  · cases kind with
    | cpu => exact absurd rfl hkind
    | vulkan => exact tryFull_eq_none_iff.mp hvulkan hallowed hfits
    | cuda => exact tryFull_eq_none_iff.mp hcuda hallowed hfits

theorem tryStreaming_eq_some {choice : Choice} (h : p.tryStreaming = some choice) :
    p.config.allowAccelerator = true ∧ p.streamingPossible = true ∧
      (p.usable .vulkan = true ∨ p.usable .cuda = true) ∧ choice = p.streamChoice := by
  unfold tryStreaming at h
  split at h
  next hpossible =>
    simp only [Bool.and_eq_true, Bool.or_eq_true] at hpossible
    obtain ⟨⟨hpossible, hallowed⟩, husable⟩ := hpossible
    split at h
    next =>
      cases h
      refine ⟨hallowed, hpossible, husable, ?_⟩
      unfold streamChoice streamDevice
      -- one of the two is usable, so the CPU is never the device
      by_cases hvulkan : p.usable .vulkan = true
      · rw [if_pos hvulkan, if_pos hvulkan]
      · rw [if_neg hvulkan, if_neg hvulkan, if_pos (husable.resolve_left hvulkan)]
    next => cases h
  next => cases h

/-- A model is only streamed when it cannot be resident. -/
theorem streams_of_choose {choice : Choice} (h : p.choose = some choice)
    (hstreaming : choice.residency = .streaming) : p.Streams ∧ choice = p.streamChoice := by
  have hchoose := h
  simp only [choose, Option.orElse_eq_orElse, Option.orElse_eq_or, Option.or_eq_some_iff] at h
  rcases h with h | ⟨-, h | ⟨-, h | ⟨hcuda, h | ⟨hvulkan, h | ⟨-, h⟩⟩⟩⟩⟩
  · cases hstreaming.symm.trans (residency_of_tryFull h)
  · cases hstreaming.symm.trans (residency_of_tryFull h)
  · cases hstreaming.symm.trans (residency_of_tryPartial h)
  · cases hstreaming.symm.trans (residency_of_tryPartial h)
  · obtain ⟨hallowed, hpossible, husable, hchoice⟩ := tryStreaming_eq_some h
    refine ⟨⟨hallowed, hpossible, husable, fun kind hkind hfits => ?_⟩, hchoice⟩
    rcases hfits with hfits | hfits
    · exact no_full_of_choose hchoose (by rw [hstreaming]; decide) hallowed hkind hfits
    · cases kind with
      | cpu => exact absurd rfl hkind
      | vulkan => exact tryPartial_eq_none_iff.mp hvulkan hallowed hfits
      | cuda => exact tryPartial_eq_none_iff.mp hcuda hallowed hfits
  · unfold tryCpuFallback at h
    split at h
    next =>
      cases h
      cases hstreaming
    next => cases h

/-- A model that is left to be streamed is streamed as soon as there is an engine for any mode. -/
theorem choose_of_streams (h : p.Streams) {mode : ExecutionMode} (hmode : mode ≠ .unsupported)
    (hengine : (selectEngine p.candidates mode).isSome = true) :
    p.choose = some p.streamChoice := by
  have hsome : p.tryStreaming.isSome = true := by
    unfold tryStreaming
    rw [if_pos (by simp [h.possible, h.allowed, h.usable]), if_pos]
    · rfl
    · rw [List.any_eq_true]
      refine ⟨mode, ?_, hengine⟩
      cases mode <;> first | decide | exact absurd rfl hmode
  obtain ⟨choice, hchoice⟩ := Option.isSome_iff_exists.mp hsome
  obtain ⟨-, -, -, rfl⟩ := tryStreaming_eq_some hchoice
  rw [choose_of_noResidency h.noResidency, hchoice]
  rfl

/-- Other placements were chosen because there is an engine for the mode of their device. -/
theorem engine_of_chosen {choice : Choice} (h : p.Chosen choice)
    (hstreaming : choice.residency ≠ .streaming) :
    (selectEngine p.candidates choice.device.mode).isSome = true := by
  cases h with
  | full _ _ _ hengine => exact hengine
  | partlyResident _ _ _ hengine => exact hengine
  | streaming => exact absurd rfl hstreaming
  | cpuFallback havailable =>
    simp only [cpuFallbackAvailable, Bool.and_eq_true] at havailable
    exact havailable.2

/-- What is chosen for a model that is left to be streamed. -/
theorem eq_streamChoice_of_streams (h : p.Streams) {choice : Choice}
    (hchoose : p.choose = some choice) : choice = p.streamChoice := by
  by_cases hstreaming : choice.residency = .streaming
  · exact (streams_of_choose hchoose hstreaming).2
  · -- any other placement has an engine, and with an engine the model is streamed
    have hengine := engine_of_chosen (chosen_of_choose hchoose) hstreaming
    have hmode : choice.device.mode ≠ .unsupported := by cases choice.device <;> decide
    exact Option.some.inj (hchoose.symm.trans (choose_of_streams h hmode hengine))

/-- The engine of a placement is one for the mode of its device. Only a streaming placement can do
without: it then takes an engine for some accelerator and the CPU. -/
theorem engineFor_of_chosen {choice : Choice} (h : p.Chosen choice) :
    p.engineFor choice =
      (selectEngine p.candidates choice.device.mode).or
        (if choice.mode = .hybrid then selectEngine p.candidates .hybrid else none) := by
  unfold engineFor
  dsimp only
  -- whatever the residency, the mode that is asked for first is that of the device
  split
  next engine hengine =>
    have hfound : selectEngine p.candidates choice.device.mode = some engine := by
      cases h with
      | full => exact hengine
      | @partlyResident kind => cases kind <;> exact hengine
      | @streaming kind => cases kind <;> exact hengine
      | cpuFallback => exact hengine
    rw [hfound]
    rfl
  next hnone =>
    have hmissing : selectEngine p.candidates choice.device.mode = none := by
      cases h with
      | full => exact hnone
      | @partlyResident kind => cases kind <;> exact hnone
      | @streaming kind => cases kind <;> exact hnone
      | cpuFallback => exact hnone
    rw [hmissing]
    rfl

/-- A streaming plan is never executable. -/
theorem executable_complete_of_streaming {choice : Choice} (engine : Candidate)
    (hstreaming : choice.residency = .streaming) :
    (p.complete choice engine).executable = false := by
  unfold complete
  rw [hstreaming]
  dsimp only
  split <;> rfl

/-- A plan for an accelerator falls back to the CPU when that is possible. -/
theorem fallback_complete {choice : Choice} (engine : Candidate) (h : p.Chosen choice)
    (hcpu : choice.residency ≠ .cpuFallback) (havailable : p.cpuFallbackAvailable = true) :
    (p.complete choice engine).fallback = .cpuFallback := by
  have hwarned : ∀ (plan : ModelExecutionPlan) (text : String) (b : Bool),
      plan.fallback = .cpuFallback →
        (if b then plan.warn text else plan).fallback = .cpuFallback := by
    rintro plan text (_ | _) hplan <;> exact hplan
  have hfallback : ∀ fallback : ExecutionStrategy,
      (if p.cpuFallbackAvailable then .cpuFallback else fallback) = ExecutionStrategy.cpuFallback :=
    fun fallback => if_pos havailable
  unfold complete
  dsimp only
  refine hwarned _ _ _ ?_
  cases h with
  | full => exact hfallback _
  | partlyResident => exact hfallback _
  | streaming => exact hfallback _
  | cpuFallback => exact absurd rfl hcpu

end Placement

/-! ## Plans -/

/-- A plan is made from the placement that is chosen once the configuration, the model and the
engines leave something to choose. -/
theorem plan_eq_complete {choice : Choice} {engine : Candidate}
    (hstrategy : config.allowAccelerator = true ∨ config.allowCpuFallback = true)
    (hformat : requirements.format ≠ .unknown)
    (hmemory : (placementOf requirements report registry config).memoryKnown = true)
    (hchoose : (placementOf requirements report registry config).choose = some choice)
    (hengine : (placementOf requirements report registry config).engineFor choice = some engine) :
    plan requirements report registry config =
      (placementOf requirements report registry config).complete choice engine := by
  -- an eligible engine exists, so no check before the choice ends the plan
  have hmem : engine ∈ candidatesOf requirements report registry ∧ engine.eligible = true := by
    rw [Placement.engineFor_of_chosen (Placement.chosen_of_choose hchoose),
      Option.or_eq_some_iff] at hengine
    rcases hengine with h | ⟨-, h⟩
    · exact ⟨(selectEngine_spec h).1, (selectEngine_spec h).2.1⟩
    · split at h
      next => exact ⟨(selectEngine_spec h).1, (selectEngine_spec h).2.1⟩
      next => cases h
  have hkeys : registry.keys ≠ [] := by
    obtain ⟨key, hkey, -⟩ := mem_candidatesOf.mp hmem.1
    exact List.ne_nil_of_mem hkey
  have hany : (placementOf requirements report registry config).candidates.any
      Candidate.eligible = true := List.any_eq_true.mpr ⟨engine, hmem⟩
  unfold plan
  dsimp only
  rw [if_neg (by rcases hstrategy with h | h <;> simp [h]), if_neg hformat, if_neg hkeys,
    if_neg (by simp [hany]), if_neg (by simp [hmemory]), hchoose]
  dsimp only
  rw [hengine]

/-- Only models of a known format and size are given a viable plan. -/
theorem known_of_viable (h : (plan requirements report registry config).viable = true) :
    requirements.format ≠ .unknown ∧
      (placementOf requirements report registry config).memoryKnown = true := by
  unfold plan at h
  dsimp only at h
  split at h
  next => cases h
  next =>
    split at h
    next => cases h
    next hformat =>
      refine ⟨hformat, ?_⟩
      split at h
      next => cases h
      next =>
        split at h
        next =>
          have hviable := congrArg ModelExecutionPlan.Decision.viable (decision_failWithRejections
            (placementOf requirements report registry config).candidates
            (placementOf requirements report registry config).modelBytes .engineUnavailable
            "Every registered engine was rejected for this workload.")
          cases hviable.symm.trans h
        next =>
          split at h
          next =>
            have hviable := congrArg ModelExecutionPlan.Decision.viable
              (Placement.decision_unknownMemory
                (p := placementOf requirements report registry config))
            cases hviable.symm.trans h
          next hmemory => simpa using hmemory

/-! ## Soundness -/

/-- What every plan promises. -/
structure PlanSound (requirements : ModelRequirements) (report : CapabilityReport)
    (registry : ExecutionEngineRegistry) (config : PlannerConfig) : Prop where
  /-- The engine is registered and eligible, and drives the device of the placement. -/
  engine : (plan requirements report registry config).viable = true →
    ∃ choice caps, (placementOf requirements report registry config).choose = some choice ∧
      EngineEligible requirements report registry
        (plan requirements report registry config).engineKey caps ∧
      hasBackend caps choice.device.mode = true
  fullResident : (plan requirements report registry config).residency = .fullResident →
    config.allowAccelerator = true ∧ ∃ kind : DeviceKind, kind ≠ .cpu ∧
      (plan requirements report registry config).mode = kind.mode ∧
      (placementOf requirements report registry config).fits kind = true
  partialResident : (plan requirements report registry config).residency = .partialResident →
    config.allowAccelerator = true ∧ config.allowPartialResidency = true ∧
      ∀ kind : DeviceKind, kind ≠ .cpu →
        (placementOf requirements report registry config).fits kind = true →
        ¬ Offers requirements report registry kind.mode
  cpuFallback : (plan requirements report registry config).residency = .cpuFallback →
    config.allowCpuFallback = true ∧
      (placementOf requirements report registry config).fits .cpu = true
  streaming : (plan requirements report registry config).residency = .streaming →
    (plan requirements report registry config).executable = false
  order : ∀ registry' : ExecutionEngineRegistry, registry'.entries.Perm registry.entries →
    plan requirements report registry' config = plan requirements report registry config

/-- A plan with a residency completes the placement that was chosen. -/
theorem plan_of_residency (h : (plan requirements report registry config).residency ≠ .auto) :
    ∃ choice engine, (placementOf requirements report registry config).choose = some choice ∧
      (placementOf requirements report registry config).engineFor choice = some engine ∧
      plan requirements report registry config =
        (placementOf requirements report registry config).complete choice engine ∧
      (plan requirements report registry config).residency = choice.residency ∧
      (plan requirements report registry config).mode = choice.mode := by
  rcases plan_cases requirements report registry config with
    hdecision | ⟨choice, engine, hchoose, hengine, hplan⟩
  · exact absurd (congrArg ModelExecutionPlan.Decision.residency hdecision) h
  · have hdecision := Placement.decision_complete
      (p := placementOf requirements report registry config) choice engine
    rw [← hplan] at hdecision
    exact ⟨choice, engine, hchoose, hengine, hplan,
      congrArg ModelExecutionPlan.Decision.residency hdecision,
      congrArg ModelExecutionPlan.Decision.mode hdecision⟩

/-- A full residency is planned on an accelerator that holds the model. -/
theorem fits_of_fullResident
    (hfull : (plan requirements report registry config).residency = .fullResident) :
    config.allowAccelerator = true ∧ ∃ kind : DeviceKind, kind ≠ .cpu ∧
      (plan requirements report registry config).mode = kind.mode ∧
      (placementOf requirements report registry config).fits kind = true := by
  obtain ⟨choice, engine, hchoose, -, -, hresidency, hmode⟩ :=
    plan_of_residency (by rw [hfull]; decide)
  rw [hmode]
  rw [hfull] at hresidency
  cases Placement.chosen_of_choose hchoose with
  | full haccel hallowed hfits => exact ⟨hallowed, _, haccel, rfl, hfits⟩
  | partlyResident => cases hresidency
  | streaming => cases hresidency
  | cpuFallback => cases hresidency

/-- A partial residency is planned when no accelerator with an engine for it holds the model. -/
theorem no_full_of_partialResident
    (hpart : (plan requirements report registry config).residency = .partialResident) :
    config.allowAccelerator = true ∧ config.allowPartialResidency = true ∧
      ∀ kind : DeviceKind, kind ≠ .cpu →
        (placementOf requirements report registry config).fits kind = true →
        ¬ Offers requirements report registry kind.mode := by
  obtain ⟨choice, engine, hchoose, -, -, hresidency, -⟩ :=
    plan_of_residency (by rw [hpart]; decide)
  rw [hpart] at hresidency
  -- full residency is asked first
  have hno := @Placement.no_full_of_choose _ _ hchoose (by rw [← hresidency]; decide)
  cases Placement.chosen_of_choose hchoose with
  | full => cases hresidency
  | partlyResident haccel hallowed hfits =>
    refine ⟨hallowed, ?_, fun kind hkind hfits hoffers => ?_⟩
    · unfold Placement.partlyFits at hfits
      split at hfits
      next => cases hfits
      next h =>
        simp only [Bool.or_eq_true, Bool.not_eq_true', not_or, Bool.not_eq_false] at h
        exact h.1.1
    · have hsome := selectEngine_isSome_iff_offers.mpr hoffers
      rw [show selectEngine (candidatesOf requirements report registry) kind.mode = none from
        hno hallowed hkind hfits] at hsome
      cases hsome
  | streaming => cases hresidency
  | cpuFallback => cases hresidency

/-- A fallback is planned on a CPU that holds the model. -/
theorem fits_of_cpuFallback
    (hcpu : (plan requirements report registry config).residency = .cpuFallback) :
    config.allowCpuFallback = true ∧
      (placementOf requirements report registry config).fits .cpu = true := by
  obtain ⟨choice, engine, hchoose, -, -, hresidency, -⟩ :=
    plan_of_residency (by rw [hcpu]; decide)
  rw [hcpu] at hresidency
  cases Placement.chosen_of_choose hchoose with
  | full => cases hresidency
  | partlyResident => cases hresidency
  | streaming => cases hresidency
  | cpuFallback havailable =>
    simp only [Placement.cpuFallbackAvailable, Bool.and_eq_true] at havailable
    exact havailable.1

/-- A streaming plan is not executable. -/
theorem not_executable_of_streaming
    (hstreaming : (plan requirements report registry config).residency = .streaming) :
    (plan requirements report registry config).executable = false := by
  obtain ⟨choice, engine, -, -, hplan, hresidency, -⟩ :=
    plan_of_residency (by rw [hstreaming]; decide)
  rw [hplan]
  exact Placement.executable_complete_of_streaming engine (hresidency.symm.trans hstreaming)

/-! The engine of a placement. -/

/-- A model that is streamed to an accelerator without an engine takes an engine for the CPU and
another accelerator. -/
theorem engineFor_streamChoice {p : Placement} (hchoose : p.choose = some p.streamChoice)
    (hmissing : selectEngine p.candidates p.streamDevice.mode = none) :
    p.engineFor p.streamChoice = selectEngine p.candidates .hybrid := by
  rw [Placement.engineFor_of_chosen (Placement.chosen_of_choose hchoose)]
  show (selectEngine p.candidates p.streamDevice.mode).or _ = _
  rw [hmissing]
  rfl

/-- The engine that is found for the device of a placement is the engine of the placement. -/
theorem eligible_of_engineFor {choice : Choice} {engine : Candidate}
    (hchoose : (placementOf requirements report registry config).choose = some choice)
    (hengine : (placementOf requirements report registry config).engineFor choice = some engine)
    (hoffers : Offers requirements report registry choice.device.mode) :
    EngineEligible requirements report registry engine.key engine.caps ∧
      hasBackend engine.caps choice.device.mode = true := by
  obtain ⟨found, hfound⟩ := Option.isSome_iff_exists.mp (selectEngine_isSome_iff_offers.mpr hoffers)
  have hlookup := Placement.engineFor_of_chosen (Placement.chosen_of_choose hchoose)
  rw [hengine] at hlookup
  change some engine = (selectEngine (candidatesOf requirements report registry) _).or _ at hlookup
  rw [hfound] at hlookup
  obtain rfl : engine = found := Option.some.inj hlookup
  exact eligible_of_selectEngine hfound

/-- Only a streaming placement is chosen without an engine for its device. -/
theorem streams_of_not_offers {choice : Choice}
    (hchoose : (placementOf requirements report registry config).choose = some choice)
    (hmissing : ¬ Offers requirements report registry choice.device.mode) :
    (placementOf requirements report registry config).Streams ∧
      choice = (placementOf requirements report registry config).streamChoice := by
  refine Placement.streams_of_choose hchoose ?_
  by_contra hne
  exact hmissing (selectEngine_isSome_iff_offers.mp
    (Placement.engine_of_chosen (Placement.chosen_of_choose hchoose) hne))

/-- The models that are left to be streamed to an accelerator that no eligible engine advertises. -/
structure StreamsWithoutEngine (requirements : ModelRequirements) (report : CapabilityReport)
    (registry : ExecutionEngineRegistry) (config : PlannerConfig) : Prop where
  format : requirements.format ≠ .unknown
  memory : (placementOf requirements report registry config).memoryKnown = true
  streams : (placementOf requirements report registry config).Streams
  missing : ¬ Offers requirements report registry
    (placementOf requirements report registry config).streamDevice.mode

/-- The device of such a streaming plan has no engine. -/
theorem StreamsWithoutEngine.selectEngine_eq_none
    (h : StreamsWithoutEngine requirements report registry config) :
    selectEngine (candidatesOf requirements report registry)
      (placementOf requirements report registry config).streamDevice.mode = none :=
  Option.not_isSome_iff_eq_none.mp (mt selectEngine_isSome_iff_offers.mp h.missing)

/-- Such a model gets an engine that cannot drive the accelerator, if there is one for the CPU and
another accelerator. -/
theorem StreamsWithoutEngine.plan_of_hybrid
    (h : StreamsWithoutEngine requirements report registry config) {engine : Candidate}
    (hengine : selectEngine (candidatesOf requirements report registry) .hybrid = some engine) :
    (placementOf requirements report registry config).choose =
        some (placementOf requirements report registry config).streamChoice ∧
      plan requirements report registry config =
        (placementOf requirements report registry config).complete
          (placementOf requirements report registry config).streamChoice engine := by
  have hchoose := Placement.choose_of_streams h.streams
    (show ExecutionMode.hybrid ≠ .unsupported by decide)
    (Option.isSome_iff_exists.mpr ⟨engine, hengine⟩)
  exact ⟨hchoose, plan_eq_complete (.inl h.streams.allowed) h.format h.memory hchoose
    ((engineFor_streamChoice hchoose h.selectEngine_eq_none).trans hengine)⟩

/-- It gets none when there is no such engine, whatever the other engines are. -/
theorem StreamsWithoutEngine.not_viable
    (h : StreamsWithoutEngine requirements report registry config)
    (hhybrid : ¬ Offers requirements report registry .hybrid) :
    ¬ (plan requirements report registry config).viable = true := by
  intro hviable
  obtain ⟨choice, engine, hchoose, hengine, -⟩ := plan_of_viable hviable
  obtain rfl := Placement.eq_streamChoice_of_streams h.streams hchoose
  rw [engineFor_streamChoice hchoose h.selectEngine_eq_none] at hengine
  exact hhybrid (selectEngine_isSome_iff_offers.mp
    (Option.isSome_iff_exists.mpr ⟨engine, hengine⟩))

/-- A plan keeps its promises exactly when no model is streamed, by an engine for the CPU and one
accelerator, to another accelerator that no eligible engine advertises. -/
theorem planSound_iff (requirements : ModelRequirements) (report : CapabilityReport)
    (registry : ExecutionEngineRegistry) (config : PlannerConfig) :
    PlanSound requirements report registry config ↔
      ¬ (StreamsWithoutEngine requirements report registry config ∧
        Offers requirements report registry .hybrid) := by
  constructor
  · rintro hsound ⟨hstreams, hhybrid⟩
    obtain ⟨engine, hengine⟩ := Option.isSome_iff_exists.mp
      (selectEngine_isSome_iff_offers.mpr hhybrid)
    obtain ⟨hchoose, hplan⟩ := hstreams.plan_of_hybrid hengine
    -- the fallback of the engine makes the plan viable
    have hviable : (plan requirements report registry config).viable = true := by
      rw [hplan]
      exact congrArg ModelExecutionPlan.Decision.viable (Placement.decision_complete ..)
    obtain ⟨choice, caps, hchoice, heligible, hbackend⟩ := hsound.engine hviable
    obtain rfl := Option.some.inj (hchoose.symm.trans hchoice)
    exact hstreams.missing ⟨_, caps, heligible, hbackend⟩
  · intro hcondition
    refine ⟨fun hviable => ?_, fits_of_fullResident, no_full_of_partialResident,
      fits_of_cpuFallback, not_executable_of_streaming, fun registry' hperm => plan_of_perm hperm⟩
    obtain ⟨choice, engine, hchoose, hengine, hplan⟩ := plan_of_viable hviable
    have hkey : (plan requirements report registry config).engineKey = engine.key := by
      rw [hplan]
      exact congrArg ModelExecutionPlan.Decision.engineKey (Placement.decision_complete ..)
    rw [hkey]
    by_cases hoffers : Offers requirements report registry choice.device.mode
    · exact ⟨choice, engine.caps, hchoose, eligible_of_engineFor hchoose hengine hoffers⟩
    · obtain ⟨hstreams, rfl⟩ := streams_of_not_offers hchoose hoffers
      obtain ⟨hformat, hmemory⟩ := known_of_viable hviable
      have hwithout : StreamsWithoutEngine requirements report registry config :=
        ⟨hformat, hmemory, hstreams, hoffers⟩
      rw [engineFor_streamChoice hchoose hwithout.selectEngine_eq_none] at hengine
      exact absurd ⟨hwithout, selectEngine_isSome_iff_offers.mp
        (Option.isSome_iff_exists.mpr ⟨engine, hengine⟩)⟩ hcondition

/-- A machine whose CPU and Vulkan device are usable, and whose Vulkan device reports no memory. -/
def streamingReport : CapabilityReport where
  devices := [
    { backendType := "CPU", available := true, supported := true, memoryCapacity := 8 },
    { backendType := "Vulkan", available := true, supported := true, memoryCapacity := 0 }]
  resources := { streamingPotentiallyFeasible := true }

/-- A model of eight bytes. -/
def eightBytes : ModelRequirements where
  format := .gguf
  quantization := .q4
  estimatedMemoryBytes := some 8

/-- The only engine is for the CPU and for CUDA. -/
def cudaRegistry : ExecutionEngineRegistry :=
  (∅ : ExecutionEngineRegistry).insert "llama.cpp"
    (some (({} : EngineCapabilitySet).add .backendCpu |>.add .backendCuda))

/-- The engine for CUDA is given a model that is streamed to the Vulkan device. -/
theorem not_planSound_sample : ¬ PlanSound eightBytes streamingReport cudaRegistry {} := by
  intro hsound
  obtain ⟨choice, caps, hchoose, heligible, hbackend⟩ := hsound.engine (by decide +kernel)
  have hkey : (plan eightBytes streamingReport cudaRegistry {}).engineKey = "llama.cpp" := by
    decide +kernel
  have hdevice : ((placementOf eightBytes streamingReport cudaRegistry {}).choose.map
      Choice.device) = some .vulkan := by decide +kernel
  have hcaps : cudaRegistry.lookup "llama.cpp" =
      some (some (({} : EngineCapabilitySet).add .backendCpu |>.add .backendCuda)) := by
    decide +kernel
  rw [hkey] at heligible
  rw [hchoose] at hdevice
  rw [Option.some.inj hdevice,
    ← Option.some.inj (Option.some.inj (hcaps.symm.trans heligible.registered))] at hbackend
  revert hbackend
  decide +kernel

/-! ## Completeness for the CPU -/

/-- The model fits a usable CPU, it may be computed there, and there is an engine for it. -/
structure CpuPossible (requirements : ModelRequirements) (report : CapabilityReport)
    (registry : ExecutionEngineRegistry) (config : PlannerConfig) : Prop where
  allowed : config.allowCpuFallback = true
  fits : (placementOf requirements report registry config).fits .cpu = true
  engine : Offers requirements report registry .cpu

/-- A model that could be computed on the CPU is given a plan, for the CPU or with the CPU to fall
back to. -/
def PlanComplete (requirements : ModelRequirements) (report : CapabilityReport)
    (registry : ExecutionEngineRegistry) (config : PlannerConfig) : Prop :=
  CpuPossible requirements report registry config →
    (plan requirements report registry config).viable = true ∧
      ((plan requirements report registry config).residency = .cpuFallback ∨
        (plan requirements report registry config).fallback = .cpuFallback)

/-- A CPU fallback that is possible is available. -/
theorem CpuPossible.available (h : CpuPossible requirements report registry config) :
    (placementOf requirements report registry config).cpuFallbackAvailable = true := by
  have hengine : (selectEngine (placementOf requirements report registry config).candidates
      .cpu).isSome = true := selectEngine_isSome_iff_offers.mpr h.engine
  have hallowed : (placementOf requirements report registry config).config.allowCpuFallback =
      true := h.allowed
  simp only [Placement.cpuFallbackAvailable, hallowed, h.fits, hengine, Bool.and_true]

/-- Some placement is chosen for such a model. -/
theorem CpuPossible.exists_choose (h : CpuPossible requirements report registry config) :
    ∃ choice, (placementOf requirements report registry config).choose = some choice := by
  rw [← Option.isSome_iff_exists, Option.isSome_iff_ne_none]
  simp only [Placement.choose, Option.orElse_eq_orElse, Option.orElse_eq_or, ne_eq,
    Option.or_eq_none_iff, not_and]
  intro _ _ _ _ _
  rw [Placement.tryCpuFallback, if_pos h.available]
  exact Option.some_ne_none _

/-- The planner gives every model that could be computed on the CPU a plan exactly when it accepts
the format of the model and does not leave it to be streamed without an engine. -/
theorem planComplete_iff (requirements : ModelRequirements) (report : CapabilityReport)
    (registry : ExecutionEngineRegistry) (config : PlannerConfig) :
    PlanComplete requirements report registry config ↔
      (CpuPossible requirements report registry config →
        requirements.format ≠ .unknown ∧
          (StreamsWithoutEngine requirements report registry config →
            Offers requirements report registry .hybrid)) := by
  constructor
  · intro hcomplete hcpu
    obtain ⟨hviable, -⟩ := hcomplete hcpu
    refine ⟨(known_of_viable hviable).1, fun hstreams => ?_⟩
    by_contra hhybrid
    exact hstreams.not_viable hhybrid hviable
  · intro hcondition hcpu
    obtain ⟨hformat, hstreams⟩ := hcondition hcpu
    have hmemory : (placementOf requirements report registry config).memoryKnown = true := by
      have hfits := hcpu.fits
      simp only [Placement.fits, Bool.and_eq_true] at hfits
      exact hfits.1.1
    obtain ⟨choice, hchoose⟩ := hcpu.exists_choose
    -- the placement has an engine, or the model is streamed with one for some accelerator
    obtain ⟨engine, hengine⟩ : ∃ engine,
        (placementOf requirements report registry config).engineFor choice = some engine := by
      by_cases hoffers : Offers requirements report registry choice.device.mode
      · obtain ⟨engine, hengine⟩ := Option.isSome_iff_exists.mp
          (selectEngine_isSome_iff_offers.mpr hoffers)
        refine ⟨engine, ?_⟩
        rw [Placement.engineFor_of_chosen (Placement.chosen_of_choose hchoose)]
        change (selectEngine (candidatesOf requirements report registry) _).or _ = _
        rw [hengine]
        rfl
      · obtain ⟨hleft, rfl⟩ := streams_of_not_offers hchoose hoffers
        have hwithout : StreamsWithoutEngine requirements report registry config :=
          ⟨hformat, hmemory, hleft, hoffers⟩
        obtain ⟨engine, hengine⟩ := Option.isSome_iff_exists.mp
          (selectEngine_isSome_iff_offers.mpr (hstreams hwithout))
        exact ⟨engine, (engineFor_streamChoice hchoose hwithout.selectEngine_eq_none).trans hengine⟩
    have hplan := plan_eq_complete (.inr hcpu.allowed) hformat hmemory hchoose hengine
    have hdecision := Placement.decision_complete
      (p := placementOf requirements report registry config) choice engine
    rw [hplan]
    refine ⟨congrArg ModelExecutionPlan.Decision.viable hdecision, ?_⟩
    rw [show ((placementOf requirements report registry config).complete choice engine).residency =
      choice.residency from congrArg ModelExecutionPlan.Decision.residency hdecision]
    rw [or_iff_not_imp_left]
    intro hresidency
    exact Placement.fallback_complete engine (Placement.chosen_of_choose hchoose) hresidency
      hcpu.available

/-- The only engine is for the CPU. -/
def cpuRegistry : ExecutionEngineRegistry :=
  (∅ : ExecutionEngineRegistry).insert "llama.cpp"
    (some (({} : EngineCapabilitySet).add .backendCpu))

/-- The model fits the CPU and there is an engine for the CPU, but it is streamed to a Vulkan device
without one. -/
theorem not_planComplete_sample : ¬ PlanComplete eightBytes streamingReport cpuRegistry {} := by
  intro hcomplete
  have heligible : EngineEligible eightBytes streamingReport cpuRegistry "llama.cpp"
      (({} : EngineCapabilitySet).add .backendCpu) :=
    ⟨by decide +kernel, .inl rfl, nofun, by decide +kernel⟩
  obtain ⟨hviable, -⟩ :=
    hcomplete ⟨rfl, by decide +kernel, _, _, heligible, by decide +kernel⟩
  revert hviable
  decide +kernel

end HeteroAccel.Planner
