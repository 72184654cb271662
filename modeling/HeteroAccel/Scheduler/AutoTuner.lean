import HeteroAccel.Lib.Transition
import HeteroAccel.Profiler.Profiler
import HeteroAccel.Runtime.HeteroRuntime
import Mathlib.Tactic.FieldSimp
import Mathlib.Tactic.Linarith
import Mathlib.Tactic.NormNum

/-!
# The tuner of configurations

`AutoTuner` keeps a best configuration for each profile key, and from time to time explores another
one: `suggestConfiguration` hands out the explored configuration, and `recordResult` compares the
next result with the best duration. That result need not come from the explored configuration, as
generations that were started before may end in between.

Durations are exact rational numbers. Whether the history of a key shows a regression is an
argument.

## Main definitions

* `suggestConfiguration`, `recordResult`: the operations;
* `Generations`: the tuner with the generations that are under way, each with its configuration;
* `Lawful`: only what was measured is adopted, and other results leave an exploration alone;
* `WithinThreads`: the invariant of the ceilings.

## Main results

* `lawful_iff`: a run is lawful when the results that come while a configuration is explored are its
  own;
* `suggestConfiguration_within`: suggestions stay below the ceilings.
-/

namespace HeteroAccel.Scheduler

open Profiler (ProfileKey)
open HeteroAccel.Runtime (TuningConfig)
open TransitionSystem (Along)

/-- `AutoTuner::WorkloadState`. -/
structure TuningState where
  currentBest : TuningConfig
  exploring : TuningConfig := {}
  isExploring : Bool := false
  currentBestDuration : ℚ := -1
  stableSamples : UInt64 := 0

namespace TuningState

/-- How many stable samples the tuner takes before it explores. -/
def minSamplesBeforeTune : UInt64 := 3

/-- The share by which a duration must fall to count as an improvement. -/
def improvementThreshold : ℚ := 5 / 100

variable (state : TuningState)

/-- The state of a key that is met for the first time. -/
def coldStart (maxGpuLayers maxThreads : ℤ) : TuningState where
  currentBest :=
    { nGpuLayers := maxGpuLayers
      nThreads := if maxThreads.tdiv 2 > 0 then maxThreads.tdiv 2 else 1 }

/-- The layers that the policy allows bound the best configuration. -/
def enforce (maxGpuLayers : ℤ) : TuningState :=
  if state.currentBest.nGpuLayers > maxGpuLayers then
    { state with
      currentBest := { state.currentBest with nGpuLayers := maxGpuLayers }
      isExploring := false }
  else state

/-- A regression in the history starts the tuning again. -/
def restart (regressionDetected : Bool) : TuningState :=
  if regressionDetected && state.stableSamples > minSamplesBeforeTune then
    { state with
      stableSamples := 0
      isExploring := false
      currentBestDuration := -1 }
  else state

/-- The configuration that is explored next. -/
def candidate (maxThreads : ℤ) : TuningConfig :=
  if state.currentBest.nThreads < maxThreads then
    { state.currentBest with nThreads := state.currentBest.nThreads + 1 }
  else if state.currentBest.nThreads > 1 then
    { state.currentBest with nThreads := state.currentBest.nThreads - 1 }
  else state.currentBest

/-- The answer of a state that obeys the ceiling. -/
def answer (maxThreads : ℤ) : TuningConfig × TuningState :=
  if state.isExploring then (state.exploring, state)
  else if state.stableSamples ≥ minSamplesBeforeTune then
    (state.candidate maxThreads,
      { state with isExploring := true, exploring := state.candidate maxThreads })
  else (state.currentBest, state)

/-- `suggestConfiguration` on the state of a key. -/
def suggest (maxGpuLayers maxThreads : ℤ) (regressionDetected : Bool) :
    TuningConfig × TuningState :=
  ((state.enforce maxGpuLayers).restart regressionDetected).answer maxThreads

/-- `recordResult` on the state of a key. The configuration is not used. -/
def record (_config : TuningConfig) (durationMs : ℚ) (success : Bool) : TuningState :=
  if !success then
    if state.isExploring then { state with isExploring := false, stableSamples := 0 } else state
  else if state.isExploring then
    if state.currentBestDuration < 0 then
      { state with currentBestDuration := durationMs, isExploring := false }
    else
      let improvement := (state.currentBestDuration - durationMs) / state.currentBestDuration
      let state := if improvement > improvementThreshold then
          { state with currentBest := state.exploring, currentBestDuration := durationMs }
        else state
      { state with isExploring := false, stableSamples := 0 }
  else
    { state with
      currentBestDuration :=
        if state.currentBestDuration < 0 || state.stableSamples = 0 then durationMs
        else 2 / 10 * durationMs + 8 / 10 * state.currentBestDuration
      stableSamples := state.stableSamples + 1 }

end TuningState

/-- `AutoTuner`. -/
structure AutoTuner where
  states : KeyedMap ProfileKey TuningState := ∅

namespace AutoTuner

variable (tuner : AutoTuner)

/-- `suggestConfiguration`: the first request of a key begins its state. -/
def suggestConfiguration (key : ProfileKey) (maxGpuLayers maxThreads : ℤ)
    (regressionDetected : Bool) : TuningConfig × AutoTuner :=
  match tuner.states.lookup key with
  | none =>
    let state := TuningState.coldStart maxGpuLayers maxThreads
    (state.currentBest, ⟨tuner.states.insert key state⟩)
  | some state =>
    let (config, state) := state.suggest maxGpuLayers maxThreads regressionDetected
    (config, ⟨tuner.states.insert key state⟩)

/-- `recordResult`: a result joins the state of its key, if there is one. -/
def recordResult (key : ProfileKey) (config : TuningConfig) (durationMs : ℚ) (success : Bool) :
    AutoTuner :=
  match tuner.states.lookup key with
  | none => tuner
  | some state => ⟨tuner.states.insert key (state.record config durationMs success)⟩

end AutoTuner

/-! ## Generations -/

/-- The tuner, and the generations that are under way with the configuration that each was given. -/
structure Generations where
  tuner : AutoTuner := {}
  underWay : KeyedMap ℕ (ProfileKey × TuningConfig) := ∅

/-- What a generation does with the tuner. -/
inductive GenerationCall where
  | suggest (id : ℕ) (key : ProfileKey) (maxGpuLayers maxThreads : ℤ) (regressionDetected : Bool)
  | record (id : ℕ) (durationMs : ℚ) (success : Bool)

namespace Generations

variable (g : Generations)

/-- A generation is given a configuration, or records its result under the one it was given. -/
def next : GenerationCall → Generations
  | .suggest id key maxGpuLayers maxThreads regressionDetected =>
    let (config, tuner) :=
      g.tuner.suggestConfiguration key maxGpuLayers maxThreads regressionDetected
    { tuner, underWay := g.underWay.insert id (key, config) }
  | .record id durationMs success =>
    match g.underWay.lookup id with
    | none => g
    | some (key, config) =>
      { tuner := g.tuner.recordResult key config durationMs success
        underWay := g.underWay.erase id }

/-- The state of a key. -/
def state? (key : ProfileKey) : Option TuningState := g.tuner.states.lookup key

/-! ## The property -/

/-- A call is the result of a generation with a configuration on a key. -/
def Records (call : GenerationCall) (key : ProfileKey) (config : TuningConfig) (durationMs : ℚ)
    (success : Bool) : Prop :=
  ∃ id, call = .record id durationMs success ∧ g.underWay.lookup id = some (key, config)

/-- A call sets the layers of a key's best configuration to the ceiling that it passes. -/
def Lowers (call : GenerationCall) (key : ProfileKey) (before after : TuningConfig) : Prop :=
  ∃ id maxGpuLayers maxThreads regressionDetected,
    call = .suggest id key maxGpuLayers maxThreads regressionDetected ∧
    maxGpuLayers < before.nGpuLayers ∧ after = { before with nGpuLayers := maxGpuLayers }

/-- What a call may do with the best configuration and with an exploration. -/
structure Lawful (call : GenerationCall) : Prop where
  /-- The best configuration becomes one that was measured, and was faster by the threshold. -/
  adopts : ∀ key before after, g.state? key = some before → (g.next call).state? key = some after →
    after.currentBest ≠ before.currentBest →
    (∃ durationMs, g.Records call key after.currentBest durationMs true ∧
      durationMs < (1 - TuningState.improvementThreshold) * before.currentBestDuration) ∨
    Lowers call key before.currentBest after.currentBest
  /-- The result of another configuration leaves an exploration as it is. -/
  spares : ∀ key config durationMs success before after,
    g.Records call key config durationMs success → g.state? key = some before →
    (g.next call).state? key = some after → before.isExploring = true →
    config ≠ before.exploring →
    after.isExploring = true ∧ after.exploring = before.exploring ∧
      after.currentBest = before.currentBest ∧
      after.currentBestDuration = before.currentBestDuration

/-- A result that comes while a configuration is explored is a result of that configuration. -/
def FromExplored (call : GenerationCall) : Prop :=
  ∀ key config durationMs success state, g.Records call key config durationMs success →
    g.state? key = some state → state.isExploring = true → config = state.exploring

end Generations

/-! ## What the operations do with the state of a key -/

section State

variable {state : TuningState} {config : TuningConfig} {durationMs : ℚ} {success : Bool}

namespace TuningState

/-- A suggestion changes the best configuration only to obey the ceiling. -/
theorem currentBest_suggest (maxGpuLayers maxThreads : ℤ) (regressionDetected : Bool) :
    (state.suggest maxGpuLayers maxThreads regressionDetected).2.currentBest =
      if state.currentBest.nGpuLayers > maxGpuLayers then
        { state.currentBest with nGpuLayers := maxGpuLayers }
      else state.currentBest := by
  have hanswer : ∀ state : TuningState,
      (state.answer maxThreads).2.currentBest = state.currentBest := by
    intro state
    unfold answer
    split_ifs <;> rfl
  have hrestart : ∀ state : TuningState,
      (state.restart regressionDetected).currentBest = state.currentBest := by
    intro state
    unfold restart
    split_ifs <;> rfl
  rw [suggest, hanswer, hrestart, enforce]
  split_ifs <;> rfl

/-- Every result ends an exploration. -/
theorem isExploring_record : (state.record config durationMs success).isExploring = false := by
  unfold record
  cases hexploring : state.isExploring with
  | false =>
    cases success with
    | false => simpa using hexploring
    | true => simp
  | true =>
    cases success with
    | false => simp
    | true =>
      by_cases hunset : state.currentBestDuration < 0
      · simp [hunset]
      · simp [hunset]

/-- The best configuration changes only to the explored one, for a faster result. -/
theorem currentBest_record (h : (state.record config durationMs success).currentBest ≠
    state.currentBest) :
    success = true ∧ state.isExploring = true ∧
      (state.record config durationMs success).currentBest = state.exploring ∧
      durationMs < (1 - improvementThreshold) * state.currentBestDuration := by
  unfold record at h ⊢
  dsimp only at h ⊢
  split_ifs at h ⊢ with hfail hexploring hexploring hunset hfaster
  -- the other branches keep the best configuration
  all_goals first | exact absurd rfl h | skip
  refine ⟨by simpa using hfail, hexploring, rfl, ?_⟩
  -- a best duration of zero would have given an improvement of zero
  have hbest : 0 < state.currentBestDuration := by
    refine (not_lt.mp hunset).lt_of_ne fun hzero => ?_
    rw [← hzero, div_zero] at hfaster
    norm_num [improvementThreshold] at hfaster
  rw [gt_iff_lt, lt_div_iff₀ hbest] at hfaster
  linarith

end TuningState

end State

namespace Generations

variable {g : Generations} {call : GenerationCall} {key key' : ProfileKey} {config : TuningConfig}
  {id : ℕ} {durationMs : ℚ} {success : Bool}

/-- A suggestion changes the state of its own key. -/
theorem state?_suggest (maxGpuLayers maxThreads : ℤ) (regressionDetected : Bool) :
    (g.next (.suggest id key maxGpuLayers maxThreads regressionDetected)).state? key' =
      if key' = key then
        some (((g.state? key).map fun state =>
          (state.suggest maxGpuLayers maxThreads regressionDetected).2).getD
            (.coldStart maxGpuLayers maxThreads))
      else g.state? key' := by
  unfold next state? AutoTuner.suggestConfiguration
  dsimp only
  cases g.tuner.states.lookup key with
  | none => exact KeyedMap.lookup_insert_eq_ite
  | some state => exact KeyedMap.lookup_insert_eq_ite

/-- A result changes the state of the key of its generation. -/
theorem state?_record (h : g.underWay.lookup id = some (key, config)) :
    (g.next (.record id durationMs success)).state? key' =
      if key' = key then (g.state? key).map fun state => state.record config durationMs success
      else g.state? key' := by
  unfold next state? AutoTuner.recordResult
  dsimp only
  rw [h]
  dsimp only
  cases hstate : g.tuner.states.lookup key with
  | none =>
    dsimp only [Option.map_none]
    split_ifs with hkey
    · rw [hkey, hstate]
    · rfl
  | some state => exact KeyedMap.lookup_insert_eq_ite

/-- A suggestion is lawful. -/
theorem lawful_suggest (maxGpuLayers maxThreads : ℤ) (regressionDetected : Bool) :
    g.Lawful (.suggest id key maxGpuLayers maxThreads regressionDetected) := by
  refine ⟨fun key' before after hbefore hafter hne => .inr ?_, ?_⟩
  · rw [state?_suggest] at hafter
    split_ifs at hafter with hkey
    · subst hkey
      rw [hbefore, Option.map_some, Option.getD_some, Option.some_inj] at hafter
      rw [← hafter, TuningState.currentBest_suggest] at hne ⊢
      split_ifs at hne ⊢ with hlayers
      · exact ⟨id, maxGpuLayers, maxThreads, regressionDetected, rfl, hlayers, rfl⟩
      · exact absurd rfl hne
    · rw [hbefore, Option.some_inj] at hafter
      exact absurd (congrArg TuningState.currentBest hafter.symm) hne
  · rintro key' config durationMs success before after ⟨id', hcall, -⟩
    cases hcall

/-- A result without a generation is lawful. -/
theorem lawful_of_lookup_eq_none (h : g.underWay.lookup id = none) :
    g.Lawful (.record id durationMs success) := by
  have hnext : g.next (.record id durationMs success) = g := by
    unfold next
    dsimp only
    rw [h]
  refine ⟨fun key before after hbefore hafter hne => ?_, ?_⟩
  · rw [hnext, hbefore, Option.some_inj] at hafter
    exact absurd (congrArg TuningState.currentBest hafter.symm) hne
  · rintro key' config durationMs success before after ⟨id', hcall, hlookup⟩
    cases hcall
    rw [h] at hlookup
    cases hlookup

/-- What a call records is what its generation was given. -/
theorem Records.eq {durationMs' : ℚ} {success' : Bool} {config' : TuningConfig}
    (h : g.Records (.record id durationMs success) key' config' durationMs' success')
    (hlookup : g.underWay.lookup id = some (key, config)) :
    key' = key ∧ config' = config ∧ durationMs' = durationMs ∧ success' = success := by
  obtain ⟨id', hcall, hlookup'⟩ := h
  cases hcall
  rw [hlookup, Option.some_inj] at hlookup'
  cases hlookup'
  exact ⟨rfl, rfl, rfl, rfl⟩

/-- The result of a generation is lawful when it does not end the exploration of another
configuration. -/
theorem lawful_record_iff (h : g.underWay.lookup id = some (key, config)) :
    g.Lawful (.record id durationMs success) ↔ g.FromExplored (.record id durationMs success) := by
  constructor
  · intro hlawful key' config' durationMs' success' state hrecords hstate hexploring
    obtain ⟨rfl, rfl, rfl, rfl⟩ := hrecords.eq h
    have hnext : (g.next (.record id durationMs' success')).state? key' =
        some (state.record config' durationMs' success') := by
      rw [state?_record h, if_pos rfl, hstate, Option.map_some]
    by_contra hne
    -- the result would have ended the exploration
    obtain ⟨hstill, -⟩ := hlawful.spares _ _ _ _ _ _ hrecords hstate hnext hexploring hne
    rw [TuningState.isExploring_record] at hstill
    cases hstill
  · intro hfrom
    refine ⟨fun key' before after hbefore hafter hne => .inl ?_, ?_⟩
    · rw [state?_record h] at hafter
      split_ifs at hafter with hkey
      · subst hkey
        rw [hbefore, Option.map_some, Option.some_inj] at hafter
        rw [← hafter] at hne ⊢
        obtain ⟨rfl, hexploring, hbest, hfaster⟩ := TuningState.currentBest_record hne
        have hexplored := hfrom _ _ _ _ _ ⟨id, rfl, h⟩ hbefore hexploring
        rw [hbest, ← hexplored]
        exact ⟨durationMs, ⟨id, rfl, h⟩, hfaster⟩
      · rw [hbefore, Option.some_inj] at hafter
        exact absurd (congrArg TuningState.currentBest hafter.symm) hne
    · intro key' config' durationMs' success' before after hrecords hbefore _ hexploring hne
      exact absurd (hfrom _ _ _ _ _ hrecords hbefore hexploring) hne

/-- A call is lawful when a result that comes while a configuration is explored is its own. -/
theorem lawful_call_iff (g : Generations) (call : GenerationCall) :
    g.Lawful call ↔ g.FromExplored call := by
  cases call with
  | suggest id key maxGpuLayers maxThreads regressionDetected =>
    refine iff_of_true (lawful_suggest maxGpuLayers maxThreads regressionDetected) ?_
    rintro key' config durationMs success state ⟨id', hcall, -⟩
    cases hcall
  | record id durationMs success =>
    cases h : g.underWay.lookup id with
    | none =>
      refine iff_of_true (lawful_of_lookup_eq_none h) ?_
      rintro key' config durationMs success state ⟨id', hcall, hlookup⟩
      cases hcall
      rw [h] at hlookup
      cases hlookup
    | some generation => exact lawful_record_iff h

end Generations

/-- **Adoption.** In every order of suggestions and results, all calls are lawful exactly when every
result that comes while a configuration is explored is a result of that configuration. -/
theorem lawful_iff (calls : List GenerationCall) :
    Along Generations.Lawful Generations.next {} calls ↔
      Along Generations.FromExplored Generations.next {} calls :=
  TransitionSystem.along_congr Generations.lawful_call_iff

/-- Four generations with one configuration; after the results of three, a fifth explores another
thread. -/
def sampleCalls : List GenerationCall :=
  [.suggest 1 {} 99 8 false, .suggest 2 {} 99 8 false, .suggest 3 {} 99 8 false,
    .suggest 4 {} 99 8 false, .record 1 100 true, .record 2 100 true, .record 3 100 true,
    .suggest 5 {} 99 8 false]

/-- The result of the fourth generation ends the exploration that the fifth has begun. -/
theorem not_lawful :
    ¬∀ calls : List GenerationCall, Along Generations.Lawful Generations.next {} calls := by
  intro h
  have hlawful := (TransitionSystem.along_append_singleton.mp
    (h (sampleCalls ++ [.record 4 50 true]))).2
  have hconfig : (sampleCalls.foldl Generations.next {}).underWay.lookup 4 =
      some ({}, { nGpuLayers := 99, nThreads := 4 }) := by decide +kernel
  have hexplores : ((sampleCalls.foldl Generations.next {}).state? {}).map
      (fun state => (state.isExploring, state.exploring.nThreads)) = some (true, 5) := by
    decide +kernel
  obtain ⟨state, hstate, heq⟩ := Option.map_eq_some_iff.mp hexplores
  obtain ⟨hexploring, hthreads⟩ := Prod.mk.inj heq
  have hsame := (Generations.lawful_record_iff hconfig).mp hlawful _ _ _ _ _ ⟨4, rfl, hconfig⟩
    hstate hexploring
  rw [← hsame] at hthreads
  cases hthreads

/-! ## Ceilings -/

/-- A call of the tuner with the same maximum of threads as all others. -/
inductive TunerCall where
  | suggest (key : ProfileKey) (maxGpuLayers : ℤ) (regressionDetected : Bool)
  | record (key : ProfileKey) (config : TuningConfig) (durationMs : ℚ) (success : Bool)

/-- The tuner after a call. -/
def AutoTuner.next (maxThreads : ℤ) (tuner : AutoTuner) : TunerCall → AutoTuner
  | .suggest key maxGpuLayers regressionDetected =>
    (tuner.suggestConfiguration key maxGpuLayers maxThreads regressionDetected).2
  | .record key config durationMs success => tuner.recordResult key config durationMs success

/-- The number of threads is positive and below the ceiling. -/
def ThreadsWithin (maxThreads : ℤ) (config : TuningConfig) : Prop :=
  1 ≤ config.nThreads ∧ config.nThreads ≤ max 1 maxThreads

/-- The best and the explored configuration are within the ceiling of threads, and have the same
layers. -/
structure TuningState.Within (maxThreads : ℤ) (state : TuningState) : Prop where
  best : ThreadsWithin maxThreads state.currentBest
  explored : state.isExploring = true → ThreadsWithin maxThreads state.exploring
  layers : state.isExploring = true → state.exploring.nGpuLayers = state.currentBest.nGpuLayers

namespace TuningState

variable {maxThreads : ℤ} {state : TuningState}

theorem within_coldStart (maxGpuLayers maxThreads : ℤ) :
    (coldStart maxGpuLayers maxThreads).Within maxThreads := by
  have hhalf : maxThreads.tdiv 2 ≤ max 1 maxThreads := by
    rcases Int.le_total 0 maxThreads with hle | hle
    · rw [Int.tdiv_eq_ediv_of_nonneg hle]
      omega
    · have hneg := Int.tdiv_nonneg (Int.neg_nonneg.mpr hle) (b := 2) (by decide)
      rw [Int.neg_tdiv] at hneg
      omega
  refine ⟨?_, fun h => Bool.noConfusion h, fun h => Bool.noConfusion h⟩
  unfold ThreadsWithin coldStart
  dsimp only
  split_ifs <;> omega

/-- The candidate of an exploration differs from the best configuration in the threads only. -/
theorem threadsWithin_candidate (h : ThreadsWithin maxThreads state.currentBest) :
    ThreadsWithin maxThreads (state.candidate maxThreads) := by
  obtain ⟨hpos, hle⟩ := h
  unfold ThreadsWithin candidate
  split_ifs with hless hmore
  · exact ⟨by dsimp only; omega, by dsimp only; omega⟩
  · exact ⟨by dsimp only; omega, by dsimp only; omega⟩
  · exact ⟨hpos, hle⟩

/-- The candidates have the layers of the best configuration. -/
theorem nGpuLayers_candidate :
    (state.candidate maxThreads).nGpuLayers = state.currentBest.nGpuLayers := by
  unfold candidate
  split_ifs <;> rfl

/-- The clamp keeps the limits, and bounds the layers of the best configuration. -/
theorem Within.enforce (h : state.Within maxThreads) (maxGpuLayers : ℤ) :
    (state.enforce maxGpuLayers).Within maxThreads ∧
      (state.enforce maxGpuLayers).currentBest.nGpuLayers ≤ maxGpuLayers := by
  unfold TuningState.enforce
  split_ifs with hlayers
  · exact ⟨⟨h.best, fun h => Bool.noConfusion h, fun h => Bool.noConfusion h⟩, le_rfl⟩
  · exact ⟨h, not_lt.mp hlayers⟩

/-- A restart keeps the limits and the best configuration. -/
theorem Within.restart (h : state.Within maxThreads) (regressionDetected : Bool) :
    (state.restart regressionDetected).Within maxThreads ∧
      (state.restart regressionDetected).currentBest = state.currentBest := by
  unfold TuningState.restart
  split_ifs
  · exact ⟨⟨h.best, fun h => Bool.noConfusion h, fun h => Bool.noConfusion h⟩, rfl⟩
  · exact ⟨h, rfl⟩

/-- An answer has the layers of the best configuration and is within the ceiling. -/
theorem Within.answer (h : state.Within maxThreads) :
    (state.answer maxThreads).2.Within maxThreads ∧
      (state.answer maxThreads).1.nGpuLayers = state.currentBest.nGpuLayers ∧
      ThreadsWithin maxThreads (state.answer maxThreads).1 := by
  unfold TuningState.answer
  split_ifs with hexploring hready
  · exact ⟨h, h.layers hexploring, h.explored hexploring⟩
  · have hcandidate := threadsWithin_candidate h.best
    exact ⟨⟨h.best, fun _ => hcandidate, fun _ => nGpuLayers_candidate⟩, nGpuLayers_candidate,
      hcandidate⟩
  · exact ⟨h, rfl, h.best⟩

/-- A suggestion is below both ceilings. -/
theorem Within.suggest (h : state.Within maxThreads) (maxGpuLayers : ℤ)
    (regressionDetected : Bool) :
    (state.suggest maxGpuLayers maxThreads regressionDetected).2.Within maxThreads ∧
      (state.suggest maxGpuLayers maxThreads regressionDetected).1.nGpuLayers ≤ maxGpuLayers ∧
      ThreadsWithin maxThreads
        (state.suggest maxGpuLayers maxThreads regressionDetected).1 := by
  obtain ⟨henforced, hlayers⟩ := h.enforce maxGpuLayers
  obtain ⟨hrestarted, hbest⟩ := henforced.restart regressionDetected
  obtain ⟨hstate, hsame, hthreads⟩ := hrestarted.answer
  refine ⟨hstate, ?_, hthreads⟩
  rw [TuningState.suggest, hsame, hbest]
  exact hlayers

/-- A result keeps the best configuration or adopts the explored one. -/
theorem Within.record (h : state.Within maxThreads) (config : TuningConfig) (durationMs : ℚ)
    (success : Bool) : (state.record config durationMs success).Within maxThreads := by
  have hexploring : (state.record config durationMs success).isExploring = false :=
    isExploring_record
  refine ⟨?_, fun hstill => absurd (hexploring.symm.trans hstill) Bool.false_ne_true,
    fun hstill => absurd (hexploring.symm.trans hstill) Bool.false_ne_true⟩
  by_cases hsame : (state.record config durationMs success).currentBest = state.currentBest
  · rw [hsame]
    exact h.best
  · obtain ⟨-, hexplored, hbest, -⟩ := currentBest_record hsame
    rw [hbest]
    exact h.explored hexplored

end TuningState

namespace AutoTuner

variable {maxThreads : ℤ} {tuner : AutoTuner}

/-- All states of a tuner are within the ceiling of threads. -/
def Within (maxThreads : ℤ) (tuner : AutoTuner) : Prop :=
  ∀ key state, tuner.states.lookup key = some state → state.Within maxThreads

/-- A state within the limits may replace one. -/
theorem Within.insert (h : tuner.Within maxThreads) {state : TuningState}
    (hstate : state.Within maxThreads) (key : ProfileKey) :
    Within maxThreads ⟨tuner.states.insert key state⟩ := by
  intro key' state' hlookup
  rw [KeyedMap.lookup_insert_eq_ite] at hlookup
  split_ifs at hlookup
  · cases hlookup
    exact hstate
  · exact h key' state' hlookup

/-- What a suggestion returns, and what it preserves. -/
theorem Within.suggestConfiguration (h : tuner.Within maxThreads) (key : ProfileKey)
    (maxGpuLayers : ℤ) (regressionDetected : Bool) :
    let suggested := tuner.suggestConfiguration key maxGpuLayers maxThreads regressionDetected
    suggested.2.Within maxThreads ∧ suggested.1.nGpuLayers ≤ maxGpuLayers ∧
      ThreadsWithin maxThreads suggested.1 := by
  unfold AutoTuner.suggestConfiguration
  cases hlookup : tuner.states.lookup key with
  | none =>
    have hcold := TuningState.within_coldStart maxGpuLayers maxThreads
    exact ⟨h.insert hcold key, le_rfl, hcold.best⟩
  | some state =>
    obtain ⟨hstate, hlayers, hthreads⟩ :=
      (h key state hlookup).suggest maxGpuLayers regressionDetected
    exact ⟨h.insert hstate key, hlayers, hthreads⟩

theorem Within.recordResult (h : tuner.Within maxThreads) (key : ProfileKey)
    (config : TuningConfig) (durationMs : ℚ) (success : Bool) :
    (tuner.recordResult key config durationMs success).Within maxThreads := by
  unfold AutoTuner.recordResult
  cases hlookup : tuner.states.lookup key with
  | none => exact h
  | some state => exact h.insert ((h key state hlookup).record config durationMs success) key

theorem Within.next (h : tuner.Within maxThreads) (call : TunerCall) :
    (tuner.next maxThreads call).Within maxThreads := by
  cases call with
  | suggest key maxGpuLayers regressionDetected =>
    exact (h.suggestConfiguration key maxGpuLayers regressionDetected).1
  | record key config durationMs success =>
    exact h.recordResult key config durationMs success

/-- All states are within the ceiling after any calls. -/
theorem within_foldl (maxThreads : ℤ) (calls : List TunerCall) :
    (calls.foldl (AutoTuner.next maxThreads) {}).Within maxThreads := by
  induction calls using List.reverseRecOn with
  | nil =>
    intro key state hlookup
    cases hlookup
  | append_singleton calls call ih =>
    rw [List.foldl_concat]
    exact ih.next call

end AutoTuner

/-- **Ceilings.** After any suggestions and results with one maximum of threads, the next suggestion
is below the ceiling of layers that it is given, and its threads are within the maximum. -/
theorem suggestConfiguration_within (maxThreads : ℤ) (calls : List TunerCall) (key : ProfileKey)
    (maxGpuLayers : ℤ) (regressionDetected : Bool) :
    let config := ((calls.foldl (AutoTuner.next maxThreads) {}).suggestConfiguration key
      maxGpuLayers maxThreads regressionDetected).1
    config.nGpuLayers ≤ maxGpuLayers ∧ 1 ≤ config.nThreads ∧
      config.nThreads ≤ max 1 maxThreads :=
  ((AutoTuner.within_foldl maxThreads calls).suggestConfiguration key maxGpuLayers
    regressionDetected).2

end HeteroAccel.Scheduler
