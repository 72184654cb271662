import HeteroAccel.Profiler.Profiler
import Mathlib.Algebra.Order.Field.Basic
import Mathlib.Analysis.Convex.Basic
import Mathlib.Order.Bounds.Basic
import Mathlib.Tactic.FieldSimp
import Mathlib.Tactic.Linarith
import Mathlib.Tactic.NormNum
import Mathlib.Tactic.Positivity

/-!
# The history of durations

`PerformanceHistory::recordEvent` keeps statistics for each profile key: an exponential average of
the durations of the events that succeeded, their variance and their extremes, and the numbers of
events and failures. `predictDurationMs` returns the average.

Doubles are elements of an ordered field; of the square root, which only the detection of
regressions uses, nothing is assumed. Counts have 64 bits.

## Main definitions

* `updateStats`, `recordEvent`, `predictDurationMs`: the operations;
* `StaysObserved`: predictions and statistics stay within what was observed;
* `Summarizes`: the invariant of the statistics of one key.

## Main results

* `staysObserved_iff`: it is so when there is no event at all, or one of them succeeded;
* `not_staysObserved`: one failure.
-/

namespace HeteroAccel.Scheduler

open Profiler (ProfileKey HistoricalStats History)

section Operations

variable {K : Type} [Field K] [LinearOrder K] (sqrt : K → K)

/-- `HistoricalStats{}`. -/
def noStats : HistoricalStats K where
  sampleCount := 0
  emaDurationMs := 0
  variance := 0
  minDurationMs := -1
  maxDurationMs := -1
  failureCount := 0
  regressionDetected := false

/-- What `recordEvent` reads of an event. -/
structure ProfileEvent (K : Type) where
  executionDurationMs : K
  success : Bool
deriving DecidableEq

/-- The weight of the newest duration in the moving average. -/
def alpha : K := 2 / 10

/-- The detection of regressions, against the average before the update. -/
def detectRegression (stats : HistoricalStats K) (oldEma durationMs : K) : Bool :=
  let stddev := sqrt stats.variance
  if stats.sampleCount > 5 then
    if stddev > 0 ∧ durationMs > oldEma + 2 * stddev then true
    else if stddev = 0 ∧ durationMs > oldEma * (3 / 2) then true
    else if durationMs < oldEma + stddev then false
    else stats.regressionDetected
  else stats.regressionDetected

/-- `updateStats`: a success moves the averages, a failure is only counted. -/
def updateStats (stats : HistoricalStats K) (durationMs : K) (success : Bool) :
    HistoricalStats K :=
  let stats := { stats with sampleCount := stats.sampleCount + 1 }
  if !success then { stats with failureCount := stats.failureCount + 1 }
  else if stats.sampleCount = 1 ∨ stats.emaDurationMs = 0 then
    { stats with
      emaDurationMs := durationMs
      minDurationMs := durationMs
      maxDurationMs := durationMs
      variance := 0 }
  else
    let oldEma := stats.emaDurationMs
    let diff := durationMs - oldEma
    let stats := { stats with
      emaDurationMs := stats.emaDurationMs + alpha * diff
      variance := (1 - alpha) * (stats.variance + alpha * diff * diff)
      minDurationMs := if durationMs < stats.minDurationMs then durationMs
        else stats.minDurationMs
      maxDurationMs := if durationMs > stats.maxDurationMs then durationMs
        else stats.maxDurationMs }
    { stats with regressionDetected := detectRegression sqrt stats oldEma durationMs }

/-- The statistics of a key, with the initial ones where there are none. -/
def getStats (profiles : History K) (key : ProfileKey) : HistoricalStats K :=
  (profiles.lookup key).getD noStats

/-- An event updates the statistics of its key. -/
def recordEvent (profiles : History K) (key : ProfileKey) (event : ProfileEvent K) : History K :=
  profiles.insert key
    (updateStats sqrt (getStats profiles key) event.executionDurationMs event.success)

/-- The predicted duration: the moving average, and -1 without a sample. -/
def predictDurationMs (profiles : History K) (key : ProfileKey) : K :=
  match profiles.lookup key with
  | some stats => if stats.sampleCount > 0 then stats.emaDurationMs else -1
  | none => -1

/-- The events that are recorded one after the other, each on its key. -/
def recorded (events : List (ProfileKey × ProfileEvent K)) : History K :=
  events.foldl (fun profiles e => recordEvent sqrt profiles e.1 e.2) ∅

end Operations

/-! ## The property -/

section Property

variable {K : Type}

/-- The events on one key. -/
def eventsOn (key : ProfileKey) (events : List (ProfileKey × ProfileEvent K)) :
    List (ProfileEvent K) :=
  (events.filter (·.1 = key)).map (·.2)

/-- The durations of the events that succeeded. -/
def successful (events : List (ProfileEvent K)) : List K :=
  (events.filter (·.success)).map (·.executionDurationMs)

/-- Predictions and statistics stay within what the events have shown. -/
structure StaysObserved [Zero K] [LinearOrder K] (predicted : K) (stats : HistoricalStats K)
    (events : List (ProfileEvent K)) : Prop where
  no_history : predicted < 0 ↔ successful events = []
  between : successful events ≠ [] →
    predicted ∈ Set.Icc stats.minDurationMs stats.maxDurationMs
  least : successful events ≠ [] → IsLeast {d | d ∈ successful events} stats.minDurationMs
  greatest : successful events ≠ [] → IsGreatest {d | d ∈ successful events} stats.maxDurationMs
  variance : 0 ≤ stats.variance
  failures : stats.failureCount.toNat = events.countP (!·.success)
  samples : stats.sampleCount.toNat = events.length

end Property

/-! ## What an update does -/

section Updates

variable {K : Type} [Field K] [LinearOrder K] {sqrt : K → K} {stats : HistoricalStats K}
  {durationMs : K}

theorem updateStats_fail : updateStats sqrt stats durationMs false =
    { stats with
      sampleCount := stats.sampleCount + 1
      failureCount := stats.failureCount + 1 } := rfl

/-- A first success sets the averages to its duration. -/
theorem updateStats_first (h : stats.emaDurationMs = 0) :
    updateStats sqrt stats durationMs true =
      { stats with
        sampleCount := stats.sampleCount + 1
        emaDurationMs := durationMs
        minDurationMs := durationMs
        maxDurationMs := durationMs
        variance := 0 } := by
  unfold updateStats
  dsimp only
  rw [if_neg (by simp), if_pos (.inr h)]

/-- The update of the averages and of the extremes, with some flag for regressions. -/
theorem updateStats_blend (sqrt : K → K) (durationMs : K) (hsample : stats.sampleCount + 1 ≠ 1)
    (hema : stats.emaDurationMs ≠ 0) :
    ∃ flag, updateStats sqrt stats durationMs true =
      { sampleCount := stats.sampleCount + 1
        emaDurationMs := stats.emaDurationMs + alpha * (durationMs - stats.emaDurationMs)
        variance := (1 - alpha) * (stats.variance +
          alpha * (durationMs - stats.emaDurationMs) * (durationMs - stats.emaDurationMs))
        minDurationMs := min stats.minDurationMs durationMs
        maxDurationMs := max stats.maxDurationMs durationMs
        failureCount := stats.failureCount
        regressionDetected := flag } := by
  have hmin : (if durationMs < stats.minDurationMs then durationMs else stats.minDurationMs) =
      min stats.minDurationMs durationMs := by
    rw [min_comm, min_def_lt]
  have hmax : (if durationMs > stats.maxDurationMs then durationMs else stats.maxDurationMs) =
      max stats.maxDurationMs durationMs := (max_def_lt _ _).symm
  unfold updateStats
  dsimp only
  rw [if_neg (by simp), if_neg (not_or.mpr ⟨hsample, hema⟩), hmin, hmax]
  exact ⟨_, rfl⟩

end Updates

/-! ## The statistics of one key -/

section Successful

variable {K : Type} {events : List (ProfileEvent K)} {event : ProfileEvent K}

@[simp]
theorem successful_nil : successful ([] : List (ProfileEvent K)) = [] := rfl

theorem successful_concat :
    successful (events ++ [event]) =
      successful events ++ if event.success then [event.executionDurationMs] else [] := by
  unfold successful
  by_cases h : event.success = true <;> simp [List.filter_append, h]

/-- Positive durations stay positive among the successes. -/
theorem pos_of_mem_successful [Zero K] [LT K] (hpos : ∀ e ∈ events, 0 < e.executionDurationMs)
    {d : K} (hd : d ∈ successful events) : 0 < d := by
  obtain ⟨e, he, rfl⟩ := List.mem_map.mp hd
  exact hpos e (List.mem_filter.mp he).1

/-- There is no success if every event failed. -/
theorem successful_eq_nil_iff : successful events = [] ↔ ∀ e ∈ events, e.success = false := by
  simp [successful, List.filter_eq_nil_iff]

end Successful

/-- A counter of 64 bits counts until it is full. -/
theorem toNat_succ {n : UInt64} {m : ℕ} (h : n.toNat = m) (hlt : m + 1 < 2 ^ 64) :
    (n + 1).toNat = m + 1 := by
  rw [UInt64.toNat_add, h, UInt64.toNat_one, Nat.mod_eq_of_lt hlt]

section Statistics

variable {K : Type} [Field K] [LinearOrder K] {sqrt : K → K}
  {stats : HistoricalStats K} {events : List (ProfileEvent K)} {event : ProfileEvent K}

/-- What the statistics say about the events so far. -/
structure Summarizes (stats : HistoricalStats K) (events : List (ProfileEvent K)) : Prop where
  samples : stats.sampleCount.toNat = events.length
  failures : stats.failureCount.toNat = events.countP (!·.success)
  variance : 0 ≤ stats.variance
  fresh : successful events = [] → stats.emaDurationMs = 0
  least : successful events ≠ [] → IsLeast {d | d ∈ successful events} stats.minDurationMs
  greatest : successful events ≠ [] → IsGreatest {d | d ∈ successful events} stats.maxDurationMs
  between : successful events ≠ [] →
    stats.emaDurationMs ∈ Set.Icc stats.minDurationMs stats.maxDurationMs

theorem summarizes_noStats : Summarizes (noStats : HistoricalStats K) [] where
  samples := rfl
  failures := rfl
  variance := le_rfl
  fresh _ := rfl
  least h := absurd rfl h
  greatest h := absurd rfl h
  between h := absurd rfl h

/-- A failure counts, and nothing else changes. -/
theorem Summarizes.fail (h : Summarizes stats events) (hfail : event.success = false)
    (hlt : events.length + 1 < 2 ^ 64) :
    Summarizes (updateStats sqrt stats event.executionDurationMs false) (events ++ [event]) := by
  have hsame : successful (events ++ [event]) = successful events := by
    simp [successful_concat, hfail]
  have hcount := List.countP_le_length (p := fun e : ProfileEvent K => !e.success) (l := events)
  rw [updateStats_fail]
  constructor
  · simpa using toNat_succ h.samples hlt
  · simpa [hfail] using toNat_succ h.failures (by omega)
  · exact h.variance
  · rw [hsame]
    exact h.fresh
  · rw [hsame]
    exact h.least
  · rw [hsame]
    exact h.greatest
  · rw [hsame]
    exact h.between

/-- The first success sets the average and the extremes. -/
theorem Summarizes.first (h : Summarizes stats events) (hsuccess : event.success = true)
    (hnone : successful events = []) (hlt : events.length + 1 < 2 ^ 64) :
    Summarizes (updateStats sqrt stats event.executionDurationMs true) (events ++ [event]) := by
  have hone : successful (events ++ [event]) = [event.executionDurationMs] := by
    simp [successful_concat, hsuccess, hnone]
  rw [updateStats_first (h.fresh hnone)]
  constructor
  · simpa using toNat_succ h.samples hlt
  · simpa [hsuccess] using h.failures
  · exact le_rfl
  · simp [hone]
  · simp [hone]
  · simp [hone]
  · simp

variable [IsStrictOrderedRing K]

/-- Another success moves the average towards its duration. -/
theorem Summarizes.blend (h : Summarizes stats events) (hsuccess : event.success = true)
    (hsome : successful events ≠ []) (hpos : ∀ e ∈ events, 0 < e.executionDurationMs)
    (hlt : events.length + 1 < 2 ^ 64) :
    Summarizes (updateStats sqrt stats event.executionDurationMs true) (events ++ [event]) := by
  obtain ⟨hmin, hmax⟩ := h.between hsome
  have hleast := h.least hsome
  have hgreatest := h.greatest hsome
  have hmore : successful (events ++ [event]) =
      successful events ++ [event.executionDurationMs] := by
    simp [successful_concat, hsuccess]
  have hset : {d | d ∈ successful (events ++ [event])} =
      insert event.executionDurationMs {d | d ∈ successful events} := by
    ext d
    simp [hmore, or_comm]
  have halpha : (0 : K) ≤ 1 - alpha := by norm_num [alpha]
  have halpha' : (0 : K) ≤ alpha := by norm_num [alpha]
  -- this is not the first success
  have hsample : stats.sampleCount + 1 ≠ 1 := by
    intro hone
    have hlen := congrArg UInt64.toNat hone
    rw [toNat_succ h.samples hlt, UInt64.toNat_one] at hlen
    have hnil : events = [] := List.length_eq_zero_iff.mp (by omega)
    exact hsome (by simp [hnil])
  have hema : stats.emaDurationMs ≠ 0 :=
    ((pos_of_mem_successful hpos hleast.1).trans_le hmin).ne'
  obtain ⟨flag, hupdate⟩ := updateStats_blend sqrt event.executionDurationMs hsample hema
  rw [hupdate]
  constructor
  · simpa using toNat_succ h.samples hlt
  · simpa [hsuccess] using h.failures
  · have hsquare := mul_nonneg halpha'
      (mul_self_nonneg (event.executionDurationMs - stats.emaDurationMs))
    rw [← mul_assoc] at hsquare
    exact mul_nonneg halpha (add_nonneg h.variance hsquare)
  · simp [hmore]
  · intro _
    rw [hset, min_comm]
    exact hleast.insert event.executionDurationMs
  · intro _
    rw [hset, max_comm]
    exact hgreatest.insert event.executionDurationMs
  · intro _
    -- the new average lies between the old one and the duration
    have hconvex := convex_Icc (min stats.minDurationMs event.executionDurationMs)
      (max stats.maxDurationMs event.executionDurationMs)
      ⟨(min_le_left _ _).trans hmin, hmax.trans (le_max_left _ _)⟩
      ⟨min_le_right _ _, le_max_right _ _⟩ halpha halpha' (sub_add_cancel 1 alpha)
    convert hconvex using 1
    simp only [smul_eq_mul]
    ring

/-- What one event preserves. -/
theorem Summarizes.update (h : Summarizes stats events)
    (hpos : ∀ e ∈ events, 0 < e.executionDurationMs) (hlt : events.length + 1 < 2 ^ 64) :
    Summarizes (updateStats sqrt stats event.executionDurationMs event.success)
      (events ++ [event]) := by
  cases hsuccess : event.success with
  | false => exact h.fail hsuccess hlt
  | true =>
    by_cases hnone : successful events = []
    · exact h.first hsuccess hnone hlt
    · exact h.blend hsuccess hnone hpos hlt

end Statistics

/-! ## Runs -/

section Runs

variable {K : Type} {events : List (ProfileKey × ProfileEvent K)} {e : ProfileKey × ProfileEvent K}
  {key : ProfileKey}

/-- The events of a key, event by event. -/
theorem eventsOn_concat :
    eventsOn key (events ++ [e]) = eventsOn key events ++ if e.1 = key then [e.2] else [] := by
  unfold eventsOn
  by_cases h : e.1 = key <;> simp [List.filter_append, h]

theorem mem_of_mem_eventsOn {event : ProfileEvent K} (h : event ∈ eventsOn key events) :
    (key, event) ∈ events := by
  obtain ⟨e, he, rfl⟩ := List.mem_map.mp h
  obtain ⟨hmem, hkey⟩ := List.mem_filter.mp he
  rw [← of_decide_eq_true hkey]
  exact hmem

variable [Field K] [LinearOrder K] {sqrt : K → K} {profiles : History K}

theorem recorded_concat :
    recorded sqrt (events ++ [e]) = recordEvent sqrt (recorded sqrt events) e.1 e.2 := by
  simp [recorded]

/-- An event changes the statistics of its key only. -/
theorem getStats_recordEvent {key' : ProfileKey} {event : ProfileEvent K} :
    getStats (recordEvent sqrt profiles key event) key' =
      if key' = key then
        updateStats sqrt (getStats profiles key) event.executionDurationMs event.success
      else getStats profiles key' := by
  rw [recordEvent, getStats, KeyedMap.lookup_insert_eq_ite]
  split_ifs
  · rfl
  · rfl

omit [LinearOrder K] in
/-- A prediction is the average as soon as there is a sample. -/
theorem predictDurationMs_eq :
    predictDurationMs profiles key =
      if (getStats profiles key).sampleCount > 0 then (getStats profiles key).emaDurationMs
      else -1 := by
  unfold predictDurationMs getStats
  cases profiles.lookup key with
  | none => rfl
  | some stats => rfl

variable [IsStrictOrderedRing K]

/-- The statistics of every key summarize the events on it. -/
theorem summarizes_recorded (sqrt : K → K) (hpos : ∀ e ∈ events, 0 < e.2.executionDurationMs)
    (hlt : (eventsOn key events).length < 2 ^ 64) :
    Summarizes (getStats (recorded sqrt events) key) (eventsOn key events) := by
  induction events using List.reverseRecOn with
  | nil => exact summarizes_noStats
  | append_singleton events e ih =>
    have hpos' : ∀ e ∈ events, 0 < e.2.executionDurationMs := by
      intro e' he'
      exact hpos e' (List.mem_append_left _ he')
    rw [eventsOn_concat] at hlt ⊢
    rw [recorded_concat, getStats_recordEvent]
    by_cases hkey : e.1 = key
    · subst hkey
      simp only [if_true, List.length_append, List.length_singleton] at hlt ⊢
      exact (ih hpos' (by omega)).update
        (fun event hevent => hpos' _ (mem_of_mem_eventsOn hevent)) hlt
    · rw [if_neg hkey, List.append_nil] at hlt ⊢
      rw [if_neg (Ne.symm hkey)]
      exact ih hpos' hlt

/-- **Predictions.** For events with positive durations the prediction and the statistics of a key
stay within what was observed exactly when there are fewer than `2 ^ 64` events on the key, and
either none at all or one that succeeded. -/
theorem staysObserved_iff (sqrt : K → K) (key : ProfileKey)
    (hpos : ∀ e ∈ events, 0 < e.2.executionDurationMs) :
    StaysObserved (predictDurationMs (recorded sqrt events) key)
        (getStats (recorded sqrt events) key) (eventsOn key events) ↔
      (eventsOn key events).length < 2 ^ 64 ∧
        (eventsOn key events = [] ∨ ∃ event ∈ eventsOn key events, event.success = true) := by
  constructor
  · intro h
    have hlt : (eventsOn key events).length < 2 ^ 64 := by
      rw [← h.samples]
      exact UInt64.toNat_lt _
    refine ⟨hlt, ?_⟩
    by_contra! hfailures
    obtain ⟨hne, hfail⟩ := hfailures
    -- there are only failures, and the average is still zero
    have hnone : successful (eventsOn key events) = [] :=
      successful_eq_nil_iff.mpr fun event hevent => Bool.eq_false_iff.mpr (hfail event hevent)
    have hsamples : (getStats (recorded sqrt events) key).sampleCount > 0 := by
      rw [gt_iff_lt, UInt64.lt_iff_toNat_lt, h.samples, UInt64.toNat_zero]
      exact List.length_pos_iff.mpr hne
    have hzero := (summarizes_recorded sqrt hpos hlt).fresh hnone
    have hnegative := h.no_history.mpr hnone
    rw [predictDurationMs_eq, if_pos hsamples, hzero] at hnegative
    exact lt_irrefl _ hnegative
  · rintro ⟨hlt, hobserved⟩
    have h := summarizes_recorded sqrt hpos hlt
    obtain hnil | ⟨event, hevent, hsuccess⟩ := hobserved
    · have hnone : successful (eventsOn key events) = [] := by rw [hnil, successful_nil]
      have hsamples : ¬(getStats (recorded sqrt events) key).sampleCount > 0 := by
        rw [gt_iff_lt, UInt64.lt_iff_toNat_lt, h.samples, UInt64.toNat_zero, hnil]
        exact lt_irrefl 0
      refine ⟨?_, absurd hnone, h.least, h.greatest, h.variance, h.failures, h.samples⟩
      rw [predictDurationMs_eq, if_neg hsamples]
      exact iff_of_true neg_one_lt_zero hnone
    · have hsome : successful (eventsOn key events) ≠ [] := by
        rw [Ne, successful_eq_nil_iff]
        intro hfail
        rw [hfail event hevent] at hsuccess
        cases hsuccess
      have hsamples : (getStats (recorded sqrt events) key).sampleCount > 0 := by
        rw [gt_iff_lt, UInt64.lt_iff_toNat_lt, h.samples, UInt64.toNat_zero]
        exact List.length_pos_of_mem hevent
      have hleast : 0 < (getStats (recorded sqrt events) key).minDurationMs :=
        pos_of_mem_successful (fun event hevent => hpos _ (mem_of_mem_eventsOn hevent))
          (h.least hsome).1
      rw [predictDurationMs_eq, if_pos hsamples]
      exact ⟨iff_of_false (hleast.trans_le (h.between hsome).1).le.not_gt hsome, h.between,
        h.least, h.greatest, h.variance, h.failures, h.samples⟩

end Runs

/-- A failure, then a success. -/
theorem staysObserved_failureFirst :
    let events : List (ProfileKey × ProfileEvent ℚ) := [({}, ⟨3, false⟩), ({}, ⟨5, true⟩)]
    StaysObserved (predictDurationMs (recorded id events) {}) (getStats (recorded id events) {})
      (eventsOn {} events) :=
  (staysObserved_iff id {} (by decide)).mpr ⟨by decide, .inr ⟨⟨5, true⟩, by decide, rfl⟩⟩

/-- After a failure alone the prediction is zero, which is not negative. -/
theorem not_staysObserved :
    ¬∀ (sqrt : ℚ → ℚ) (events : List (ProfileKey × ProfileEvent ℚ)) (key : ProfileKey),
      (∀ e ∈ events, 0 < e.2.executionDurationMs) →
      StaysObserved (predictDurationMs (recorded sqrt events) key)
        (getStats (recorded sqrt events) key) (eventsOn key events) := by
  intro h
  have hone := (h id [({}, ⟨3, false⟩)] {} (by decide)).no_history.mpr (by decide)
  exact absurd hone (by decide)

end HeteroAccel.Scheduler
