import HeteroAccel.Lib.Transition
import HeteroAccel.Orchestration.PerfProfile

/-!
# Saving the performance profile

`ha_infer` and `ha_infer_stream` record a measurement under `perf_mutex`, copy the profile without
it, and hand the copy to a detached thread that writes it to the profile file; where no thread can
be created, they save the profile themselves. `ha_runtime_perf_reset` clears and saves the profile
under `perf_mutex`. The writers are not ordered, so that an old copy may be written last.

## Main definitions

* `HaRuntime`: a runtime with the calls that are saving its profile;
* `Described`: the profile file describes the profile in memory;
* `Outstanding`: somebody is still going to write the profile as it is;
* `described_of_reachable`: when every thread writes while that is so, no update is lost.
-/

namespace HeteroAccel.Sdk

open Orchestration

variable {φ : Type}

/-- The profile file. -/
inductive ProfileFile where
  /-- The file that the runtime has loaded its profile from. -/
  | loaded
  /-- What a save has written. -/
  | saved (lines : List String)
  deriving DecidableEq, Repr

/-- What the calls on one runtime share of its performance profile. -/
structure HaRuntime (φ : Type) where
  /-- What `PerfProfile::load` returned when the runtime was created. -/
  loaded : PerfProfile φ
  perfProfile : PerfProfile φ
  file : ProfileFile := .loaded
  /-- A reset holds `perf_mutex`: it has cleared the profile, and not yet saved it. -/
  resetting : Bool := false
  /-- The calls that have recorded and not yet copied the profile. -/
  recorded : ℕ := 0
  /-- The copies of calls that have not yet created their thread. -/
  copies : List (PerfProfile φ) := []
  /-- The copies of threads that have not yet written. -/
  savers : List (PerfProfile φ) := []
  deriving DecidableEq, Repr

/-- The steps of calls, resets and threads. -/
inductive PerfAct (φ : Type) where
  /-- A call records its measurement. -/
  | record (m : Measurement φ)
  /-- A call copies the profile. -/
  | copy
  /-- The call of a copy creates the thread. -/
  | createThread (i : ℕ)
  /-- The call of a copy cannot create the thread, and saves the profile. -/
  | saveInstead (i : ℕ)
  /-- A thread writes its copy and finishes. -/
  | write (i : ℕ)
  /-- A reset takes the mutex and clears the profile. -/
  | reset
  /-- The reset saves the profile and gives the mutex back. -/
  | saveReset
  deriving DecidableEq, Repr

/-- The step is one of a thread that writes. -/
def PerfAct.isWrite : PerfAct φ → Bool
  | .write _ => true
  | _ => false

namespace HaRuntime

variable (ops : ScoreOps φ) (rt : HaRuntime φ)

/-- The runtime after a step, if it is possible. -/
def step : PerfAct φ → Option (HaRuntime φ)
  | .record m =>
    -- calls only record a positive throughput
    if rt.resetting || !ops.lt (ops.lit 0) m.tokensPerSecond then none
    else some { rt with
      perfProfile := rt.perfProfile.record ops m
      recorded := rt.recorded + 1 }
  | .copy =>
    if rt.recorded = 0 then none
    else some { rt with
      recorded := rt.recorded - 1
      copies := rt.copies ++ [rt.perfProfile] }
  | .createThread i =>
    (rt.copies[i]?).map fun copy =>
      { rt with
        copies := rt.copies.eraseIdx i
        savers := rt.savers ++ [copy] }
  | .saveInstead i =>
    (rt.copies[i]?).map fun _ =>
      { rt with
        copies := rt.copies.eraseIdx i
        file := .saved (rt.perfProfile.save ops) }
  | .write i =>
    (rt.savers[i]?).map fun copy =>
      { rt with
        savers := rt.savers.eraseIdx i
        file := .saved (copy.save ops) }
  | .reset =>
    if rt.resetting then none
    else some { rt with
      perfProfile := {}
      resetting := true }
  | .saveReset =>
    if rt.resetting then
      some { rt with
        file := .saved (rt.perfProfile.save ops)
        resetting := false }
    else none

/-- A runtime from its creation on. -/
def system (ops : ScoreOps φ) : TransitionSystem (HaRuntime φ) (PerfAct φ) where
  Init rt := ∃ loaded, rt = { loaded, perfProfile := loaded }
  Step rt a rt' := rt.step ops a = some rt'

/-- The profile file describes the profile in memory. -/
def Described : Prop :=
  rt.file = .loaded ∧ rt.perfProfile = rt.loaded ∨ rt.file = .saved (rt.perfProfile.save ops)

/-- No call, reset or thread is saving the profile. -/
structure Finished : Prop where
  resetting : rt.resetting = false
  recorded : rt.recorded = 0
  copies : rt.copies = []
  savers : rt.savers = []

/-- A copy tells what the profile in memory does. -/
def Current (copy : PerfProfile φ) : Prop := copy.save ops = rt.perfProfile.save ops

/-- Somebody is still going to write the profile as it is. -/
def Outstanding : Prop :=
  rt.resetting = true ∨ 0 < rt.recorded ∨ ∃ copy ∈ rt.copies ++ rt.savers, rt.Current ops copy

instance [DecidableEq φ] : Decidable (rt.Described ops) := inferInstanceAs (Decidable (_ ∨ _))

instance (copy : PerfProfile φ) : Decidable (rt.Current ops copy) :=
  inferInstanceAs (Decidable (_ = _))

instance : Decidable (rt.Outstanding ops) := inferInstanceAs (Decidable (_ ∨ _))

variable {ops rt}

/-! ## What a step does -/

/-- The elements of a list, before and after one of them is taken out. -/
theorem mem_of_getElem? {α : Type} {l : List α} {i : ℕ} {a b : α} (h : l[i]? = some a) :
    b ∈ l ↔ b = a ∨ b ∈ l.eraseIdx i := by
  obtain ⟨hi, rfl⟩ := List.getElem?_eq_some_iff.mp h
  rw [← List.mem_cons]
  exact (List.getElem_cons_eraseIdx_perm hi).mem_iff.symm

/-- Behind a record, something is to be saved. -/
theorem outstanding_record {rt' : HaRuntime φ} {m : Measurement φ}
    (h : rt.step ops (.record m) = some rt') : rt'.Outstanding ops := by
  unfold step at h
  dsimp only at h
  split at h
  next => cases h
  next =>
    cases h
    exact .inr (.inl (Nat.succ_pos _))

/-- Behind a copy, something is to be saved. -/
theorem outstanding_copy {rt' : HaRuntime φ} (h : rt.step ops .copy = some rt') :
    rt'.Outstanding ops := by
  unfold step at h
  dsimp only at h
  split at h
  next => cases h
  next =>
    cases h
    exact .inr (.inr ⟨rt.perfProfile, by simp, rfl⟩)

/-- A thread is created with the copy of its call; nothing else changes. -/
theorem createThread_cases {rt' : HaRuntime φ} {i : ℕ}
    (h : rt.step ops (.createThread i) = some rt') :
    (rt'.Described ops ↔ rt.Described ops) ∧ (rt'.Outstanding ops ↔ rt.Outstanding ops) := by
  obtain ⟨copy, hcopy, rfl⟩ := Option.map_eq_some_iff.mp h
  refine ⟨Iff.rfl, or_congr Iff.rfl (or_congr Iff.rfl (exists_congr fun c => and_congr_left' ?_))⟩
  rw [List.mem_append, List.mem_append, List.mem_append, mem_of_getElem? hcopy,
    List.mem_singleton]
  tauto

/-- A save of what another call has copied leaves the file described. -/
theorem described_saveInstead {rt' : HaRuntime φ} {i : ℕ}
    (h : rt.step ops (.saveInstead i) = some rt') : rt'.Described ops := by
  obtain ⟨-, -, rfl⟩ := Option.map_eq_some_iff.mp h
  exact .inr rfl

/-- A thread writes its copy, and has none any more. -/
theorem write_cases {rt' : HaRuntime φ} {i : ℕ} (h : rt.step ops (.write i) = some rt') :
    ∃ copy, rt.savers[i]? = some copy ∧ (rt'.Described ops ↔ rt.Current ops copy) ∧
      (rt.Outstanding ops ↔ rt'.Outstanding ops ∨ rt.Current ops copy) := by
  obtain ⟨copy, hcopy, rfl⟩ := Option.map_eq_some_iff.mp h
  refine ⟨copy, hcopy, ?_, ?_⟩
  · constructor
    · rintro (⟨hfile, -⟩ | hfile)
      · cases hfile
      · exact ProfileFile.saved.inj hfile
    · intro hcurrent
      exact .inr (congrArg ProfileFile.saved hcurrent)
  · -- the saver that writes is gone afterwards
    have hmem : (∃ c ∈ rt.copies ++ rt.savers, rt.Current ops c) ↔
        (∃ c ∈ rt.copies ++ rt.savers.eraseIdx i, rt.Current ops c) ∨ rt.Current ops copy := by
      simp only [List.mem_append, mem_of_getElem? hcopy]
      constructor
      · rintro ⟨c, hc | rfl | hc, hcurrent⟩
        · exact .inl ⟨c, .inl hc, hcurrent⟩
        · exact .inr hcurrent
        · exact .inl ⟨c, .inr hc, hcurrent⟩
      · rintro (⟨c, hc | hc, hcurrent⟩ | hcurrent)
        · exact ⟨c, .inl hc, hcurrent⟩
        · exact ⟨c, .inr (.inr hc), hcurrent⟩
        · exact ⟨copy, .inr (.inl rfl), hcurrent⟩
    unfold Outstanding
    rw [hmem, or_assoc, or_assoc]
    exact Iff.rfl

/-- Behind a reset, something is to be saved. -/
theorem outstanding_reset {rt' : HaRuntime φ} (h : rt.step ops .reset = some rt') :
    rt'.Outstanding ops := by
  unfold step at h
  dsimp only at h
  split at h
  next => cases h
  next =>
    cases h
    exact .inl rfl

/-- The save of a reset leaves the file described. -/
theorem described_saveReset {rt' : HaRuntime φ} (h : rt.step ops .saveReset = some rt') :
    rt'.Described ops := by
  unfold step at h
  dsimp only at h
  split at h
  next =>
    cases h
    exact .inr rfl
  next => cases h

/-! ## No update is lost -/

/-- The steps in which a thread only writes while somebody, perhaps the thread itself, is still
going to write the profile as it is. -/
def Timely (ops : ScoreOps φ) (rt : HaRuntime φ) (a : PerfAct φ) : Prop :=
  a.isWrite = true → rt.Outstanding ops

instance (a : PerfAct φ) : Decidable (Timely ops rt a) :=
  inferInstanceAs (Decidable (_ = true → _))

/-- The file describes the profile, or somebody is going to make it. -/
theorem described_or_outstanding_step {rt' : HaRuntime φ} {a : PerfAct φ}
    (h : rt.Described ops ∨ rt.Outstanding ops) (htimely : Timely ops rt a)
    (hstep : (system ops).Step rt a rt') : rt'.Described ops ∨ rt'.Outstanding ops := by
  cases a with
  | record m => exact .inr (outstanding_record hstep)
  | copy => exact .inr (outstanding_copy hstep)
  | createThread i =>
    obtain ⟨hdescribed, houtstanding⟩ := createThread_cases hstep
    rwa [hdescribed, houtstanding]
  | saveInstead i => exact .inl (described_saveInstead hstep)
  | write i =>
    -- a copy that is not the profile as it is leaves the writing to others
    obtain ⟨copy, -, hdescribed, houtstanding⟩ := write_cases hstep
    rw [hdescribed, or_comm]
    exact houtstanding.mp (htimely rfl)
  | reset => exact .inr (outstanding_reset hstep)
  | saveReset => exact .inl (described_saveReset hstep)

/-- When all calls have returned, nothing is to be saved. -/
theorem Finished.not_outstanding (h : rt.Finished) : ¬ rt.Outstanding ops := by
  rintro (hresetting | hrecorded | ⟨copy, hcopy, -⟩)
  · rw [h.resetting] at hresetting
    cases hresetting
  · rw [h.recorded] at hrecorded
    cases hrecorded
  · rw [h.copies, h.savers] at hcopy
    cases hcopy

/-- **No update is lost.** In every run whose threads only write while somebody is still going to
write the profile as it is, the profile file describes the profile whenever all have finished. -/
theorem described_of_reachable (ops : ScoreOps φ) {rt : HaRuntime φ}
    (h : (system ops).Reachable (Timely ops) rt) (hfinished : rt.Finished) : rt.Described ops := by
  have hinv : rt.Described ops ∨ rt.Outstanding ops := by
    refine h.invariant ?_ fun rt a rt' hrt htimely hstep =>
      described_or_outstanding_step hrt htimely hstep
    rintro rt ⟨loaded, rfl⟩
    exact .inl (.inl ⟨rfl, rfl⟩)
  exact hinv.resolve_right hfinished.not_outstanding

/-! A write that is not timely. -/

/-- The steps of the threads, once no call and no reset is running. -/
def ThreadAct (_ : HaRuntime φ) (a : PerfAct φ) : Prop := ∃ i, a = .createThread i ∨ a = .write i

/-- The file does not describe the profile, and nobody is going to make it. -/
def Stale (ops : ScoreOps φ) (rt : HaRuntime φ) : Prop := ¬ rt.Described ops ∧ ¬ rt.Outstanding ops

/-- A write while nobody is going to write the profile as it is leaves a stale file. -/
theorem stale_of_write {rt' : HaRuntime φ} {i : ℕ} (h : ¬ rt.Outstanding ops)
    (hstep : (system ops).Step rt (.write i) rt') : Stale ops rt' := by
  obtain ⟨copy, -, hdescribed, houtstanding⟩ := write_cases hstep
  rw [houtstanding, not_or] at h
  exact ⟨mt hdescribed.mp h.2, h.1⟩

/-- The threads that are left do not mend it. -/
theorem stale_of_run {rt' : HaRuntime φ} (h : Stale ops rt)
    (hrun : (system ops).Run ThreadAct rt rt') : Stale ops rt' := by
  refine hrun.preserves (fun rt a rt' hrt hthread hstep => ?_) h
  obtain ⟨i, rfl | rfl⟩ := hthread
  · obtain ⟨hdescribed, houtstanding⟩ := createThread_cases hstep
    exact ⟨mt hdescribed.mp hrt.1, mt houtstanding.mp hrt.2⟩
  · exact stale_of_write hrt.2 hstep

/-! ## Sample runs -/

/-- The runtime after a step; where the step is not possible, nothing changes. -/
def next (rt : HaRuntime ℚ) (a : PerfAct ℚ) : HaRuntime ℚ := (rt.step exactOps a).getD rt

/-- A runtime without a profile file after a list of steps. -/
def sampleRun (acts : List (PerfAct ℚ)) : HaRuntime ℚ :=
  acts.foldl next { loaded := {}, perfProfile := {} }

/-- A list of steps that are possible leads to a reachable state. -/
theorem reachable_sampleRun {guard : HaRuntime ℚ → PerfAct ℚ → Prop} {acts : List (PerfAct ℚ)}
    (h : TransitionSystem.Along (fun rt a => guard rt a ∧ (rt.step exactOps a).isSome) next
      { loaded := {}, perfProfile := {} } acts) :
    (system exactOps).Reachable guard (sampleRun acts) := by
  have hinit : (system exactOps).Reachable guard { loaded := {}, perfProfile := {} } :=
    .init ⟨{}, rfl⟩
  refine hinit.foldl (fun rt a hrt => ⟨hrt.1, ?_⟩) h
  obtain ⟨rt', hrt'⟩ := Option.isSome_iff_exists.mp hrt.2
  show rt.step exactOps a = some ((rt.step exactOps a).getD rt)
  rw [hrt']
  rfl

/-- A measurement of one backend and model. -/
def sampleMeasurement (tokensPerSecond : ℚ) : Measurement ℚ where
  backendId := "hydroxl_cpu"
  modelHash := "400_1f"
  tokensPerSecond

/-- Two calls record, one behind the other, and hand their copies to threads. -/
def twoCalls : List (PerfAct ℚ) :=
  [.record (sampleMeasurement 2), .copy, .createThread 0, .record (sampleMeasurement 4), .copy,
    .createThread 0]

/-- The threads write in the order of the calls. -/
theorem described_inOrder : (sampleRun (twoCalls ++ [.write 0, .write 0])).Described exactOps :=
  described_of_reachable exactOps (reachable_sampleRun (by decide +kernel))
    ⟨by decide +kernel, by decide +kernel, by decide +kernel, by decide +kernel⟩

/-- The threads write in the other order: the file tells the first measurement only. -/
theorem not_described_outOfOrder :
    ¬ ∀ rt : HaRuntime ℚ, (system exactOps).Reachable TransitionSystem.anyCall rt → rt.Finished →
      rt.Described exactOps := by
  intro hall
  have hdescribed := hall (sampleRun (twoCalls ++ [.write 1, .write 0]))
    (reachable_sampleRun (by decide +kernel))
    ⟨by decide +kernel, by decide +kernel, by decide +kernel, by decide +kernel⟩
  revert hdescribed
  decide +kernel

end HaRuntime

end HeteroAccel.Sdk
