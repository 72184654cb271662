import HeteroAccel.Lib.Transition
import HeteroAccel.Orchestration.PerfProfileFile
import Mathlib.Analysis.Convex.Basic

/-!
# The running averages of a performance profile

`PerfProfile::record` blends a speed into the average of a record, with the number of samples as the
weight of the average. The number has 32 bits and may come from a file.

Arithmetic is exact. What is read as a speed is any function on texts.

## Main definitions

* `Averages`: an update divides by a number that is not zero, and gives the mean;
* `KeepsAverages`: a measurement updates so, and all records count their samples;
* `NotFull`: the updated record has not counted `2 ^ 32 - 1` samples.

## Main results

* `keepsAverages_iff`: the measurements after loading any file average exactly when no record is
  full;
* `not_keepsAverages`: a file whose record is full.
-/

namespace HeteroAccel.Orchestration

open TransitionSystem (Along)

/-! ## The property -/

/-- An update of a record divides by a number of samples, and the new average is the mean of the
samples so far and the new one. -/
structure Averages (r : PerfRecord ℚ) (m : Measurement ℚ) : Prop where
  divides : (m.update exactOps r).sampleCount ≠ 0
  between : (m.update exactOps r).tokensPerSecond ∈ Set.uIcc r.tokensPerSecond m.tokensPerSecond
  mean : (m.update exactOps r).tokensPerSecond * (m.update exactOps r).sampleCount.toNat =
    r.tokensPerSecond * r.sampleCount.toNat + m.tokensPerSecond

namespace PerfProfile

variable (profile : PerfProfile ℚ) (m : Measurement ℚ)

/-- The record that a measurement updates. -/
def updated : Option (PerfRecord ℚ) :=
  if m.backendId = "" || exactOps.le m.tokensPerSecond (exactOps.lit 0) then none
  else profile.records.find? m.matchesRecord

/-- Every record has counted a sample. -/
def Counted : Prop := ∀ r ∈ profile.records, r.sampleCount ≠ 0

/-- A measurement leaves every counter positive, and the averages in the record that it updates. -/
structure KeepsAverages : Prop where
  counted : (profile.record exactOps m).Counted
  averages : ∀ r, profile.updated m = some r → Averages r m

/-- The record that is updated can count another sample. -/
def NotFull : Prop := ∀ r, profile.updated m = some r → r.sampleCount.toNat ≠ 2 ^ 32 - 1

instance : Decidable (profile.NotFull m) :=
  decidable_of_iff (∀ r ∈ profile.updated m, r.sampleCount.toNat ≠ 2 ^ 32 - 1) Iff.rfl

end PerfProfile

/-! ## One update -/

section Update

variable {r : PerfRecord ℚ} {m : Measurement ℚ} {profile : PerfProfile ℚ}

theorem toNat_sampleCount_update (h : r.sampleCount.toNat ≠ 2 ^ 32 - 1) :
    (m.update exactOps r).sampleCount.toNat = r.sampleCount.toNat + 1 := by
  have hlt := r.sampleCount.toNat_lt
  show (r.sampleCount + 1).toNat = _
  rw [UInt32.toNat_add, UInt32.toNat_one, Nat.mod_eq_of_lt (by omega)]

/-- The new average. -/
theorem tokensPerSecond_update (h : r.sampleCount.toNat ≠ 2 ^ 32 - 1) :
    (m.update exactOps r).tokensPerSecond =
      (r.tokensPerSecond * r.sampleCount.toNat + m.tokensPerSecond) /
        (r.sampleCount.toNat + 1) := by
  have hlt := r.sampleCount.toNat_lt
  have hcount : (r.sampleCount.toNat + 1) % 4294967296 = r.sampleCount.toNat + 1 :=
    Nat.mod_eq_of_lt (by omega)
  simp [Measurement.update, exactOps, hcount]

/-- An update averages unless the count is at its end. -/
theorem averages_iff : Averages r m ↔ r.sampleCount.toNat ≠ 2 ^ 32 - 1 := by
  constructor
  · intro h hfull
    refine h.divides ?_
    -- the count wraps to 0, by which the update divides
    have hmax : r.sampleCount = 4294967295 := UInt32.toNat_inj.mp hfull
    show r.sampleCount + 1 = 0
    rw [hmax]
    rfl
  · intro h
    have hpos : (0 : ℚ) < r.sampleCount.toNat + 1 := by positivity
    refine ⟨fun hzero => ?_, ?_, ?_⟩
    · have hcount := toNat_sampleCount_update (m := m) h
      rw [hzero] at hcount
      cases hcount
    · -- the new average is a convex combination of the old one and the sample
      have hconvex := convex_uIcc r.tokensPerSecond m.tokensPerSecond
        (Set.left_mem_uIcc) (Set.right_mem_uIcc)
        (show 0 ≤ (r.sampleCount.toNat : ℚ) / (r.sampleCount.toNat + 1) by positivity)
        (show 0 ≤ (1 : ℚ) / (r.sampleCount.toNat + 1) by positivity)
        (by rw [← add_div, div_self hpos.ne'])
      rw [tokensPerSecond_update h]
      convert hconvex using 1
      simp only [smul_eq_mul]
      field_simp
    · rw [tokensPerSecond_update h, toNat_sampleCount_update h, Nat.cast_add, Nat.cast_one,
        div_mul_cancel₀ _ hpos.ne']

namespace PerfProfile

/-- Records that count keep counting when the updated one is not full. -/
theorem counted_record (h : profile.Counted) (hfull : profile.NotFull m) :
    (profile.record exactOps m).Counted := by
  unfold record
  split_ifs with hskip
  · exact h
  · intro r hr
    obtain hr | rfl | ⟨r', hfind, rfl⟩ := mem_recordIn hr
    · exact h r hr
    · exact fun hone => absurd (congrArg UInt32.toNat hone) (by decide : (1 : ℕ) ≠ 0)
    · refine (averages_iff.mpr (hfull r' ?_)).divides
      rw [updated, if_neg hskip]
      exact hfind

theorem keepsAverages_iff_notFull (h : profile.Counted) :
    profile.KeepsAverages m ↔ profile.NotFull m := by
  constructor
  · intro hkeeps r hr
    exact averages_iff.mp (hkeeps.averages r hr)
  · intro hfull
    exact ⟨counted_record h hfull, fun r hr => averages_iff.mpr (hfull r hr)⟩

/-- Every record that is loaded counts a sample. -/
theorem counted_load (stof : List Char → Option ℚ) (file : Option (List Char)) :
    (load exactOps stof file).Counted := by
  cases file with
  | none => exact fun r hr => absurd hr List.not_mem_nil
  | some text =>
    intro r hr
    obtain ⟨line, -, hline⟩ := List.mem_filterMap.mp hr
    unfold readLine at hline
    dsimp only at hline
    split_ifs at hline
    split at hline
    · cases hline
    · -- a count of zero is taken for one
      split_ifs at hline with _ hzero
      · cases hline
        exact show (1 : UInt32) ≠ 0 by decide
      · cases hline
        exact hzero

end PerfProfile

end Update

open PerfProfile in
/-- **Averages.** After any file is loaded all records count their samples, and every measurement
averages, exactly when no measurement updates a record with `2 ^ 32 - 1` samples. -/
theorem keepsAverages_iff (stof : List Char → Option ℚ) (file : Option (List Char))
    (ms : List (Measurement ℚ)) :
    ((load exactOps stof file).Counted ∧
        Along KeepsAverages (record exactOps) (load exactOps stof file) ms) ↔
      Along NotFull (record exactOps) (load exactOps stof file) ms := by
  have hcounted := counted_load stof file
  rw [and_iff_right hcounted]
  exact TransitionSystem.along_congr_of_invariant (I := Counted)
    (fun profile _ m _ hkeeps => hkeeps.counted)
    (fun profile h m _ => keepsAverages_iff_notFull h) hcounted

/-- The file says that the record has `2 ^ 32 - 1` samples. -/
def fullFile : List Char :=
  "backend=cpu model_hash=1f_2e quant=0 layers=0 embd=0 toks_per_s=5.00 ts=0 n=4294967295".toList

/-- The next measurement of the workload has a number of zero samples to divide by. -/
theorem not_keepsAverages :
    ¬∀ (file : Option (List Char)) (ms : List (Measurement ℚ)),
      (∀ m ∈ ms, 0 < m.tokensPerSecond) →
      Along PerfProfile.KeepsAverages (PerfProfile.record exactOps)
        (PerfProfile.load exactOps readFixed file) ms := by
  intro h
  obtain ⟨hkeeps, -⟩ := h (some fullFile) [sampleMeasurement "1f_2e"] (by decide)
  have hfull : ((PerfProfile.load exactOps readFixed (some fullFile)).updated
      (sampleMeasurement "1f_2e")).map PerfRecord.sampleCount = some 4294967295 := by
    decide +kernel
  obtain ⟨r, hr, hcount⟩ := Option.map_eq_some_iff.mp hfull
  exact averages_iff.mp (hkeeps.averages r hr) (by rw [hcount]; rfl)

end HeteroAccel.Orchestration
