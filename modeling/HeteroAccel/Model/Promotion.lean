import HeteroAccel.Model.StreamingRuns

/-!
# Promotions to the accelerator

A promotion asks the memory manager for a move to the location `ACCELERATOR`. The manager allocates
CPU and GPU memory and moves blocks between these two, so that no promotion of a CPU block to
another device succeeds, whatever memory there is.

## Main definitions

* `runAlone`: an operation with no other one between its steps;
* `Reaches`: a promotion returns true, and the resource is hot with a block in the device's memory.

## Main results

* `runAlone_promoteToHotAsync`: a promotion returns false, and the resource is warm as before;
* `not_reaches`: no promotion reaches the accelerator.
-/

namespace HeteroAccel.Model

open HeteroAccel.Mem

namespace StreamingEngine

/-- The result of an operation that takes all its steps alone, and the state behind them; `none`
when it has not finished after `n` steps. -/
def runAlone (env : Environment) (se : StreamingEngine) (task : Task) :
    (n : ℕ) → Option (Bool × StreamingEngine)
  | 0 => none
  | n + 1 =>
    match task.stage, se.advance env task with
    | .finished result, _ => some (result, se)
    | _, some (stage, se) => runAlone env se { task with stage } n
    | _, none => none

/-- The promotion of the resource to a device, on its own, returns true and leaves the resource hot,
with a block of its own in the memory of the device. -/
def Reaches (env : Environment) (se : StreamingEngine) (backend : ComputeBackend) : Prop :=
  ∃ n se', se.runAlone env { operation := .promoteToHotAsync backend } n = some (true, se') ∧
    se'.residency = .hot ∧ se'.Owns backend.memory

variable {env : Environment} {se : StreamingEngine} {backend : ComputeBackend}

/-- One step of an operation that runs alone. -/
theorem runAlone_of_advance {task : Task} {stage : Stage} {se' : StreamingEngine}
    (hstage : ∀ result, task.stage ≠ .finished result)
    (h : se.advance env task = some (stage, se')) (n : ℕ) :
    se.runAlone env task (n + 1) = se'.runAlone env { task with stage } n := by
  rw [runAlone, h]
  split
  next result heq => exact absurd heq (hstage result)
  next heq _ =>
    obtain ⟨rfl, rfl⟩ := Prod.mk.inj (Option.some.inj heq)
    rfl
  next heq _ => cases heq

theorem runAlone_finished (operation : Operation) (result : Bool) (n : ℕ) :
    se.runAlone env ⟨operation, .finished result⟩ (n + 1) = some (result, se) := rfl

/-- The manager moves no block between the CPU memory and the accelerator. -/
theorem move_accelerator_eq_false (env : Environment) (mm : MemoryManager) {block : MemoryBlock}
    (hvalid : block.isValid = true) (hlocation : block.location = .cpu) :
    (mm.move env block .accelerator).1 = false ∧ (mm.move env block .accelerator).2.1 = block := by
  unfold MemoryManager.move
  rw [if_neg (by simp [hvalid, hlocation])]
  cases mm.activeBlocks.lookup block.id with
  | none => exact ⟨rfl, rfl⟩
  | some tracked =>
    dsimp only
    rw [if_neg (by simp), if_neg (by simp)]
    exact ⟨rfl, rfl⟩

variable (env) in
/-- A promotion that begins from `WARM` with a CPU block takes three steps: it begins, the move
fails, and it closes with the residency from which it began. -/
theorem runAlone_promoteToHotAsync (hwarm : se.residency = .warm)
    (hvalid : se.resource.block.isValid = true) (hlocation : se.resource.block.location = .cpu)
    (hbackend : backend ≠ .cpu) : ∃ se', se'.residency = .warm ∧
      se'.resource.block = se.resource.block ∧ ∀ n,
      se.runAlone env { operation := .promoteToHotAsync backend } n =
        if n < 4 then none else some (false, se') := by
  obtain ⟨-, hbegun, hloading⟩ | ⟨hne, -⟩ :=
    ResourceResidencyManager.transition_cases se.residencyMgr se.resource.id .warm .loading
  · obtain ⟨hfailed, hblock⟩ := move_accelerator_eq_false env se.memoryMgr hvalid hlocation
    rw [← ResourceResidencyManager.tryBeginTransition_eq] at hbegun hloading
    -- the closing transition finds the residency that the first one has left
    let begun := (se.residencyMgr.tryBeginTransition se.resource.id .warm .loading).2
    obtain ⟨-, -, hclosed⟩ | ⟨hne, -⟩ :=
      ResourceResidencyManager.transition_cases begun se.resource.id .loading .warm
    · let moved := se.memoryMgr.move env se.resource.block .accelerator
      let se' : StreamingEngine :=
        { se with
          residencyMgr := (begun.transition se.resource.id .loading .warm).2
          memoryMgr := moved.2.2
          resource := { se.resource with block := moved.2.1 }
          promotedTo := some backend }
      have hbegin : se.advance env { operation := .promoteToHotAsync backend } =
          some (.working .warm, { se with residencyMgr := begun, promotedTo := some backend }) := by
        simp [advance, tryBegin, hbegun, hbackend, begun]
      have hwork : ({ se with
            residencyMgr := begun, promotedTo := some backend } : StreamingEngine).advance env
          { operation := .promoteToHotAsync backend, stage := .working .warm } =
          some (.closing .loading .warm false, { se with
            residencyMgr := begun
            memoryMgr := moved.2.2
            resource := { se.resource with block := moved.2.1 }
            promotedTo := some backend }) := by
        simp [advance, moveBlock, hfailed, moved]
      have hclose : ({ se with
            residencyMgr := begun
            memoryMgr := moved.2.2
            resource := { se.resource with block := moved.2.1 }
            promotedTo := some backend } : StreamingEngine).advance env
          { operation := .promoteToHotAsync backend, stage := .closing .loading .warm false } =
          some (.finished false, se') := rfl
      refine ⟨se', hclosed, hblock, fun n => ?_⟩
      -- the three steps of the call, and what is left when it has ended
      rcases n with _ | _ | _ | _ | n
      · rfl
      · rw [runAlone_of_advance (by simp) hbegin]
        rfl
      · rw [runAlone_of_advance (by simp) hbegin, runAlone_of_advance (by simp) hwork]
        rfl
      · rw [runAlone_of_advance (by simp) hbegin, runAlone_of_advance (by simp) hwork,
          runAlone_of_advance (by simp) hclose]
        rfl
      · rw [if_neg (by omega), runAlone_of_advance (by simp) hbegin,
          runAlone_of_advance (by simp) hwork, runAlone_of_advance (by simp) hclose,
          runAlone_finished]
    · exact absurd hloading hne
  · exact absurd hwarm hne

/-- **Promotions.** No promotion of a warm resource with a CPU block to another device reaches its
memory. -/
theorem not_reaches (hwarm : se.residency = .warm) (hvalid : se.resource.block.isValid = true)
    (hlocation : se.resource.block.location = .cpu) (hbackend : backend ≠ .cpu) :
    ¬se.Reaches env backend := by
  obtain ⟨se', -, -, hruns⟩ := runAlone_promoteToHotAsync env hwarm hvalid hlocation hbackend
  rintro ⟨n, hot, hrun, -⟩
  rw [hruns n] at hrun
  split at hrun
  · cases hrun
  · cases hrun

/-- A resource that has been loaded. -/
def warmRun : StreamingEngine :=
  sampleRun [.call .loadToWarmAsync, .step 0 {}, .step 0 { malloc := 1000 }, .step 0 {}]

/-- A warm resource that fits the device does not reach it. -/
theorem not_reaches_warmRun : ¬warmRun.Reaches { createBuffer := 7 } .vulkan :=
  not_reaches (by decide +kernel) (by decide +kernel) (by decide +kernel) (by decide)

/-- There is GPU memory, the backend is available and transfers succeed; the promotion fails. -/
theorem not_forall_reaches : ¬∀ (env : Environment) (se : StreamingEngine)
    (backend : ComputeBackend), env.createBuffer ≠ 0 → env.available = true →
    env.transferOk = true → se.residency = .warm → se.Owns .cpu → backend ≠ .cpu →
    se.Reaches env backend := by
  intro h
  have howns : warmRun.Owns .cpu := by
    have htracked : ∃ tracked ∈ warmRun.memoryMgr.activeBlocks.lookup warmRun.resource.block.id,
        tracked.location = .cpu := by decide +kernel
    exact ⟨by decide +kernel, by decide +kernel, htracked⟩
  obtain ⟨n, se', hrun, -⟩ := h { createBuffer := 7 } warmRun .vulkan (by decide) rfl rfl
    (by decide +kernel) howns (by decide)
  have hfails : warmRun.runAlone { createBuffer := 7 }
      { operation := .promoteToHotAsync .vulkan } n ≠ some (true, se') := by
    have hresidency : warmRun.residency = .warm := by decide +kernel
    have hvalid : warmRun.resource.block.isValid = true := by decide +kernel
    have hlocation : warmRun.resource.block.location = .cpu := by decide +kernel
    have hbackend : ComputeBackend.vulkan ≠ .cpu := by decide
    obtain ⟨se'', -, -, hruns⟩ :=
      runAlone_promoteToHotAsync { createBuffer := 7 } hresidency hvalid hlocation hbackend
    rw [hruns n]
    split <;> simp
  exact hfails hrun

end StreamingEngine
end HeteroAccel.Model
