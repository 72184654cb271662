import HeteroAccel.Lib.WhileLoop
import HeteroAccel.Model.Residency.AcceleratorBudget
import HeteroAccel.Model.Residency.Displacement
import HeteroAccel.Model.Residency.RoomMaking

/-!
# The loops that make room end

The loops of `makeRamRoomLocked` and `makeAccelRoomLocked` by their bodies. The body on the
accelerator's side releases nothing for a region that is marked resident there without a buffer; it
then goes on as it was, so that the loop ends only because no such region exists.

## Main definitions

* `ramRoomBody` and `accelRoomBody`: one iteration of each loop;
* `evictableRegions`: the regions that the scan for RAM may pick.

## Main results

* `roomMaking_ends`: every iteration stops or leaves fewer regions to pick, both loops end, and no
  request is stuck.
-/

namespace HeteroAccel

variable {ρ σ α : Type} {cx : ResidencyContext ρ σ α} {call : ResidencyCall ρ α}

namespace ModelResidencyManager

variable {m m' : ModelResidencyManager σ} {needed skipId : UInt64}

/-! ## The bodies of the loops -/

/-- One iteration of the loop in `makeRamRoomLocked`. -/
def ramRoomBody (cx : ResidencyContext ρ σ α) (call : ResidencyCall ρ α) (needed skipId : UInt64)
    (m : ModelResidencyManager σ) : Result σ ⊕ ModelResidencyManager σ :=
  if m.telemetry.residentRamBytes + needed > cx.budget.ramBytes then
    let victim := m.pickLruLocked call .ram skipId
    if victim = 0 then .inl (m.fail .ramBudgetExhausted)
    else
      match m.evictLocked cx victim with
      | (false, m) => .inl (m.fail .victimBusy)
      | (true, m) => .inr m
  else .inl (.ok (), m)

/-- One iteration of the loop in `makeAccelRoomLocked`. -/
def accelRoomBody (M : IAcceleratorMemory σ α) (call : ResidencyCall ρ α) (needed skipId : UInt64)
    (m : ModelResidencyManager σ) : Result σ ⊕ ModelResidencyManager σ :=
  if M.available m.accelMemory < needed then
    let victim := m.pickLruLocked call .accelerator skipId
    if victim = 0 then .inl (m.fail .acceleratorBudgetExhausted)
    else
      match m.records.lookup victim with
      | none => .inl (.ok (), m)
      | some rec =>
        match rec.accel with
        -- nothing to release: the next iteration begins as this one did
        | none => .inr m
        | some p => .inr (m.demote M victim rec p)
  else .inl (.ok (), m)

/-- The number of regions that the scan for a victim in RAM may pick. -/
def evictableRegions (skipId : UInt64) (m : ModelResidencyManager σ) : ℕ :=
  KeyedMap.total (fun k rec => if candidate .ram skipId ⟨k, rec⟩ then 1 else 0) m.records

/-! ## What an iteration does -/

/-- An iteration in RAM that goes on evicts the pick. -/
theorem evictsLru_of_ramRoomBody (h : ramRoomBody cx call needed skipId m = .inr m') :
    EvictsLru cx call needed skipId m m' := by
  unfold ramRoomBody at h
  split at h
  next hfull =>
    dsimp only at h
    split at h
    next => cases h
    next hne =>
      obtain ⟨rec, hrec, hcand⟩ := exists_of_pickLruLocked_ne_zero hne
      rw [evictLocked_of_candidate hrec hcand] at h
      cases h
      exact ⟨hfull, hne, rec, hrec, hcand, rfl⟩
  next => cases h

/-- An eviction leaves one region fewer to evict. -/
theorem EvictsLru.evictableRegions_lt (h : EvictsLru cx call needed skipId m m') :
    m'.evictableRegions skipId < m.evictableRegions skipId := by
  obtain ⟨rec, hrec, hcand, rfl⟩ := h.drops
  have herase := KeyedMap.total_erase
    (f := fun k rec => if candidate .ram skipId ⟨k, rec⟩ then 1 else 0) hrec
  simp only [hcand, ↓reduceIte] at herase
  rw [evictableRegions, dropRecord_records, evictableRegions]
  omega

/-- An iteration on the accelerator that goes on sends the pick back to RAM, since the pick has a
buffer. -/
theorem demotes_of_accelRoomBody {M : IAcceleratorMemory σ α} (hacc : Accounted cx m)
    (h : accelRoomBody M call needed skipId m = .inr m') : Demotes M skipId m m' := by
  unfold accelRoomBody at h
  split at h
  next =>
    dsimp only at h
    split at h
    next => cases h
    next hne =>
      obtain ⟨rec, hrec, hcand⟩ := exists_of_pickLruLocked_ne_zero hne
      obtain ⟨p, hp⟩ := Option.isSome_iff_exists.mp
        ((hacc.atRest _ rec hrec).accel_iff.mpr (satisfies_of_candidate hcand))
      rw [hrec] at h
      dsimp only at h
      rw [hp] at h
      cases h
      exact ⟨_, rec, p, hrec, hcand, hp, rfl⟩
  next => cases h

/-- One region fewer is then on the accelerator. -/
theorem Demotes.acceleratorResidents_lt {M : IAcceleratorMemory σ α} (h : Demotes M skipId m m') :
    m'.acceleratorResidents < m.acceleratorResidents := by
  obtain ⟨id, rec, p, hrec, hcand, -, rfl⟩ := h
  have hstate := satisfies_of_candidate hcand
  simp only [ModelResidencyState.satisfies, decide_eq_true_eq] at hstate
  have hinsert := KeyedMap.total_insert_of_lookup
    (f := fun (_ : UInt64) (r : Record) => if r.state = .residentInAccelerator then 1 else 0)
    (w := { rec with accel := none, state := .residentInRam }) hrec
  simp only [hstate, ↓reduceIte, reduceCtorEq] at hinsert
  rw [acceleratorResidents, demote_records, acceleratorResidents]
  omega

/-! ## The loops -/

/-- `makeRamRoomLocked` unfolds to its body. -/
theorem makeRamRoomLocked_eq :
    makeRamRoomLocked cx call m needed skipId =
      (ramRoomBody cx call needed skipId m).elim id
        fun m => makeRamRoomLocked cx call m needed skipId := by
  rw [makeRamRoomLocked]
  unfold ramRoomBody
  split
  next =>
    dsimp only
    split
    next => rfl
    next => split <;> simp [*]
  next => rfl

/-- `makeAccelRoomLocked` unfolds to its body where regions on the accelerator have buffers. -/
theorem makeAccelRoomLocked_eq {M : IAcceleratorMemory σ α} (hacc : Accounted cx m) :
    makeAccelRoomLocked M call m needed skipId =
      (accelRoomBody M call needed skipId m).elim id
        fun m => makeAccelRoomLocked M call m needed skipId := by
  rw [makeAccelRoomLocked]
  unfold accelRoomBody
  split
  next =>
    dsimp only
    split
    next => rfl
    next hne =>
      obtain ⟨rec, hrec, hcand⟩ := exists_of_pickLruLocked_ne_zero hne
      obtain ⟨p, hp⟩ := Option.isSome_iff_exists.mp
        ((hacc.atRest _ rec hrec).accel_iff.mpr (satisfies_of_candidate hcand))
      split <;> simp_all
  next => rfl

/-- The loop in RAM ends. -/
theorem ramRoom_endsBy (m : ModelResidencyManager σ) :
    WhileLoop.EndsBy (ramRoomBody cx call needed skipId) (evictableRegions skipId) m
      (makeRamRoomLocked cx call m needed skipId) :=
  WhileLoop.endsBy (P := fun _ => True) (fun _ _ _ _ => trivial)
    (fun _ _ _ h => (evictsLru_of_ramRoomBody h).evictableRegions_lt)
    (fun _ _ => makeRamRoomLocked_eq) trivial

/-- The loop on the accelerator ends where regions on the accelerator have buffers. -/
theorem accelRoom_endsBy {M : IAcceleratorMemory σ α} (hM : cx.accelerator = some M)
    (hacc : Accounted cx m) :
    WhileLoop.EndsBy (accelRoomBody M call needed skipId) acceleratorResidents m
      (makeAccelRoomLocked M call m needed skipId) := by
  refine WhileLoop.endsBy (P := Accounted cx) ?_ ?_ (fun _ h => makeAccelRoomLocked_eq h) hacc
  · intro m m' h hbody
    have hrun : DemotionRun M skipId m m' := .single (demotes_of_accelRoomBody h hbody)
    exact h.steps (hrun.toSteps hM)
  · exact fun m m' h hbody => (demotes_of_accelRoomBody h hbody).acceleratorResidents_lt

/-! ## Requests -/

theorem loadToRamLocked_ne_stuck {id : UInt64} :
    (loadToRamLocked cx call m id).1 ≠ .error .stuck := by
  unfold loadToRamLocked
  split
  next => nofun
  next =>
    obtain ⟨m₁, -, ⟨hok, -⟩ | ⟨hfail, -⟩⟩ := makeRamRoomLocked_spec cx call m
      (m.recordAt id).region.size (m.recordAt id).region.id
    · rw [hok]
      dsimp only
      split
      next => nofun
      next => split <;> nofun
    · rw [hfail]
      nofun

theorem uploadLocked_ne_stuck {id : UInt64} (hacc : Accounted cx m) :
    (uploadLocked cx call m id).1 ≠ .error .stuck := by
  unfold uploadLocked
  cases hM : cx.accelerator with
  | none => nofun
  | some M =>
    dsimp only
    -- the loop alone could stand still
    have hroom : (makeAccelRoomLocked M call m (m.recordAt id).region.size
        (m.recordAt id).region.id).1 ≠ .error .stuck :=
      makeAccelRoomLocked_ne_stuck hacc hM _ _
    split
    next => nofun
    next =>
      split
      next => nofun
      next =>
        split
        next => nofun
        next =>
          split
          next f m₁ hres =>
            rw [hres] at hroom
            exact hroom
          next m₁ hres =>
            unfold transfer
            split
            next => nofun
            next => split <;> nofun

theorem place_ne_stuck {id : UInt64} {rec : Record} (hkeys : m.KeysMatch) (hacc : Accounted cx m)
    (hrec : m.records.lookup id = some rec) (target : ModelResidencyTarget) :
    (place cx call m id target).1 ≠ .error .stuck := by
  have houtcome : Outcome cx m id rec.region .ram (reachRam cx call m id) :=
    reachRam_outcome hkeys hrec
  have hload : (reachRam cx call m id).1 ≠ .error .stuck := by
    unfold reachRam
    split
    next => nofun
    next => exact loadToRamLocked_ne_stuck
  rw [place_eq]
  split
  next f m₁ hres =>
    rw [hres] at hload
    exact hload
  next m₁ hres =>
    rw [hres] at houtcome
    cases target with
    | ram => nofun
    | accelerator =>
      dsimp only
      split
      next => nofun
      next => exact uploadLocked_ne_stuck (hacc.steps houtcome.steps)

/-- No request is left in a loop. -/
theorem IsRequest.ne_stuck {region : ModelRegion} {target : ModelResidencyTarget}
    {result : Result σ} (h : IsRequest cx m region target call result) (hkeys : m.KeysMatch)
    (hacc : Accounted cx m) : result.1 ≠ .error .stuck := by
  rcases h with rfl | rfl
  · unfold ModelResidencyManager.ensureResident
    split
    next => nofun
    next hvalid =>
      -- the new record is counted rightly, so `place` does not stand still
      have hprep := prepared_getOrCreateLocked hkeys hacc (not_not.mp hvalid)
      have hplace : (place cx call (m.getOrCreateLocked region) region.id target).1 ≠
          .error .stuck := place_ne_stuck hprep.keys hprep.accounted hprep.lookup target
      dsimp only
      split
      next => nofun
      next =>
        split
        next => nofun
        next =>
          split
          next f m₁ hres =>
            rw [hres] at hplace
            exact hplace
          next => nofun
  · unfold ModelResidencyManager.prefetch
    split
    next => nofun
    next =>
      split
      next => nofun
      next hvalid =>
        have hprep := (prepared_getOrCreateLocked hkeys hacc (not_not.mp hvalid)).countMiss
        have hplace :
            (place cx call (m.getOrCreateLocked region).countMiss region.id target).1 ≠
              .error .stuck := place_ne_stuck hprep.keys hprep.accounted hprep.lookup target
        dsimp only
        split
        next => nofun
        next =>
          split
          next => nofun
          next =>
            split
            next f m₁ hres =>
              rw [hres] at hplace
              exact hplace
            next => nofun

end ModelResidencyManager

open ModelResidencyManager

/-- Between calls and within them, for whatever accelerator memory, the loops that make room end:
each iteration stops, or leaves fewer regions that can be evicted or are on the accelerator. No
request is therefore left in a loop. -/
theorem roomMaking_ends (cx : ResidencyContext ρ σ α) (accelMemory : σ)
    (m m' : ModelResidencyManager σ)
    (hreach : (residencySystem cx accelMemory).Reachable TransitionSystem.anyCall m)
    (hsteps : ResidencySteps cx m m') (call : ResidencyCall ρ α) (needed skipId : UInt64) :
    WhileLoop.EndsBy (ramRoomBody cx call needed skipId) (evictableRegions skipId) m'
      (makeRamRoomLocked cx call m' needed skipId) ∧
    (∀ M, cx.accelerator = some M →
      WhileLoop.EndsBy (accelRoomBody M call needed skipId) acceleratorResidents m'
        (makeAccelRoomLocked M call m' needed skipId)) ∧
    ∀ region target result, IsRequest cx m region target call result →
      result.1 ≠ .error .stuck := by
  obtain ⟨hkeys, hacc⟩ := Accounted.of_reachable hreach
  refine ⟨ramRoom_endsBy m', fun M hM => accelRoom_endsBy hM (hacc.steps hsteps), ?_⟩
  exact fun region target result hrequest => hrequest.ne_stuck hkeys hacc

/-- Two regions are on the accelerator, which has no byte left; room for three bytes is made. -/
theorem roomMaking_ends_sample :
    let m := sampleRun [.ensureResident (sampleRegion 1 0) .accelerator (sampleCall 1),
      .ensureResident (sampleRegion 2 2) .accelerator (sampleCall 2)]
    m.acceleratorResidents = 2 ∧
      WhileLoop.EndsBy
        (accelRoomBody HostAcceleratorMemory.toInterface (sampleCall 3) 3 3) acceleratorResidents m
        (makeAccelRoomLocked HostAcceleratorMemory.toInterface (sampleCall 3) m 3 3) := by
  intro m
  refine ⟨by decide +kernel, ?_⟩
  exact (roomMaking_ends sampleContext (.construct 4) m m (reachable_foldl _ _ _) .refl
    (sampleCall 3) 3 3).2.1 _ rfl

end HeteroAccel
