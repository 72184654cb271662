import HeteroAccel.Lib.PickLoop
import HeteroAccel.Model.Residency.Calls

/-!
# What a request displaces

A request that makes room takes the place of other regions: the scans of `makeRamRoomLocked` pick
regions that are dropped, those of `makeAccelRoomLocked` pick regions that go back to RAM. A region
that no scan of a request picks is as before; one that a scan picks is no longer where the request
places its own.

## Main definitions

* `Displaces`: a scan of the request picks the region;
* `ensureResident_fate`: what a request does to another region.
-/

namespace HeteroAccel.ModelResidencyManager

variable {ρ σ α : Type} {cx : ResidencyContext ρ σ α} {call : ResidencyCall ρ α}
  {m m' : ModelResidencyManager σ} {id k needed skipId : UInt64} {rec : Record}

/-! ## Residency -/

theorem isResident_of_lookup {target : ModelResidencyTarget}
    (hrec : m.records.lookup id = some rec) :
    m.isResident id target = rec.state.satisfies target := by
  simp [isResident, hrec]

/-- A region without a record is nowhere. -/
theorem isResident_of_none {target : ModelResidencyTarget} (hrec : m.records.lookup id = none) :
    m.isResident id target = false := by
  simp [isResident, hrec]

/-- Residency is read off the record. -/
theorem isResident_congr (h : m'.records.lookup k = m.records.lookup k)
    (target : ModelResidencyTarget) : m'.isResident k target = m.isResident k target := by
  rw [isResident, isResident, h]

/-- What is not in RAM is not on the accelerator either. -/
theorem isResident_of_not_ram (h : m.isResident k .ram = false) (target : ModelResidencyTarget) :
    m.isResident k target = false := by
  cases hrec : m.records.lookup k with
  | none => exact isResident_of_none hrec
  | some rec =>
    rw [isResident_of_lookup hrec] at h ⊢
    simp only [ModelResidencyState.satisfies, Bool.or_eq_false_iff] at h
    cases target with
    | ram => simp [ModelResidencyState.satisfies, h.1, h.2]
    | accelerator => exact h.2

theorem rightUnique_evictsLru : Relator.RightUnique (EvictsLru cx call needed skipId) := by
  intro m m₁ m₂ h₁ h₂
  obtain ⟨rec₁, hrec₁, -, rfl⟩ := h₁.drops
  obtain ⟨rec₂, hrec₂, -, rfl⟩ := h₂.drops
  cases hrec₁.symm.trans hrec₂
  rfl

/-- The scans made while RAM room is made for `skipId` pick the region `k`. -/
def RamScanPicks (cx : ResidencyContext ρ σ α) (call : ResidencyCall ρ α)
    (m : ModelResidencyManager σ) (needed skipId k : UInt64) : Prop :=
  PickLoop.Picks (EvictsLru cx call needed skipId) (fun m => m.pickLruLocked call .ram skipId) m k

theorem rightUnique_demotesLru {M : IAcceleratorMemory σ α} :
    Relator.RightUnique (DemotesLru M call needed skipId) := by
  intro m m₁ m₂ h₁ h₂
  obtain ⟨rec₁, p₁, hrec₁, -, hp₁, rfl⟩ := h₁.demotes
  obtain ⟨rec₂, p₂, hrec₂, -, hp₂, rfl⟩ := h₂.demotes
  cases hrec₁.symm.trans hrec₂
  cases hp₁.symm.trans hp₂
  rfl

/-- The scans made while accelerator room is made for `skipId` pick the region `k`. -/
def AccelScanPicks (M : IAcceleratorMemory σ α) (call : ResidencyCall ρ α)
    (m : ModelResidencyManager σ) (needed skipId k : UInt64) : Prop :=
  PickLoop.Picks (DemotesLru M call needed skipId)
    (fun m => m.pickLruLocked call .accelerator skipId) m k

/-- `makeAccelRoomLocked` takes these steps until none is possible. -/
theorem makeAccelRoomLocked_run (M : IAcceleratorMemory σ α) (call : ResidencyCall ρ α)
    (m : ModelResidencyManager σ) (needed skipId : UInt64) :
    ∃ m', Relation.ReflTransGen (DemotesLru M call needed skipId) m m' ∧
      (∀ m'', ¬ DemotesLru M call needed skipId m' m'') ∧
      (makeAccelRoomLocked M call m needed skipId).2.records = m'.records := by
  obtain ⟨m', hrun, ⟨hok, hroom⟩ | ⟨hfail, -, hzero⟩ | ⟨hstuck, -, rec, hrec, -, haccel⟩⟩ :=
    makeAccelRoomLocked_lru M call m needed skipId
  · exact ⟨m', hrun, fun m'' h => UInt64.not_lt.mpr hroom h.full, by rw [hok]⟩
  · exact ⟨m', hrun, fun m'' h => h.victim_ne_zero hzero, by rw [hfail]; rfl⟩
  · refine ⟨m', hrun, fun m'' h => ?_, by rw [hstuck]⟩
    obtain ⟨rec', p, hrec', -, hp, -⟩ := h.demotes
    cases hrec.symm.trans hrec'
    rw [haccel] at hp
    cases hp

/-- `makeRamRoomLocked` takes its steps until none is possible. -/
theorem makeRamRoomLocked_run (cx : ResidencyContext ρ σ α) (call : ResidencyCall ρ α)
    (m : ModelResidencyManager σ) (needed skipId : UInt64) :
    ∃ m', EvictionRun cx call needed skipId m m' ∧
      (∀ m'', ¬ EvictsLru cx call needed skipId m' m'') ∧
      (makeRamRoomLocked cx call m needed skipId).2.records = m'.records := by
  obtain ⟨m', hrun, ⟨hok, hfits⟩ | ⟨hfail, -, hzero⟩⟩ :=
    makeRamRoomLocked_spec cx call m needed skipId
  · exact ⟨m', hrun, fun m'' h => hfits h.full, by rw [hok]⟩
  · exact ⟨m', hrun, fun m'' h => h.victim_ne_zero hzero, by rw [hfail]; rfl⟩

/-! ## What happens to another region -/

/-- What a change does to the region `k`: it leaves it alone, or displaces it from `target`. -/
inductive Fate (target : ModelResidencyTarget) (k : UInt64) (displaced : Prop)
    (m m' : ModelResidencyManager σ) : Prop
  | kept (hkept : ¬ displaced) (hsame : m'.records.lookup k = m.records.lookup k)
  | lost (hlost : displaced) (hout : m'.isResident k target = false)
      (hdown : ∀ t, m'.isResident k t = true → m.isResident k t = true)

namespace Fate

variable {target : ModelResidencyTarget} {displaced : Prop}

/-- A change never makes another region resident. -/
theorem isResident_of (h : Fate target k displaced m m') {t : ModelResidencyTarget}
    (hres : m'.isResident k t = true) : m.isResident k t = true := by
  cases h with
  | kept _ hsame => rwa [isResident_congr hsame] at hres
  | lost _ _ hdown => exact hdown t hres

/-- Another region stays where it is exactly when it is not displaced. -/
theorem isResident_iff (h : Fate target k displaced m m') :
    m'.isResident k target = true ↔ m.isResident k target = true ∧ ¬ displaced := by
  cases h with
  | kept hkept hsame => rw [isResident_congr hsame, and_iff_left hkept]
  | lost hlost hout _ =>
    rw [hout]
    exact iff_of_false (by decide) fun h => h.2 hlost

/-- What is displaced from RAM is displaced from everywhere. -/
theorem of_ram (h : Fate .ram k displaced m m') : Fate target k displaced m m' := by
  cases h with
  | kept hkept hsame => exact .kept hkept hsame
  | lost hlost hout hdown => exact .lost hlost (isResident_of_not_ram hout target) hdown

/-- A later change that leaves the region alone. -/
theorem of_same {m'' : ModelResidencyManager σ} (h : Fate target k displaced m m')
    (hsame : m''.records.lookup k = m'.records.lookup k) : Fate target k displaced m m'' := by
  cases h with
  | kept hkept h => exact .kept hkept (hsame.trans h)
  | lost hlost hout hdown =>
    refine .lost hlost (by rw [isResident_congr hsame, hout]) fun t ht => hdown t ?_
    rwa [isResident_congr hsame] at ht

/-- Two changes, one after the other. -/
theorem trans {m'' : ModelResidencyManager σ} {displaced' : Prop} (h : Fate target k displaced m m')
    (h' : Fate target k displaced' m' m'') : Fate target k (displaced ∨ displaced') m m'' := by
  have hdown : ∀ t, m''.isResident k t = true → m.isResident k t = true :=
    fun t ht => h.isResident_of (h'.isResident_of ht)
  by_cases hres : m''.isResident k target = true
  · obtain ⟨hres', hnot'⟩ := h'.isResident_iff.mp hres
    have hnot := (h.isResident_iff.mp hres').2
    cases h with
    | kept hkept hsame =>
      cases h' with
      | kept hkept' hsame' => exact .kept (not_or.mpr ⟨hkept, hkept'⟩) (hsame'.trans hsame)
      | lost hlost' => exact absurd hlost' hnot'
    | lost hlost => exact absurd hlost hnot
  · cases h with
    | kept hkept hsame =>
      cases h' with
      | kept hkept' hsame' => exact .kept (not_or.mpr ⟨hkept, hkept'⟩) (hsame'.trans hsame)
      | lost hlost' hout' => exact .lost (.inr hlost') hout' hdown
    | lost hlost => exact .lost (.inl hlost) (Bool.eq_false_iff.mpr hres) hdown

/-- The same displacement, stated differently. -/
theorem congr {displaced' : Prop} (h : Fate target k displaced m m')
    (hiff : displaced ↔ displaced') :
    Fate target k displaced' m m' := by
  cases h with
  | kept hkept hsame => exact .kept (mt hiff.mpr hkept) hsame
  | lost hlost hout hdown => exact .lost (hiff.mp hlost) hout hdown

end Fate

/-- An eviction leaves every record but the one it picks. -/
theorem lookup_evictsLru (h : EvictsLru cx call needed skipId m m')
    (hk : m.pickLruLocked call .ram skipId ≠ k) :
    m'.records.lookup k = m.records.lookup k := by
  obtain ⟨rec, -, -, rfl⟩ := h.drops
  rw [lookup_dropRecord, if_neg (Ne.symm hk)]

/-- Making room in RAM drops the regions it picks. -/
theorem makeRamRoomLocked_fate :
    Fate .ram k (RamScanPicks cx call m needed skipId k) m
      (makeRamRoomLocked cx call m needed skipId).2 := by
  obtain ⟨m', hrun, hend, heq⟩ := makeRamRoomLocked_run cx call m needed skipId
  have hlookup : (makeRamRoomLocked cx call m needed skipId).2.records.lookup k =
      m'.records.lookup k := by rw [heq]
  refine Fate.of_same ?_ hlookup
  by_cases hpick : RamScanPicks cx call m needed skipId k
  · have hgone : m'.records.lookup k = none := by
      refine PickLoop.of_picks (P := fun m : ModelResidencyManager σ => m.records.lookup k = none)
        rightUnique_evictsLru ?_ ?_ hrun hend hpick
      · rintro m₁ m₂ hstep rfl
        obtain ⟨rec, -, -, rfl⟩ := hstep.drops
        rw [lookup_dropRecord, if_pos rfl]
      · intro m₁ m₂ hnone hstep
        obtain ⟨rec, -, -, rfl⟩ := hstep.drops
        rw [lookup_dropRecord, hnone, ite_self]
    refine .lost hpick (isResident_of_none hgone) fun t ht => ?_
    rw [isResident_of_none hgone] at ht
    cases ht
  · exact .kept hpick (PickLoop.eq_of_not_picks (f := fun m => m.records.lookup k)
      (fun _ _ => lookup_evictsLru) hrun hpick)

/-- A region that goes back to RAM, and the others. -/
theorem isResident_demotesLru {M : IAcceleratorMemory σ α} {t : ModelResidencyTarget}
    (h : DemotesLru M call needed skipId m m') (hres : m'.isResident k t = true) :
    m.isResident k t = true := by
  obtain ⟨rec, p, hrec, hcand, -, rfl⟩ := h.demotes
  by_cases hk : k = m.pickLruLocked call .accelerator skipId
  · have hstate := satisfies_of_candidate hcand
    simp only [ModelResidencyState.satisfies, decide_eq_true_eq] at hstate
    rw [hk, isResident_of_lookup hrec, hstate]
    cases t <;> rfl
  · rwa [isResident_congr (lookup_demote.trans (if_neg hk))] at hres

/-- Making room on the accelerator sends the regions it picks back to RAM. -/
theorem makeAccelRoomLocked_fate {M : IAcceleratorMemory σ α} :
    Fate .accelerator k (AccelScanPicks M call m needed skipId k) m
      (makeAccelRoomLocked M call m needed skipId).2 := by
  obtain ⟨m', hrun, hend, heq⟩ := makeAccelRoomLocked_run M call m needed skipId
  have hlookup : (makeAccelRoomLocked M call m needed skipId).2.records.lookup k =
      m'.records.lookup k := by rw [heq]
  refine Fate.of_same ?_ hlookup
  -- whether a scan picks the region decides its fate
  by_cases hpick : AccelScanPicks M call m needed skipId k
  · refine .lost hpick ?_ fun t ht => ?_
    · refine PickLoop.of_picks
        (P := fun m : ModelResidencyManager σ => m.isResident k .accelerator = false)
        rightUnique_demotesLru ?_ ?_ hrun hend hpick
      · rintro m₁ m₂ hstep rfl
        obtain ⟨rec, p, -, -, -, rfl⟩ := hstep.demotes
        exact (isResident_of_lookup (lookup_demote.trans (if_pos rfl))).trans rfl
      · intro m₁ m₂ hout hstep
        exact Bool.eq_false_iff.mpr fun hres => by
          rw [isResident_demotesLru hstep hres] at hout
          cases hout
    · revert ht
      clear hend heq hlookup
      induction hrun with
      | refl => exact id
      | tail _ hlast ih => exact fun ht => ih (isResident_demotesLru hlast ht)
  · refine .kept hpick (PickLoop.eq_of_not_picks (f := fun m => m.records.lookup k) ?_ hrun hpick)
    intro m₁ m₂ hstep hne
    obtain ⟨rec, p, -, -, -, rfl⟩ := hstep.demotes
    exact lookup_demote.trans (if_neg (Ne.symm hne))

/-! ## What a request displaces -/

/-- A scan of `loadToRamLocked` picks the region `k`. -/
def LoadPicks (cx : ResidencyContext ρ σ α) (call : ResidencyCall ρ α)
    (m : ModelResidencyManager σ) (id k : UInt64) : Prop :=
  call.cancelBeforeLoad = false ∧ RamScanPicks cx call m (m.recordAt id).region.size id k

/-- A scan of `uploadLocked` picks the region `k`. -/
def UploadPicks (cx : ResidencyContext ρ σ α) (call : ResidencyCall ρ α)
    (m : ModelResidencyManager σ) (id k : UInt64) : Prop :=
  ∃ M, cx.accelerator = some M ∧ M.isAvailable m.accelMemory = true ∧
    (m.recordAt id).ram.isSome = true ∧ call.cancelBeforeUpload = false ∧
    AccelScanPicks M call m (m.recordAt id).region.size id k

/-- A scan of `place` picks the region `k`. -/
def PlacePicks (cx : ResidencyContext ρ σ α) (call : ResidencyCall ρ α)
    (m : ModelResidencyManager σ) (id : UInt64) (target : ModelResidencyTarget)
    (k : UInt64) : Prop :=
  ((m.recordAt id).state.satisfies .ram = false ∧ LoadPicks cx call m id k) ∨
    (target = .accelerator ∧ (reachRam cx call m id).1 = .ok () ∧
      ((reachRam cx call m id).2.recordAt id).state.satisfies .accelerator = false ∧
      UploadPicks cx call (reachRam cx call m id).2 id k)

/-- A scan made for the request picks the region `k`: the request takes its place. -/
def Displaces (cx : ResidencyContext ρ σ α) (m : ModelResidencyManager σ) (region : ModelRegion)
    (target : ModelResidencyTarget) (call : ResidencyCall ρ α) (k : UInt64) : Prop :=
  let m := m.getOrCreateLocked region
  region.valid = true ∧ (m.recordAt region.id).state.satisfies target = false ∧
    (m.recordAt region.id).transferring = false ∧ PlacePicks cx call m region.id target k

/-- A change of the record of another region. -/
theorem Fate.of_records {target : ModelResidencyTarget} {displaced : Prop}
    (h : Fate target k displaced m m') {m'' : ModelResidencyManager σ} {rec' : Record}
    (hrecords : m''.records = m'.records.insert id rec') (hk : k ≠ id) :
    Fate target k displaced m m'' :=
  h.of_same (by rw [hrecords, AList.lookup_insert_ne hk])

/-- A load displaces another region exactly when a scan picks it. -/
theorem loadToRamLocked_fate (hkeys : m.KeysMatch) (hrec : m.records.lookup id = some rec)
    (hk : k ≠ id) :
    Fate .ram k (LoadPicks cx call m id k) m (loadToRamLocked cx call m id).2 := by
  have hid : rec.region.id = id := hkeys id rec hrec
  unfold loadToRamLocked LoadPicks
  rw [recordAt_of_lookup hrec, hid]
  split
  next hcancel => exact .kept (fun h => by rw [hcancel] at h; cases h.1) rfl
  next hcancel =>
    -- nothing behind the loop touches another region
    have hfate : Fate .ram k (call.cancelBeforeLoad = false ∧
        RamScanPicks cx call m rec.region.size id k) m
        (makeRamRoomLocked cx call m rec.region.size id).2 :=
      makeRamRoomLocked_fate.congr (and_iff_right (by simpa using hcancel)).symm
    split
    next f m₁ hroom =>
      rw [hroom] at hfate
      exact hfate
    next m₁ hroom =>
      rw [hroom] at hfate
      dsimp only
      split
      next => exact hfate.of_records rfl hk
      next =>
        split
        next => exact hfate.of_records rfl hk
        next => exact hfate.of_records rfl hk

/-- A transfer leaves the records of the other regions. -/
theorem lookup_transfer {M : IAcceleratorMemory σ α} {env : α} {uploading : Record} (hk : k ≠ id) :
    (m.transfer M env id uploading).2.records.lookup k = m.records.lookup k := by
  unfold transfer
  split
  next => exact AList.lookup_insert_ne hk
  next =>
    split
    next => exact AList.lookup_insert_ne hk
    next => exact AList.lookup_insert_ne hk

/-- An upload displaces another region exactly when a scan picks it. -/
theorem uploadLocked_fate (hkeys : m.KeysMatch) (hrec : m.records.lookup id = some rec)
    (hk : k ≠ id) :
    Fate .accelerator k (UploadPicks cx call m id k) m (uploadLocked cx call m id).2 := by
  have hid : rec.region.id = id := hkeys id rec hrec
  unfold uploadLocked UploadPicks
  rw [recordAt_of_lookup hrec, hid]
  cases hM : cx.accelerator with
  | none => exact .kept (fun ⟨M, h, _⟩ => by cases h) rfl
  | some M =>
    dsimp only
    split
    next hoff => exact .kept (fun ⟨M', h, hon, _⟩ => by cases h; exact hoff hon) rfl
    next hon =>
      split
      next hram =>
        refine .kept (fun ⟨M', h, _, hsome, _⟩ => ?_) rfl
        rw [Option.isSome_iff_ne_none, Option.isNone_iff_eq_none.mp hram] at hsome
        exact hsome rfl
      next hram =>
        split
        next hcancel =>
          exact .kept (fun ⟨M', h, _, _, hc, _⟩ => by rw [hcancel] at hc; cases hc) rfl
        next hcancel =>
          -- with the guards passed, the scans alone decide
          have hfate : Fate .accelerator k (∃ M', some M = some M' ∧
              M'.isAvailable m.accelMemory = true ∧ rec.ram.isSome = true ∧
              call.cancelBeforeUpload = false ∧
              AccelScanPicks M' call m rec.region.size id k) m
              (makeAccelRoomLocked M call m rec.region.size id).2 := by
            refine makeAccelRoomLocked_fate.congr ⟨fun h => ⟨M, rfl, ?_, ?_, ?_, h⟩, ?_⟩
            · simpa using hon
            · simpa [Option.isSome_iff_ne_none] using hram
            · simpa using hcancel
            · rintro ⟨M', heq, -, -, -, h⟩
              cases heq
              exact h
          split
          next f m₁ hroom =>
            rw [hroom] at hfate
            exact hfate
          next m₁ hroom =>
            rw [hroom] at hfate
            exact hfate.of_same (lookup_transfer hk)

/-- To bring a region to RAM displaces another one exactly when a scan picks it. -/
theorem reachRam_fate (hkeys : m.KeysMatch) (hrec : m.records.lookup id = some rec) (hk : k ≠ id) :
    Fate .ram k ((m.recordAt id).state.satisfies .ram = false ∧ LoadPicks cx call m id k) m
      (reachRam cx call m id).2 := by
  unfold reachRam
  split
  next hram => exact .kept (fun h => by rw [hram] at h; cases h.1) rfl
  next hram =>
    exact (loadToRamLocked_fate hkeys hrec hk).congr (and_iff_right (by simpa using hram)).symm

/-- To place a region displaces another one exactly when a scan picks it. -/
theorem place_fate (hkeys : m.KeysMatch) (hrec : m.records.lookup id = some rec) (hk : k ≠ id)
    (target : ModelResidencyTarget) :
    Fate target k (PlacePicks cx call m id target k) m (place cx call m id target).2 := by
  have hreach : Outcome cx m id rec.region .ram (reachRam cx call m id) :=
    reachRam_outcome hkeys hrec
  have hfate : Fate target k _ m (reachRam cx call m id).2 := (reachRam_fate hkeys hrec hk).of_ram
  rw [place_eq]
  unfold PlacePicks
  generalize hresult : reachRam cx call m id = result at hreach hfate ⊢
  obtain ⟨_ | _, m₁⟩ := result
  · -- the load has failed
    exact hfate.congr (or_iff_left fun h => by cases h.2.1).symm
  · cases target with
    | ram => exact hfate.congr (or_iff_left fun h => by cases h.1).symm
    | accelerator =>
      dsimp only at hfate ⊢
      split
      next haccel =>
        refine hfate.congr (or_iff_left fun h => ?_).symm
        rw [haccel] at h
        cases h.2.2.1
      next haccel =>
        obtain ⟨rec₁, hrec₁, -⟩ := hreach.tracks
        refine (hfate.trans (uploadLocked_fate (hkeys.steps hreach.steps) hrec₁ hk)).congr ?_
        simp [haccel]

/-- What a request does to another region: a region that no scan picks keeps its record, and one
that a scan picks is not resident in the target afterwards. -/
theorem ensureResident_fate (cx : ResidencyContext ρ σ α) (call : ResidencyCall ρ α)
    (hkeys : m.KeysMatch) {region : ModelRegion} (target : ModelResidencyTarget)
    (hk : k ≠ region.id) :
    Fate target k (Displaces cx m region target call k) m
      (m.ensureResident cx region target call).2 := by
  unfold ensureResident Displaces
  split
  next hvalid => exact .kept (fun h => hvalid h.1) rfl
  next hvalid =>
    rw [not_not] at hvalid
    obtain ⟨rec, hrec, -⟩ := lookup_getOrCreateLocked (m := m) region
    have hcreate : (m.getOrCreateLocked region).records.lookup k = m.records.lookup k :=
      lookup_getOrCreateLocked_of_ne hk
    have hsteps : ResidencySteps cx m (m.getOrCreateLocked region) :=
      (getOrCreateLocked_steps hvalid).1
    have hkeys₁ : (m.getOrCreateLocked region).KeysMatch := hkeys.steps hsteps
    dsimp only
    split
    next hres =>
      refine .kept (fun h => by rw [hres] at h; cases h.2.1) ?_
      exact (AList.lookup_insert_ne hk).trans hcreate
    next hres =>
      split
      next hbusy => exact .kept (fun h => by rw [hbusy] at h; cases h.2.2.1) hcreate
      next hidle =>
        have hfate : Fate target k (region.valid = true ∧
            ((m.getOrCreateLocked region).recordAt region.id).state.satisfies target = false ∧
            ((m.getOrCreateLocked region).recordAt region.id).transferring = false ∧
            PlacePicks cx call (m.getOrCreateLocked region) region.id target k)
            (m.getOrCreateLocked region)
            (place cx call (m.getOrCreateLocked region) region.id target).2 :=
          (place_fate hkeys₁ hrec hk target).congr (by simp [hvalid, hres, hidle])
        -- the new record displaces nothing
        have hstart : Fate target k False m (m.getOrCreateLocked region) := .kept id hcreate
        split
        next f m₁ hplace =>
          rw [hplace] at hfate
          exact (hstart.trans hfate).congr (or_iff_right id)
        next m₁ hplace =>
          rw [hplace] at hfate
          exact ((hstart.trans hfate).congr (or_iff_right id)).of_records rfl hk

end HeteroAccel.ModelResidencyManager
