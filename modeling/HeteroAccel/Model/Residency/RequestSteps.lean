import HeteroAccel.Model.Residency.Displacement

/-!
# A request, scan by scan

`ensureResident` changes other regions only through the scans that make room for its own: one scan
of `makeRamRoomLocked` drops a region, one of `makeAccelRoomLocked` sends a region back to RAM.
Everything else it does concerns the record of its own region, once this has been created.

## Main definitions

* `Record.Continues`: what a request does not change of the record of its own region;
* `RequestStep`: one such change, with what the code checked before it.

## Main results

* `ensureResident_requestSteps`: a request is a sequence of them.
-/

namespace HeteroAccel

open ModelResidencyManager

variable {ρ σ α : Type} {cx : ResidencyContext ρ σ α} {call : ResidencyCall ρ α}
  {target : ModelResidencyTarget} {m m' : ModelResidencyManager σ} {id : UInt64} {rec : Record}

/-- A record after a change that its own request made: the region is the same, as often pinned, and
resident wherever it was. -/
structure Record.Continues (rec rec' : Record) : Prop where
  region : rec'.region = rec.region
  pins : rec'.pins = rec.pins
  resident : ∀ t, rec.state.satisfies t = true → rec'.state.satisfies t = true

theorem Record.Continues.refl (rec : Record) : rec.Continues rec := ⟨rfl, rfl, fun _ => id⟩

namespace ModelResidencyManager

/-- One change that a request for the region `id` makes. -/
inductive RequestStep (cx : ResidencyContext ρ σ α) (call : ResidencyCall ρ α)
    (target : ModelResidencyTarget) (id : UInt64) :
    ModelResidencyManager σ → ModelResidencyManager σ → Prop
  /-- To load its region, it drops another one. -/
  | evict {m m' : ModelResidencyManager σ} {rec : Record} (hrec : m.records.lookup id = some rec)
      (hout : rec.state.satisfies .ram = false)
      (hscan : EvictsLru cx call rec.region.size id m m') : RequestStep cx call target id m m'
  /-- To upload its region, it sends another one back to RAM. -/
  | demote {m m' : ModelResidencyManager σ} {M : IAcceleratorMemory σ α} {rec : Record}
      (htarget : target = .accelerator) (hM : cx.accelerator = some M)
      (hrec : m.records.lookup id = some rec) (hout : rec.state.satisfies .accelerator = false)
      (hscan : DemotesLru M call rec.region.size id m m') : RequestStep cx call target id m m'
  /-- It changes the record of its own region. -/
  | own {m m' : ModelResidencyManager σ} (hsteps : ResidencySteps cx m m')
      (hothers : ∀ k, k ≠ id → m'.records.lookup k = m.records.lookup k)
      (hown : ∀ rec, m.records.lookup id = some rec →
        ∃ rec', m'.records.lookup id = some rec' ∧ rec.Continues rec') :
      RequestStep cx call target id m m'

/-- The changes that a request for the region `id` makes, one after the other. -/
abbrev RequestSteps (cx : ResidencyContext ρ σ α) (call : ResidencyCall ρ α)
    (target : ModelResidencyTarget) (id : UInt64) :
    ModelResidencyManager σ → ModelResidencyManager σ → Prop :=
  Relation.ReflTransGen (RequestStep cx call target id)

/-- Each change of a request is made of elementary changes. -/
theorem RequestStep.steps (h : RequestStep cx call target id m m') : ResidencySteps cx m m' := by
  cases h with
  | evict _ _ hscan => exact .single hscan.toStep
  | demote _ hM _ _ hscan =>
    obtain ⟨rec, p, hrec, hcand, hp, rfl⟩ := hscan.demotes
    have hstate := satisfies_of_candidate hcand
    simp only [ModelResidencyState.satisfies, decide_eq_true_eq] at hstate
    exact .single (.demote hM hrec (busy_of_candidate hcand) hstate hp)
  | own hsteps => exact hsteps

/-- So is a request. -/
theorem RequestSteps.steps (h : RequestSteps cx call target id m m') : ResidencySteps cx m m' := by
  induction h with
  | refl => exact .refl
  | tail _ hlast ih => exact ih.trans hlast.steps

/-- The record of the request's region stays that of the region. -/
theorem RequestStep.tracks {region : ModelRegion} (h : RequestStep cx call target id m m')
    (htracks : m.Tracks id region) : m'.Tracks id region := by
  obtain ⟨rec, hrec, rfl⟩ := htracks
  cases h with
  | evict _ _ hscan =>
    exact ⟨rec, (EvictionRun.lookup_skipId (.single hscan)).trans hrec, rfl⟩
  | demote _ _ _ _ hscan =>
    exact ⟨rec, (DemotionRun.lookup_skipId (.single hscan.toDemotes)).trans hrec, rfl⟩
  | own _ _ hown =>
    obtain ⟨rec', hrec', hcontinues⟩ := hown rec hrec
    exact ⟨rec', hrec', hcontinues.region⟩

/-- So it does after all changes. -/
theorem RequestSteps.tracks {region : ModelRegion} (h : RequestSteps cx call target id m m')
    (htracks : m.Tracks id region) : m'.Tracks id region := by
  induction h with
  | refl => exact htracks
  | tail _ hlast ih => exact hlast.tracks ih

/-- A change never makes another region resident. -/
theorem RequestStep.isResident_of {k : UInt64} {t : ModelResidencyTarget} (hk : k ≠ id)
    (h : RequestStep cx call target id m m') (hres : m'.isResident k t = true) :
    m.isResident k t = true := by
  cases h with
  | evict _ _ hscan =>
    obtain ⟨rec, -, -, rfl⟩ := hscan.drops
    by_cases hvictim : k = m.pickLruLocked call .ram id
    · rw [isResident_of_none (lookup_dropRecord.trans (if_pos hvictim))] at hres
      cases hres
    · rwa [isResident_congr (lookup_dropRecord.trans (if_neg hvictim))] at hres
  | demote _ _ _ _ hscan => exact isResident_demotesLru hscan hres
  | own _ hothers => rwa [isResident_congr (hothers k hk)] at hres

/-- Nor do the changes of a request. -/
theorem RequestSteps.isResident_of {k : UInt64} {t : ModelResidencyTarget} (hk : k ≠ id)
    (h : RequestSteps cx call target id m m') (hres : m'.isResident k t = true) :
    m.isResident k t = true := by
  induction h with
  | refl => exact hres
  | tail _ hlast ih => exact ih (hlast.isResident_of hk hres)

/-! ## The parts of a request -/

/-- A change of the request's own record. -/
theorem RequestSteps.of_insert {rec' : Record} (hrec : m.records.lookup id = some rec)
    (hstep : ResidencyStep cx m m') (hrecords : m'.records = m.records.insert id rec')
    (hcontinues : rec.Continues rec') : RequestSteps cx call target id m m' := by
  refine .single (.own (.single hstep) (fun k hk => ?_) fun rec₁ hrec₁ => ?_)
  · rw [hrecords, AList.lookup_insert_ne hk]
  · cases hrec.symm.trans hrec₁
    exact ⟨rec', by rw [hrecords, AList.lookup_insert], hcontinues⟩

/-- A change of no record. -/
theorem RequestSteps.of_records (hstep : ResidencyStep cx m m')
    (hrecords : m'.records = m.records) : RequestSteps cx call target id m m' := by
  refine .single (.own (.single hstep) (fun k _ => by rw [hrecords]) fun rec hrec => ?_)
  exact ⟨rec, by rw [hrecords, hrec], .refl rec⟩

/-- An error text is written. -/
theorem RequestSteps.fail (f : ResidencyFailure) :
    RequestSteps cx call target id m (m.fail f).2 :=
  RequestSteps.of_records (.note rfl rfl ⟨rfl, rfl⟩) rfl

/-- The evictions for a region that is not in RAM are steps of a request. -/
theorem EvictionRun.requestSteps (hrec : m.records.lookup id = some rec)
    (hout : rec.state.satisfies .ram = false) (h : EvictionRun cx call rec.region.size id m m') :
    RequestSteps cx call target id m m' := by
  induction h with
  | refl => exact .refl
  | tail hrun hlast ih =>
    exact ih.tail (.evict ((EvictionRun.lookup_skipId hrun).trans hrec) hout hlast)

theorem DemotionsLru.lookup_skipId {M : IAcceleratorMemory σ α} {needed : UInt64}
    (h : DemotionsLru M call needed id m m') : m'.records.lookup id = m.records.lookup id :=
  DemotionRun.lookup_skipId (Relation.ReflTransGen.mono (fun _ _ => DemotesLru.toDemotes) _ _ h)

/-- The demotions for a region that is not on the accelerator are steps of a request. -/
theorem DemotionsLru.requestSteps {M : IAcceleratorMemory σ α} (hM : cx.accelerator = some M)
    (hrec : m.records.lookup id = some rec) (hout : rec.state.satisfies .accelerator = false)
    (h : DemotionsLru M call rec.region.size id m m') :
    RequestSteps cx call .accelerator id m m' := by
  induction h with
  | refl => exact .refl
  | tail hrun hlast ih =>
    exact ih.tail (.demote rfl hM ((DemotionsLru.lookup_skipId hrun).trans hrec) hout hlast)

/-- A load is a sequence of steps of a request. -/
theorem loadToRamLocked_requestSteps (hkeys : m.KeysMatch) (hrec : m.records.lookup id = some rec)
    (hout : rec.state.satisfies .ram = false) :
    RequestSteps cx call target id m (loadToRamLocked cx call m id).2 := by
  have hid : rec.region.id = id := hkeys id rec hrec
  unfold loadToRamLocked
  rw [recordAt_of_lookup hrec, hid]
  split
  next => exact RequestSteps.fail _
  next =>
    obtain ⟨m₁, hrun, ⟨hok, hfits⟩ | ⟨hfail, -, -⟩⟩ :=
      makeRamRoomLocked_spec cx call m rec.region.size id
    · have hrec₁ : m₁.records.lookup id = some rec := hrun.lookup_skipId.trans hrec
      -- the record of a load that fails was not in RAM before
      have hnone : ∀ t, rec.state.satisfies t ≠ true := fun t hres =>
        Bool.eq_false_iff.mp hout (ModelResidencyState.satisfies_ram hres)
      have hfails : rec.Continues { rec with state := .error, transferring := false } :=
        ⟨rfl, rfl, fun t hres => absurd hres (hnone t)⟩
      rw [hok]
      dsimp only
      rw [recordAt_of_lookup hrec₁]
      refine (hrun.requestSteps hrec hout).trans ?_
      split
      next =>
        have hstep : ResidencyStep cx m₁
            (m₁.loadFailed id rec (.ramAllocation rec.region.identifier)).2 :=
          .loadFailed _ hrec₁ hout
        exact RequestSteps.of_insert hrec₁ hstep rfl hfails
      next hhost =>
        have hgranted : m₁.ramOwned + rec.region.size.toNat ≤ cx.hostBytes := by
          simp only [hostNew, Bool.and_eq_true, decide_eq_true_eq, not_not] at hhost
          exact hhost.2
        cases hread : cx.source.read call.read rec.region.offset rec.region.size with
        | error text =>
          have hstep : ResidencyStep cx m₁ (m₁.loadFailed id rec (.source text)).2 :=
            .loadFailed _ hrec₁ hout
          exact RequestSteps.of_insert hrec₁ hstep rfl hfails
        | ok bytes =>
          have hstep : ResidencyStep cx m₁ (m₁.loaded id rec bytes) :=
            .loaded hrec₁ hout hfits hgranted (cx.source.read_eq _ _ _ _ hread)
          exact RequestSteps.of_insert hrec₁ hstep rfl
            ⟨rfl, rfl, fun t hres => absurd hres (hnone t)⟩
    · rw [hfail]
      exact (hrun.requestSteps hrec hout).trans (RequestSteps.fail _)

/-- Whether or not the transfer succeeds, its region is in RAM. -/
theorem lookup_transfer_self {M : IAcceleratorMemory σ α} {env : α}
    (hstate : rec.state = .residentInRam) :
    ∃ rec', (m.transfer M env id rec).2.records.lookup id = some rec' ∧ rec.Continues rec' := by
  unfold transfer
  split
  next => exact ⟨_, AList.lookup_insert _, rfl, rfl, fun t hres => hstate ▸ hres⟩
  next =>
    split
    next => exact ⟨_, AList.lookup_insert _, rfl, rfl, fun t hres => hstate ▸ hres⟩
    next =>
      refine ⟨_, AList.lookup_insert _, rfl, rfl, fun t _ => ?_⟩
      cases t <;> rfl

/-- A transfer is a sequence of steps of a request. -/
theorem transfer_requestSteps {M : IAcceleratorMemory σ α} {env : α} (hM : cx.accelerator = some M)
    (hrec : m.records.lookup id = some rec) (hstate : rec.state = .residentInRam) :
    RequestSteps cx call .accelerator id m (m.transfer M env id rec).2 := by
  have houtcome : Outcome cx m id rec.region .accelerator (m.transfer M env id rec) :=
    transfer_outcome hM hrec hstate
  refine .single (.own houtcome.steps (fun k hk => lookup_transfer hk) fun rec₁ hrec₁ => ?_)
  cases hrec.symm.trans hrec₁
  exact lookup_transfer_self hstate

/-- An upload is a sequence of steps of a request. -/
theorem uploadLocked_requestSteps (hkeys : m.KeysMatch) (hrec : m.records.lookup id = some rec)
    (hstate : rec.state = .residentInRam) :
    RequestSteps cx call .accelerator id m (uploadLocked cx call m id).2 := by
  have hid : rec.region.id = id := hkeys id rec hrec
  have hout : rec.state.satisfies .accelerator = false := by
    simp [ModelResidencyState.satisfies, hstate]
  have hcount : RequestSteps cx call .accelerator id m m.countFailure :=
    RequestSteps.of_records (.note rfl rfl ⟨rfl, rfl⟩) rfl
  unfold uploadLocked
  rw [recordAt_of_lookup hrec, hid]
  split
  next => exact hcount.trans (RequestSteps.fail _)
  next M hM =>
    split
    next => exact hcount.trans (RequestSteps.fail _)
    next =>
      split
      next => exact hcount.trans (RequestSteps.fail _)
      next =>
        split
        next => exact RequestSteps.fail _
        next =>
          -- the guards are passed: the demotions, then the transfer
          obtain ⟨m₁, hrun, ⟨hok, -⟩ | ⟨hfail, -, -⟩ | ⟨hstuck, -, -⟩⟩ :=
            makeAccelRoomLocked_lru M call m rec.region.size id
          · have hrec₁ : m₁.records.lookup id = some rec :=
              (DemotionsLru.lookup_skipId hrun).trans hrec
            rw [hok]
            dsimp only
            rw [recordAt_of_lookup hrec₁]
            have htransfer : RequestSteps cx call .accelerator id m₁
                (m₁.transfer M call.accel id rec).2 := transfer_requestSteps hM hrec₁ hstate
            exact (DemotionsLru.requestSteps hM hrec hout hrun).trans htransfer
          · rw [hfail]
            exact (DemotionsLru.requestSteps hM hrec hout hrun).trans (RequestSteps.fail _)
          · rw [hstuck]
            exact DemotionsLru.requestSteps hM hrec hout hrun

/-- To bring a region to RAM is a sequence of steps of a request. -/
theorem reachRam_requestSteps (hkeys : m.KeysMatch) (hrec : m.records.lookup id = some rec) :
    RequestSteps cx call target id m (reachRam cx call m id).2 := by
  unfold reachRam
  rw [recordAt_of_lookup hrec]
  split
  next => exact .refl
  next hout => exact loadToRamLocked_requestSteps hkeys hrec (by simpa using hout)

/-- To place a region is a sequence of steps of a request. -/
theorem place_requestSteps (hkeys : m.KeysMatch) (hrec : m.records.lookup id = some rec) :
    RequestSteps cx call target id m (place cx call m id target).2 := by
  have hreach : RequestSteps cx call target id m (reachRam cx call m id).2 :=
    reachRam_requestSteps hkeys hrec
  have houtcome : Outcome cx m id rec.region .ram (reachRam cx call m id) :=
    reachRam_outcome hkeys hrec
  rw [place_eq]
  generalize reachRam cx call m id = result at hreach houtcome
  obtain ⟨_ | _, m₁⟩ := result
  · exact hreach
  · obtain ⟨rec₁, hrec₁, hram⟩ := houtcome.resident rfl
    cases target with
    | ram => exact hreach
    | accelerator =>
      dsimp only
      rw [recordAt_of_lookup hrec₁]
      split
      next => exact hreach
      next haccel =>
        refine hreach.trans (uploadLocked_requestSteps (hkeys.steps houtcome.steps) hrec₁ ?_)
        simp only [ModelResidencyState.satisfies, Bool.or_eq_true, decide_eq_true_eq] at hram haccel
        exact hram.resolve_right haccel

/-- The last thing a request does is to mark its record. -/
theorem touch_requestSteps {now : ℕ} (hrec : m.records.lookup id = some rec) :
    RequestSteps cx call target id m (m.touch id now) := by
  have hstep : ResidencyStep cx m (m.setRecord id { rec with lastUsed := now }) :=
    .mark now rec.pins rec.prefetched hrec le_rfl
  rw [touch, recordAt_of_lookup hrec]
  exact RequestSteps.of_insert hrec hstep rfl ⟨rfl, rfl, fun _ hres => hres⟩

/-- The record that is looked up for a region does not make it resident. -/
theorem isResident_getOrCreateLocked {region : ModelRegion} (target : ModelResidencyTarget) :
    (m.getOrCreateLocked region).isResident region.id target = m.isResident region.id target := by
  unfold getOrCreateLocked
  cases hrec : m.records.lookup region.id with
  | some rec => rfl
  | none =>
    rw [isResident_of_none hrec, isResident_of_lookup (AList.lookup_insert _)]
    cases target <;> rfl

/-- A request is only granted for a valid region. -/
theorem valid_of_ensureResident {region : ModelRegion}
    (hok : (m.ensureResident cx region target call).1 = .ok ()) : region.valid = true := by
  unfold ensureResident at hok
  split at hok
  next => cases hok
  next hvalid => exact not_not.mp hvalid

/-- A request for a valid region, after its record has been looked up. -/
theorem ensureResident_requestSteps (hkeys : m.KeysMatch) {region : ModelRegion}
    (hvalid : region.valid = true) :
    RequestSteps cx call target region.id (m.getOrCreateLocked region)
      (m.ensureResident cx region target call).2 := by
  obtain ⟨rec, hrec, -⟩ := lookup_getOrCreateLocked (m := m) region
  have hcreate : ResidencySteps cx m (m.getOrCreateLocked region) :=
    (getOrCreateLocked_steps hvalid).1
  have hkeys₁ : (m.getOrCreateLocked region).KeysMatch := hkeys.steps hcreate
  have hplace : RequestSteps cx call target region.id (m.getOrCreateLocked region)
      (place cx call (m.getOrCreateLocked region) region.id target).2 :=
    place_requestSteps hkeys₁ hrec
  have houtcome : Outcome cx (m.getOrCreateLocked region) region.id rec.region target
      (place cx call (m.getOrCreateLocked region) region.id target) :=
    place_outcome hkeys₁ hrec target
  unfold ensureResident
  rw [if_neg (by simp [hvalid])]
  dsimp only
  split
  next => exact touch_requestSteps hrec
  next =>
    -- a record in the middle of a transfer is refused
    split
    next => exact RequestSteps.fail _
    next =>
      generalize place cx call (m.getOrCreateLocked region) region.id target = result
        at hplace houtcome ⊢
      obtain ⟨_ | _, m₁⟩ := result
      · exact hplace
      · obtain ⟨rec₁, hrec₁, -⟩ := houtcome.tracks
        exact hplace.trans (touch_requestSteps hrec₁)

end ModelResidencyManager

end HeteroAccel
