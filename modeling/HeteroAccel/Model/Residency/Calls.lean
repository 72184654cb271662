import HeteroAccel.Model.Residency.Eviction

/-!
# The calls of the public interface

Every call but `unpin` and `releaseAll` is a sequence of elementary changes, so an invariant of
the manager is proved once for each elementary change.

## Main definitions

* `Outcome`: what a call that makes a region resident promises;
* `apply_steps`: each call is a sequence of elementary changes;
* `residency_invariant`: the induction rule for invariants of the manager.
-/

namespace HeteroAccel

open ModelResidencyManager

variable {ρ σ α : Type}

namespace ModelResidencyManager

variable {cx : ResidencyContext ρ σ α} {call : ResidencyCall ρ α}
  {m m' : ModelResidencyManager σ} {id : UInt64} {rec : Record}

/-! ## Loading and uploading -/

/-- The record of a region a call works on: the same region under the same id. -/
def Tracks (m : ModelResidencyManager σ) (id : UInt64) (region : ModelRegion) : Prop :=
  ∃ rec, m.records.lookup id = some rec ∧ rec.region = region

/-- What a call for one region promises: it is a sequence of elementary changes, it drops other
regions least recently used first, the record keeps its region, and success leaves it resident in
the target. -/
structure Outcome (cx : ResidencyContext ρ σ α) (m : ModelResidencyManager σ) (id : UInt64)
    (region : ModelRegion) (target : ModelResidencyTarget) (result : Result σ) : Prop where
  steps : ResidencySteps cx m result.2
  lru : LruDrops id m result.2
  tracks : result.2.Tracks id region
  resident : result.1 = .ok () →
    ∃ rec, result.2.records.lookup id = some rec ∧ rec.state.satisfies target = true

/-- A failure that only writes its text. -/
theorem Outcome.fail {target : ModelResidencyTarget} (hrec : m.records.lookup id = some rec)
    (f : ResidencyFailure) : Outcome cx m id rec.region target (m.fail f) where
  steps := .single (.note rfl rfl ⟨rfl, rfl⟩)
  lru := .of_lookup_eq fun _ _ => rfl
  tracks := ⟨rec, hrec, rfl⟩
  resident h := nomatch h

/-- The changes made before the call's own outcome. -/
theorem Outcome.trans {region : ModelRegion} {target : ModelResidencyTarget} {result : Result σ}
    (hsteps : ResidencySteps cx m m') (hlru : LruDrops id m m')
    (h : Outcome cx m' id region target result) : Outcome cx m id region target result :=
  { h with steps := hsteps.trans h.steps, lru := hlru.trans h.lru }

/-- What a load leaves of its own record. -/
theorem loadToRamLocked_outcome (hkeys : m.KeysMatch) (hrec : m.records.lookup id = some rec)
    (hstate : rec.state.satisfies .ram = false) :
    Outcome cx m id rec.region .ram (loadToRamLocked cx call m id) := by
  have hid : rec.region.id = id := hkeys id rec hrec
  unfold loadToRamLocked
  split
  next => exact .fail hrec _
  next =>
    rw [recordAt_of_lookup hrec, hid]
    -- the loop that makes room spares the region itself
    obtain ⟨m₁, hrun, hend⟩ := makeRamRoomLocked_spec cx call m rec.region.size id
    have hrec₁ : m₁.records.lookup id = some rec := hrun.lookup_skipId.trans hrec
    rcases hend with ⟨hok, hfits⟩ | ⟨hfail, -, -⟩
    · rw [hok]
      dsimp only
      rw [recordAt_of_lookup hrec₁]
      -- with room made: the allocation, then the read
      refine Outcome.trans hrun.toSteps hrun.lruDrops ?_
      split
      next =>
        have hstep : ResidencyStep cx m₁
            (m₁.loadFailed id rec (.ramAllocation rec.region.identifier)).2 :=
          .loadFailed _ hrec₁ hstate
        exact ⟨.single hstep, .of_insert rfl, ⟨_, AList.lookup_insert _, rfl⟩, nofun⟩
      next hhost =>
        have hgranted : m₁.ramOwned + rec.region.size.toNat ≤ cx.hostBytes := by
          simp only [hostNew, Bool.and_eq_true, decide_eq_true_eq, not_not] at hhost
          exact hhost.2
        cases hread : cx.source.read call.read rec.region.offset rec.region.size with
        | error text =>
          have hstep : ResidencyStep cx m₁ (m₁.loadFailed id rec (.source text)).2 :=
            .loadFailed _ hrec₁ hstate
          exact ⟨.single hstep, .of_insert rfl, ⟨_, AList.lookup_insert _, rfl⟩, nofun⟩
        | ok bytes =>
          have hstep : ResidencyStep cx m₁ (m₁.loaded id rec bytes) :=
            .loaded hrec₁ hstate hfits hgranted (cx.source.read_eq _ _ _ _ hread)
          exact ⟨.single hstep, .of_insert rfl, ⟨_, AList.lookup_insert _, rfl⟩,
            fun _ => ⟨_, AList.lookup_insert _, rfl⟩⟩
    · rw [hfail]
      exact Outcome.trans hrun.toSteps hrun.lruDrops (.fail hrec₁ _)

/-- What a transfer leaves of its own record. -/
theorem transfer_outcome {M : IAcceleratorMemory σ α} {env : α} (hM : cx.accelerator = some M)
    (hrec : m.records.lookup id = some rec) (hstate : rec.state = .residentInRam) :
    Outcome cx m id rec.region .accelerator (m.transfer M env id rec) := by
  unfold transfer
  split
  next a halloc =>
    -- the device refuses the allocation
    have hstep : ResidencyStep cx m
        (m.uploadFailed id rec M (M.allocate env m.accelMemory rec.region.size).2).2 :=
      .uploadRefused _ hM hrec hstate (by rw [halloc])
    rw [halloc] at hstep
    exact ⟨.single hstep, .of_insert rfl, ⟨_, AList.lookup_insert _, rfl⟩, nofun⟩
  next dst a halloc =>
    split
    next a' hupload =>
      have hstep : ResidencyStep cx m (m.uploadFailed id rec M
          (M.release (M.upload env (M.allocate env m.accelMemory rec.region.size).2
            (rec.ram.getD []) dst rec.region.size).2 dst)).2 :=
        .uploadAborted _ hM hrec hstate (by rw [halloc]) (by rw [halloc, hupload])
      rw [halloc, hupload] at hstep
      exact ⟨.single hstep, .of_insert rfl, ⟨_, AList.lookup_insert _, rfl⟩, nofun⟩
    next a' hupload =>
      have hstep : ResidencyStep cx m (m.uploaded id rec dst
          (M.upload env (M.allocate env m.accelMemory rec.region.size).2
            (rec.ram.getD []) dst rec.region.size).2) :=
        .uploaded _ hM hrec hstate (by rw [halloc]) (by rw [halloc, hupload])
      rw [halloc, hupload] at hstep
      exact ⟨.single hstep, .of_insert rfl, ⟨_, AList.lookup_insert _, rfl⟩,
        fun _ => ⟨_, AList.lookup_insert _, rfl⟩⟩

/-- What an upload leaves of its own record. -/
theorem uploadLocked_outcome (hkeys : m.KeysMatch) (hrec : m.records.lookup id = some rec)
    (hstate : rec.state = .residentInRam) :
    Outcome cx m id rec.region .accelerator (uploadLocked cx call m id) := by
  have hid : rec.region.id = id := hkeys id rec hrec
  have hcount : ResidencySteps cx m m.countFailure := .single (.note rfl rfl ⟨rfl, rfl⟩)
  have hsame : LruDrops id m m.countFailure := .of_lookup_eq fun _ _ => rfl
  have hrecCount : m.countFailure.records.lookup id = some rec := hrec
  unfold uploadLocked
  cases hM : cx.accelerator with
  | none => exact Outcome.trans hcount hsame (.fail hrecCount _)
  | some M =>
    dsimp only
    split
    next => exact Outcome.trans hcount hsame (.fail hrecCount _)
    next =>
      split
      next => exact Outcome.trans hcount hsame (.fail hrecCount _)
      next =>
        split
        next => exact .fail hrec _
        next =>
          rw [recordAt_of_lookup hrec, hid]
          obtain ⟨m₁, hrun, hend⟩ := makeAccelRoomLocked_spec M call m rec.region.size id
          have hrec₁ : m₁.records.lookup id = some rec := hrun.lookup_skipId.trans hrec
          rcases hend with ⟨hok, -⟩ | hfail | ⟨hstuck, -⟩
          · rw [hok]
            dsimp only
            rw [recordAt_of_lookup hrec₁]
            refine Outcome.trans (hrun.toSteps hM) hrun.lruDrops ?_
            exact transfer_outcome hM hrec₁ hstate
          · rw [hfail]
            exact Outcome.trans (hrun.toSteps hM) hrun.lruDrops (.fail hrec₁ _)
          · rw [hstuck]
            exact ⟨hrun.toSteps hM, hrun.lruDrops, ⟨rec, hrec₁, rfl⟩, nofun⟩

/-- The first step of `place`: the region is in RAM already, or it is loaded. -/
def reachRam (cx : ResidencyContext ρ σ α) (call : ResidencyCall ρ α)
    (m : ModelResidencyManager σ) (id : UInt64) : Result σ :=
  if (m.recordAt id).state.satisfies .ram then (.ok (), m) else loadToRamLocked cx call m id

/-- What is left of a record that was to be brought to RAM. -/
theorem reachRam_outcome (hkeys : m.KeysMatch) (hrec : m.records.lookup id = some rec) :
    Outcome cx m id rec.region .ram (reachRam cx call m id) := by
  unfold reachRam
  rw [recordAt_of_lookup hrec]
  split
  next hram => exact ⟨.refl, .refl m, ⟨rec, hrec, rfl⟩, fun _ => ⟨rec, hrec, hram⟩⟩
  next hram => exact loadToRamLocked_outcome hkeys hrec (by simpa using hram)

/-- `place`, by its two steps. -/
theorem place_eq (target : ModelResidencyTarget) :
    place cx call m id target = match reachRam cx call m id with
      | (.error f, m) => (.error f, m)
      | (.ok _, m) =>
        match target with
        | .ram => (.ok (), m)
        | .accelerator =>
          if (m.recordAt id).state.satisfies .accelerator then (.ok (), m)
          else uploadLocked cx call m id := rfl

/-- `place` leaves the region resident in the target, or fails. -/
theorem place_outcome (hkeys : m.KeysMatch) (hrec : m.records.lookup id = some rec)
    (target : ModelResidencyTarget) :
    Outcome cx m id rec.region target (place cx call m id target) := by
  -- after the first step the region is in RAM, or the call has failed
  have houtcome : Outcome cx m id rec.region .ram (reachRam cx call m id) :=
    reachRam_outcome hkeys hrec
  rw [place_eq]
  generalize reachRam cx call m id = loaded at houtcome
  obtain ⟨result, m₁⟩ := loaded
  cases result with
  | error f => exact ⟨houtcome.steps, houtcome.lru, houtcome.tracks, nofun⟩
  | ok _ =>
    cases target with
    | ram => exact houtcome
    | accelerator =>
      obtain ⟨rec₁, hrec₁, hregion⟩ := houtcome.tracks
      obtain ⟨rec₂, hrec₂, hram⟩ := houtcome.resident rfl
      rw [hrec₁] at hrec₂
      cases hrec₂
      have hkeys₁ : m₁.KeysMatch := hkeys.steps houtcome.steps
      dsimp only
      rw [recordAt_of_lookup hrec₁, ← hregion]
      refine Outcome.trans houtcome.steps houtcome.lru ?_
      split
      next haccel => exact ⟨.refl, .refl m₁, ⟨rec₁, hrec₁, rfl⟩, fun _ => ⟨rec₁, hrec₁, haccel⟩⟩
      next haccel =>
        refine uploadLocked_outcome hkeys₁ hrec₁ ?_
        simp only [ModelResidencyState.satisfies, Bool.or_eq_true, decide_eq_true_eq] at hram haccel
        exact hram.resolve_right haccel

/-! ## The public interface -/

/-- A region and the record the calls for it work on are created together. -/
theorem getOrCreateLocked_steps {region : ModelRegion} (hvalid : region.valid = true) :
    ResidencySteps cx m (m.getOrCreateLocked region) ∧
      LruDrops region.id m (m.getOrCreateLocked region) := by
  unfold getOrCreateLocked
  cases hrec : m.records.lookup region.id with
  | some rec => exact ⟨.refl, .refl m⟩
  | none => exact ⟨.single (.create hvalid hrec), .of_insert setRecord_records⟩

/-- A successful call marks its record at the end. -/
theorem Outcome.mark {region : ModelRegion} {target : ModelResidencyTarget}
    (h : Outcome cx m id region target (.ok (), m')) (lastUsed : ℕ) (prefetched : Bool) :
    Outcome cx m id region target
      (.ok (), m'.setRecord id { m'.recordAt id with lastUsed, prefetched }) := by
  obtain ⟨rec, hrec, hregion⟩ := h.tracks
  obtain ⟨rec', hrec', hsat⟩ := h.resident rfl
  cases hrec.symm.trans hrec'
  rw [recordAt_of_lookup hrec]
  exact ⟨h.steps.tail (.mark lastUsed rec.pins prefetched hrec le_rfl),
    h.lru.trans (.of_insert setRecord_records), ⟨_, AList.lookup_insert _, hregion⟩,
    fun _ => ⟨_, AList.lookup_insert _, hsat⟩⟩

/-- The region `ensureResident` and `prefetch` work on: the stored one, if the id has one. -/
def requested (m : ModelResidencyManager σ) (region : ModelRegion) : ModelRegion :=
  ((m.records.lookup region.id).getD { region }).region

/-- What a call of `ensureResident` on a valid region does. -/
theorem ensureResident_outcome (hkeys : m.KeysMatch) {region : ModelRegion}
    {target : ModelResidencyTarget} (hvalid : region.valid = true) :
    Outcome cx m region.id (m.requested region) target
      (m.ensureResident cx region target call) := by
  obtain ⟨rec, hrec, hfound⟩ := lookup_getOrCreateLocked (m := m) region
  obtain ⟨hcreate, hlru⟩ := getOrCreateLocked_steps (m := m) hvalid
  unfold requested
  rw [hfound]
  refine Outcome.trans hcreate hlru ?_
  unfold ensureResident
  rw [if_neg (by simp [hvalid])]
  dsimp only
  have hplace : Outcome cx (m.getOrCreateLocked region) region.id rec.region target
    (place cx call (m.getOrCreateLocked region) region.id target) :=
    place_outcome (hkeys.steps hcreate) hrec _
  split
  next hres =>
    rw [recordAt_of_lookup hrec] at hres
    exact Outcome.mark ⟨.refl, .refl _, ⟨rec, hrec, rfl⟩, fun _ => ⟨rec, hrec, hres⟩⟩ _ _
  next =>
    split
    next => exact .fail hrec _
    next =>
      split
      next f m₁ hres =>
        rw [hres] at hplace
        exact hplace
      next m₁ hres =>
        rw [hres] at hplace
        exact hplace.mark _ _

/-- What a call of `prefetch` on a valid region does. -/
theorem prefetch_outcome (hkeys : m.KeysMatch) {region : ModelRegion}
    {target : ModelResidencyTarget} (hvalid : region.valid = true)
    (henabled : m.prefetchEnabled = true) :
    Outcome cx m region.id (m.requested region) target (m.prefetch cx region target call) := by
  obtain ⟨rec, hrec, hfound⟩ := lookup_getOrCreateLocked (m := m) region
  obtain ⟨hcreate, hlru⟩ := getOrCreateLocked_steps (m := m) hvalid
  unfold requested
  rw [hfound]
  refine Outcome.trans hcreate hlru ?_
  unfold prefetch
  rw [if_neg (by simp [henabled]), if_neg (by simp [hvalid])]
  dsimp only
  split
  next hres =>
    rw [recordAt_of_lookup hrec] at hres
    exact ⟨.single (.note rfl rfl ⟨rfl, rfl⟩), .of_lookup_eq fun _ _ => rfl, ⟨rec, hrec, rfl⟩,
      fun _ => ⟨rec, hrec, hres⟩⟩
  next =>
    -- the miss is counted before anything else
    have hcount : ResidencySteps cx (m.getOrCreateLocked region)
      (m.getOrCreateLocked region).countMiss := .single (.note rfl rfl ⟨rfl, rfl⟩)
    have hsame : LruDrops region.id (m.getOrCreateLocked region)
      (m.getOrCreateLocked region).countMiss := .of_lookup_eq fun _ _ => rfl
    have hrec₁ : (m.getOrCreateLocked region).countMiss.records.lookup region.id = some rec := hrec
    have hplace : Outcome cx (m.getOrCreateLocked region).countMiss region.id rec.region target
      (place cx call (m.getOrCreateLocked region).countMiss region.id target) :=
      place_outcome ((hkeys.steps hcreate).steps hcount) hrec₁ _
    refine Outcome.trans hcount hsame ?_
    split
    next => exact ⟨.refl, .refl _, ⟨rec, hrec₁, rfl⟩, nofun⟩
    next =>
      split
      next f m₂ hres =>
        rw [hres] at hplace
        exact hplace
      next m₂ hres =>
        rw [hres] at hplace
        exact (hplace.mark (m₂.recordAt region.id).lastUsed true).mark _ _

/-- A call of `prefetch` that returns at once. -/
theorem prefetch_of_not_valid {region : ModelRegion} {target : ModelResidencyTarget}
    (h : ¬ (m.prefetchEnabled = true ∧ region.valid = true)) :
    (m.prefetch cx region target call).2 = m := by
  unfold prefetch
  by_cases henabled : m.prefetchEnabled = true
  · have hvalid : ¬ region.valid = true := fun hv => h ⟨henabled, hv⟩
    simp [henabled, hvalid]
  · simp [henabled]

/-- Every call but `unpin` and `releaseAll` is a sequence of elementary changes. -/
theorem apply_steps (hkeys : m.KeysMatch) (op : ResidencyOp ρ α)
    (hunpin : ∀ id, op ≠ .unpin id) (hrelease : ∀ order, op ≠ .releaseAll order) :
    ResidencySteps cx m (m.apply cx op) := by
  -- one case for each operation, apart from the two that are excluded
  cases op with
  | ensureResident region target call =>
    by_cases hvalid : region.valid = true
    · exact (ensureResident_outcome hkeys hvalid).steps
    · have hfail : m.ensureResident cx region target call = m.fail .invalidRegion := by
        simp [ensureResident, hvalid]
      change ResidencySteps cx m (m.ensureResident cx region target call).2
      rw [hfail]
      exact .single (.note rfl rfl ⟨rfl, rfl⟩)
  | prefetch region target call =>
    change ResidencySteps cx m (m.prefetch cx region target call).2
    by_cases h : m.prefetchEnabled = true ∧ region.valid = true
    · exact (prefetch_outcome hkeys h.2 h.1).steps
    · rw [prefetch_of_not_valid h]
  | pin id =>
    change ResidencySteps cx m (m.pin id)
    unfold pin
    cases hrec : m.records.lookup id with
    | none => exact .refl
    | some rec => exact .single (.mark rec.lastUsed (rec.pins + 1) rec.prefetched hrec (by omega))
  | unpin id => exact absurd rfl (hunpin id)
  | evict id =>
    change ResidencySteps cx m (m.evictLocked cx id).2
    unfold evictLocked
    cases hrec : m.records.lookup id with
    | none => exact .refl
    | some rec =>
      dsimp only
      split
      next => exact .refl
      next hbusy => exact .single (.drop hrec (by simpa using hbusy))
  | releaseAll order => exact absurd rfl (hrelease order)
  | setPrefetchEnabled enabled => exact .single (.note rfl rfl ⟨rfl, rfl⟩)

theorem KeysMatch.unpin (hkeys : m.KeysMatch) (id : UInt64) : (m.unpin id).KeysMatch := by
  unfold ModelResidencyManager.unpin
  cases hrec : m.records.lookup id with
  | none => exact hkeys
  | some rec =>
    dsimp only
    split
    next => exact hkeys.of_insert setRecord_records (hkeys _ _ hrec :)
    next => exact hkeys

end ModelResidencyManager

/-- An invariant of the manager holds initially and survives each elementary change, `unpin` and
`releaseAll`. -/
theorem residency_invariant {cx : ResidencyContext ρ σ α} {accelMemory : σ}
    {guard : ModelResidencyManager σ → ResidencyOp ρ α → Prop} {P : ModelResidencyManager σ → Prop}
    (hinit : P (.construct accelMemory))
    (hstep : ∀ m m', m.KeysMatch → P m → ResidencyStep cx m m' → P m')
    (hunpin : ∀ m id, P m → P (m.unpin id))
    (hrelease : ∀ m order, P m → P (m.releaseAll cx order))
    {m : ModelResidencyManager σ} (hreach : (residencySystem cx accelMemory).Reachable guard m) :
    m.KeysMatch ∧ P m := by
  refine hreach.invariant (P := fun m => m.KeysMatch ∧ P m) ?_ ?_
  · rintro m rfl
    exact ⟨nofun, hinit⟩
  · rintro m op m' ⟨hkeys, hP⟩ - rfl
    by_cases hu : ∃ id, op = .unpin id
    · obtain ⟨id, rfl⟩ := hu
      exact ⟨hkeys.unpin id, hunpin m id hP⟩
    · by_cases hr : ∃ order, op = .releaseAll order
      · obtain ⟨order, rfl⟩ := hr
        exact ⟨nofun, hrelease m order hP⟩
      · have hsteps : ResidencySteps cx m (m.apply cx op) :=
          apply_steps hkeys op (fun id h => hu ⟨id, h⟩) (fun order h => hr ⟨order, h⟩)
        exact TransitionSystem.preserves_reflTransGen (P := fun m => m.KeysMatch ∧ P m)
          (fun m m' h hs => ⟨h.1.step hs, hstep m m' h.1 h.2 hs⟩) hsteps ⟨hkeys, hP⟩

/-- The state after a list of calls is reachable. -/
theorem reachable_foldl (cx : ResidencyContext ρ σ α) (accelMemory : σ)
    (ops : List (ResidencyOp ρ α)) :
    (residencySystem cx accelMemory).Reachable TransitionSystem.anyCall
      (ops.foldl (apply cx) (construct accelMemory)) := by
  induction ops using List.reverseRecOn with
  | nil => exact .init rfl
  | append_singleton ops op ih =>
    rw [List.foldl_append]
    exact ih.step trivial rfl

end HeteroAccel
