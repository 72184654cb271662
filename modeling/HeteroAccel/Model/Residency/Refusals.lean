import HeteroAccel.Model.Residency.AcceleratorBudget
import HeteroAccel.Model.Residency.RequestSteps

/-!
# Why a request is refused

A request for a valid region is refused only for a reason that lies in what it meets: the cancel
flag is set, a scan finds no region whose place it could take, or the host, the file or the
accelerator does not answer as it should. What the manager itself keeps is never the reason.

## Main definitions

* `Reaches`: the managers that a request goes through before it uploads;
* `Refusal`: what a refused request met;
* `MemoryAfter`: what a request leaves of the accelerator memory.

## Main results

* `ensureResident_refusal`: a refused request met one of these, and one that is granted has given
  buffers back and filled at most one.
-/

namespace HeteroAccel

variable {ρ σ α : Type}

/-- The memory after some buffers have been given back. -/
abbrev IAcceleratorMemory.Released (M : IAcceleratorMemory σ α) : σ → σ → Prop :=
  Relation.ReflTransGen fun s s' => ∃ p, s' = M.release s p

/-- The memory after some buffers have been given back and at most one has been filled. -/
inductive IAcceleratorMemory.MemoryAfter (M : IAcceleratorMemory σ α) (env : α) (s : σ) : σ → Prop
  /-- No buffer was asked for. -/
  | released {s' : σ} (h : M.Released s s') : M.MemoryAfter env s s'
  /-- A buffer was granted and filled. -/
  | uploaded {s' : σ} {n : UInt64} {p : ℕ} {src : List UInt8} (h : M.Released s s') (hpos : n ≠ 0)
      (hroom : n ≤ M.available s') (hgrant : (M.allocate env s' n).1 = some p)
      (hsrc : src.length = n.toNat) :
      M.MemoryAfter env s (M.upload env (M.allocate env s' n).2 src p n).2

/-- Buffers may be given back before. -/
theorem IAcceleratorMemory.MemoryAfter.of_released {M : IAcceleratorMemory σ α} {env : α}
    {s s₁ s₂ : σ} (h : M.Released s s₁) (h' : M.MemoryAfter env s₁ s₂) :
    M.MemoryAfter env s s₂ := by
  cases h' with
  | released h' => exact .released (h.trans h')
  | uploaded h' hpos hroom hgrant hsrc => exact .uploaded (h.trans h') hpos hroom hgrant hsrc

namespace ModelResidencyManager

variable {cx : ResidencyContext ρ σ α} {call : ResidencyCall ρ α}
  {target : ModelResidencyTarget} {m m' m'' : ModelResidencyManager σ} {id : UInt64} {rec : Record}

/-! ## The managers a request goes through -/

/-- What a request for the region `id` may have done before it uploads. -/
structure Reaches (cx : ResidencyContext ρ σ α) (call : ResidencyCall ρ α)
    (target : ModelResidencyTarget) (id : UInt64) (m m' : ModelResidencyManager σ) : Prop where
  steps : RequestSteps cx call target id m m'
  released : ∀ M, cx.accelerator = some M → M.Released m.accelMemory m'.accelMemory

theorem Reaches.refl (m : ModelResidencyManager σ) : Reaches cx call target id m m :=
  ⟨.refl, fun _ _ => .refl⟩

/-- A request goes through its managers step by step. -/
theorem Reaches.trans (h : Reaches cx call target id m m') (h' : Reaches cx call target id m' m'') :
    Reaches cx call target id m m'' :=
  ⟨h.steps.trans h'.steps, fun M hM => (h.released M hM).trans (h'.released M hM)⟩

/-- Dropping regions gives their buffers back. -/
theorem EvictionRun.released {M : IAcceleratorMemory σ α} {needed : UInt64}
    (hM : cx.accelerator = some M) (h : EvictionRun cx call needed id m m') :
    M.Released m.accelMemory m'.accelMemory := by
  induction h with
  | refl => exact .refl
  | tail _ hlast ih =>
    obtain ⟨rec, -, -, rfl⟩ := hlast.drops
    rw [dropRecord_accelMemory, hM]
    cases rec.accel with
    | none => exact ih
    | some p => exact ih.tail ⟨p, rfl⟩

/-- So does sending them back to RAM. -/
theorem DemotionsLru.released {M : IAcceleratorMemory σ α} {needed : UInt64}
    (h : DemotionsLru M call needed id m m') : M.Released m.accelMemory m'.accelMemory := by
  induction h with
  | refl => exact .refl
  | tail _ hlast ih =>
    obtain ⟨rec, p, -, -, -, rfl⟩ := hlast.demotes
    exact ih.tail ⟨p, rfl⟩

/-- A request goes through the evictions for its region. -/
theorem EvictionRun.reaches (hrec : m.records.lookup id = some rec)
    (hout : rec.state.satisfies .ram = false) (h : EvictionRun cx call rec.region.size id m m') :
    Reaches cx call target id m m' :=
  ⟨h.requestSteps hrec hout, fun _ hM => h.released hM⟩

/-! ## Refusals -/

/-- What a refused request for the region `id` met. -/
inductive Refusal (cx : ResidencyContext ρ σ α) (call : ResidencyCall ρ α)
    (target : ModelResidencyTarget) (id : UInt64) (m : ModelResidencyManager σ) : Prop
  /-- The cancel flag was set when the load began. -/
  | cancelledLoad (hcancel : call.cancelBeforeLoad = true)
  /-- There is too little room in RAM, and no region whose place can be taken. -/
  | ramFull {m' : ModelResidencyManager σ} {rec : Record} (hreach : Reaches cx call target id m m')
      (hrec : m'.records.lookup id = some rec) (hout : rec.state.satisfies .ram = false)
      (hfull : m'.telemetry.residentRamBytes + rec.region.size > cx.budget.ramBytes)
      (hnone : m'.pickLruLocked call .ram id = 0)
  /-- The host has no memory for the buffer. -/
  | hostFull {m' : ModelResidencyManager σ} {rec : Record} (hreach : Reaches cx call target id m m')
      (hrec : m'.records.lookup id = some rec) (hout : rec.state.satisfies .ram = false)
      (hfits : ¬ m'.telemetry.residentRamBytes + rec.region.size > cx.budget.ramBytes)
      (hhost : m'.hostNew cx call rec.region.size = false)
  /-- The file cannot be read. -/
  | unread {m' : ModelResidencyManager σ} {rec : Record} (hreach : Reaches cx call target id m m')
      (hrec : m'.records.lookup id = some rec) (hout : rec.state.satisfies .ram = false)
      (hread : ∀ bytes,
        cx.source.read call.read rec.region.offset rec.region.size ≠ .ok bytes)
  /-- There is no accelerator. -/
  | noAccelerator (htarget : target = .accelerator) (hnone : cx.accelerator = none)
  /-- The accelerator is not available. -/
  | unavailable {M : IAcceleratorMemory σ α} {m' : ModelResidencyManager σ}
      (htarget : target = .accelerator) (hM : cx.accelerator = some M)
      (hreach : Reaches cx call target id m m') (havail : M.isAvailable m'.accelMemory = false)
  /-- The cancel flag was set when the upload began. -/
  | cancelledUpload (htarget : target = .accelerator) (hcancel : call.cancelBeforeUpload = true)
  /-- There is too little room on the accelerator, and no region whose place can be taken. -/
  | accelFull {M : IAcceleratorMemory σ α} {m' : ModelResidencyManager σ} {rec : Record}
      (htarget : target = .accelerator) (hM : cx.accelerator = some M)
      (hreach : Reaches cx call target id m m') (hrec : m'.records.lookup id = some rec)
      (hout : rec.state.satisfies .accelerator = false)
      (hfull : M.available m'.accelMemory < rec.region.size)
      (hnone : m'.pickLruLocked call .accelerator id = 0)
  /-- The accelerator refuses a buffer, or does not take the bytes of the region. -/
  | untransferred {M : IAcceleratorMemory σ α} {m' : ModelResidencyManager σ} {rec : Record}
      (htarget : target = .accelerator) (hM : cx.accelerator = some M)
      (hreach : Reaches cx call target id m m') (hrec : m'.records.lookup id = some rec)
      (hstate : rec.state = .residentInRam)
      (hroom : rec.region.size ≤ M.available m'.accelMemory)
      (htransfer : ∀ p, (M.allocate call.accel m'.accelMemory rec.region.size).1 = some p →
        (M.upload call.accel (M.allocate call.accel m'.accelMemory rec.region.size).2
          (rec.ram.getD []) p rec.region.size).1 = false)

/-- What is met later. -/
theorem Refusal.of_reaches (hreach : Reaches cx call target id m m')
    (h : Refusal cx call target id m') : Refusal cx call target id m := by
  cases h with
  | cancelledLoad hcancel => exact .cancelledLoad hcancel
  | ramFull h hrec hout hfull hnone => exact .ramFull (hreach.trans h) hrec hout hfull hnone
  | hostFull h hrec hout hfits hhost => exact .hostFull (hreach.trans h) hrec hout hfits hhost
  | unread h hrec hout hread => exact .unread (hreach.trans h) hrec hout hread
  | noAccelerator htarget hnone => exact .noAccelerator htarget hnone
  | unavailable htarget hM h havail => exact .unavailable htarget hM (hreach.trans h) havail
  | cancelledUpload htarget hcancel => exact .cancelledUpload htarget hcancel
  | accelFull htarget hM h hrec hout hfull hnone =>
    exact .accelFull htarget hM (hreach.trans h) hrec hout hfull hnone
  | untransferred htarget hM h hrec hstate hroom htransfer =>
    exact .untransferred htarget hM (hreach.trans h) hrec hstate hroom htransfer

/-- A load is refused for one of the reasons, or leads to a manager in which the region is in
RAM. -/
theorem loadToRamLocked_refusal (hkeys : m.KeysMatch) (hrec : m.records.lookup id = some rec)
    (hout : rec.state.satisfies .ram = false) :
    Refusal cx call target id m ∨
      ((loadToRamLocked cx call m id).1 = .ok () ∧
        Reaches cx call target id m (loadToRamLocked cx call m id).2) := by
  have hid : rec.region.id = id := hkeys id rec hrec
  have hsteps : RequestSteps cx call target id m (loadToRamLocked cx call m id).2 :=
    loadToRamLocked_requestSteps hkeys hrec hout
  unfold loadToRamLocked at hsteps ⊢
  rw [recordAt_of_lookup hrec, hid] at hsteps ⊢
  split at hsteps
  next hcancel => exact .inl (.cancelledLoad hcancel)
  next hcancel =>
    rw [if_neg hcancel]
    obtain ⟨m₁, hrun, ⟨hok, hfits⟩ | ⟨hfail, hfull, hnone⟩⟩ :=
      makeRamRoomLocked_spec cx call m rec.region.size id
    · have hrec₁ : m₁.records.lookup id = some rec := hrun.lookup_skipId.trans hrec
      have hreach : Reaches cx call target id m m₁ := hrun.reaches hrec hout
      rw [hok] at hsteps ⊢
      dsimp only at hsteps ⊢
      rw [recordAt_of_lookup hrec₁] at hsteps ⊢
      split at hsteps
      next hhost => exact .inl (.hostFull hreach hrec₁ hout hfits (by simpa using hhost))
      next hhost =>
        rw [if_neg hhost]
        cases hread : cx.source.read call.read rec.region.offset rec.region.size with
        | error text =>
          refine .inl (.unread hreach hrec₁ hout fun bytes hbytes => ?_)
          rw [hread] at hbytes
          cases hbytes
        | ok bytes =>
          rw [hread] at hsteps
          have hreleased : ∀ M, cx.accelerator = some M →
              M.Released m.accelMemory m₁.accelMemory := fun _ hM => hrun.released hM
          exact .inr ⟨rfl, hsteps, hreleased⟩
    · exact .inl (.ramFull (hrun.reaches hrec hout) ((hrun.lookup_skipId).trans hrec) hout hfull
        hnone)

/-- An upload is refused for one of the reasons, or fills one buffer. -/
theorem uploadLocked_refusal (hkeys : m.KeysMatch) (hacc : Accounted cx m)
    (hrec : m.records.lookup id = some rec) (hstate : rec.state = .residentInRam) :
    Refusal cx call .accelerator id m ∨
      ((uploadLocked cx call m id).1 = .ok () ∧ ∀ M, cx.accelerator = some M →
        M.MemoryAfter call.accel m.accelMemory (uploadLocked cx call m id).2.accelMemory) := by
  have hid : rec.region.id = id := hkeys id rec hrec
  have hout : rec.state.satisfies .accelerator = false := by
    simp [ModelResidencyState.satisfies, hstate]
  have hrest := hacc.atRest id rec hrec
  obtain ⟨bytes, hram⟩ := Option.isSome_iff_exists.mp
    (hrest.ram_iff.mpr (by simp [ModelResidencyState.satisfies, hstate]))
  unfold uploadLocked
  rw [recordAt_of_lookup hrec, hid]
  split
  next hnone => exact .inl (.noAccelerator rfl hnone)
  next M hM =>
    split
    next havail => exact .inl (.unavailable rfl hM (.refl m) (by simpa using havail))
    next =>
      rw [if_neg (by simp [hram])]
      split
      next hcancel => exact .inl (.cancelledUpload rfl hcancel)
      next =>
        obtain ⟨m₁, hrun, ⟨hok, hroom⟩ | ⟨hfail, hfull, hnone⟩ | ⟨hstuck, -, -⟩⟩ :=
          makeAccelRoomLocked_lru M call m rec.region.size id
        · have hrec₁ : m₁.records.lookup id = some rec := hrun.lookup_skipId.trans hrec
          have hreach : Reaches cx call .accelerator id m m₁ :=
            ⟨hrun.requestSteps hM hrec hout, fun M' hM' => by
              cases hM.symm.trans hM'
              exact hrun.released⟩
          rw [hok]
          dsimp only
          rw [recordAt_of_lookup hrec₁]
          unfold transfer
          dsimp only
          cases halloc : M.allocate call.accel m₁.accelMemory rec.region.size with
          | mk answer a =>
            cases answer with
            | none =>
              refine .inl (.untransferred rfl hM hreach hrec₁ hstate hroom fun p hp => ?_)
              rw [halloc] at hp
              cases hp
            | some p =>
              dsimp only
              cases hupload : M.upload call.accel a (rec.ram.getD []) p rec.region.size with
              | mk done a' =>
                cases done with
                | false =>
                  refine .inl (.untransferred rfl hM hreach hrec₁ hstate hroom fun q hq => ?_)
                  rw [halloc] at hq ⊢
                  cases hq
                  rw [hupload]
                | true =>
                  refine .inr ⟨rfl, fun M' hM' => ?_⟩
                  cases hM.symm.trans hM'
                  have hlen : (rec.ram.getD []).length = rec.region.size.toNat := by
                    rw [hram]
                    exact length_of_fileSlice (hrest.content bytes hram)
                  have hgrant :
                      (M.allocate call.accel m₁.accelMemory rec.region.size).1 = some p := by
                    rw [halloc]
                  have hafter := IAcceleratorMemory.MemoryAfter.uploaded hrun.released
                    hrest.size_ne_zero hroom hgrant hlen
                  rw [halloc, hupload] at hafter
                  exact hafter
        · -- the loop finds no victim, so the device stays full
          have hreach : Reaches cx call .accelerator id m m₁ :=
            ⟨hrun.requestSteps hM hrec hout, fun M' hM' => by
              cases hM.symm.trans hM'
              exact hrun.released⟩
          exact .inl (.accelFull rfl hM hreach (hrun.lookup_skipId.trans hrec) hout hfull hnone)
        · -- the loop never stands still while the books are right
          have hnot : (makeAccelRoomLocked M call m rec.region.size id).1 ≠ .error .stuck :=
            makeAccelRoomLocked_ne_stuck hacc hM rec.region.size id
          rw [hstuck] at hnot
          exact absurd rfl hnot

/-- To place a region is refused for one of the reasons, or fills at most one buffer. -/
theorem place_refusal (hkeys : m.KeysMatch) (hacc : Accounted cx m)
    (hrec : m.records.lookup id = some rec) :
    Refusal cx call target id m ∨
      ((place cx call m id target).1 = .ok () ∧ ∀ M, cx.accelerator = some M →
        M.MemoryAfter call.accel m.accelMemory (place cx call m id target).2.accelMemory) := by
  have houtcome : Outcome cx m id rec.region .ram (reachRam cx call m id) :=
    reachRam_outcome hkeys hrec
  -- first the way to RAM
  have hload : Refusal cx call target id m ∨ ((reachRam cx call m id).1 = .ok () ∧
      Reaches cx call target id m (reachRam cx call m id).2) := by
    unfold reachRam
    rw [recordAt_of_lookup hrec]
    split
    next => exact .inr ⟨rfl, .refl m⟩
    next hout => exact loadToRamLocked_refusal hkeys hrec (by simpa using hout)
  rcases hload with hrefused | ⟨hok, hreach⟩
  · exact .inl hrefused
  · rw [place_eq]
    generalize reachRam cx call m id = result at houtcome hok hreach
    obtain ⟨_ | _, m₁⟩ := result
    · cases hok
    · cases target with
      | ram => exact .inr ⟨rfl, fun M hM => .released (hreach.released M hM)⟩
      | accelerator =>
        obtain ⟨rec₁, hrec₁, hram⟩ := houtcome.resident rfl
        dsimp only
        rw [recordAt_of_lookup hrec₁]
        split
        next => exact .inr ⟨rfl, fun M hM => .released (hreach.released M hM)⟩
        next haccel =>
          have hstate : rec₁.state = .residentInRam := by
            simp only [ModelResidencyState.satisfies, Bool.or_eq_true, decide_eq_true_eq]
              at hram haccel
            exact hram.resolve_right haccel
          have hupload : Refusal cx call .accelerator id m₁ ∨ _ :=
            uploadLocked_refusal (hkeys.steps houtcome.steps) (hacc.steps houtcome.steps) hrec₁
              hstate
          rcases hupload with hrefused | ⟨hok, hafter⟩
          · exact .inl (hrefused.of_reaches hreach)
          · exact .inr ⟨hok, fun M hM => (hafter M hM).of_released (hreach.released M hM)⟩

/-- A request for a valid region is refused for one of the reasons, or fills at most one buffer. -/
theorem ensureResident_refusal (hkeys : m.KeysMatch) (hacc : Accounted cx m)
    {region : ModelRegion} (hvalid : region.valid = true) :
    Refusal cx call target region.id (m.getOrCreateLocked region) ∨
      ((m.ensureResident cx region target call).1 = .ok () ∧ ∀ M, cx.accelerator = some M →
        M.MemoryAfter call.accel m.accelMemory
          (m.ensureResident cx region target call).2.accelMemory) := by
  obtain ⟨rec, hrec, -⟩ := lookup_getOrCreateLocked (m := m) region
  have hcreate : ResidencySteps cx m (m.getOrCreateLocked region) :=
    (getOrCreateLocked_steps hvalid).1
  have hmemory := getOrCreateLocked_accelMemory (m := m) region
  have hacc₁ := hacc.steps hcreate
  have hplace : Refusal cx call target region.id (m.getOrCreateLocked region) ∨
      ((place cx call (m.getOrCreateLocked region) region.id target).1 = .ok () ∧ ∀ M,
        cx.accelerator = some M → M.MemoryAfter call.accel (m.getOrCreateLocked region).accelMemory
          (place cx call (m.getOrCreateLocked region) region.id target).2.accelMemory) :=
    place_refusal (hkeys.steps hcreate) hacc₁ hrec
  rw [hmemory] at hplace
  unfold ensureResident
  rw [if_neg (by simp [hvalid])]
  dsimp only
  split
  next => exact .inr ⟨rfl, fun M _ => .released (by rw [touch, setRecord_accelMemory, hmemory])⟩
  next =>
    rw [if_neg]
    · generalize place cx call (m.getOrCreateLocked region) region.id target = result at hplace
      obtain ⟨_ | _, m₁⟩ := result
      · exact hplace.imp_right fun h => by cases h.1
      · exact hplace.imp_right fun h => ⟨rfl, h.2⟩
    · -- no record is in the middle of a transfer between two calls
      rw [recordAt_of_lookup hrec, (hacc₁.atRest _ rec hrec).transferring]
      decide

end ModelResidencyManager

end HeteroAccel
