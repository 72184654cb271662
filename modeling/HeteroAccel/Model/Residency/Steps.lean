import HeteroAccel.Model.ModelResidencyManager

/-!
# The elementary changes of a residency manager

A note in the telemetry, a record created or marked, a region dropped, sent back to RAM, loaded or
uploaded: the results about whole runs are proved once for each of these changes. That every call
is a sequence of them is shown in `HeteroAccel.Model.Residency.Calls`.

## Main definitions

* `ResidencyStep cx`: one elementary change, with everything the code checked before it;
* `ResidencySteps cx`: sequences of them;
* `KeysMatch`: every record is stored under the id of its region.
-/

namespace HeteroAccel

/-- What is resident anywhere is resident in RAM. -/
theorem ModelResidencyState.satisfies_ram {s : ModelResidencyState}
    {target : ModelResidencyTarget} (h : s.satisfies target = true) : s.satisfies .ram = true := by
  cases target with
  | ram => exact h
  | accelerator =>
    simp only [ModelResidencyState.satisfies, decide_eq_true_eq] at h
    simp [ModelResidencyState.satisfies, h]

namespace ModelResidencyManager

variable {ρ σ α : Type} {cx : ResidencyContext ρ σ α} {m m' : ModelResidencyManager σ}
  {id : UInt64} {rec : Record}

/-! ## The records after each operation -/

theorem recordAt_of_lookup (hrec : m.records.lookup id = some rec) : m.recordAt id = rec := by
  simp [recordAt, hrec]

@[simp]
theorem setRecord_records : (m.setRecord id rec).records = m.records.insert id rec := rfl

@[simp]
theorem setRecord_telemetry : (m.setRecord id rec).telemetry = m.telemetry := rfl

@[simp]
theorem setRecord_accelMemory : (m.setRecord id rec).accelMemory = m.accelMemory := rfl

@[simp]
theorem dropRecord_records : (m.dropRecord cx id rec).records = m.records.erase id := by
  unfold dropRecord
  dsimp only
  split <;> split <;> rfl

/-- A dropped record gives its bytes in RAM back. -/
@[simp]
theorem dropRecord_residentRamBytes :
    (m.dropRecord cx id rec).telemetry.residentRamBytes =
      if rec.ram.isSome then decrease m.telemetry.residentRamBytes rec.region.size
      else m.telemetry.residentRamBytes := by
  unfold dropRecord
  dsimp only
  split <;> split <;> rfl

/-- A dropped record gives its bytes on the accelerator back, while there is an accelerator. -/
@[simp]
theorem dropRecord_residentAcceleratorBytes :
    (m.dropRecord cx id rec).telemetry.residentAcceleratorBytes =
      if rec.accel.isSome ∧ cx.accelerator.isSome then
        decrease m.telemetry.residentAcceleratorBytes rec.region.size
      else m.telemetry.residentAcceleratorBytes := by
  unfold dropRecord
  cases rec.accel <;> cases cx.accelerator <;> cases rec.ram <;> rfl

/-- The accelerator memory after a region is dropped. -/
theorem dropRecord_accelMemory :
    (m.dropRecord cx id rec).accelMemory =
      match rec.accel, cx.accelerator with
      | some p, some M => M.release m.accelMemory p
      | _, _ => m.accelMemory := by
  unfold dropRecord
  cases rec.accel <;> cases cx.accelerator <;> cases rec.ram <;> rfl

@[simp]
theorem toNat_decrease (a b : UInt64) : (decrease a b).toNat = a.toNat - b.toNat := by
  unfold decrease
  split
  next hle => exact UInt64.toNat_sub_of_le _ _ hle
  next hlt =>
    have := UInt64.lt_iff_toNat_lt.mp (UInt64.not_le.mp hlt)
    simp
    omega

@[simp]
theorem demote_records {M : IAcceleratorMemory σ α} {p : ℕ} :
    (m.demote M id rec p).records =
      m.records.insert id { rec with accel := none, state := .residentInRam } := rfl

theorem lookup_dropRecord {id' : UInt64} :
    (m.dropRecord cx id rec).records.lookup id' =
      if id' = id then none else m.records.lookup id' := by
  rw [dropRecord_records, KeyedMap.lookup_erase_eq_ite]

/-- A demoted region is in RAM again, and the others are where they were. -/
theorem lookup_demote {M : IAcceleratorMemory σ α} {p : ℕ} {id' : UInt64} :
    (m.demote M id rec p).records.lookup id' =
      if id' = id then some { rec with accel := none, state := .residentInRam }
      else m.records.lookup id' := by
  rw [demote_records, KeyedMap.lookup_insert_eq_ite]

/-- The record a region obtained from `getOrCreateLocked` denotes. -/
theorem lookup_getOrCreateLocked (region : ModelRegion) :
    ∃ rec, (m.getOrCreateLocked region).records.lookup region.id = some rec ∧
      (m.records.lookup region.id).getD { region } = rec := by
  unfold getOrCreateLocked
  cases hrec : m.records.lookup region.id with
  | some rec => exact ⟨rec, hrec, rfl⟩
  | none => exact ⟨{ region }, AList.lookup_insert _, rfl⟩

/-- Looking a region up leaves the records of the others alone. -/
theorem lookup_getOrCreateLocked_of_ne {region : ModelRegion} {k : UInt64} (hk : k ≠ region.id) :
    (m.getOrCreateLocked region).records.lookup k = m.records.lookup k := by
  unfold getOrCreateLocked
  cases m.records.lookup region.id with
  | some rec => rfl
  | none => exact AList.lookup_insert_ne hk

/-- It does not touch the accelerator. -/
theorem getOrCreateLocked_accelMemory (region : ModelRegion) :
    (m.getOrCreateLocked region).accelMemory = m.accelMemory := by
  unfold getOrCreateLocked
  cases m.records.lookup region.id <;> rfl

/-! ## Elementary changes -/

/-- The counters of the telemetry that the budget is checked against. -/
def SameCounters (m m' : ModelResidencyManager σ) : Prop :=
  m'.telemetry.residentRamBytes = m.telemetry.residentRamBytes ∧
    m'.telemetry.residentAcceleratorBytes = m.telemetry.residentAcceleratorBytes

end ModelResidencyManager

open ModelResidencyManager

variable {ρ σ α : Type}

/-- One elementary change of a residency manager. -/
inductive ResidencyStep (cx : ResidencyContext ρ σ α) :
    ModelResidencyManager σ → ModelResidencyManager σ → Prop
  /-- An error text, a failure or a prefetch is noted. -/
  | note {m m' : ModelResidencyManager σ} (hrecords : m'.records = m.records)
      (haccel : m'.accelMemory = m.accelMemory) (hcounters : m.SameCounters m') :
      ResidencyStep cx m m'
  /-- A record is created for a region that has none. -/
  | create {m : ModelResidencyManager σ} {region : ModelRegion} (hvalid : region.valid = true)
      (hnew : m.records.lookup region.id = none) :
      ResidencyStep cx m (m.setRecord region.id { region })
  /-- A record is marked as used, prefetched or pinned once more. -/
  | mark {m : ModelResidencyManager σ} {id : UInt64} {rec : Record} (lastUsed pins : ℕ)
      (prefetched : Bool) (hrec : m.records.lookup id = some rec) (hpins : rec.pins ≤ pins) :
      ResidencyStep cx m (m.setRecord id { rec with lastUsed, pins, prefetched })
  /-- An idle region is dropped. -/
  | drop {m : ModelResidencyManager σ} {id : UInt64} {rec : Record}
      (hrec : m.records.lookup id = some rec) (hidle : rec.busy = false) :
      ResidencyStep cx m (m.dropRecord cx id rec)
  /-- An idle region goes back from the accelerator to RAM. -/
  | demote {m : ModelResidencyManager σ} {M : IAcceleratorMemory σ α} {id : UInt64} {rec : Record}
      {p : ℕ} (hM : cx.accelerator = some M) (hrec : m.records.lookup id = some rec)
      (hidle : rec.busy = false) (hstate : rec.state = .residentInAccelerator)
      (hp : rec.accel = some p) :
      ResidencyStep cx m (m.demote M id rec p)
  /-- A region that is not resident could not be loaded. -/
  | loadFailed {m : ModelResidencyManager σ} {id : UInt64} {rec : Record} (f : ResidencyFailure)
      (hrec : m.records.lookup id = some rec) (hstate : rec.state.satisfies .ram = false) :
      ResidencyStep cx m (m.loadFailed id rec f).2
  /-- A region that is not resident is loaded within the budget and the host's memory. -/
  | loaded {m : ModelResidencyManager σ} {id : UInt64} {rec : Record} {bytes : List UInt8}
      (hrec : m.records.lookup id = some rec) (hstate : rec.state.satisfies .ram = false)
      (hroom : ¬ m.telemetry.residentRamBytes + rec.region.size > cx.budget.ramBytes)
      (hhost : m.ramOwned + rec.region.size.toNat ≤ cx.hostBytes)
      (hread : fileSlice cx.source.content rec.region.offset rec.region.size = some bytes) :
      ResidencyStep cx m (m.loaded id rec bytes)
  /-- The accelerator refused a buffer for a region in RAM. -/
  | uploadRefused {m : ModelResidencyManager σ} {M : IAcceleratorMemory σ α} {id : UInt64}
      {rec : Record} (env : α) (hM : cx.accelerator = some M)
      (hrec : m.records.lookup id = some rec) (hstate : rec.state = .residentInRam)
      (halloc : (M.allocate env m.accelMemory rec.region.size).1 = none) :
      ResidencyStep cx m
        (m.uploadFailed id rec M (M.allocate env m.accelMemory rec.region.size).2).2
  /-- The upload of a region in RAM failed, and its buffer was given back. -/
  | uploadAborted {m : ModelResidencyManager σ} {M : IAcceleratorMemory σ α} {id : UInt64}
      {rec : Record} {dst : ℕ} (env : α) (hM : cx.accelerator = some M)
      (hrec : m.records.lookup id = some rec) (hstate : rec.state = .residentInRam)
      (halloc : (M.allocate env m.accelMemory rec.region.size).1 = some dst)
      (hupload : (M.upload env (M.allocate env m.accelMemory rec.region.size).2
        (rec.ram.getD []) dst rec.region.size).1 = false) :
      ResidencyStep cx m (m.uploadFailed id rec M
        (M.release (M.upload env (M.allocate env m.accelMemory rec.region.size).2
          (rec.ram.getD []) dst rec.region.size).2 dst)).2
  /-- A region in RAM is uploaded. -/
  | uploaded {m : ModelResidencyManager σ} {M : IAcceleratorMemory σ α} {id : UInt64}
      {rec : Record} {dst : ℕ} (env : α) (hM : cx.accelerator = some M)
      (hrec : m.records.lookup id = some rec) (hstate : rec.state = .residentInRam)
      (halloc : (M.allocate env m.accelMemory rec.region.size).1 = some dst)
      (hupload : (M.upload env (M.allocate env m.accelMemory rec.region.size).2
        (rec.ram.getD []) dst rec.region.size).1 = true) :
      ResidencyStep cx m (m.uploaded id rec dst
        (M.upload env (M.allocate env m.accelMemory rec.region.size).2
          (rec.ram.getD []) dst rec.region.size).2)

/-- Sequences of elementary changes. -/
abbrev ResidencySteps (cx : ResidencyContext ρ σ α) :
    ModelResidencyManager σ → ModelResidencyManager σ → Prop :=
  Relation.ReflTransGen (ResidencyStep cx)

namespace ModelResidencyManager

variable {cx : ResidencyContext ρ σ α} {call : ResidencyCall ρ α}
  {m m' : ModelResidencyManager σ} {id : UInt64} {rec : Record}

/-- Each record is stored under the id of its region. -/
def KeysMatch (m : ModelResidencyManager σ) : Prop :=
  ∀ id rec, m.records.lookup id = some rec → rec.region.id = id

/-- Writing a record whose region has the key as its id. -/
theorem KeysMatch.of_insert (hkeys : m.KeysMatch) (h : m'.records = m.records.insert id rec)
    (hid : rec.region.id = id) : m'.KeysMatch := by
  intro id' rec' hrec'
  rw [h, KeyedMap.lookup_insert_eq_ite] at hrec'
  split at hrec'
  next heq =>
    cases hrec'
    rw [heq, hid]
  next => exact hkeys id' rec' hrec'

/-- Without a record the keys still match. -/
theorem KeysMatch.of_erase (hkeys : m.KeysMatch) (h : m'.records = m.records.erase id) :
    m'.KeysMatch := by
  intro id' rec' hrec'
  rw [h] at hrec'
  exact hkeys id' rec' (KeyedMap.lookup_of_lookup_erase hrec')

/-- Every elementary change keeps the records under the ids of their regions. -/
theorem KeysMatch.step (hkeys : m.KeysMatch) (hstep : ResidencyStep cx m m') : m'.KeysMatch := by
  cases hstep with
  | note hrecords =>
    intro id rec hrec
    exact hkeys id rec (hrecords ▸ hrec)
  | create => exact hkeys.of_insert setRecord_records rfl
  | drop => exact hkeys.of_erase dropRecord_records
  | mark _ _ _ hrec => exact hkeys.of_insert setRecord_records (hkeys _ _ hrec :)
  | demote _ hrec => exact hkeys.of_insert demote_records (hkeys _ _ hrec :)
  | loadFailed _ hrec | loaded hrec | uploadRefused _ _ hrec | uploadAborted _ _ hrec
  | uploaded _ _ hrec => exact hkeys.of_insert rfl (hkeys _ _ hrec :)

theorem KeysMatch.steps (hkeys : m.KeysMatch) (hsteps : ResidencySteps cx m m') : m'.KeysMatch :=
  TransitionSystem.preserves_reflTransGen (P := KeysMatch) (fun _ _ => KeysMatch.step) hsteps hkeys

end ModelResidencyManager

end HeteroAccel
