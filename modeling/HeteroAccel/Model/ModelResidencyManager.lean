import HeteroAccel.Lib.KeyedMap
import HeteroAccel.Lib.Transition
import HeteroAccel.Model.AcceleratorMemory
import HeteroAccel.Model.DataSource
import Mathlib.Data.List.MinMax

/-!
# The model residency manager

`ModelResidencyManager` moves model regions from a file to RAM and on to an accelerator, within a
budget, evicting the least recently used region when room is missing. Every public call runs under
the manager's mutex, so a call is one step.

A function that returns `false` in the source returns the reason here (`ResidencyFailure`); where
the source also writes `last_error_`, the reason's text is stored. What a call meets outside the
manager is its `ResidencyCall` argument: the clock, the cancel flag at its two polls, whether the
host grants the RAM buffer, the read and the accelerator, and the order in which the hash map of
records is visited.

The durations the telemetry adds up (`read_ms`, `upload_ms`) and the counters no code writes are
left out.
-/

namespace HeteroAccel

/-- A byte range inside a model file. -/
structure ModelRegion where
  id : UInt64 := 0
  offset : UInt64 := 0
  size : UInt64 := 0
  identifier : String := ""
  deriving DecidableEq, Inhabited

/-- `ModelRegion::valid()`. -/
def ModelRegion.valid (r : ModelRegion) : Bool := 0 < r.size

/-- The states of a region. A request passes through the loading ones. -/
inductive ModelResidencyState
  | notResident
  | loadingToRam
  | residentInRam
  | loadingToAccelerator
  | residentInAccelerator
  | evicting
  | error
  deriving DecidableEq, Inhabited

/-- Where a request wants a region. -/
inductive ModelResidencyTarget
  | ram
  | accelerator
  deriving DecidableEq

/-- The states that satisfy a request for `target`: an accelerator-resident region is in RAM
too. -/
def ModelResidencyState.satisfies (s : ModelResidencyState) : ModelResidencyTarget → Bool
  | .ram => s = .residentInRam || s = .residentInAccelerator
  | .accelerator => s = .residentInAccelerator

/-- The budgets; only the one for RAM is read. -/
structure ModelResidencyBudget where
  ramBytes : UInt64
  acceleratorBytes : UInt64
  deriving DecidableEq

/-- The counters of a manager. -/
structure StreamingTelemetry where
  bytesReadFromDisk : UInt64 := 0
  bytesToRam : UInt64 := 0
  bytesToAccelerator : UInt64 := 0
  evictionCount : UInt64 := 0
  prefetchCount : UInt64 := 0
  prefetchHits : UInt64 := 0
  prefetchMisses : UInt64 := 0
  residentRamBytes : UInt64 := 0
  residentAcceleratorBytes : UInt64 := 0
  peakRamBytes : UInt64 := 0
  peakAcceleratorBytes : UInt64 := 0
  transferFailures : UInt64 := 0
  deriving DecidableEq, Inhabited

/-- `ModelResidencyManager::Record`. The counters `refs` and `pins` never fall below zero. -/
structure Record where
  region : ModelRegion
  state : ModelResidencyState := .notResident
  /-- The RAM buffer, by its bytes. -/
  ram : Option (List UInt8) := none
  /-- The accelerator buffer, by its pointer. -/
  accel : Option ℕ := none
  refs : ℕ := 0
  pins : ℕ := 0
  lastUsed : ℕ := 0
  transferring : Bool := false
  prefetched : Bool := false
  deriving DecidableEq, Inhabited

/-- The guard of every eviction: pinned, referenced or transferring. -/
def Record.busy (r : Record) : Bool := r.pins > 0 || r.refs > 0 || r.transferring

/-- The bytes of a record's RAM buffer. -/
def Record.ramLength (r : Record) : ℕ := (r.ram.getD []).length

/-- Why a call returned `false`. -/
inductive ResidencyFailure
  | invalidRegion
  | alreadyTransferring
  | prefetchDisabled
  | cancelledBeforeLoad
  | ramBudgetExhausted
  | victimBusy
  | ramAllocation (identifier : String)
  | source (text : String)
  | acceleratorUnavailable
  | noRamBuffer
  | cancelledBeforeUpload
  | acceleratorBudgetExhausted
  | accelerator (text : String)
  /-- The accelerator loop would repeat without progress, for a record that is marked resident
  on the accelerator without a buffer there. -/
  | stuck
  deriving DecidableEq

/-- The text stored in `last_error_`. -/
def ResidencyFailure.message : ResidencyFailure → String
  | .invalidRegion => "Invalid region (zero size)"
  | .alreadyTransferring => "Region is already being transferred"
  | .prefetchDisabled => ""
  | .cancelledBeforeLoad => "Cancelled before RAM load"
  | .ramBudgetExhausted => "RAM residency budget exhausted — cannot evict further"
  | .victimBusy => "Cannot evict LRU region (pinned or transferring)"
  | .ramAllocation identifier => "RAM allocation failed for region " ++ identifier
  | .source text => text
  | .acceleratorUnavailable => "Accelerator unavailable for upload"
  | .noRamBuffer => "Cannot upload region without RAM buffer"
  | .cancelledBeforeUpload => "Cancelled before accelerator upload"
  | .acceleratorBudgetExhausted => "Accelerator residency budget exhausted"
  | .accelerator text => text
  | .stuck => ""

/-- What the manager is constructed with, and the host it runs on. -/
structure ResidencyContext (ρ σ α : Type) where
  /-- `source_`. -/
  source : IModelDataSource ρ
  /-- `budget_`. -/
  budget : ModelResidencyBudget
  /-- `accelerator_`, possibly null. -/
  accelerator : Option (IAcceleratorMemory σ α)
  /-- The RAM the host grants in total. -/
  hostBytes : ℕ
  /-- A 64-bit process never holds `2 ^ 63` bytes. -/
  hostBytes_lt : hostBytes < 2 ^ 63

/-- What one call meets outside the manager. -/
structure ResidencyCall (ρ α : Type) where
  /-- The reading of the steady clock. -/
  now : ℕ
  /-- The cancel flag when the RAM load starts. -/
  cancelBeforeLoad : Bool
  /-- The cancel flag when the upload starts. -/
  cancelBeforeUpload : Bool
  /-- Whether `new (std::nothrow)` finds memory for the RAM buffer. -/
  hostNew : Bool
  read : ρ
  accel : α
  /-- The order in which `records_` is visited. -/
  order : Traversal (Σ _ : UInt64, Record)

/-- The state of a residency manager, together with that of its accelerator. -/
structure ModelResidencyManager (σ : Type) where
  records : KeyedMap UInt64 Record
  telemetry : StreamingTelemetry
  lastError : String
  prefetchEnabled : Bool
  /-- The state of the memory `accelerator_` points to. -/
  accelMemory : σ

namespace ModelResidencyManager

variable {ρ σ α : Type}

/-- A newly constructed manager. -/
def construct (accelMemory : σ) : ModelResidencyManager σ :=
  { records := ∅, telemetry := {}, lastError := "", prefetchEnabled := true, accelMemory }

/-- The result of a call: success or a reason, and the state it leaves. -/
abbrev Result (σ : Type) := Except ResidencyFailure Unit × ModelResidencyManager σ

/-- Return `false` after writing `last_error_`. -/
def fail (m : ModelResidencyManager σ) (f : ResidencyFailure) : Result σ :=
  (.error f, { m with lastError := f.message })

/-- `telemetry_.transfer_failures++`. -/
def countFailure (m : ModelResidencyManager σ) : ModelResidencyManager σ :=
  { m with telemetry.transferFailures := m.telemetry.transferFailures + 1 }

/-- The record a reference obtained for `id` denotes. -/
def recordAt (m : ModelResidencyManager σ) (id : UInt64) : Record :=
  (m.records.lookup id).getD default

/-- Write the record a reference obtained for `id` denotes. -/
def setRecord (m : ModelResidencyManager σ) (id : UInt64) (rec : Record) :
    ModelResidencyManager σ :=
  { m with records := m.records.insert id rec }

/-- `a - b`, or `0` where that would wrap, as the byte counters are decreased. -/
def decrease (a b : UInt64) : UInt64 := if a ≥ b then a - b else 0

/-- `getOrCreateLocked`. A record that exists keeps the region it was created with. -/
def getOrCreateLocked (m : ModelResidencyManager σ) (region : ModelRegion) :
    ModelResidencyManager σ :=
  match m.records.lookup region.id with
  | some _ => m
  | none => m.setRecord region.id { region }

/-! ## Eviction -/

/-- The state of the scan in `pickLruLocked`. -/
structure LruScan where
  victimId : UInt64
  oldest : ℕ
  found : Bool

/-- Whether the scan may pick a record. -/
def candidate (target : ModelResidencyTarget) (skipId : UInt64) (kv : Σ _ : UInt64, Record) :
    Bool :=
  kv.1 ≠ skipId && !kv.2.busy && kv.2.state.satisfies target

/-- One iteration of the scan in `pickLruLocked`. -/
def lruStep (target : ModelResidencyTarget) (skipId : UInt64) (scan : LruScan)
    (kv : Σ _ : UInt64, Record) : LruScan :=
  if kv.1 = skipId then scan
  else if kv.2.busy then scan
  else if ¬ kv.2.state.satisfies target then scan
  else if !scan.found || kv.2.lastUsed < scan.oldest then
    { victimId := kv.1, oldest := kv.2.lastUsed, found := true }
  else scan

/-- `pickLruLocked`: the id of the victim, `0` when there is none. -/
def pickLruLocked (m : ModelResidencyManager σ) (call : ResidencyCall ρ α)
    (target : ModelResidencyTarget) (skipId : UInt64) : UInt64 :=
  ((call.order.visit m.records.entries).foldl (lruStep target skipId)
    { victimId := 0, oldest := call.now, found := false }).victimId

/-- Release an accelerator buffer of `size` bytes and take it off the counter. -/
def releaseAccel (m : ModelResidencyManager σ) (M : IAcceleratorMemory σ α) (p : ℕ)
    (size : UInt64) : ModelResidencyManager σ :=
  { m with
    telemetry.residentAcceleratorBytes := decrease m.telemetry.residentAcceleratorBytes size
    accelMemory := M.release m.accelMemory p }

/-- Reset a RAM buffer of `size` bytes and take it off the counter. -/
def releaseRam (m : ModelResidencyManager σ) (size : UInt64) : ModelResidencyManager σ :=
  { m with telemetry.residentRamBytes := decrease m.telemetry.residentRamBytes size }

/-- The body of `evictLocked` for a record that may be evicted. -/
def dropRecord (cx : ResidencyContext ρ σ α) (m : ModelResidencyManager σ) (id : UInt64)
    (rec : Record) : ModelResidencyManager σ :=
  let m := match rec.accel, cx.accelerator with
    | some p, some M => m.releaseAccel M p rec.region.size
    | _, _ => m
  let m := if rec.ram.isSome then m.releaseRam rec.region.size else m
  { m with
    telemetry.evictionCount := m.telemetry.evictionCount + 1
    records := m.records.erase id }

/-- `evictLocked`. -/
def evictLocked (cx : ResidencyContext ρ σ α) (m : ModelResidencyManager σ) (id : UInt64) :
    Bool × ModelResidencyManager σ :=
  match m.records.lookup id with
  | none => (true, m)
  | some rec => if rec.busy then (false, m) else (true, m.dropRecord cx id rec)

/-- The body of the loop in `makeAccelRoomLocked`: the victim goes back to RAM. -/
def demote (m : ModelResidencyManager σ) (M : IAcceleratorMemory σ α) (id : UInt64) (rec : Record)
    (p : ℕ) : ModelResidencyManager σ :=
  let m := m.releaseAccel M p rec.region.size
  let m := m.setRecord id { rec with accel := none, state := .residentInRam }
  { m with telemetry.evictionCount := m.telemetry.evictionCount + 1 }

/-- The scan keeps the first candidate of least `lastUsed`, as `List.argmin` does. -/
theorem foldl_lruStep (target : ModelResidencyTarget) (skipId : UInt64) (now : ℕ)
    (l : List (Σ _ : UInt64, Record)) (best : Option (Σ _ : UInt64, Record)) :
    let scan (o : Option (Σ _ : UInt64, Record)) : LruScan :=
      o.elim { victimId := 0, oldest := now, found := false } fun kv =>
        { victimId := kv.1, oldest := kv.2.lastUsed, found := true }
    l.foldl (lruStep target skipId) (scan best) =
      scan ((l.filter (candidate target skipId)).foldl
        (List.argAux fun b c => b.2.lastUsed < c.2.lastUsed) best) := by
  intro scan
  induction l generalizing best with
  | nil => rfl
  | cons kv l ih =>
    rw [List.foldl_cons]
    -- a record that is no candidate is skipped by one of the three tests
    by_cases hcand : candidate target skipId kv
    · rw [List.filter_cons_of_pos hcand, List.foldl_cons, ← ih]
      congr 1
      simp only [candidate, ne_eq, Bool.and_eq_true, decide_eq_true_eq, Bool.not_eq_true'] at hcand
      obtain ⟨⟨hskip, hbusy⟩, hstate⟩ := hcand
      cases best with
      | none => simp [lruStep, hskip, hbusy, hstate, scan, List.argAux]
      | some b =>
        simp only [lruStep, hskip, hbusy, hstate, scan, List.argAux, Option.elim_some]
        -- the earlier candidate stays on a tie
        by_cases hlt : kv.2.lastUsed < b.2.lastUsed <;> simp [hlt]
    · rw [List.filter_cons_of_neg hcand, ← ih]
      congr 1
      simp only [candidate, ne_eq, Bool.and_eq_true, decide_eq_true_eq, Bool.not_eq_true',
        not_and, Bool.not_eq_true] at hcand
      unfold lruStep
      split
      next => rfl
      next hskip =>
        split
        next => rfl
        next hbusy =>
          rw [if_pos]
          rw [hcand ⟨hskip, by simpa using hbusy⟩]
          decide

/-- `pickLruLocked` picks a candidate that was used least recently, or `0` when there is no
candidate. -/
theorem pickLruLocked_spec (m : ModelResidencyManager σ) (call : ResidencyCall ρ α)
    (target : ModelResidencyTarget) (skipId : UInt64) :
    (∃ rec, m.records.lookup (m.pickLruLocked call target skipId) = some rec ∧
        candidate target skipId ⟨m.pickLruLocked call target skipId, rec⟩ ∧
        ∀ id rec', m.records.lookup id = some rec' → candidate target skipId ⟨id, rec'⟩ →
          rec.lastUsed ≤ rec'.lastUsed) ∨
      (m.pickLruLocked call target skipId = 0 ∧
        ∀ id rec, m.records.lookup id = some rec → candidate target skipId ⟨id, rec⟩ = false) := by
  set l := (call.order.visit m.records.entries).filter (candidate target skipId) with hl
  -- the scan is a minimum over the candidates, in the order of the traversal
  have hfold := foldl_lruStep target skipId call.now (call.order.visit m.records.entries) none
  have hmem : ∀ id rec, (⟨id, rec⟩ : Σ _ : UInt64, Record) ∈ l ↔
      m.records.lookup id = some rec ∧ candidate target skipId ⟨id, rec⟩ := by
    intro id rec
    rw [hl, List.mem_filter, Traversal.mem_visit, KeyedMap.mem_entries_iff]
  change _ = Option.elim (l.argmin fun kv => kv.2.lastUsed) _ _ at hfold
  cases hmin : l.argmin fun kv => kv.2.lastUsed with
  | none =>
    right
    rw [hmin] at hfold
    refine ⟨congrArg LruScan.victimId hfold, fun id rec hrec => ?_⟩
    by_contra hcand
    have : (⟨id, rec⟩ : Σ _ : UInt64, Record) ∈ l := (hmem id rec).mpr ⟨hrec, by simpa using hcand⟩
    rw [List.argmin_eq_none.mp hmin] at this
    cases this
  | some kv =>
    left
    rw [hmin] at hfold
    have hid : m.pickLruLocked call target skipId = kv.1 := congrArg LruScan.victimId hfold
    have hkv := (hmem kv.1 kv.2).mp (List.argmin_mem hmin)
    rw [hid]
    refine ⟨kv.2, hkv.1, hkv.2, fun id rec' hrec' hcand' => ?_⟩
    exact List.le_of_mem_argmin (f := fun kv : Σ _ : UInt64, Record => kv.2.lastUsed)
      ((hmem id rec').mpr ⟨hrec', hcand'⟩) hmin

/-- A non-zero pick is a candidate in the map. -/
theorem exists_of_pickLruLocked_ne_zero {m : ModelResidencyManager σ} {call : ResidencyCall ρ α}
    {target : ModelResidencyTarget} {skipId : UInt64}
    (h : m.pickLruLocked call target skipId ≠ 0) :
    ∃ rec, m.records.lookup (m.pickLruLocked call target skipId) = some rec ∧
      candidate target skipId ⟨m.pickLruLocked call target skipId, rec⟩ := by
  rcases m.pickLruLocked_spec call target skipId with ⟨rec, hrec, hcand, -⟩ | ⟨hzero, -⟩
  · exact ⟨rec, hrec, hcand⟩
  · exact absurd hzero h

/-! ## Making room -/

/-- `makeRamRoomLocked`: evict until `needed` more bytes fit the RAM budget. -/
def makeRamRoomLocked (cx : ResidencyContext ρ σ α) (call : ResidencyCall ρ α)
    (m : ModelResidencyManager σ) (needed skipId : UInt64) : Result σ :=
  if m.telemetry.residentRamBytes + needed > cx.budget.ramBytes then
    if _hvictim : m.pickLruLocked call .ram skipId = 0 then m.fail .ramBudgetExhausted
    else
      match _hevict : m.evictLocked cx (m.pickLruLocked call .ram skipId) with
      | (false, m') => m'.fail .victimBusy
      | (true, m') => makeRamRoomLocked cx call m' needed skipId
  else (.ok (), m)
termination_by m.records.entries.length
decreasing_by
  -- the victim was in the map and no longer is
  obtain ⟨rec, hrec, hcand⟩ := exists_of_pickLruLocked_ne_zero _hvictim
  have hbusy : rec.busy = false := by
    simp only [candidate, Bool.and_eq_true, Bool.not_eq_true'] at hcand
    exact hcand.1.2
  simp only [evictLocked, hrec, hbusy, Bool.false_eq_true, ↓reduceIte, Prod.mk.injEq,
    true_and] at _hevict
  rw [← _hevict]
  have hdrop : ∀ m₁ : ModelResidencyManager σ, m₁.records = m.records →
      ({ m₁ with
          telemetry.evictionCount := m₁.telemetry.evictionCount + 1
          records := m₁.records.erase (m.pickLruLocked call .ram skipId) } :
        ModelResidencyManager σ).records.entries.length < m.records.entries.length := by
    intro m₁ h₁
    change (m₁.records.erase _).entries.length < _
    rw [h₁]
    exact KeyedMap.length_erase hrec
  unfold dropRecord
  apply hdrop
  split <;> split <;> rfl

/-- The number of regions resident on the accelerator. -/
def acceleratorResidents (m : ModelResidencyManager σ) : ℕ :=
  KeyedMap.total (fun _ r => if r.state = .residentInAccelerator then 1 else 0) m.records

/-- `makeAccelRoomLocked` with an accelerator attached: send regions back to RAM until the
accelerator reports `needed` free bytes. -/
def makeAccelRoomLocked (M : IAcceleratorMemory σ α) (call : ResidencyCall ρ α)
    (m : ModelResidencyManager σ) (needed skipId : UInt64) : Result σ :=
  if M.available m.accelMemory < needed then
    if _hvictim : m.pickLruLocked call .accelerator skipId = 0 then
      m.fail .acceleratorBudgetExhausted
    else
      match _hrec : m.records.lookup (m.pickLruLocked call .accelerator skipId) with
      | none => (.ok (), m)
      | some rec =>
        match rec.accel with
        | none => (.error .stuck, m)
        | some p =>
          makeAccelRoomLocked M call
            (m.demote M (m.pickLruLocked call .accelerator skipId) rec p) needed skipId
  else (.ok (), m)
termination_by m.acceleratorResidents
decreasing_by
  -- the victim was resident on the accelerator and is back in RAM
  obtain ⟨rec', hrec', hcand⟩ := exists_of_pickLruLocked_ne_zero _hvictim
  rw [_hrec] at hrec'
  cases hrec'
  simp only [candidate, ModelResidencyState.satisfies, Bool.and_eq_true,
    decide_eq_true_eq] at hcand
  have hins := KeyedMap.total_insert_of_lookup
    (f := fun (_ : UInt64) (r : Record) => if r.state = .residentInAccelerator then 1 else 0)
    (w := { rec with accel := none, state := .residentInRam }) _hrec
  simp only [hcand.2, ↓reduceIte, reduceCtorEq] at hins
  change KeyedMap.total _ (m.records.insert _ _) < KeyedMap.total _ m.records
  omega

/-! ## Loading and uploading -/

/-- The RAM buffers the manager holds. -/
def ramOwned (m : ModelResidencyManager σ) : ℕ :=
  KeyedMap.total (fun _ r => r.ramLength) m.records

/-- Whether `new (std::nothrow) uint8_t[size]` succeeds. -/
def hostNew (cx : ResidencyContext ρ σ α) (call : ResidencyCall ρ α)
    (m : ModelResidencyManager σ) (size : UInt64) : Bool :=
  call.hostNew && m.ramOwned + size.toNat ≤ cx.hostBytes

/-- The load of a record failed. -/
def loadFailed (m : ModelResidencyManager σ) (id : UInt64) (loading : Record)
    (f : ResidencyFailure) : Result σ :=
  ((m.setRecord id { loading with state := .error, transferring := false }).countFailure).fail f

/-- The load of a record is complete. -/
def loaded (m : ModelResidencyManager σ) (id : UInt64) (loading : Record) (bytes : List UInt8) :
    ModelResidencyManager σ :=
  let m := m.setRecord id
    { loading with ram := some bytes, state := .residentInRam, transferring := false }
  let resident := m.telemetry.residentRamBytes + loading.region.size
  { m with telemetry := { m.telemetry with
    bytesReadFromDisk := m.telemetry.bytesReadFromDisk + loading.region.size
    bytesToRam := m.telemetry.bytesToRam + loading.region.size
    residentRamBytes := resident
    peakRamBytes :=
      if resident > m.telemetry.peakRamBytes then resident else m.telemetry.peakRamBytes } }

/-- `loadToRamLocked` on the record of `id`. -/
def loadToRamLocked (cx : ResidencyContext ρ σ α) (call : ResidencyCall ρ α)
    (m : ModelResidencyManager σ) (id : UInt64) : Result σ :=
  if call.cancelBeforeLoad then m.fail .cancelledBeforeLoad
  else
    match makeRamRoomLocked cx call m (m.recordAt id).region.size (m.recordAt id).region.id with
    | (.error f, m) => (.error f, m)
    | (.ok _, m) =>
      let loading := { m.recordAt id with state := .loadingToRam, transferring := true }
      if ¬ m.hostNew cx call loading.region.size then
        m.loadFailed id loading (.ramAllocation loading.region.identifier)
      else
        match cx.source.read call.read loading.region.offset loading.region.size with
        | .error text => m.loadFailed id loading (.source text)
        | .ok bytes => (.ok (), m.loaded id loading bytes)

/-- The upload of a record failed, leaving the accelerator in the state `a`: the record is still
in RAM. -/
def uploadFailed (m : ModelResidencyManager σ) (id : UInt64) (uploading : Record)
    (M : IAcceleratorMemory σ α) (a : σ) : Result σ :=
  let m := { m with accelMemory := a }
  ((m.setRecord id
    { uploading with state := .residentInRam, transferring := false }).countFailure).fail
      (.accelerator (M.lastError a))

/-- The upload of a record to `dst` is complete, leaving the accelerator in the state `a`. -/
def uploaded (m : ModelResidencyManager σ) (id : UInt64) (uploading : Record) (dst : ℕ) (a : σ) :
    ModelResidencyManager σ :=
  let m := { m with accelMemory := a }
  let m := m.setRecord id
    { uploading with accel := some dst, state := .residentInAccelerator, transferring := false }
  let resident := m.telemetry.residentAcceleratorBytes + uploading.region.size
  { m with telemetry := { m.telemetry with
    bytesToAccelerator := m.telemetry.bytesToAccelerator + uploading.region.size
    residentAcceleratorBytes := resident
    peakAcceleratorBytes :=
      if resident > m.telemetry.peakAcceleratorBytes then resident
      else m.telemetry.peakAcceleratorBytes } }

/-- The transfer in `uploadLocked`: allocate, upload, and give the buffer back if that fails. -/
def transfer (m : ModelResidencyManager σ) (M : IAcceleratorMemory σ α) (env : α) (id : UInt64)
    (uploading : Record) : Result σ :=
  match M.allocate env m.accelMemory uploading.region.size with
  | (none, a) => m.uploadFailed id uploading M a
  | (some dst, a) =>
    match M.upload env a (uploading.ram.getD []) dst uploading.region.size with
    -- the buffer is given back before the error text is read
    | (false, a) => m.uploadFailed id uploading M (M.release a dst)
    | (true, a) => (.ok (), m.uploaded id uploading dst a)

/-- `uploadLocked` on the record of `id`. -/
def uploadLocked (cx : ResidencyContext ρ σ α) (call : ResidencyCall ρ α)
    (m : ModelResidencyManager σ) (id : UInt64) : Result σ :=
  match cx.accelerator with
  | none => m.countFailure.fail .acceleratorUnavailable
  | some M =>
    if ¬ M.isAvailable m.accelMemory then m.countFailure.fail .acceleratorUnavailable
    else if (m.recordAt id).ram.isNone then m.countFailure.fail .noRamBuffer
    else if call.cancelBeforeUpload then m.fail .cancelledBeforeUpload
    else
      match makeAccelRoomLocked M call m (m.recordAt id).region.size
          (m.recordAt id).region.id with
      | (.error f, m) => (.error f, m)
      | (.ok _, m) =>
        m.transfer M call.accel id
          { m.recordAt id with state := .loadingToAccelerator, transferring := true }

/-- Steps 1 and 2 that `ensureResident` and `prefetch` share: load to RAM unless the region is
there, then upload if the accelerator is the target. -/
def place (cx : ResidencyContext ρ σ α) (call : ResidencyCall ρ α)
    (m : ModelResidencyManager σ) (id : UInt64) (target : ModelResidencyTarget) : Result σ :=
  let loaded : Result σ :=
    if (m.recordAt id).state.satisfies .ram then (.ok (), m) else loadToRamLocked cx call m id
  match loaded with
  | (.error f, m) => (.error f, m)
  | (.ok _, m) =>
    match target with
    | .ram => (.ok (), m)
    | .accelerator =>
      if (m.recordAt id).state.satisfies .accelerator then (.ok (), m)
      else uploadLocked cx call m id

/-! ## The public interface -/

/-- `rec.last_used = now` -/
def touch (m : ModelResidencyManager σ) (id : UInt64) (now : ℕ) : ModelResidencyManager σ :=
  m.setRecord id { m.recordAt id with lastUsed := now }

/-- `ensureResident`. -/
def ensureResident (cx : ResidencyContext ρ σ α) (m : ModelResidencyManager σ)
    (region : ModelRegion) (target : ModelResidencyTarget) (call : ResidencyCall ρ α) :
    Result σ :=
  if ¬ region.valid then m.fail .invalidRegion
  else
    let m := m.getOrCreateLocked region
    if (m.recordAt region.id).state.satisfies target then
      (.ok (), m.touch region.id call.now)
    else if (m.recordAt region.id).transferring then m.fail .alreadyTransferring
    else
      match place cx call m region.id target with
      | (.error f, m) => (.error f, m)
      | (.ok _, m) => (.ok (), m.touch region.id call.now)

/-- A prefetch of a region that is not where it is wanted. -/
def countMiss (m : ModelResidencyManager σ) : ModelResidencyManager σ :=
  { m with telemetry := { m.telemetry with
    prefetchMisses := m.telemetry.prefetchMisses + 1
    prefetchCount := m.telemetry.prefetchCount + 1 } }

/-- `prefetch`. Its early returns do not write `last_error_`. -/
def prefetch (cx : ResidencyContext ρ σ α) (m : ModelResidencyManager σ)
    (region : ModelRegion) (target : ModelResidencyTarget) (call : ResidencyCall ρ α) :
    Result σ :=
  if ¬ m.prefetchEnabled then (.error .prefetchDisabled, m)
  else if ¬ region.valid then (.error .invalidRegion, m)
  else
    let m := m.getOrCreateLocked region
    if (m.recordAt region.id).state.satisfies target then
      (.ok (), { m with telemetry.prefetchHits := m.telemetry.prefetchHits + 1 })
    else
      let m := m.countMiss
      if (m.recordAt region.id).transferring then (.error .alreadyTransferring, m)
      else
        match place cx call m region.id target with
        | (.error f, m) => (.error f, m)
        | (.ok _, m) =>
          let m := m.setRecord region.id { m.recordAt region.id with prefetched := true }
          (.ok (), m.touch region.id call.now)

/-- `pin`. -/
def pin (m : ModelResidencyManager σ) (id : UInt64) : ModelResidencyManager σ :=
  match m.records.lookup id with
  | none => m
  | some rec => m.setRecord id { rec with pins := rec.pins + 1 }

/-- `unpin`. -/
def unpin (m : ModelResidencyManager σ) (id : UInt64) : ModelResidencyManager σ :=
  match m.records.lookup id with
  | none => m
  | some rec => if rec.pins > 0 then m.setRecord id { rec with pins := rec.pins - 1 } else m

/-- `isResident`. -/
def isResident (m : ModelResidencyManager σ) (id : UInt64) (target : ModelResidencyTarget) :
    Bool :=
  match m.records.lookup id with
  | none => false
  | some rec => rec.state.satisfies target

/-- `ramPointer`, by the bytes it points to. -/
def ramPointer (m : ModelResidencyManager σ) (id : UInt64) : Option (List UInt8) :=
  match m.records.lookup id with
  | none => none
  | some rec => if rec.state.satisfies .ram then rec.ram else none

/-- `evict`. -/
def evict (cx : ResidencyContext ρ σ α) (m : ModelResidencyManager σ) (id : UInt64) :
    Bool × ModelResidencyManager σ :=
  m.evictLocked cx id

/-- `releaseAll`, the records being visited in the given order. -/
def releaseAll (cx : ResidencyContext ρ σ α) (m : ModelResidencyManager σ)
    (order : Traversal (Σ _ : UInt64, Record)) : ModelResidencyManager σ :=
  { m with
    accelMemory := (order.visit m.records.entries).foldl
      (fun a kv =>
        match kv.2.accel, cx.accelerator with
        | some p, some M => M.release a p
        | _, _ => a)
      m.accelMemory
    records := ∅
    telemetry := { m.telemetry with
      residentRamBytes := 0
      residentAcceleratorBytes := 0 } }

end ModelResidencyManager

/-- A call of the public interface. -/
inductive ResidencyOp (ρ α : Type)
  | ensureResident (region : ModelRegion) (target : ModelResidencyTarget)
      (call : ResidencyCall ρ α)
  | prefetch (region : ModelRegion) (target : ModelResidencyTarget) (call : ResidencyCall ρ α)
  | pin (id : UInt64)
  | unpin (id : UInt64)
  | evict (id : UInt64)
  | releaseAll (order : Traversal (Σ _ : UInt64, Record))
  | setPrefetchEnabled (enabled : Bool)

/-- The state a call leaves. -/
def ModelResidencyManager.apply {ρ σ α : Type} (cx : ResidencyContext ρ σ α)
    (m : ModelResidencyManager σ) : ResidencyOp ρ α → ModelResidencyManager σ
  | .ensureResident region target call => (m.ensureResident cx region target call).2
  | .prefetch region target call => (m.prefetch cx region target call).2
  | .pin id => m.pin id
  | .unpin id => m.unpin id
  | .evict id => (m.evict cx id).2
  | .releaseAll order => m.releaseAll cx order
  | .setPrefetchEnabled enabled => { m with prefetchEnabled := enabled }

/-- The manager as a transition system, from its construction over an accelerator memory in the
state `accelMemory`. -/
def residencySystem {ρ σ α : Type} (cx : ResidencyContext ρ σ α) (accelMemory : σ) :
    TransitionSystem (ModelResidencyManager σ) (ResidencyOp ρ α) where
  Init m := m = .construct accelMemory
  Step m op m' := m' = m.apply cx op

end HeteroAccel
