import HeteroAccel.Model.Residency.Calls

/-!
# Accounting and the RAM budget

Between two calls every record is at rest: its buffers are those its state promises, and they hold
the region's bytes. The byte counters are the sums over the records that own a buffer, and RAM
never exceeds the budget.

## Main definitions

* `Record.AtRest`: what a record is between two calls;
* `Accounted`: the invariant of the manager, kept by every elementary change;
* `residency_accounting`: the accounting of every reachable state.
-/

namespace HeteroAccel

variable {ρ σ α : Type} {cx : ResidencyContext ρ σ α}

/-- The bytes a record owns in RAM. -/
def Record.ramSize (rec : Record) : ℕ := if rec.ram.isSome then rec.region.size.toNat else 0

/-- The bytes a record owns on the accelerator. -/
def Record.accelSize (rec : Record) : ℕ := if rec.accel.isSome then rec.region.size.toNat else 0

/-- A record between two calls. -/
structure Record.AtRest (cx : ResidencyContext ρ σ α) (rec : Record) : Prop where
  valid : rec.region.valid = true
  refs : rec.refs = 0
  transferring : rec.transferring = false
  /-- No state in the middle of a load, an upload or an eviction. -/
  settled : rec.state = .notResident ∨ rec.state = .residentInRam ∨
    rec.state = .residentInAccelerator ∨ rec.state = .error
  /-- A region that is resident owns a RAM buffer, and no other does. -/
  ram_iff : rec.ram.isSome = true ↔ rec.state.satisfies .ram = true
  /-- A region that is resident on the accelerator owns a buffer there, and no other does. -/
  accel_iff : rec.accel.isSome = true ↔ rec.state.satisfies .accelerator = true
  /-- Without an accelerator there are no accelerator buffers. -/
  attached : rec.accel.isSome = true → cx.accelerator.isSome = true
  /-- The RAM buffer holds the region's bytes. -/
  content : ∀ bytes, rec.ram = some bytes →
    fileSlice cx.source.content rec.region.offset rec.region.size = some bytes

namespace Record.AtRest

variable {rec : Record}

/-- A record at rest is busy exactly when it is pinned. -/
theorem busy_eq (h : rec.AtRest cx) : rec.busy = decide (0 < rec.pins) := by
  simp [Record.busy, h.refs, h.transferring]

/-- A region on record is not empty. -/
theorem size_ne_zero (h : rec.AtRest cx) : rec.region.size ≠ 0 := by
  have hpos := h.valid
  simp only [ModelRegion.valid, decide_eq_true_eq] at hpos
  exact UInt64.pos_iff_ne_zero.mp hpos

/-- At rest a buffer has the length that it counts for. -/
theorem ramLength_eq (h : rec.AtRest cx) : rec.ramLength = rec.ramSize := by
  unfold Record.ramLength Record.ramSize
  cases hram : rec.ram with
  | none => rfl
  | some bytes => simpa using length_of_fileSlice (h.content bytes hram)

/-- A region at rest in RAM counts with its size. -/
theorem ramSize_eq (h : rec.AtRest cx) (hstate : rec.state.satisfies .ram = true) :
    rec.ramSize = rec.region.size.toNat := by
  rw [Record.ramSize, if_pos (h.ram_iff.mpr hstate)]

/-- What is on the accelerator is in RAM too. -/
theorem accelSize_le (h : rec.AtRest cx) : rec.accelSize ≤ rec.ramSize := by
  unfold Record.accelSize Record.ramSize
  split
  next haccel =>
    have hstate := h.accel_iff.mp haccel
    have hram : rec.ram.isSome = true := by
      refine h.ram_iff.mpr ?_
      simp only [ModelResidencyState.satisfies, decide_eq_true_eq] at hstate
      simp [ModelResidencyState.satisfies, hstate]
    rw [if_pos hram]
  next => exact Nat.zero_le _

/-- A region at rest that is not in RAM has no buffer. -/
theorem ram_eq_none (h : rec.AtRest cx) (hstate : rec.state.satisfies .ram = false) :
    rec.ram = none := by
  rw [← Option.not_isSome_iff_eq_none, h.ram_iff, hstate]
  decide

/-- A region at rest that is not on the accelerator has no place there. -/
theorem accel_eq_none (h : rec.AtRest cx) (hstate : rec.state.satisfies .accelerator = false) :
    rec.accel = none := by
  rw [← Option.not_isSome_iff_eq_none, h.accel_iff, hstate]
  decide

/-- What is not in RAM is not on the accelerator. -/
theorem satisfies_accelerator_of_ram (hstate : rec.state.satisfies .ram = false) :
    rec.state.satisfies .accelerator = false := by
  simp only [ModelResidencyState.satisfies, Bool.or_eq_false_iff] at hstate ⊢
  exact hstate.2

end Record.AtRest

namespace ModelResidencyManager

variable {m m' : ModelResidencyManager σ} {id : UInt64} {rec rec' : Record}

/-- The bytes in RAM, summed over the records. -/
def ramTotal (m : ModelResidencyManager σ) : ℕ :=
  KeyedMap.total (fun _ rec => rec.ramSize) m.records

/-- The bytes on the accelerator, summed over the records. -/
def accelTotal (m : ModelResidencyManager σ) : ℕ :=
  KeyedMap.total (fun _ rec => rec.accelSize) m.records

/-- The invariant of the manager between two calls. -/
structure Accounted (cx : ResidencyContext ρ σ α) (m : ModelResidencyManager σ) : Prop where
  atRest : ∀ id rec, m.records.lookup id = some rec → rec.AtRest cx
  ram_eq : m.telemetry.residentRamBytes.toNat = m.ramTotal
  accel_eq : m.telemetry.residentAcceleratorBytes.toNat = m.accelTotal
  ram_le : m.ramTotal ≤ cx.budget.ramBytes.toNat
  host_le : m.ramTotal ≤ cx.hostBytes

namespace Accounted

/-- What the records own in RAM is what they count. -/
theorem ramOwned_eq (h : Accounted cx m) : m.ramOwned = m.ramTotal :=
  KeyedMap.total_congr fun id rec hrec => (h.atRest id rec hrec).ramLength_eq

/-- What is on the accelerator is in RAM, too. -/
theorem accelTotal_le (h : Accounted cx m) : m.accelTotal ≤ m.ramTotal :=
  KeyedMap.total_le_total fun id rec hrec => (h.atRest id rec hrec).accelSize_le

theorem ramTotal_lt (h : Accounted cx m) : m.ramTotal < 2 ^ 63 :=
  lt_of_le_of_lt h.host_le cx.hostBytes_lt

/-- The records at rest after one record is written. -/
theorem atRest_insert (h : Accounted cx m) (hrest : rec'.AtRest cx)
    (hrecords : m'.records = m.records.insert id rec') :
    ∀ id rec, m'.records.lookup id = some rec → rec.AtRest cx := by
  intro id' rec hrec
  rw [hrecords, KeyedMap.lookup_insert_eq_ite] at hrec
  split at hrec
  next => cases hrec; exact hrest
  next => exact h.atRest id' rec hrec

/-- The totals after one record is replaced. -/
theorem totals_insert (m' : ModelResidencyManager σ) (hrec : m.records.lookup id = some rec)
    (hrecords : m'.records = m.records.insert id rec') :
    m'.ramTotal + rec.ramSize = m.ramTotal + rec'.ramSize ∧
      m'.accelTotal + rec.accelSize = m.accelTotal + rec'.accelSize := by
  unfold ramTotal accelTotal
  rw [hrecords]
  exact ⟨KeyedMap.total_insert_of_lookup (f := fun _ rec => rec.ramSize) hrec,
    KeyedMap.total_insert_of_lookup (f := fun _ rec => rec.accelSize) hrec⟩

/-- Replacing a record by one that owns the same buffers. -/
theorem of_insert_same (h : Accounted cx m) (hrec : m.records.lookup id = some rec)
    (hrecords : m'.records = m.records.insert id rec') (hrest : rec'.AtRest cx)
    (hram : rec'.ramSize = rec.ramSize) (haccel : rec'.accelSize = rec.accelSize)
    (hcounters : m.SameCounters m') : Accounted cx m' := by
  obtain ⟨hramTotal, haccelTotal⟩ := totals_insert m' hrec hrecords
  have hramSame : m'.ramTotal = m.ramTotal := by omega
  have haccelSame : m'.accelTotal = m.accelTotal := by omega
  exact {
    atRest := h.atRest_insert hrest hrecords
    ram_eq := by rw [hcounters.1, hramSame, h.ram_eq]
    accel_eq := by rw [hcounters.2, haccelSame, h.accel_eq]
    ram_le := hramSame ▸ h.ram_le
    host_le := hramSame ▸ h.host_le }

theorem create (h : Accounted cx m) {region : ModelRegion} (hvalid : region.valid = true)
    (hnew : m.records.lookup region.id = none) :
    Accounted cx (m.setRecord region.id { region }) := by
  have hrest : Record.AtRest cx { region } := by
    refine ⟨hvalid, rfl, rfl, .inl rfl, ?_, ?_, ?_, ?_⟩ <;> simp [ModelResidencyState.satisfies]
  have hram : (m.setRecord region.id { region }).ramTotal = m.ramTotal := by
    simp [ramTotal, KeyedMap.total_insert_of_notMem hnew, Record.ramSize]
  have haccel : (m.setRecord region.id { region }).accelTotal = m.accelTotal := by
    simp [accelTotal, KeyedMap.total_insert_of_notMem hnew, Record.accelSize]
  exact {
    atRest := h.atRest_insert hrest rfl
    ram_eq := h.ram_eq.trans hram.symm
    accel_eq := h.accel_eq.trans haccel.symm
    ram_le := hram.le.trans h.ram_le
    host_le := hram.le.trans h.host_le }

/-- A dropped record keeps the accounts. -/
theorem drop (h : Accounted cx m) (hrec : m.records.lookup id = some rec) :
    Accounted cx (m.dropRecord cx id rec) := by
  have hrest := h.atRest id rec hrec
  -- the record leaves both totals
  have hram : (m.dropRecord cx id rec).ramTotal + rec.ramSize = m.ramTotal := by
    unfold ramTotal
    rw [dropRecord_records]
    exact KeyedMap.total_erase (f := fun _ rec => rec.ramSize) hrec
  have haccel : (m.dropRecord cx id rec).accelTotal + rec.accelSize = m.accelTotal := by
    unfold accelTotal
    rw [dropRecord_records]
    exact KeyedMap.total_erase (f := fun _ rec => rec.accelSize) hrec
  refine ⟨?atRest, ?ram_eq, ?accel_eq, ?ram_le, ?host_le⟩
  case atRest =>
    intro id' rec' hrec'
    rw [lookup_dropRecord] at hrec'
    split at hrec'
    next => cases hrec'
    next => exact h.atRest id' rec' hrec'
  case ram_eq =>
    have heq := h.ram_eq
    rw [dropRecord_residentRamBytes]
    unfold Record.ramSize at hram
    split
    next hsome =>
      rw [if_pos hsome] at hram
      rw [toNat_decrease]
      omega
    next hnone =>
      rw [if_neg hnone] at hram
      omega
  case accel_eq =>
    have heq := h.accel_eq
    rw [dropRecord_residentAcceleratorBytes]
    unfold Record.accelSize at haccel
    by_cases hsome : rec.accel.isSome = true
    · rw [if_pos hsome] at haccel
      rw [if_pos ⟨hsome, hrest.attached hsome⟩, toNat_decrease]
      omega
    · rw [if_neg hsome] at haccel
      rw [if_neg fun hboth => hsome hboth.1]
      omega
  case ram_le =>
    have := h.ram_le
    omega
  case host_le =>
    have := h.host_le
    omega

theorem demote (h : Accounted cx m) {M : IAcceleratorMemory σ α} {p : ℕ}
    (hrec : m.records.lookup id = some rec) (hstate : rec.state = .residentInAccelerator)
    (hp : rec.accel = some p) : Accounted cx (m.demote M id rec p) := by
  have hrest := h.atRest id rec hrec
  have hramSome : rec.ram.isSome = true := by
    refine hrest.ram_iff.mpr ?_
    simp [ModelResidencyState.satisfies, hstate]
  obtain ⟨hramTotal, haccelTotal⟩ := totals_insert (m.demote M id rec p) hrec demote_records
  simp only [Record.ramSize, Record.accelSize, hp, Option.isSome_some, Option.isSome_none,
    ↓reduceIte, Bool.false_eq_true] at hramTotal haccelTotal
  have hrest' : Record.AtRest cx { rec with accel := none, state := .residentInRam } := by
    refine ⟨hrest.valid, hrest.refs, hrest.transferring, .inr (.inl rfl), ?_, ?_, ?_,
      hrest.content⟩ <;> simp [ModelResidencyState.satisfies, hramSome]
  have hle := h.ram_le
  have hhost := h.host_le
  have hramEq := h.ram_eq
  have haccelEq := h.accel_eq
  refine ⟨h.atRest_insert hrest' demote_records, ?_, ?_, by omega, by omega⟩
  · change m.telemetry.residentRamBytes.toNat = _
    omega
  · change (decrease m.telemetry.residentAcceleratorBytes rec.region.size).toNat = _
    rw [toNat_decrease]
    omega

theorem loaded (h : Accounted cx m) {bytes : List UInt8} (hrec : m.records.lookup id = some rec)
    (hstate : rec.state.satisfies .ram = false)
    (hroom : ¬ m.telemetry.residentRamBytes + rec.region.size > cx.budget.ramBytes)
    (hhost : m.ramOwned + rec.region.size.toNat ≤ cx.hostBytes)
    (hread : fileSlice cx.source.content rec.region.offset rec.region.size = some bytes) :
    Accounted cx (m.loaded id rec bytes) := by
  have hrest := h.atRest id rec hrec
  have hram := hrest.ram_eq_none hstate
  have haccel := hrest.accel_eq_none (Record.AtRest.satisfies_accelerator_of_ram hstate)
  obtain ⟨hramTotal, haccelTotal⟩ := totals_insert (m.loaded id rec bytes) hrec rfl
  simp only [Record.ramSize, Record.accelSize, hram, haccel, Option.isSome_some,
    Option.isSome_none, ↓reduceIte, Bool.false_eq_true] at hramTotal haccelTotal
  have hrest' : Record.AtRest cx
      { rec with ram := some bytes, state := .residentInRam, transferring := false } := by
    refine ⟨hrest.valid, hrest.refs, rfl, .inr (.inl rfl), ?_, ?_, ?_, ?_⟩
    · simp [ModelResidencyState.satisfies]
    · simp [ModelResidencyState.satisfies, haccel]
    · simp [haccel]
    · rintro _ ⟨⟩
      exact hread
  have hramEq := h.ram_eq
  have haccelEq := h.accel_eq
  rw [h.ramOwned_eq] at hhost
  have hlt := cx.hostBytes_lt
  -- the host bound keeps the sum of 64 bits from wrapping
  have hsum : (m.telemetry.residentRamBytes + rec.region.size).toNat =
      m.telemetry.residentRamBytes.toNat + rec.region.size.toNat := by
    rw [UInt64.toNat_add]
    exact Nat.mod_eq_of_lt (by omega)
  have hfits := UInt64.le_iff_toNat_le.mp (UInt64.not_lt.mp hroom)
  rw [hsum] at hfits
  refine ⟨h.atRest_insert hrest' rfl, ?_, ?_, by omega, by omega⟩
  · change (m.telemetry.residentRamBytes + rec.region.size).toNat = _
    omega
  · change m.telemetry.residentAcceleratorBytes.toNat = _
    omega

theorem uploaded (h : Accounted cx m) {M : IAcceleratorMemory σ α} {dst : ℕ} {a : σ}
    (hM : cx.accelerator = some M) (hrec : m.records.lookup id = some rec)
    (hstate : rec.state = .residentInRam) : Accounted cx (m.uploaded id rec dst a) := by
  have hrest := h.atRest id rec hrec
  have hramSome : rec.ram.isSome = true := by
    refine hrest.ram_iff.mpr ?_
    simp [ModelResidencyState.satisfies, hstate]
  have haccel : rec.accel = none :=
    hrest.accel_eq_none (by simp [ModelResidencyState.satisfies, hstate])
  obtain ⟨hramTotal, haccelTotal⟩ := totals_insert (m.uploaded id rec dst a) hrec rfl
  simp only [Record.ramSize, Record.accelSize, haccel, Option.isSome_some, Option.isSome_none,
    ↓reduceIte, Bool.false_eq_true] at hramTotal haccelTotal
  have hrest' : Record.AtRest cx
      { rec with accel := some dst, state := .residentInAccelerator, transferring := false } := by
    refine ⟨hrest.valid, hrest.refs, rfl, .inr (.inr (.inl rfl)), ?_, ?_, ?_, hrest.content⟩ <;>
      simp [ModelResidencyState.satisfies, hramSome, hM]
  have hrests : ∀ id' rec₁, (m.uploaded id rec dst a).records.lookup id' = some rec₁ →
      rec₁.AtRest cx := h.atRest_insert hrest' rfl
  -- the new total is bounded by what is in RAM, so the counter does not wrap
  have hbound : (m.uploaded id rec dst a).accelTotal ≤ (m.uploaded id rec dst a).ramTotal :=
    KeyedMap.total_le_total fun id' rec₁ hrec₁ => (hrests id' rec₁ hrec₁).accelSize_le
  have hlt := h.ramTotal_lt
  have hle := h.ram_le
  have hhost := h.host_le
  have hramEq := h.ram_eq
  have haccelEq := h.accel_eq
  refine ⟨hrests, ?_, ?_, by omega, by omega⟩
  · change m.telemetry.residentRamBytes.toNat = _
    omega
  · change (m.telemetry.residentAcceleratorBytes + rec.region.size).toNat = _
    rw [UInt64.toNat_add, Nat.mod_eq_of_lt (by omega)]
    omega

/-- A failed upload leaves the record in RAM. -/
theorem uploadFailed (h : Accounted cx m) {M : IAcceleratorMemory σ α} {a : σ}
    (hrec : m.records.lookup id = some rec) (hstate : rec.state = .residentInRam) :
    Accounted cx (m.uploadFailed id rec M a).2 := by
  have hrest := h.atRest id rec hrec
  have hrest' : Record.AtRest cx { rec with state := .residentInRam, transferring := false } := by
    rw [← hstate]
    exact ⟨hrest.valid, hrest.refs, rfl, hrest.settled, hrest.ram_iff, hrest.accel_iff,
      hrest.attached, hrest.content⟩
  exact h.of_insert_same hrec rfl hrest' rfl rfl ⟨rfl, rfl⟩

/-- Every elementary change keeps the accounts. -/
theorem step (h : Accounted cx m) (hstep : ResidencyStep cx m m') : Accounted cx m' := by
  -- one case for each kind of step
  cases hstep with
  | note hrecords _ hcounters =>
    refine ⟨?atRest, ?ram_eq, ?accel_eq, ?ram_le, ?host_le⟩
    case atRest =>
      rw [hrecords]
      exact h.atRest
    case ram_eq =>
      rw [hcounters.1, ramTotal, hrecords, ← ramTotal]
      exact h.ram_eq
    case accel_eq =>
      rw [hcounters.2, accelTotal, hrecords, ← accelTotal]
      exact h.accel_eq
    case ram_le =>
      rw [ramTotal, hrecords]
      exact h.ram_le
    case host_le =>
      rw [ramTotal, hrecords]
      exact h.host_le
  | create hvalid hnew => exact h.create hvalid hnew
  | mark _ _ _ hrec =>
    have hrest := h.atRest _ _ hrec
    refine h.of_insert_same hrec setRecord_records ?_ rfl rfl ⟨rfl, rfl⟩
    exact ⟨hrest.valid, hrest.refs, hrest.transferring, hrest.settled, hrest.ram_iff,
      hrest.accel_iff, hrest.attached, hrest.content⟩
  | drop hrec => exact h.drop hrec
  | demote _ hrec _ hstate hp => exact h.demote hrec hstate hp
  | loadFailed _ hrec hstate =>
    have hrest := h.atRest _ _ hrec
    have hram := hrest.ram_eq_none hstate
    have haccel := hrest.accel_eq_none (Record.AtRest.satisfies_accelerator_of_ram hstate)
    refine h.of_insert_same hrec rfl ?_ rfl rfl ⟨rfl, rfl⟩
    refine ⟨hrest.valid, hrest.refs, rfl, .inr (.inr (.inr rfl)), ?_, ?_, hrest.attached,
      hrest.content⟩
    · simp [hram, ModelResidencyState.satisfies]
    · simp [haccel, ModelResidencyState.satisfies]
  | loaded hrec hstate hroom hhost hread => exact h.loaded hrec hstate hroom hhost hread
  | uploadRefused _ _ hrec hstate => exact h.uploadFailed hrec hstate
  | uploadAborted _ _ hrec hstate => exact h.uploadFailed hrec hstate
  | uploaded _ hM hrec hstate => exact h.uploaded hM hrec hstate

/-- So do elementary changes one after the other. -/
theorem steps (h : Accounted cx m) (hsteps : ResidencySteps cx m m') : Accounted cx m' :=
  TransitionSystem.preserves_reflTransGen (P := Accounted cx) (fun _ _ h hs => h.step hs) hsteps h

/-- To unpin a region keeps the accounts. -/
theorem unpin (h : Accounted cx m) (id : UInt64) : Accounted cx (m.unpin id) := by
  unfold ModelResidencyManager.unpin
  cases hrec : m.records.lookup id with
  | none => exact h
  | some rec =>
    dsimp only
    split
    next =>
      have hrest := h.atRest _ _ hrec
      refine h.of_insert_same hrec setRecord_records ?_ rfl rfl ⟨rfl, rfl⟩
      exact ⟨hrest.valid, hrest.refs, hrest.transferring, hrest.settled, hrest.ram_iff,
        hrest.accel_iff, hrest.attached, hrest.content⟩
    next => exact h

/-- A manager without records is accounted for. -/
theorem of_empty (hrecords : m.records = ∅) (hram : m.telemetry.residentRamBytes = 0)
    (haccel : m.telemetry.residentAcceleratorBytes = 0) : Accounted cx m := by
  refine ⟨?atRest, ?ram_eq, ?accel_eq, ?ram_le, ?host_le⟩
  case atRest =>
    rw [hrecords]
    exact nofun
  case ram_eq => simp [hram, ramTotal, hrecords]
  case accel_eq => simp [haccel, accelTotal, hrecords]
  case ram_le => simp [ramTotal, hrecords]
  case host_le => simp [ramTotal, hrecords]

/-- Every reachable state keeps the accounts, and its records under their regions' ids. -/
theorem of_reachable {accelMemory : σ}
    {guard : ModelResidencyManager σ → ResidencyOp ρ α → Prop}
    (hreach : (residencySystem cx accelMemory).Reachable guard m) :
    m.KeysMatch ∧ Accounted cx m :=
  residency_invariant (P := Accounted cx) (of_empty rfl rfl rfl) (fun _ _ _ h hstep => h.step hstep)
    (fun _ id h => h.unpin id) (fun _ _ _ => of_empty rfl rfl rfl) hreach

end Accounted

end ModelResidencyManager

/-- In every reachable state the counters are the sums over the records that own a buffer, RAM is
within its budget, and every record is at rest with the buffers its state promises. -/
theorem residency_accounting (cx : ResidencyContext ρ σ α) (accelMemory : σ)
    (m : ModelResidencyManager σ)
    (hreach : (residencySystem cx accelMemory).Reachable TransitionSystem.anyCall m) :
    m.telemetry.residentRamBytes.toNat = m.ramTotal ∧
      m.telemetry.residentAcceleratorBytes.toNat = m.accelTotal ∧
      m.telemetry.residentRamBytes ≤ cx.budget.ramBytes ∧
      ∀ id rec, m.records.lookup id = some rec →
        (rec.state = .residentInRam → rec.ram.isSome = true) ∧
        (rec.state = .residentInAccelerator → rec.ram.isSome = true ∧ rec.accel.isSome = true) ∧
        rec.state ≠ .loadingToRam ∧ rec.state ≠ .loadingToAccelerator ∧
        rec.transferring = false := by
  obtain ⟨-, hacc⟩ := ModelResidencyManager.Accounted.of_reachable hreach
  refine ⟨hacc.ram_eq, hacc.accel_eq, ?_, fun id rec hrec => ?_⟩
  · rw [UInt64.le_iff_toNat_le, hacc.ram_eq]
    exact hacc.ram_le
  · have hrest := hacc.atRest id rec hrec
    refine ⟨fun hstate => ?_, fun hstate => ⟨?_, ?_⟩, ?_, ?_, hrest.transferring⟩
    · exact hrest.ram_iff.mpr (by simp [ModelResidencyState.satisfies, hstate])
    · exact hrest.ram_iff.mpr (by simp [ModelResidencyState.satisfies, hstate])
    · exact hrest.accel_iff.mpr (by simp [ModelResidencyState.satisfies, hstate])
    · rcases hrest.settled with h | h | h | h <;> simp [h]
    · rcases hrest.settled with h | h | h | h <;> simp [h]

/-! ## A small manager -/

/-- Eight bytes of model file. -/
def sampleFile : FileModelDataSource := .opened [10, 11, 12, 13, 14, 15, 16, 17] (by decide)

/-- A manager over the small file and a four-byte host accelerator: four bytes of RAM budget and
one byte of accelerator budget. -/
def sampleContext : ResidencyContext FileReadEnv HostAcceleratorMemory (Option ℕ) where
  source := sampleFile.toSource
  budget := { ramBytes := 4, acceleratorBytes := 1 }
  accelerator := some HostAcceleratorMemory.toInterface
  hostBytes := 1024
  hostBytes_lt := by decide

/-- A call at time `now` that meets no failure; an accelerator buffer would be placed at `now`. -/
def sampleCall (now : ℕ) : ResidencyCall FileReadEnv (Option ℕ) :=
  { now, cancelBeforeLoad := false, cancelBeforeUpload := false, hostNew := true,
    read := FileModelDataSource.calm, accel := some now, order := .stored }

/-- The two bytes of the small file at `offset`, under the given id. -/
def sampleRegion (id offset : UInt64) : ModelRegion := { id, offset, size := 2 }

/-- The small manager after the given calls. -/
def sampleRun (ops : List (ResidencyOp FileReadEnv (Option ℕ))) :
    ModelResidencyManager HostAcceleratorMemory :=
  ops.foldl (ModelResidencyManager.apply sampleContext) (.construct (.construct 4))

/-- The accounts of a run that uploads one region, loads two more and evicts one of the three. -/
theorem residency_accounting_sampleRun :
    let m := sampleRun [.ensureResident (sampleRegion 1 0) .accelerator (sampleCall 1),
      .ensureResident (sampleRegion 2 2) .ram (sampleCall 2), .pin 1,
      .ensureResident (sampleRegion 3 4) .ram (sampleCall 3)]
    m.telemetry.residentRamBytes = 4 ∧ m.telemetry.residentAcceleratorBytes = 2 ∧
      m.telemetry.residentRamBytes.toNat = m.ramTotal ∧
      m.telemetry.residentAcceleratorBytes.toNat = m.accelTotal := by
  intro m
  have hacc := residency_accounting sampleContext (.construct 4) m (reachable_foldl _ _ _)
  exact ⟨by decide +kernel, by decide +kernel, hacc.1, hacc.2.1⟩

end HeteroAccel
