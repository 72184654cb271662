import HeteroAccel.Model.Residency.AcceleratorBudget

/-!
# What a resident region holds

A record keeps the region it was created with, so a request for an id that is on record is served
with the bytes of the region on record, whatever the request's own offset and size. A region that
is pinned where it is resident stays there, with its bytes, until it is unpinned or everything is
released.

## Main definitions

* `ramPointer_ensureResident_iff`: when a successful request exposes the bytes it asked for;
* `KeepsPin`: the calls that leave a region's pins alone;
* `pinned_stays_resident`: pins over whole runs.
-/

namespace HeteroAccel

open ModelResidencyManager

variable {ρ σ α : Type} {cx : ResidencyContext ρ σ α} {m m' : ModelResidencyManager σ}
  {id : UInt64} {rec rec' : Record}

/-! ## The bytes of a request -/

/-- A resident region exposes the bytes of the region on record. -/
theorem ModelResidencyManager.Accounted.ramPointer_eq (h : Accounted cx m)
    (hrec : m.records.lookup id = some rec) (hres : rec.state.satisfies .ram = true) :
    ∃ bytes, m.ramPointer id = some bytes ∧
      fileSlice cx.source.content rec.region.offset rec.region.size = some bytes := by
  have hrest := h.atRest id rec hrec
  obtain ⟨bytes, hram⟩ := Option.isSome_iff_exists.mp (hrest.ram_iff.mpr hres)
  refine ⟨bytes, ?_, hrest.content bytes hram⟩
  simp [ramPointer, hrec, hres, hram]

/-- A successful request exposes the requested bytes exactly when the region on record under its
id, if there is one, names the same bytes of the file. -/
theorem ramPointer_ensureResident_iff (cx : ResidencyContext ρ σ α) (accelMemory : σ)
    (m m' : ModelResidencyManager σ) (region : ModelRegion) (target : ModelResidencyTarget)
    (call : ResidencyCall ρ α)
    (hreach : (residencySystem cx accelMemory).Reachable TransitionSystem.anyCall m)
    (hok : m.ensureResident cx region target call = (.ok (), m')) :
    (∃ bytes, m'.ramPointer region.id = some bytes ∧
      fileSlice cx.source.content region.offset region.size = some bytes) ↔
    ∀ rec, m.records.lookup region.id = some rec →
      fileSlice cx.source.content rec.region.offset rec.region.size =
        fileSlice cx.source.content region.offset region.size := by
  obtain ⟨hkeys, hacc⟩ := Accounted.of_reachable hreach
  have hvalid : region.valid = true := by
    by_contra hinvalid
    rw [ModelResidencyManager.ensureResident, if_pos hinvalid] at hok
    cases hok
  have houtcome : Outcome cx m region.id (m.requested region) target
    (m.ensureResident cx region target call) := ensureResident_outcome hkeys hvalid
  rw [hok] at houtcome
  have hacc' : Accounted cx m' :=
    hacc.steps houtcome.steps
  -- the record's own region decides what is exposed
  obtain ⟨rec', hrec', hregion⟩ := houtcome.tracks
  obtain ⟨rec₁, hrec₁, hsat⟩ := houtcome.resident rfl
  rw [hrec'] at hrec₁
  cases hrec₁
  obtain ⟨bytes, hptr, hslice⟩ := hacc'.ramPointer_eq hrec' (ModelResidencyState.satisfies_ram hsat)
  rw [hregion] at hslice
  unfold requested at hslice
  constructor
  · rintro ⟨bytes', hptr', hslice'⟩ rec hrec
    rw [hptr] at hptr'
    cases hptr'
    rw [hrec] at hslice
    exact hslice.trans hslice'.symm
  · intro hsame
    refine ⟨bytes, hptr, ?_⟩
    cases hrec : m.records.lookup region.id with
    | none =>
      rw [hrec] at hslice
      exact hslice
    | some rec =>
      rw [hrec] at hslice
      rw [← hsame rec hrec]
      exact hslice

/-- The first request for the two bytes at offset 2 exposes them. -/
theorem ramPointer_ensureResident_iff_sample :
    let m := sampleRun []
    let call := m.ensureResident sampleContext (sampleRegion 1 2) .ram (sampleCall 1)
    (∃ bytes, call.2.ramPointer 1 = some bytes ∧
      fileSlice sampleContext.source.content 2 2 = some bytes) ↔
    ∀ rec, m.records.lookup 1 = some rec →
      fileSlice sampleContext.source.content rec.region.offset rec.region.size =
        fileSlice sampleContext.source.content 2 2 := by
  intro m call
  have hok : call.1 = .ok () := by decide +kernel
  exact ramPointer_ensureResident_iff sampleContext (.construct 4) m call.2 (sampleRegion 1 2) .ram
    (sampleCall 1) (reachable_foldl _ _ []) (Prod.ext hok rfl)

/-- Asking for id 1 at offset 0 and then at offset 2 exposes the bytes at offset 0 both times. -/
theorem not_ramPointer_eq_requested :
    ¬ ∀ m m' region target call,
      (residencySystem sampleContext (.construct 4)).Reachable TransitionSystem.anyCall m →
      m.ensureResident sampleContext region target call = (.ok (), m') →
      ∃ bytes, m'.ramPointer region.id = some bytes ∧
        fileSlice sampleContext.source.content region.offset region.size = some bytes := by
  intro hall
  let m := sampleRun [.ensureResident (sampleRegion 1 0) .ram (sampleCall 1)]
  let call := m.ensureResident sampleContext (sampleRegion 1 2) .ram (sampleCall 2)
  have hok : call.1 = .ok () := by decide +kernel
  obtain ⟨bytes, hptr, hslice⟩ := hall m call.2 (sampleRegion 1 2) .ram (sampleCall 2)
    (reachable_foldl _ _ _) (Prod.ext hok rfl)
  have hexposed : call.2.ramPointer 1 = some [10, 11] := by decide +kernel
  have hasked : fileSlice sampleContext.source.content 2 2 = some [12, 13] := by decide +kernel
  have hbytes : some [10, 11] = some bytes := hexposed.symm.trans hptr
  have hbytes' : some [12, 13] = some bytes := hasked.symm.trans hslice
  rw [← hbytes'] at hbytes
  revert hbytes
  decide

/-! ## Pins -/

/-- The calls that neither unpin the region `id` nor release everything. -/
def KeepsPin (id : UInt64) (_ : ModelResidencyManager σ) (op : ResidencyOp ρ α) : Prop :=
  op ≠ .unpin id ∧ ∀ order, op ≠ .releaseAll order

namespace ModelResidencyManager

/-- The region `id` is pinned, and holds what the record `rec₀` held where that was resident. -/
structure PinnedAs (id : UInt64) (rec₀ : Record) (m : ModelResidencyManager σ) (rec : Record) :
    Prop where
  lookup : m.records.lookup id = some rec
  pinned : 0 < rec.pins
  ram : rec.ram = rec₀.ram
  inRam : rec.state.satisfies .ram = true
  onAccelerator : rec₀.state = .residentInAccelerator →
    rec.state = .residentInAccelerator ∧ rec.accel = rec₀.accel

/-- The region `id` is pinned where `rec₀` was resident. -/
def StaysPinned (id : UInt64) (rec₀ : Record) (m : ModelResidencyManager σ) : Prop :=
  ∃ rec, PinnedAs id rec₀ m rec

namespace PinnedAs

variable {rec₀ : Record}

theorem busy (h : PinnedAs id rec₀ m rec) : rec.busy = true := by
  simp [Record.busy, h.pinned]

/-- A change that keeps the record. -/
theorem of_lookup_eq (h : PinnedAs id rec₀ m rec)
    (hsame : m'.records.lookup id = m.records.lookup id) : StaysPinned id rec₀ m' :=
  ⟨rec, { h with lookup := hsame.trans h.lookup }⟩

/-- A change that writes a record: another one, or this one with pins and buffers kept. -/
theorem of_insert (h : PinnedAs id rec₀ m rec) {id' : UInt64} {rec' : Record}
    (hrecords : m'.records = m.records.insert id' rec')
    (hself : id' = id → PinnedAs id rec₀ m' rec') : StaysPinned id rec₀ m' := by
  by_cases hid : id' = id
  · exact ⟨rec', hself hid⟩
  · refine h.of_lookup_eq ?_
    rw [hrecords, AList.lookup_insert_ne (Ne.symm hid)]

/-- A failed upload leaves a record that was in RAM as it was. -/
theorem uploadFailed (h : PinnedAs id rec₀ m rec) {M : IAcceleratorMemory σ α} {a : σ}
    {id' : UInt64} {rec' : Record} (hrec : m.records.lookup id' = some rec')
    (hstate : rec'.state = .residentInRam) :
    StaysPinned id rec₀ (m.uploadFailed id' rec' M a).2 := by
  refine h.of_insert rfl fun hid => ?_
  subst hid
  cases h.lookup.symm.trans hrec
  exact ⟨AList.lookup_insert _, h.pinned, h.ram, rfl, fun haccel => by
    have := (h.onAccelerator haccel).1
    rw [hstate] at this
    cases this⟩

end PinnedAs

/-- No elementary change takes a pinned region from where it is resident. -/
theorem StaysPinned.step {rec₀ : Record} (h : StaysPinned id rec₀ m)
    (hstep : ResidencyStep cx m m') : StaysPinned id rec₀ m' := by
  obtain ⟨rec, h⟩ := h
  cases hstep with
  | note hrecords => exact h.of_lookup_eq (by rw [hrecords])
  | create _ hnew =>
    refine h.of_insert setRecord_records fun hid => ?_
    subst hid
    rw [h.lookup] at hnew
    cases hnew
  | mark lastUsed pins prefetched hrec hpins =>
    refine h.of_insert setRecord_records fun hid => ?_
    subst hid
    cases h.lookup.symm.trans hrec
    exact ⟨AList.lookup_insert _, lt_of_lt_of_le h.pinned hpins, h.ram, h.inRam, h.onAccelerator⟩
  | drop hrec hidle =>
    rename_i id' rec'
    -- an idle region is not pinned
    have hid : id ≠ id' := by
      rintro rfl
      cases h.lookup.symm.trans hrec
      rw [h.busy] at hidle
      cases hidle
    exact h.of_lookup_eq (by rw [lookup_dropRecord, if_neg hid])
  | demote _ hrec hidle =>
    refine h.of_insert demote_records fun hid => ?_
    subst hid
    cases h.lookup.symm.trans hrec
    rw [h.busy] at hidle
    cases hidle
  | loadFailed _ hrec hstate =>
    refine h.of_insert rfl fun hid => ?_
    subst hid
    cases h.lookup.symm.trans hrec
    rw [h.inRam] at hstate
    cases hstate
  | loaded hrec hstate =>
    refine h.of_insert rfl fun hid => ?_
    subst hid
    cases h.lookup.symm.trans hrec
    rw [h.inRam] at hstate
    cases hstate
  | uploadRefused _ _ hrec hstate => exact h.uploadFailed hrec hstate
  | uploadAborted _ _ hrec hstate => exact h.uploadFailed hrec hstate
  | uploaded _ _ hrec hstate =>
    refine h.of_insert rfl fun hid => ?_
    subst hid
    cases h.lookup.symm.trans hrec
    refine ⟨AList.lookup_insert _, h.pinned, h.ram, rfl, fun haccel => ?_⟩
    have := (h.onAccelerator haccel).1
    rw [hstate] at this
    cases this

/-- Unpinning another region does not touch this one. -/
theorem StaysPinned.unpin {rec₀ : Record} (h : StaysPinned id rec₀ m) {id' : UInt64}
    (hid : id' ≠ id) : StaysPinned id rec₀ (m.unpin id') := by
  obtain ⟨rec, h⟩ := h
  unfold ModelResidencyManager.unpin
  cases hrec : m.records.lookup id' with
  | none => exact ⟨rec, h⟩
  | some rec' =>
    dsimp only
    split
    next => exact h.of_insert setRecord_records fun heq => absurd heq hid
    next => exact ⟨rec, h⟩

/-- A run that keeps the pins of a region keeps the region where it is. -/
theorem StaysPinned.run {rec₀ : Record} {accelMemory : σ} (hkeys : m.KeysMatch)
    (h : StaysPinned id rec₀ m)
    (hrun : (residencySystem cx accelMemory).Run (KeepsPin id) m m') : StaysPinned id rec₀ m' := by
  refine (hrun.preserves (P := fun m => m.KeysMatch ∧ StaysPinned id rec₀ m) ?_ ⟨hkeys, h⟩).2
  rintro m op m' ⟨hkeys, h⟩ ⟨hunpin, hrelease⟩ rfl
  by_cases hother : ∃ id', op = .unpin id'
  · obtain ⟨id', rfl⟩ := hother
    exact ⟨hkeys.unpin id', h.unpin fun heq => hunpin (by rw [heq])⟩
  · have hsteps : ResidencySteps cx m (m.apply cx op) :=
      apply_steps hkeys op (fun id' heq => hother ⟨id', heq⟩) hrelease
    exact TransitionSystem.preserves_reflTransGen
      (P := fun m => m.KeysMatch ∧ StaysPinned id rec₀ m)
      (fun _ _ h hs => ⟨h.1.step hs, h.2.step hs⟩) hsteps ⟨hkeys, h⟩

/-- The bytes of a region on the accelerator. -/
def accelContents {M : IAcceleratorMemory σ α} {capacity : ℕ} (spec : M.Spec capacity)
    (m : ModelResidencyManager σ) (id : UInt64) : Option (List UInt8) :=
  (m.recordAt id).accel.bind (spec.buffers m.accelMemory).lookup

/-- The bytes a region on the accelerator has there are those it has in RAM. -/
theorem AccelHolds.accelContents_eq {M : IAcceleratorMemory σ α} {capacity : ℕ}
    {spec : M.Spec capacity} {foreign : ℕ} (h : AccelHolds spec foreign m) {p : ℕ}
    (hrec : m.records.lookup id = some rec) (hp : rec.accel = some p) :
    accelContents spec m id = rec.ram := by
  obtain ⟨bytes, hram, hlookup⟩ := h.holds id rec p hrec hp
  rw [accelContents, recordAt_of_lookup hrec, hp, hram]
  exact hlookup

end ModelResidencyManager

/-- A region that is pinned while it is resident stays resident where it was, with the same bytes
in RAM and on the accelerator, through every run without an unpin of it and without a
`releaseAll`. -/
theorem pinned_stays_resident (cx : ResidencyContext ρ σ α) (accelMemory : σ)
    (m m' : ModelResidencyManager σ) (id : UInt64) (target : ModelResidencyTarget)
    (hreach : (residencySystem cx accelMemory).Reachable TransitionSystem.anyCall m)
    (hresident : m.isResident id target = true) (hpinned : 0 < (m.recordAt id).pins)
    (hrun : (residencySystem cx accelMemory).Run (KeepsPin id) m m') :
    m'.isResident id target = true ∧
      (m.ramPointer id).isSome = true ∧ m'.ramPointer id = m.ramPointer id ∧
      (target = .accelerator → ∀ (M : IAcceleratorMemory σ α) (capacity : ℕ)
        (spec : M.Spec capacity), cx.accelerator = some M → spec.Valid accelMemory →
          accelContents spec m id = m.ramPointer id ∧
            accelContents spec m' id = accelContents spec m id) := by
  obtain ⟨hkeys, hacc⟩ := Accounted.of_reachable hreach
  have hreach' : (residencySystem cx accelMemory).Reachable TransitionSystem.anyCall m' :=
    hreach.run (hrun.mono fun _ _ _ => trivial)
  cases hrec : m.records.lookup id with
  | none => simp [isResident, hrec] at hresident
  | some rec =>
    rw [recordAt_of_lookup hrec] at hpinned
    simp only [isResident, hrec] at hresident
    have hram : rec.state.satisfies .ram = true := ModelResidencyState.satisfies_ram hresident
    -- the run keeps the pinned record where it is
    have hstart : StaysPinned id rec m := ⟨rec, hrec, hpinned, rfl, hram, fun h => ⟨h, rfl⟩⟩
    obtain ⟨rec', hend⟩ := hstart.run hkeys hrun
    have hptr : m.ramPointer id = rec.ram := by simp [ramPointer, hrec, hram]
    have hptr' : m'.ramPointer id = rec.ram := by
      simp [ramPointer, hend.lookup, hend.inRam, hend.ram]
    refine ⟨?_, ?_, hptr'.trans hptr.symm, ?_⟩
    · simp only [isResident, hend.lookup]
      cases target with
      | ram => exact hend.inRam
      | accelerator =>
        simp only [ModelResidencyState.satisfies, decide_eq_true_eq] at hresident ⊢
        exact (hend.onAccelerator hresident).1
    · rw [hptr]
      exact (hacc.atRest id rec hrec).ram_iff.mpr hram
    · rintro rfl M capacity spec hM hvalid
      have hstate : rec.state = .residentInAccelerator := by
        simpa [ModelResidencyState.satisfies] using hresident
      obtain ⟨p, hp⟩ := Option.isSome_iff_exists.mp
        ((hacc.atRest id rec hrec).accel_iff.mpr hresident)
      have hp' : rec'.accel = some p := (hend.onAccelerator hstate).2.trans hp
      -- the device holds the bytes of RAM, at the start and at the end
      obtain ⟨_, hholds⟩ := AccelHolds.of_reachable hM hvalid hreach
      obtain ⟨_, hholds'⟩ := AccelHolds.of_reachable hM hvalid hreach'
      have hcontents := hholds.accelContents_eq hrec hp
      have hcontents' := hholds'.accelContents_eq hend.lookup hp'
      exact ⟨hcontents.trans hptr.symm, by rw [hcontents', hcontents, hend.ram]⟩

/-- A pinned region on a full accelerator stays there while requests for more room fail. -/
theorem pinned_stays_resident_sample :
    let m := sampleRun [.ensureResident (sampleRegion 1 0) .accelerator (sampleCall 1), .pin 1]
    let op := .ensureResident { id := 2, offset := 2, size := 4 } .accelerator (sampleCall 2)
    let m' := m.apply sampleContext op
    m'.isResident 1 .accelerator = true ∧ m'.ramPointer 1 = m.ramPointer 1 := by
  intro m op m'
  have hkeeps : KeepsPin 1 m op := ⟨nofun, nofun⟩
  have hrun : (residencySystem sampleContext (.construct 4)).Run (KeepsPin 1) m m' :=
    .tail (.refl m) hkeeps rfl
  have hstays := pinned_stays_resident sampleContext (.construct 4) m m' 1 .accelerator
    (reachable_foldl _ _ _) (by decide +kernel) (by decide +kernel) hrun
  exact ⟨hstays.1, hstays.2.2.1⟩

end HeteroAccel
