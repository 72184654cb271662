import HeteroAccel.Model.Residency.AcceleratorBudget
import HeteroAccel.Model.Residency.Recency

/-!
# One request after the other

The invariant of `HeteroAccel.Model.Residency.Recency` is carried through a request. A request
keeps it when there is room beside what stays in use, whatever the order of the hash map is; and
when the regions that were placed before are where they were after it, if the clock and the order
of use leave nothing to the hash map.

## Main definitions

* `Outlasts`, `Falls`: a region of before that no request displaces, and one that some request
  displaces;
* `Room`: what the regions that are requested need;
* `Orderly`: the order of use decides which region a scan picks.

## Main results

* `InPlace.request`: a request whose scans are harmless leaves everything in its place;
* `scans_of_room`, `scans_of_spared`: they are with room for the regions, and if the regions that
  were placed are spared.
-/

namespace HeteroAccel.ModelResidencyManager

variable {ρ σ α : Type}

/-! ## Conditions on the manager before the requests -/

section Before

variable (cx : ResidencyContext ρ σ α) (m : ModelResidencyManager σ) (readings : List ℕ)

/-- A region is still in RAM after the regions `before` have been requested: it is fixed, or the
regions used no earlier leave room for them. -/
def Outlasts (before : List ModelRegion) (rec : Record) : Prop :=
  m.fixed .ram readings rec = true ∨
    m.bytesInUse .ram readings before (fun _ r => rec.lastUsed ≤ r.lastUsed) ≤
      cx.budget.ramBytes.toNat

/-- A region is no longer in RAM after the regions `before` have been requested: it is not fixed,
and the regions used after it leave no room for it beside them. -/
def Falls (before : List ModelRegion) (id : UInt64) (rec : Record) : Prop :=
  m.fixed .ram readings rec = false ∧ cx.budget.ramBytes.toNat <
    m.bytesInUse .ram readings before fun k r => k = id || rec.lastUsed < r.lastUsed

/-- The bytes on the accelerator that belong to no record. -/
def foreignBytes {M : IAcceleratorMemory σ α} {capacity : ℕ} (spec : M.Spec capacity) : ℕ :=
  bufferBytes (spec.buffers m.accelMemory) - m.accelTotal

/-- There is room for the regions, beside what stays in use: in RAM and, where this is the target,
on the accelerator. -/
structure Room {M : IAcceleratorMemory σ α} {capacity : ℕ} (spec : M.Spec capacity)
    (target : ModelResidencyTarget) (regions : List ModelRegion) : Prop where
  ram : m.bytesInUse .ram readings regions (fun _ _ => false) ≤ cx.budget.ramBytes.toNat
  accel : target = .accelerator →
    m.bytesInUse .accelerator readings regions (fun _ _ => false) + m.foreignBytes spec ≤ capacity

/-- The order of use decides which region a scan picks: the requests come later than everything that
is resident, no two idle regions were used at the same time, and an id stands for one size. -/
structure Orderly (regions : List ModelRegion) : Prop where
  earlier : ∀ k rec, m.records.lookup k = some rec → rec.state.satisfies .ram = true →
    ∀ now ∈ readings, rec.lastUsed < now
  distinct : ∀ k k' rec rec', m.records.lookup k = some rec → m.records.lookup k' = some rec' →
    rec.state.satisfies .ram = true → rec'.state.satisfies .ram = true → rec.pins = 0 →
    rec'.pins = 0 → rec.lastUsed = rec'.lastUsed → k = k'
  sizes : ∀ region ∈ regions, ∀ rec, m.records.lookup region.id = some rec →
    rec.region.size = region.size

end Before

variable {cx : ResidencyContext ρ σ α} {call : ResidencyCall ρ α}
  {level target : ModelResidencyTarget} {m₀ m m₁ m₂ : ModelResidencyManager σ} {readings : List ℕ}
  {done rest : List ModelRegion} {region : ModelRegion} {rec rec₀ : Record} {k : UInt64}

/-- What outlasts the requests is not lost. -/
theorem Lost.not_outlasts (h : Lost cx m₀ readings done m rec₀) :
    ¬ Outlasts cx m₀ readings done rec₀ := by
  rintro (hfixed | hroom)
  · rw [h.idle] at hfixed
    cases hfixed
  · exact absurd h.full (Nat.not_lt.mpr hroom)

/-- What is lost falls, if the order of use decides. -/
theorem Lost.falls (horder : Orderly m₀ readings rest) (h : Lost cx m₀ readings done m rec₀)
    (hrec₀ : m₀.records.lookup k = some rec₀) : Falls cx m₀ readings done k rec₀ := by
  have hpins : ∀ rec, m₀.fixed .ram readings rec = false → rec.pins = 0 := fun rec hidle => by
    by_contra hpinned
    rw [fixed_iff.mpr (.inl (Nat.pos_of_ne_zero hpinned))] at hidle
    cases hidle
  refine ⟨h.idle, lt_of_lt_of_eq h.full (bytesInUse_congr fun k' rec hrec hres hidle => ?_)⟩
  rw [Bool.eq_iff_iff, Bool.or_eq_true, decide_eq_true_iff, decide_eq_true_iff, decide_eq_true_iff,
    Nat.le_iff_lt_or_eq, or_comm]
  refine or_congr_left ⟨fun heq => ?_, ?_⟩
  · exact horder.distinct k' k rec rec₀ hrec hrec₀ hres h.resident (hpins rec hidle)
      (hpins rec₀ h.idle) heq.symm
  · rintro rfl
    cases hrec.symm.trans hrec₀
    rfl

/-- A request begins with the record of its region. -/
theorem InPlace.create (h : InPlace cx m₀ target readings done done m)
    (hnew : ∀ r ∈ done, r.id ≠ region.id) :
    InPlace cx m₀ target readings done (done ++ [region]) (m.getOrCreateLocked region) := by
  have hnotMem : ∀ k, k ∉ (done ++ [region]).map ModelRegion.id → k ∉ done.map ModelRegion.id := by
    intro k hk hmem
    rw [List.map_append, List.mem_append, not_or] at hk
    exact hk.1 hmem
  have hbegin : InPlace cx m₀ target readings done (done ++ [region]) m := by
    refine ⟨h.placed, fun k rec hk => h.others k rec (hnotMem k hk),
      fun k rec₀ hk hrec₀ hnone => ?_⟩
    have hlost := h.lost k rec₀ (hnotMem k hk) hrec₀ hnone
    exact ⟨hlost.resident, hlost.idle, hlost.full.trans_le (bytesInUse_le_append [region] _),
      fun u rec hu => hlost.older u rec (hnotMem u hu)⟩
  refine hbegin.own hnew ?_ fun k hk => lookup_getOrCreateLocked_of_ne hk
  rw [List.map_append, List.map_singleton]
  exact List.mem_append_right _ (List.mem_singleton.mpr rfl)

/-- The record of the region is that of before, or a new one for a region that was lost. -/
theorem InPlace.region_cases (h : InPlace cx m₀ target readings done done m)
    (hnew : ∀ r ∈ done, r.id ≠ region.id)
    (hrec : (m.getOrCreateLocked region).records.lookup region.id = some rec) :
    rec.region = m₀.requested region ∨ rec.region = region ∧ ∃ rec₀,
      m₀.records.lookup region.id = some rec₀ ∧ Lost cx m₀ readings done m rec₀ := by
  have hk : region.id ∉ done.map ModelRegion.id := by simpa using hnew
  obtain ⟨rec', hrec', hfound⟩ := lookup_getOrCreateLocked (m := m) region
  cases hrec.symm.trans hrec'
  cases hlookup : m.records.lookup region.id with
  | some rec₁ =>
    rw [hlookup, Option.getD_some] at hfound
    subst hfound
    obtain ⟨rec₀, hrec₀, hremains⟩ := h.others region.id rec₁ hk hlookup
    exact .inl (by rw [requested_of_lookup hrec₀, hremains.region])
  | none =>
    rw [hlookup, Option.getD_none] at hfound
    subst hfound
    cases hrec₀ : m₀.records.lookup region.id with
    | none => exact .inl (requested_of_none hrec₀).symm
    | some rec₀ => exact .inr ⟨rfl, rec₀, rfl, h.lost region.id rec₀ hk hrec₀ hlookup⟩

/-- The record has the size that the bytes in use are counted with, unless its region has fallen
and is requested with another size. -/
theorem InPlace.requested_size (h : InPlace cx m₀ target readings done done m)
    (hnew : ∀ r ∈ done, r.id ≠ region.id)
    (hsizes : ∀ rec₀, m₀.records.lookup region.id = some rec₀ →
      rec₀.state.satisfies .ram = true →
      rec₀.region.size = region.size ∨ Outlasts cx m₀ readings done rec₀)
    (hrec : (m.getOrCreateLocked region).records.lookup region.id = some rec) :
    rec.region.size = (m₀.requested region).size := by
  rcases h.region_cases hnew hrec with hregion | ⟨hregion, rec₀, hrec₀, hlost⟩
  · rw [hregion]
  · rw [hregion, requested_of_lookup hrec₀]
    exact ((hsizes rec₀ hrec₀ hlost.resident).resolve_right hlost.not_outlasts).symm

/-- A granted request has placed its region. -/
theorem InPlace.place (h : InPlace cx m₀ target readings done (done ++ [region]) m)
    (hplaced : Placed m₀ target readings m region) :
    InPlace cx m₀ target readings (done ++ [region]) (done ++ [region]) m := by
  refine ⟨fun r hr => ?_, h.others, h.lost⟩
  rcases List.mem_append.mp hr with hr | hr
  · exact h.placed r hr
  · rw [List.mem_singleton.mp hr]
    exact hplaced

/-- The last thing a granted request does is to mark its region as used. -/
theorem lastUsed_ensureResident (hok : (m.ensureResident cx region target call).1 = .ok ())
    (hrec : (m.ensureResident cx region target call).2.records.lookup region.id = some rec) :
    rec.lastUsed = call.now := by
  -- both ways to success end with a touch of the record
  have htouch : ∀ m' : ModelResidencyManager σ,
      (m'.touch region.id call.now).records.lookup region.id = some rec →
        rec.lastUsed = call.now := by
    intro m' hrec
    rw [touch, setRecord_records, AList.lookup_insert, Option.some.injEq] at hrec
    rw [← hrec]
  unfold ensureResident at hok hrec
  split at hok
  next => cases hok
  next hvalid =>
    rw [if_neg hvalid] at hrec
    dsimp only at hok hrec
    split at hok
    next hres =>
      rw [if_pos hres] at hrec
      exact htouch _ hrec
    next hres =>
      rw [if_neg hres] at hrec
      split at hok
      next => cases hok
      next hidle =>
        rw [if_neg hidle] at hrec
        generalize ModelResidencyManager.place cx call (m.getOrCreateLocked region) region.id
          target = result at hok hrec
        obtain ⟨_ | _, m₁⟩ := result
        · cases hok
        · exact htouch _ hrec

/-! ## The changes of a request -/

/-- The scans that make room for a request pick only regions that are not fixed and have not been
placed. `m₂` is the manager that the request leaves. -/
structure Scans (cx : ResidencyContext ρ σ α) (call : ResidencyCall ρ α)
    (m₀ : ModelResidencyManager σ) (target : ModelResidencyTarget) (readings : List ℕ)
    (done : List ModelRegion) (region : ModelRegion) (m₂ : ModelResidencyManager σ) : Prop where
  ram : ∀ m m' rec, ResidencySteps cx m₀ m →
    InPlace cx m₀ target readings done (done ++ [region]) m →
    m.records.lookup region.id = some rec → rec.state.satisfies .ram = false →
    rec.region.size = (m₀.requested region).size →
    EvictsLru cx call rec.region.size region.id m m' →
    RequestSteps cx call target region.id m' m₂ → PicksIdle m₀ readings done m call .ram region.id
  accel : ∀ M m m' rec, target = .accelerator → cx.accelerator = some M → ResidencySteps cx m₀ m →
    InPlace cx m₀ target readings done (done ++ [region]) m →
    m.records.lookup region.id = some rec → rec.state.satisfies .accelerator = false →
    rec.region.size = (m₀.requested region).size →
    DemotesLru M call rec.region.size region.id m m' →
    RequestSteps cx call target region.id m' m₂ →
    PicksIdle m₀ readings done m call .accelerator region.id

/-- The changes of a request with such scans leave everything in its place. -/
theorem InPlace.steps (hacc₀ : Accounted cx m₀) (hsteps₀ : ResidencySteps cx m₀ m₁)
    (h : InPlace cx m₀ target readings done (done ++ [region]) m₁)
    (hnew : ∀ r ∈ done, r.id ≠ region.id) {r : ModelRegion} (htracks : m₁.Tracks region.id r)
    (hsize : r.size = (m₀.requested region).size)
    (hscans : Scans cx call m₀ target readings done region m₂)
    (hsteps : RequestSteps cx call target region.id m₁ m₂) :
    InPlace cx m₀ target readings done (done ++ [region]) m₂ := by
  have hseen : region.id ∈ (done ++ [region]).map ModelRegion.id := by simp
  induction hsteps using Relation.ReflTransGen.head_induction_on with
  | refl => exact h
  | @head m m' hstep hrest ih =>
    have hacc : Accounted cx m := hacc₀.steps hsteps₀
    refine ih (hsteps₀.trans hstep.steps) ?_ (hstep.tracks htracks)
    obtain ⟨rec', hrec', rfl⟩ := htracks
    cases hstep with
    | evict hrec hout hscan =>
      cases hrec.symm.trans hrec'
      exact h.evict hacc hrec hout hsize hscan
        (hscans.ram m m' _ hsteps₀ h hrec hout hsize hscan hrest)
    | demote htarget hM hrec hout hscan =>
      cases hrec.symm.trans hrec'
      exact h.demote htarget hscan
        (hscans.accel _ m m' _ htarget hM hsteps₀ h hrec hout hsize hscan hrest)
    | own _ hothers _ => exact h.own hnew hseen hothers

/-- A request that is granted, with such scans, leaves everything in its place. -/
theorem InPlace.request (hkeys : m.KeysMatch) (hacc₀ : Accounted cx m₀)
    (hsteps₀ : ResidencySteps cx m₀ m) (h : InPlace cx m₀ target readings done done m)
    (hnew : ∀ r ∈ done, r.id ≠ region.id)
    (hsizes : ∀ rec₀, m₀.records.lookup region.id = some rec₀ →
      rec₀.state.satisfies .ram = true →
      rec₀.region.size = region.size ∨ Outlasts cx m₀ readings done rec₀)
    (hreading : call.now ∈ readings)
    (hok : (m.ensureResident cx region target call).1 = .ok ())
    (hscans : Scans cx call m₀ target readings done region
      (m.ensureResident cx region target call).2) :
    InPlace cx m₀ target readings (done ++ [region]) (done ++ [region])
      (m.ensureResident cx region target call).2 := by
  have hvalid : region.valid = true := valid_of_ensureResident hok
  have hcreate : ResidencySteps cx m (m.getOrCreateLocked region) :=
    (getOrCreateLocked_steps hvalid).1
  obtain ⟨rec, hrec, -⟩ := lookup_getOrCreateLocked (m := m) region
  have hsize := h.requested_size hnew hsizes hrec
  have hsteps : RequestSteps cx call target region.id (m.getOrCreateLocked region)
      (m.ensureResident cx region target call).2 := ensureResident_requestSteps hkeys hvalid
  -- the request creates the record, makes room and places the region
  refine ((h.create hnew).steps hacc₀ (hsteps₀.trans hcreate) hnew ⟨rec, hrec, rfl⟩ hsize hscans
    hsteps).place ?_
  obtain ⟨rec', hrec', hregion⟩ := hsteps.tracks ⟨rec, hrec, rfl⟩
  have houtcome : Outcome cx m region.id (m.requested region) target
      (m.ensureResident cx region target call) := ensureResident_outcome hkeys hvalid
  obtain ⟨rec'', hrec'', hsat⟩ := houtcome.resident hok
  cases hrec'.symm.trans hrec''
  exact ⟨rec', hrec', hsat, by rw [hregion, hsize], call.now, hreading,
    (lastUsed_ensureResident hok hrec').ge⟩

/-! ## With room for the regions -/

/-- What is on the accelerator beside the records stays as it was. -/
theorem AccelHolds.foreignBytes_eq {M : IAcceleratorMemory σ α} {capacity foreign : ℕ}
    {spec : M.Spec capacity} (h : AccelHolds spec foreign m) : m.foreignBytes spec = foreign := by
  rw [foreignBytes, h.owned, Nat.add_sub_cancel_left]

/-- While a region does not fit into RAM, a scan picks an idle region. -/
theorem InPlace.picksIdle_ram {M : IAcceleratorMemory σ α} {capacity : ℕ} {spec : M.Spec capacity}
    (hroom : Room cx m₀ readings spec target (done ++ region :: rest)) (hacc : Accounted cx m)
    (hzero : (0 : UInt64) ∉ (done ++ [region]).map ModelRegion.id)
    (h : InPlace cx m₀ target readings done (done ++ [region]) m)
    (hrec : m.records.lookup region.id = some rec) (hout : rec.state.satisfies .ram = false)
    (hsize : rec.region.size = (m₀.requested region).size)
    (hfull : m.telemetry.residentRamBytes + rec.region.size > cx.budget.ramBytes) :
    PicksIdle m₀ readings done m call .ram region.id := by
  refine h.picksIdle_of_full rest hacc hzero hrec hout hsize ?_ call
  have hsum : (m.telemetry.residentRamBytes + rec.region.size).toNat ≤
      m.telemetry.residentRamBytes.toNat + rec.region.size.toNat := by
    rw [UInt64.toNat_add]
    exact Nat.mod_le _ _
  have hlarge := UInt64.lt_iff_toNat_lt.mp hfull
  have htotal := hacc.ram_eq
  rw [hacc.ramTotal_eq] at htotal
  have hram := hroom.ram
  omega

/-- While a region does not fit on the accelerator, a scan picks an idle region. -/
theorem InPlace.picksIdle_accel {M : IAcceleratorMemory σ α} {capacity foreign : ℕ}
    {spec : M.Spec capacity} (hroom : Room cx m₀ readings spec target (done ++ region :: rest))
    (htarget : target = .accelerator) (hreports : spec.Reports)
    (hholds₀ : AccelHolds spec foreign m₀) (hholds : AccelHolds spec foreign m)
    (hacc : Accounted cx m) (hzero : (0 : UInt64) ∉ (done ++ [region]).map ModelRegion.id)
    (h : InPlace cx m₀ target readings done (done ++ [region]) m)
    (hrec : m.records.lookup region.id = some rec)
    (hout : rec.state.satisfies .accelerator = false)
    (hsize : rec.region.size = (m₀.requested region).size)
    (hfull : M.available m.accelMemory < rec.region.size) :
    PicksIdle m₀ readings done m call .accelerator region.id := by
  refine h.picksIdle_of_full rest hacc hzero hrec hout hsize ?_ call
  have hlarge : ¬ bufferBytes (spec.buffers m.accelMemory) + rec.region.size.toNat ≤ capacity :=
    fun hle => absurd hfull (UInt64.not_lt.mpr (hreports _ _ hholds.valid hle))
  have hbytes := hroom.accel htarget
  rw [hholds₀.foreignBytes_eq] at hbytes
  rw [hholds.owned, hacc.accelTotal_eq] at hlarge
  omega

/-- With room for the regions, the scans for a request pick idle regions. -/
theorem scans_of_room {M : IAcceleratorMemory σ α} {capacity foreign : ℕ} {spec : M.Spec capacity}
    (hroom : Room cx m₀ readings spec target (done ++ region :: rest)) (hacc₀ : Accounted cx m₀)
    (hzero : (0 : UInt64) ∉ (done ++ [region]).map ModelRegion.id)
    (haccel : target = .accelerator →
      cx.accelerator = some M ∧ spec.Reports ∧ AccelHolds spec foreign m₀) :
    Scans cx call m₀ target readings done region m₂ where
  ram m m' rec hsteps h hrec hout hsize hscan _ :=
    h.picksIdle_ram hroom (hacc₀.steps hsteps) hzero hrec hout hsize hscan.full
  accel M' m m' rec htarget hM' hsteps h hrec hout hsize hscan _ := by
    obtain ⟨hM, hreports, hholds₀⟩ := haccel htarget
    cases hM.symm.trans hM'
    exact h.picksIdle_accel hroom htarget hreports hholds₀ (hholds₀.steps hacc₀ hM hsteps)
      (hacc₀.steps hsteps) hzero hrec hout hsize hscan.full

/-! ## With the placed regions spared -/

/-- What a scan picks is not fixed, if the order of use decides. -/
theorem Orderly.idle {regions : List ModelRegion} (horder : Orderly m₀ readings regions)
    (hacc : Accounted cx m) (hzero : (0 : UInt64) ∉ (done ++ [region]).map ModelRegion.id)
    (h : InPlace cx m₀ target readings done (done ++ [region]) m)
    (hpick : m.pickLruLocked call level region.id ≠ 0)
    (hrec : m.records.lookup (m.pickLruLocked call level region.id) = some rec)
    (hrec₀ : m₀.records.lookup (m.pickLruLocked call level region.id) = some rec₀)
    (hremains : Remains m₀ target readings rec₀ rec) : m₀.fixed level readings rec₀ = false := by
  rcases m.pickLruLocked_spec call level region.id with ⟨rec', hrec', hcand, hleast⟩ | ⟨hstop, -⟩
  swap
  · exact absurd hstop hpick
  cases hrec.symm.trans hrec'
  have hpins : rec₀.pins = 0 := hremains.pins ▸ pins_of_candidate hcand
  have hres₀ : rec₀.state.satisfies .ram = true :=
    ModelResidencyState.satisfies_ram (hremains.satisfies (satisfies_of_candidate hcand))
  by_contra hfixed
  rw [Bool.not_eq_false, fixed_iff] at hfixed
  rcases hfixed with hpinned | ⟨zero, hzero₀, hunpinned, hresident, hbefore⟩ | ⟨now, hnow, hlate⟩
  · omega
  · -- the region with the id `0` is still there, and would have been picked
    have hfixed : m₀.fixed level readings zero = true :=
      fixed_iff.mpr (.inr (.inl ⟨zero, hzero₀, hunpinned, hresident, le_rfl⟩))
    obtain ⟨rec₁, hrec₁, hremains₁⟩ := h.lookup_of_fixed hzero hzero₀ hfixed
    have hcand₁ : candidate level region.id ⟨0, rec₁⟩ = true :=
      candidate_of_resident hacc hrec₁ (hremains₁.satisfies_of_fixed hresident hfixed)
        (hremains₁.pins.trans hunpinned) (notMem_append_singleton.mp hzero).2
    have hle := hleast 0 rec₁ hrec₁ hcand₁
    rw [hremains.lastUsed, hremains₁.lastUsed] at hle
    exact hpick (horder.distinct _ 0 rec₀ zero hrec₀ hzero₀ hres₀
      (ModelResidencyState.satisfies_ram hresident) hpins hunpinned (le_antisymm hle hbefore))
  · exact absurd (horder.earlier _ rec₀ hrec₀ hres₀ now hnow) (Nat.not_lt.mpr hlate)

/-- A request that spares the placed regions picks idle regions, if the order of use decides. -/
theorem scans_of_spared {regions : List ModelRegion} (horder : Orderly m₀ readings regions)
    (hacc₀ : Accounted cx m₀) (hzero : (0 : UInt64) ∉ (done ++ [region]).map ModelRegion.id)
    (hnew : ∀ r ∈ done, r.id ≠ region.id)
    (hspared : ∀ r ∈ done, m₂.isResident r.id target = true) :
    Scans cx call m₀ target readings done region m₂ where
  ram m m' rec hsteps h hrec hout hsize hscan hrest := by
    obtain ⟨recᵥ, hrecᵥ, hcandᵥ, rfl⟩ := hscan.drops
    -- a region that was placed is still there at the end, and the victim is not
    have hnotPlaced : ∀ r ∈ done, r.id ≠ m.pickLruLocked call .ram region.id := by
      intro r hr heq
      have hres := hrest.isResident_of (hnew r hr) (hspared r hr)
      rw [isResident_of_none (lookup_dropRecord.trans (if_pos heq))] at hres
      cases hres
    have hk := notMem_append_singleton.mpr ⟨hnotPlaced, ne_skipId_of_candidate hcandᵥ⟩
    refine ⟨hscan.victim_ne_zero, hnotPlaced, fun rec₀ hrec₀ => ?_⟩
    obtain ⟨rec₁, hrec₁, hremains⟩ := h.others _ recᵥ hk hrecᵥ
    cases hrec₀.symm.trans hrec₁
    exact horder.idle (hacc₀.steps hsteps) hzero h hscan.victim_ne_zero hrecᵥ hrec₀ hremains
  accel M m m' rec htarget hM hsteps h hrec hout hsize hscan hrest := by
    obtain ⟨recᵥ, p, hrecᵥ, hcandᵥ, -, rfl⟩ := hscan.demotes
    have hnotPlaced : ∀ r ∈ done, r.id ≠ m.pickLruLocked call .accelerator region.id := by
      intro r hr heq
      have hres := hrest.isResident_of (hnew r hr) (hspared r hr)
      rw [isResident_of_lookup (lookup_demote.trans (if_pos heq)), htarget] at hres
      cases hres
    have hk := notMem_append_singleton.mpr ⟨hnotPlaced, ne_skipId_of_candidate hcandᵥ⟩
    refine ⟨hscan.victim_ne_zero, hnotPlaced, fun rec₀ hrec₀ => ?_⟩
    obtain ⟨rec₁, hrec₁, hremains⟩ := h.others _ recᵥ hk hrecᵥ
    cases hrec₀.symm.trans hrec₁
    exact horder.idle (hacc₀.steps hsteps) hzero h hscan.victim_ne_zero hrecᵥ hrec₀ hremains

end HeteroAccel.ModelResidencyManager
