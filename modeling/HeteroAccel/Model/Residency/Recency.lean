import HeteroAccel.Model.Residency.Accounting
import HeteroAccel.Model.Residency.RequestSteps

/-!
# The regions that requests leave alone

A list of regions is requested one after the other. What the scans made for them pick can be said
of the manager before the first request: they pick the regions that no request has come to, least
recently used first, as long as one of these may be picked. So the regions that have been placed
stay, while their bytes and those of the regions that no scan may pick leave room for the next one.

Two of the regions may have been used at the same time, and then the order of the hash map decides
which one a scan picks. A region is *fixed* whatever that order is, and so is what is said of the
regions that are lost.

## Main definitions

* `fixed`: the regions that no scan picks before those that are requested;
* `bytesInUse`: the bytes that stay in use when some regions have been placed;
* `InPlace`: the invariant of the requests, on the manager before the first of them and now.

## Main results

* `InPlace.held_add_le`: the bytes that are held now, counted in the manager before;
* `InPlace.evict`, `InPlace.demote`, `InPlace.own`: each change of a request keeps the invariant, if
  the scans pick no fixed region and none that has been placed;
* `InPlace.picksIdle`: they do so as long as another region may be picked.
-/

namespace HeteroAccel.ModelResidencyManager

variable {ρ σ α : Type}

/-! ## What is known before the first request -/

section Before

variable (m : ModelResidencyManager σ)

/-- No scan for `level` picks the record before a region that is used at one of the readings: it is
pinned, or a scan stops at the region with the id `0` before, or it was used no earlier. -/
def fixed (level : ModelResidencyTarget) (readings : List ℕ) (rec : Record) : Bool :=
  0 < rec.pins ||
    (m.records.lookup 0).any (fun zero =>
      zero.pins = 0 && zero.state.satisfies level && zero.lastUsed ≤ rec.lastUsed) ||
    readings.any (· ≤ rec.lastUsed)

/-- The bytes at a level of the regions that `p` selects. -/
def bytesAt (level : ModelResidencyTarget) (p : UInt64 → Record → Bool) : ℕ :=
  KeyedMap.total (fun id rec =>
    if rec.state.satisfies level && p id rec then rec.region.size.toNat else 0) m.records

/-- The bytes that stay in use at a level when the regions `done` have been placed: theirs, and
those of the other regions that are fixed or that `p` selects. A region that the manager has a
record of takes the bytes of that record. -/
def bytesInUse (level : ModelResidencyTarget) (readings : List ℕ) (done : List ModelRegion)
    (p : UInt64 → Record → Bool) : ℕ :=
  (done.map fun region => (m.requested region).size.toNat).sum +
    m.bytesAt level fun id rec =>
      decide (id ∉ done.map ModelRegion.id) && (m.fixed level readings rec || p id rec)

end Before

variable {cx : ResidencyContext ρ σ α} {call : ResidencyCall ρ α}
  {level target : ModelResidencyTarget} {m₀ m m' : ModelResidencyManager σ} {readings : List ℕ}
  {done seen : List ModelRegion} {region : ModelRegion} {rec rec₀ : Record} {k : UInt64}

/-- What is fixed. -/
theorem fixed_iff : m.fixed level readings rec = true ↔ 0 < rec.pins ∨
    (∃ zero, m.records.lookup 0 = some zero ∧ zero.pins = 0 ∧ zero.state.satisfies level = true ∧
      zero.lastUsed ≤ rec.lastUsed) ∨ ∃ now ∈ readings, now ≤ rec.lastUsed := by
  simp only [fixed, Bool.or_eq_true, decide_eq_true_eq, Option.any_eq_true, Bool.and_eq_true,
    List.any_eq_true, or_assoc, and_assoc]

/-- What is fixed on the accelerator is fixed in RAM. -/
theorem fixed_ram_of_fixed (h : m.fixed level readings rec = true) :
    m.fixed .ram readings rec = true := by
  rw [fixed_iff] at h ⊢
  refine h.imp_right (Or.imp_left ?_)
  rintro ⟨zero, hzero, hpins, hres, hle⟩
  exact ⟨zero, hzero, hpins, ModelResidencyState.satisfies_ram hres, hle⟩

/-- A region on record is requested as it is on record. -/
theorem requested_of_lookup (hrec : m.records.lookup region.id = some rec) :
    m.requested region = rec.region := by
  rw [requested, hrec, Option.getD_some]

/-- A region without a record is requested as it is. -/
theorem requested_of_none (hrec : m.records.lookup region.id = none) :
    m.requested region = region := by
  rw [requested, hrec, Option.getD_none]

/-- The bytes in use only grow when further regions are placed. -/
theorem bytesInUse_le_append (rest : List ModelRegion) (p : UInt64 → Record → Bool) :
    m.bytesInUse level readings done p ≤ m.bytesInUse level readings (done ++ rest) p := by
  have hle : m.bytesAt level (fun id rec =>
      decide (id ∉ done.map ModelRegion.id) && (m.fixed level readings rec || p id rec)) ≤
      (rest.map fun region => (m.requested region).size.toNat).sum +
        m.bytesAt level (fun id rec => decide (id ∉ (done ++ rest).map ModelRegion.id) &&
          (m.fixed level readings rec || p id rec)) := by
    refine KeyedMap.total_le_sum_add ModelRegion.id fun k rec hrec hpos => ?_
    by_cases hrest : ∃ region ∈ rest, region.id = k
    · -- the region is placed later, with the bytes of its record
      obtain ⟨region, hregion, rfl⟩ := hrest
      refine .inl ⟨region, hregion, rfl, ?_⟩
      rw [requested_of_lookup hrec]
      split
      · exact le_rfl
      · exact Nat.zero_le _
    · refine .inr ⟨rec, hrec, ?_⟩
      have hnot : k ∉ rest.map ModelRegion.id := by simpa using hrest
      simp [List.map_append, List.mem_append, hnot]
  unfold bytesInUse
  rw [List.map_append, List.sum_append]
  omega

/-- A condition that selects the same regions gives the same bytes. -/
theorem bytesInUse_congr {p q : UInt64 → Record → Bool}
    (h : ∀ k rec, m.records.lookup k = some rec → rec.state.satisfies level = true →
      m.fixed level readings rec = false → p k rec = q k rec) :
    m.bytesInUse level readings done p = m.bytesInUse level readings done q := by
  unfold bytesInUse
  congr 1
  refine KeyedMap.total_congr fun k rec hrec => ?_
  by_cases hres : rec.state.satisfies level = true
  · by_cases hfixed : m.fixed level readings rec = true
    · simp only [hfixed, Bool.true_or]
    · simp only [h k rec hrec hres (by simpa using hfixed)]
  · simp only [hres, Bool.false_and]

/-- Between two calls, the bytes in RAM are those of the regions that are resident there. -/
theorem Accounted.ramTotal_eq (h : Accounted cx m) :
    m.ramTotal = m.bytesAt .ram fun _ _ => true := by
  refine KeyedMap.total_congr fun k rec hrec => ?_
  have hrest := h.atRest k rec hrec
  rw [Record.ramSize, Bool.and_true]
  simp only [hrest.ram_iff]

/-- So are those on the accelerator. -/
theorem Accounted.accelTotal_eq (h : Accounted cx m) :
    m.accelTotal = m.bytesAt .accelerator fun _ _ => true := by
  refine KeyedMap.total_congr fun k rec hrec => ?_
  have hrest := h.atRest k rec hrec
  rw [Record.accelSize, Bool.and_true]
  simp only [hrest.accel_iff]

/-! ## The invariant -/

/-- A record is that of before, except that a scan may have sent its region back to RAM. -/
structure Remains (m₀ : ModelResidencyManager σ) (target : ModelResidencyTarget)
    (readings : List ℕ) (rec₀ rec : Record) : Prop where
  region : rec.region = rec₀.region
  pins : rec.pins = rec₀.pins
  lastUsed : rec.lastUsed = rec₀.lastUsed
  ram : rec.state.satisfies .ram = rec₀.state.satisfies .ram
  accel : rec.state.satisfies .accelerator = true → rec₀.state.satisfies .accelerator = true
  /-- No scan has picked a region that is fixed on the accelerator, and requests for RAM send none
  back. -/
  kept : rec₀.state.satisfies .accelerator = true →
    target = .ram ∨ m₀.fixed .accelerator readings rec₀ = true →
    rec.state.satisfies .accelerator = true

/-- A region that a request has come to is where it was requested, and was used after all that is
not fixed. -/
def Placed (m₀ : ModelResidencyManager σ) (target : ModelResidencyTarget) (readings : List ℕ)
    (m : ModelResidencyManager σ) (region : ModelRegion) : Prop :=
  ∃ rec, m.records.lookup region.id = some rec ∧ rec.state.satisfies target = true ∧
    rec.region.size = (m₀.requested region).size ∧ ∃ now ∈ readings, now ≤ rec.lastUsed

/-- A region that a scan dropped: it was not fixed, the regions used no earlier left no room for it,
and of the regions that could be dropped none that is left was used earlier. -/
structure Lost (cx : ResidencyContext ρ σ α) (m₀ : ModelResidencyManager σ) (readings : List ℕ)
    (seen : List ModelRegion) (m : ModelResidencyManager σ) (rec₀ : Record) : Prop where
  resident : rec₀.state.satisfies .ram = true
  idle : m₀.fixed .ram readings rec₀ = false
  full : cx.budget.ramBytes.toNat <
    m₀.bytesInUse .ram readings seen fun _ rec => rec₀.lastUsed ≤ rec.lastUsed
  older : ∀ k rec, k ∉ seen.map ModelRegion.id → m.records.lookup k = some rec →
    rec.state.satisfies .ram = true → rec.pins = 0 → rec₀.lastUsed ≤ rec.lastUsed

/-- The requests for the regions `done` have left everything in its place, and the one that is under
way, if there is one, is for the region that `seen` has in addition. -/
structure InPlace (cx : ResidencyContext ρ σ α) (m₀ : ModelResidencyManager σ)
    (target : ModelResidencyTarget) (readings : List ℕ) (done seen : List ModelRegion)
    (m : ModelResidencyManager σ) : Prop where
  placed : ∀ region ∈ done, Placed m₀ target readings m region
  others : ∀ k rec, k ∉ seen.map ModelRegion.id → m.records.lookup k = some rec →
    ∃ rec₀, m₀.records.lookup k = some rec₀ ∧ Remains m₀ target readings rec₀ rec
  lost : ∀ k rec₀, k ∉ seen.map ModelRegion.id → m₀.records.lookup k = some rec₀ →
    m.records.lookup k = none → Lost cx m₀ readings seen m rec₀

/-- At a level, a region that remains is where it was before. -/
theorem Remains.satisfies (h : Remains m₀ target readings rec₀ rec)
    (hres : rec.state.satisfies level = true) : rec₀.state.satisfies level = true := by
  cases level with
  | ram => exact h.ram ▸ hres
  | accelerator => exact h.accel hres

/-- A fixed region that remains is still where it was. -/
theorem Remains.satisfies_of_fixed (h : Remains m₀ target readings rec₀ rec)
    (hres : rec₀.state.satisfies level = true) (hfixed : m₀.fixed level readings rec₀ = true) :
    rec.state.satisfies level = true := by
  cases level with
  | ram => exact h.ram.trans hres
  | accelerator => exact h.kept hres (.inr hfixed)

theorem Remains.refl (rec : Record) : Remains m₀ target readings rec rec :=
  ⟨rfl, rfl, rfl, rfl, id, fun h _ => h⟩

/-- Before the first request everything is in its place. -/
theorem InPlace.start : InPlace cx m₀ target readings [] [] m₀ where
  placed := nofun
  others k rec _ hrec := ⟨rec, hrec, .refl rec⟩
  lost k rec₀ _ hrec hnone := by
    rw [hrec] at hnone
    cases hnone

/-- A fixed region has not been lost. -/
theorem InPlace.lookup_of_fixed (h : InPlace cx m₀ target readings done seen m)
    (hk : k ∉ seen.map ModelRegion.id) (hrec₀ : m₀.records.lookup k = some rec₀)
    (hfixed : m₀.fixed level readings rec₀ = true) :
    ∃ rec, m.records.lookup k = some rec ∧ Remains m₀ target readings rec₀ rec := by
  cases hrec : m.records.lookup k with
  | none =>
    have hidle := (h.lost k rec₀ hk hrec₀ hrec).idle
    rw [fixed_ram_of_fixed hfixed] at hidle
    cases hidle
  | some rec =>
    obtain ⟨rec₁, hrec₁, hremains⟩ := h.others k rec hk hrec
    cases hrec₀.symm.trans hrec₁
    exact ⟨rec, rfl, hremains⟩

/-! ## Counting in the manager before -/

/-- While room is made for a region, the bytes that are held and those of the region are bounded by
the bytes in use, if all that is held is placed, fixed or selected. -/
theorem InPlace.held_add_le {p : UInt64 → Record → Bool}
    (h : InPlace cx m₀ target readings done (done ++ [region]) m)
    (hrec : m.records.lookup region.id = some rec) (hout : rec.state.satisfies level = false)
    (hsize : rec.region.size = (m₀.requested region).size)
    (hheld : ∀ k rec rec₀, k ∉ (done ++ [region]).map ModelRegion.id →
      m.records.lookup k = some rec → rec.state.satisfies level = true →
      m₀.records.lookup k = some rec₀ → Remains m₀ target readings rec₀ rec →
      m₀.fixed level readings rec₀ = true ∨ p k rec₀ = true) :
    m.bytesAt level (fun _ _ => true) + rec.region.size.toNat ≤
      m₀.bytesInUse level readings (done ++ [region]) p := by
  have hle : m.bytesAt level (fun _ _ => true) ≤
      (done.map fun region => (m₀.requested region).size.toNat).sum +
        m₀.bytesAt level (fun id rec => decide (id ∉ (done ++ [region]).map ModelRegion.id) &&
          (m₀.fixed level readings rec || p id rec)) := by
    refine KeyedMap.total_le_sum_add ModelRegion.id fun k rec₁ hrec₁ hpos => ?_
    have hres : rec₁.state.satisfies level = true := by
      by_contra hnot
      simp [hnot] at hpos
    -- what is held is a region already placed or an old record
    by_cases hdone : ∃ region ∈ done, region.id = k
    · obtain ⟨region', hregion', rfl⟩ := hdone
      obtain ⟨rec₂, hrec₂, -, hsize₂, -⟩ := h.placed region' hregion'
      cases hrec₁.symm.trans hrec₂
      refine .inl ⟨region', hregion', rfl, ?_⟩
      rw [← hsize₂]
      simp [hres]
    · -- another region, which is held and not the one that room is made for
      have hk : k ∉ (done ++ [region]).map ModelRegion.id := by
        rw [List.map_append, List.mem_append, not_or]
        refine ⟨by simpa using hdone, fun heq => ?_⟩
        rw [List.map_singleton, List.mem_singleton] at heq
        subst heq
        cases hrec₁.symm.trans hrec
        rw [hres] at hout
        cases hout
      obtain ⟨rec₀, hrec₀, hremains⟩ := h.others k rec₁ hk hrec₁
      have hheld := hheld k rec₁ rec₀ hk hrec₁ hres hrec₀ hremains
      refine .inr ⟨rec₀, hrec₀, ?_⟩
      have hcounted : (rec₀.state.satisfies level &&
          (decide (k ∉ (done ++ [region]).map ModelRegion.id) &&
            (m₀.fixed level readings rec₀ || p k rec₀))) = true := by
        rw [hremains.satisfies hres, decide_eq_true hk, Bool.true_and, Bool.true_and]
        exact Bool.or_eq_true_iff.mpr hheld
      rw [if_pos hcounted, hremains.region, hres, Bool.and_true, if_pos rfl]
  unfold bytesInUse
  rw [List.map_append, List.sum_append, List.map_singleton, List.sum_singleton, ← hsize]
  omega

/-- The bytes in use are held when the regions have been placed and nothing that is fixed or
selected is lost. -/
theorem InPlace.bytesInUse_le {p : UInt64 → Record → Bool}
    (h : InPlace cx m₀ target readings done done m) (hnodup : (done.map ModelRegion.id).Nodup)
    (hlevel : ∀ s : ModelResidencyState, s.satisfies target = true → s.satisfies level = true)
    (hkept : ∀ k rec₀, k ∉ done.map ModelRegion.id → m₀.records.lookup k = some rec₀ →
      rec₀.state.satisfies level = true → m₀.fixed level readings rec₀ = false →
      p k rec₀ = true → ∃ rec, m.records.lookup k = some rec ∧ rec.region = rec₀.region ∧
        rec.state.satisfies level = true) :
    m₀.bytesInUse level readings done p ≤ m.bytesAt level fun _ _ => true := by
  refine KeyedMap.sum_add_le_total ModelRegion.id hnodup (fun region hregion => ?_)
    fun k rec₀ hrec₀ hpos => ?_
  · obtain ⟨rec, hrec, hres, hsize, -⟩ := h.placed region hregion
    refine ⟨rec, hrec, ?_⟩
    simp [hlevel _ hres, hsize]
  · -- an old record that counts was fixed or selected
    have hcond : (rec₀.state.satisfies level &&
        (decide (k ∉ done.map ModelRegion.id) &&
          (m₀.fixed level readings rec₀ || p k rec₀))) = true := by
      by_contra hnot
      rw [if_neg hnot] at hpos
      exact absurd hpos (lt_irrefl 0)
    rw [if_pos hcond]
    simp only [Bool.and_eq_true, Bool.or_eq_true, decide_eq_true_eq] at hcond
    obtain ⟨hres, hk, hselected⟩ := hcond
    refine ⟨fun region hregion heq => hk (heq ▸ List.mem_map_of_mem hregion), ?_⟩
    cases hfixed : m₀.fixed level readings rec₀ with
    | true =>
      obtain ⟨rec, hrec, hremains⟩ := h.lookup_of_fixed hk hrec₀ hfixed
      refine ⟨rec, hrec, ?_⟩
      rw [hremains.region]
      simp [hremains.satisfies_of_fixed hres hfixed]
    | false =>
      rw [hfixed] at hselected
      obtain ⟨rec, hrec, hregion, hlevel⟩ := hkept k rec₀ hk hrec₀ hres hfixed
        (hselected.resolve_left Bool.false_ne_true)
      refine ⟨rec, hrec, ?_⟩
      rw [hregion]
      simp [hlevel]

/-! ## The scans -/

/-- What is resident and not pinned may be picked. -/
theorem candidate_of_resident {skipId : UInt64} (hacc : Accounted cx m)
    (hrec : m.records.lookup k = some rec) (hres : rec.state.satisfies level = true)
    (hpins : rec.pins = 0) (hk : k ≠ skipId) : candidate level skipId ⟨k, rec⟩ = true := by
  have hidle : rec.busy = false := by
    rw [(hacc.atRest k rec hrec).busy_eq, hpins]
    rfl
  simp [candidate, hk, hidle, hres]

theorem pins_of_candidate {skipId : UInt64} (hcand : candidate level skipId ⟨k, rec⟩ = true) :
    rec.pins = 0 := by
  have hidle := busy_of_candidate hcand
  simp only [Record.busy, Bool.or_eq_false_iff, decide_eq_false_iff_not, gt_iff_lt,
    Nat.pos_iff_ne_zero, not_not] at hidle
  exact hidle.1.1

/-- The scan for a level picks a region that is not fixed, and that has not been placed. -/
structure PicksIdle (m₀ : ModelResidencyManager σ) (readings : List ℕ) (done : List ModelRegion)
    (m : ModelResidencyManager σ) (call : ResidencyCall ρ α) (level : ModelResidencyTarget)
    (id : UInt64) : Prop where
  ne_zero : m.pickLruLocked call level id ≠ 0
  notPlaced : ∀ region ∈ done, region.id ≠ m.pickLruLocked call level id
  idle : ∀ rec₀, m₀.records.lookup (m.pickLruLocked call level id) = some rec₀ →
    m₀.fixed level readings rec₀ = false

theorem notMem_append_singleton :
    k ∉ (done ++ [region]).map ModelRegion.id ↔ (∀ r ∈ done, r.id ≠ k) ∧ k ≠ region.id := by
  simp [List.map_append, eq_comm]

/-- As long as a region may be picked that is not fixed, a scan picks such a region. -/
theorem InPlace.picksIdle (hacc : Accounted cx m)
    (h : InPlace cx m₀ target readings done (done ++ [region]) m)
    (hzero : (0 : UInt64) ∉ (done ++ [region]).map ModelRegion.id)
    (hk : k ∉ (done ++ [region]).map ModelRegion.id) (hrec : m.records.lookup k = some rec)
    (hres : rec.state.satisfies level = true) (hremains : Remains m₀ target readings rec₀ rec)
    (hidle : m₀.fixed level readings rec₀ = false)
    (call : ResidencyCall ρ α) : PicksIdle m₀ readings done m call level region.id := by
  have hfree : ¬ m₀.fixed level readings rec₀ = true := by simp [hidle]
  rw [fixed_iff, not_or, not_or] at hfree
  obtain ⟨hpins, hstops, hreadings⟩ := hfree
  have hcand : candidate level region.id ⟨k, rec⟩ = true :=
    candidate_of_resident hacc hrec hres (by rw [hremains.pins]; omega)
      (notMem_append_singleton.mp hk).2
  rcases m.pickLruLocked_spec call level region.id with ⟨recᵥ, hrecᵥ, hcandᵥ, hleast⟩ | ⟨-, hnone⟩
  · have hle : recᵥ.lastUsed ≤ rec₀.lastUsed := hremains.lastUsed ▸ hleast k rec hrec hcand
    have hnotPlaced : ∀ r ∈ done, r.id ≠ m.pickLruLocked call level region.id := by
      intro r hr heq
      obtain ⟨rec₁, hrec₁, -, -, now, hnow, hlate⟩ := h.placed r hr
      rw [heq, hrecᵥ] at hrec₁
      cases hrec₁
      exact hreadings ⟨now, hnow, hlate.trans hle⟩
    refine ⟨fun hstop => ?_, hnotPlaced, fun rec₁ hrec₁ => ?_⟩
    · -- a scan that stops at the region `0` would do so before the idle one
      rw [hstop] at hrecᵥ hcandᵥ
      obtain ⟨zero, hzero₀, hzeroRemains⟩ := h.others 0 recᵥ hzero hrecᵥ
      refine hstops ⟨zero, hzero₀, ?_, ?_, ?_⟩
      · rw [← hzeroRemains.pins, pins_of_candidate hcandᵥ]
      · exact hzeroRemains.satisfies (satisfies_of_candidate hcandᵥ)
      · rwa [← hzeroRemains.lastUsed]
    · have hnew := notMem_append_singleton.mpr ⟨hnotPlaced, ne_skipId_of_candidate hcandᵥ⟩
      obtain ⟨rec₂, hrec₂, hremains₂⟩ := h.others _ recᵥ hnew hrecᵥ
      cases hrec₁.symm.trans hrec₂
      rw [hremains₂.lastUsed] at hle
      by_contra hfixed
      rw [Bool.not_eq_false, fixed_iff] at hfixed
      -- what is fixed is used no earlier than the idle region, which would be fixed too
      rcases hfixed with hpinned | ⟨zero, hzero₀, hunpinned, hresident, hbefore⟩ |
          ⟨now, hnow, hlate⟩
      · rw [← hremains₂.pins, pins_of_candidate hcandᵥ] at hpinned
        exact absurd hpinned (lt_irrefl 0)
      · exact hstops ⟨zero, hzero₀, hunpinned, hresident, hbefore.trans hle⟩
      · exact hreadings ⟨now, hnow, hlate.trans hle⟩
  · rw [hnone k rec hrec] at hcand
    cases hcand

/-- While there is too little room at a level for the region that is under way, although it would
fit beside what stays in use, a scan picks a region that is not fixed. -/
theorem InPlace.picksIdle_of_full (rest : List ModelRegion) (hacc : Accounted cx m)
    (h : InPlace cx m₀ target readings done (done ++ [region]) m)
    (hzero : (0 : UInt64) ∉ (done ++ [region]).map ModelRegion.id)
    (hrec : m.records.lookup region.id = some rec) (hout : rec.state.satisfies level = false)
    (hsize : rec.region.size = (m₀.requested region).size)
    (hfull : m₀.bytesInUse level readings (done ++ region :: rest) (fun _ _ => false) <
      m.bytesAt level (fun _ _ => true) + rec.region.size.toNat) (call : ResidencyCall ρ α) :
    PicksIdle m₀ readings done m call level region.id := by
  by_contra hpicks
  have hheld := h.held_add_le (p := fun _ _ => false) hrec hout hsize
    fun k rec₁ rec₂ hk hrec₁ hres hrec₂ hremains => by
      by_contra hnot
      exact hpicks (h.picksIdle hacc hzero hk hrec₁ hres hremains (by simpa using hnot) call)
  have hmono : m₀.bytesInUse level readings (done ++ [region]) (fun _ _ => false) ≤
      m₀.bytesInUse level readings (done ++ [region] ++ rest) fun _ _ => false :=
    bytesInUse_le_append rest _
  rw [List.append_assoc, List.singleton_append] at hmono
  omega

/-! ## The changes of a request -/

/-- A change of the record that the request is for. -/
theorem InPlace.own (h : InPlace cx m₀ target readings done seen m)
    (hdone : ∀ r ∈ done, r.id ≠ region.id) (hseen : region.id ∈ seen.map ModelRegion.id)
    (hothers : ∀ k, k ≠ region.id → m'.records.lookup k = m.records.lookup k) :
    InPlace cx m₀ target readings done seen m' where
  placed r hr := by
    obtain ⟨rec, hrec, hplaced⟩ := h.placed r hr
    exact ⟨rec, (hothers r.id (hdone r hr)).trans hrec, hplaced⟩
  others k rec hk hrec := by
    rw [hothers k fun heq => hk (heq ▸ hseen)] at hrec
    exact h.others k rec hk hrec
  lost k rec₀ hk hrec₀ hnone := by
    rw [hothers k fun heq => hk (heq ▸ hseen)] at hnone
    have hlost := h.lost k rec₀ hk hrec₀ hnone
    refine ⟨hlost.resident, hlost.idle, hlost.full, fun u rec hu hrec => ?_⟩
    rw [hothers u fun heq => hu (heq ▸ hseen)] at hrec
    exact hlost.older u rec hu hrec

/-- A scan of `makeRamRoomLocked`. -/
theorem InPlace.evict (hacc : Accounted cx m)
    (h : InPlace cx m₀ target readings done (done ++ [region]) m)
    (hrec : m.records.lookup region.id = some rec) (hout : rec.state.satisfies .ram = false)
    (hsize : rec.region.size = (m₀.requested region).size)
    (hscan : EvictsLru cx call rec.region.size region.id m m')
    (hpicks : PicksIdle m₀ readings done m call .ram region.id) :
    InPlace cx m₀ target readings done (done ++ [region]) m' := by
  obtain ⟨recᵥ, hrecᵥ, hcandᵥ, rfl⟩ := hscan.drops
  have hnew := notMem_append_singleton.mpr ⟨hpicks.notPlaced, ne_skipId_of_candidate hcandᵥ⟩
  have hleast : ∀ k rec, m.records.lookup k = some rec →
      candidate .ram region.id ⟨k, rec⟩ = true → recᵥ.lastUsed ≤ rec.lastUsed := by
    rcases m.pickLruLocked_spec call .ram region.id with ⟨rec₁, hrec₁, -, hleast⟩ | ⟨hstop, -⟩
    · cases hrecᵥ.symm.trans hrec₁
      exact hleast
    · exact absurd hstop hpicks.ne_zero
  -- nothing is resident that was not there before the drop
  have hstill : ∀ k rec, (m.dropRecord cx (m.pickLruLocked call .ram region.id)
      recᵥ).records.lookup k = some rec → m.records.lookup k = some rec := by
    intro k rec hrec
    rw [lookup_dropRecord] at hrec
    split at hrec
    next => cases hrec
    next => exact hrec
  refine ⟨fun r hr => ?placed, fun k rec₁ hk hrec₁ => h.others k rec₁ hk (hstill k rec₁ hrec₁),
    fun k rec₀ hk hrec₀ hnone => ?lost⟩
  case placed =>
    obtain ⟨rec₁, hrec₁, hplaced⟩ := h.placed r hr
    exact ⟨rec₁, lookup_dropRecord.trans ((if_neg (hpicks.notPlaced r hr)).trans hrec₁), hplaced⟩
  case lost =>
    rw [lookup_dropRecord] at hnone
    split at hnone
    next hvictim =>
      subst hvictim
      obtain ⟨rec₁, hrec₁, hremains⟩ := h.others _ recᵥ hnew hrecᵥ
      cases hrec₀.symm.trans hrec₁
      refine ⟨hremains.satisfies (satisfies_of_candidate hcandᵥ), hpicks.idle rec₀ hrec₀, ?full,
        fun k rec₁ hk hrec₁ hres hpins => ?older⟩
      case full =>
        have hheld := h.held_add_le (p := fun _ rec => rec₀.lastUsed ≤ rec.lastUsed) hrec hout hsize
          fun k rec₁ rec₂ hk hrec₁ hres hrec₂ hremains₁ => by
            by_cases hpins : rec₂.pins = 0
            · have hcand : candidate .ram region.id ⟨k, rec₁⟩ = true :=
                candidate_of_resident hacc hrec₁ hres (by rw [hremains₁.pins, hpins])
                  (notMem_append_singleton.mp hk).2
              have hle := hleast k rec₁ hrec₁ hcand
              rw [hremains.lastUsed, hremains₁.lastUsed] at hle
              exact .inr (decide_eq_true hle)
            · exact .inl (fixed_iff.mpr (.inl (Nat.pos_of_ne_zero hpins)))
        have hsum : (m.telemetry.residentRamBytes + rec.region.size).toNat ≤
            m.telemetry.residentRamBytes.toNat + rec.region.size.toNat := by
          rw [UInt64.toNat_add]
          exact Nat.mod_le _ _
        have hfull := UInt64.lt_iff_toNat_lt.mp hscan.full
        have htotal := hacc.ram_eq
        rw [hacc.ramTotal_eq] at htotal
        omega
      case older =>
        rw [← hremains.lastUsed]
        have hrec₁ := hstill k rec₁ hrec₁
        refine hleast k rec₁ hrec₁ (candidate_of_resident hacc hrec₁ hres hpins ?_)
        exact (notMem_append_singleton.mp hk).2
    next =>
      have hlost := h.lost k rec₀ hk hrec₀ hnone
      exact ⟨hlost.resident, hlost.idle, hlost.full, fun u rec₁ hu hrec₁ =>
        hlost.older u rec₁ hu (hstill u rec₁ hrec₁)⟩

/-- A scan of `makeAccelRoomLocked`. -/
theorem InPlace.demote {M : IAcceleratorMemory σ α} {needed : UInt64}
    (htarget : target = .accelerator)
    (h : InPlace cx m₀ target readings done (done ++ [region]) m)
    (hscan : DemotesLru M call needed region.id m m')
    (hpicks : PicksIdle m₀ readings done m call .accelerator region.id) :
    InPlace cx m₀ target readings done (done ++ [region]) m' := by
  -- the victim keeps its bytes in RAM and loses its buffer
  obtain ⟨recᵥ, p, hrecᵥ, hcandᵥ, -, rfl⟩ := hscan.demotes
  have hnew := notMem_append_singleton.mpr ⟨hpicks.notPlaced, ne_skipId_of_candidate hcandᵥ⟩
  have hresᵥ : recᵥ.state.satisfies .ram = true :=
    ModelResidencyState.satisfies_ram (satisfies_of_candidate hcandᵥ)
  refine ⟨fun r hr => ?placed, fun k rec₁ hk hrec₁ => ?others, fun k rec₀ hk hrec₀ hnone => ?lost⟩
  case placed =>
    obtain ⟨rec₁, hrec₁, hplaced⟩ := h.placed r hr
    exact ⟨rec₁, lookup_demote.trans ((if_neg (hpicks.notPlaced r hr)).trans hrec₁), hplaced⟩
  case others =>
    rw [lookup_demote] at hrec₁
    split at hrec₁
    next hvictim =>
      subst hvictim
      cases hrec₁
      obtain ⟨rec₀, hrec₀, hremains⟩ := h.others _ recᵥ hnew hrecᵥ
      refine ⟨rec₀, hrec₀, hremains.region, hremains.pins, hremains.lastUsed, ?_, ?_, ?_⟩
      · rw [← hremains.ram, hresᵥ]
        rfl
      · exact fun hres => by cases hres
      · rintro _ (hram | hfixed)
        · rw [htarget] at hram
          cases hram
        · rw [hpicks.idle rec₀ hrec₀] at hfixed
          cases hfixed
    next => exact h.others k rec₁ hk hrec₁
  case lost =>
    rw [lookup_demote] at hnone
    split at hnone
    next => cases hnone
    next =>
      have hlost := h.lost k rec₀ hk hrec₀ hnone
      refine ⟨hlost.resident, hlost.idle, hlost.full, fun u rec₁ hu hrec₁ hres hpins => ?_⟩
      rw [lookup_demote] at hrec₁
      split at hrec₁
      next hvictim =>
        subst hvictim
        cases hrec₁
        exact hlost.older _ recᵥ hu hrecᵥ hresᵥ hpins
      next => exact hlost.older u rec₁ hu hrec₁ hres hpins

end HeteroAccel.ModelResidencyManager
