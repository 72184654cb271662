import HeteroAccel.Model.Residency.Accounting

/-!
# When room can be made

A request that needs RAM drops other regions that are not pinned, least recently used first. The
scan reports the victim by its id and `0` for none, so a region with id 0 ends the loop when its
turn comes. Up to that, and to the size on record being the one asked for, a request fails for
lack of RAM only when it and the pinned regions exceed the budget together.

What a failed request has evicted until then is not restored.

## Main definitions

* `Evictable`, `pinnedOthers`, `olderOthers`: the other regions, as a caller sees them;
* `EvictsInOrder`, `LeavesRoom`, `RoomMade`: what a request does about room;
* `roomMade_iff`: when every request does it;
* `others_of_ramBudgetExhausted`: the other regions after a request that failed for lack of RAM.
-/

namespace HeteroAccel

variable {ρ σ α : Type} {cx : ResidencyContext ρ σ α} {call : ResidencyCall ρ α}

/-- A region other than `id` that may be evicted from RAM: resident and not pinned. -/
def Evictable (id k : UInt64) (rec : Record) : Prop :=
  k ≠ id ∧ rec.pins = 0 ∧ rec.state.satisfies .ram = true

instance (id k : UInt64) (rec : Record) : Decidable (Evictable id k rec) := by
  unfold Evictable
  infer_instance

namespace ModelResidencyManager

variable {m m' : ModelResidencyManager σ} {id needed : UInt64} {rec : Record}

/-- The bytes of the resident regions other than `id` that are pinned. -/
def pinnedOthers (m : ModelResidencyManager σ) (id : UInt64) : ℕ :=
  KeyedMap.total (fun k rec => if k ≠ id ∧ 0 < rec.pins ∧ rec.state.satisfies .ram = true
    then rec.region.size.toNat else 0) m.records

/-- The bytes of the evictable regions used before the time `t`. -/
def olderOthers (m : ModelResidencyManager σ) (id : UInt64) (t : ℕ) : ℕ :=
  KeyedMap.total (fun k rec => if Evictable id k rec ∧ rec.lastUsed < t
    then rec.region.size.toNat else 0) m.records

/-- Between two calls the candidates of the scan are the evictable regions. -/
theorem candidate_iff_evictable {k : UInt64} (hrest : rec.AtRest cx) :
    candidate .ram id ⟨k, rec⟩ = true ↔ Evictable id k rec := by
  simp [candidate, Evictable, hrest.busy_eq, and_assoc]

/-- What is pinned is part of what is in RAM. -/
theorem Accounted.pinnedOthers_le (h : Accounted cx m) (id : UInt64) :
    m.pinnedOthers id ≤ m.ramTotal := by
  refine KeyedMap.total_le_total fun k rec hrec => ?_
  split
  next hpinned => rw [(h.atRest k rec hrec).ramSize_eq hpinned.2.2]
  next => exact Nat.zero_le _

/-! ## A run of evictions -/

theorem EvictionRun.accounted (h : EvictionRun cx call needed id m m') (hacc : Accounted cx m) :
    Accounted cx m' :=
  hacc.steps h.toSteps

/-- What one eviction takes off the totals. -/
theorem EvictsLru.totals (h : EvictsLru cx call needed id m m') (hacc : Accounted cx m) :
    ∃ k rec, k ≠ 0 ∧ k = m.pickLruLocked call .ram id ∧ m.records.lookup k = some rec ∧
      Evictable id k rec ∧ m'.ramTotal + rec.region.size.toNat = m.ramTotal ∧
      m'.pinnedOthers id = m.pinnedOthers id ∧
      ∀ t, m'.olderOthers id t + (if rec.lastUsed < t then rec.region.size.toNat else 0) =
        m.olderOthers id t := by
  obtain ⟨rec, hrec, hcand, rfl⟩ := h.drops
  set k := m.pickLruLocked call .ram id
  have hrest := hacc.atRest k rec hrec
  have hevictable : Evictable id k rec := (candidate_iff_evictable hrest).mp hcand
  refine ⟨k, rec, h.victim_ne_zero, rfl, hrec, hevictable, ?_, ?_, fun t => ?_⟩
  · have htotal := KeyedMap.total_erase (f := fun _ rec => rec.ramSize) hrec
    rw [ramTotal, dropRecord_records, ← hrest.ramSize_eq hevictable.2.2]
    exact htotal
  · have htotal := KeyedMap.total_erase (f := fun k rec =>
      if k ≠ id ∧ 0 < rec.pins ∧ rec.state.satisfies .ram = true
      then rec.region.size.toNat else 0) hrec
    rw [if_neg (fun hpinned => absurd hevictable.2.1 hpinned.2.1.ne')] at htotal
    rw [pinnedOthers, dropRecord_records]
    exact htotal
  · have htotal := KeyedMap.total_erase (f := fun k rec =>
      if Evictable id k rec ∧ rec.lastUsed < t then rec.region.size.toNat else 0) hrec
    simp only [hevictable, true_and] at htotal
    rw [olderOthers, dropRecord_records]
    exact htotal

/-- Evictions keep or drop each region, and drop evictable ones only. -/
theorem EvictionRun.lookup_cases (h : EvictionRun cx call needed id m m')
    (hacc : Accounted cx m) (k : UInt64) :
    m'.records.lookup k = m.records.lookup k ∨
      m'.records.lookup k = none ∧ ∃ rec, m.records.lookup k = some rec ∧ Evictable id k rec := by
  induction h with
  | refl => exact .inl rfl
  | tail hrun hlast ih =>
    rename_i m₁ m₂
    have hacc₁ : Accounted cx m₁ := EvictionRun.accounted hrun hacc
    obtain ⟨rec, hrec, hcand, rfl⟩ := hlast.drops
    rw [lookup_dropRecord]
    split
    next hk =>
      have hevictable := (candidate_iff_evictable (hacc₁.atRest _ rec hrec)).mp hcand
      rcases ih with heq | ⟨hnone, -⟩
      · exact .inr ⟨rfl, rec, by rw [← heq, hk, hrec], hk ▸ hevictable⟩
      · rw [hk, hrec] at hnone
        cases hnone
    next => exact ih

/-- Evictions leave the records that they do not drop. -/
theorem EvictionRun.lookup_of_some (h : EvictionRun cx call needed id m m')
    (hacc : Accounted cx m) {k : UInt64} (hrec : m'.records.lookup k = some rec) :
    m.records.lookup k = some rec := by
  rcases h.lookup_cases hacc k with heq | ⟨hnone, -⟩
  · rw [← heq, hrec]
  · rw [hnone] at hrec
    cases hrec

/-- Evictions leave the pinned bytes alone. -/
theorem EvictionRun.pinnedOthers_eq (h : EvictionRun cx call needed id m m')
    (hacc : Accounted cx m) : m'.pinnedOthers id = m.pinnedOthers id := by
  induction h with
  | refl => rfl
  | tail hrun hlast ih =>
    obtain ⟨_, _, -, -, -, -, -, hpinned, -⟩ := hlast.totals (EvictionRun.accounted hrun hacc)
    exact hpinned.trans ih

/-- Evictions only lower the bytes in RAM. -/
theorem EvictionRun.ramTotal_le (h : EvictionRun cx call needed id m m')
    (hacc : Accounted cx m) : m'.ramTotal ≤ m.ramTotal := by
  induction h with
  | refl => exact le_rfl
  | tail hrun hlast ih =>
    obtain ⟨_, _, -, -, -, -, hram, -, -⟩ := hlast.totals (EvictionRun.accounted hrun hacc)
    omega

/-- What evictions free is at least what they free of the regions used before `t`. -/
theorem EvictionRun.freed_ge (h : EvictionRun cx call needed id m m') (hacc : Accounted cx m)
    (t : ℕ) : m'.ramTotal + m.olderOthers id t ≤ m.ramTotal + m'.olderOthers id t := by
  induction h with
  | refl => exact le_rfl
  | tail hrun hlast ih =>
    obtain ⟨_, rec, -, -, -, -, hram, -, holder⟩ := hlast.totals (EvictionRun.accounted hrun hacc)
    have := holder t
    split at this <;> omega

/-- A region with id 0 that is evictable and was used no later than any other evictable region
has its turn: the scan visiting it first reports its id. -/
theorem pickLruLocked_eq_zero {rec₀ : Record} {target : ModelResidencyTarget}
    (horder : call.order = .first fun kv => kv.1 = 0) (hrec₀ : m.records.lookup 0 = some rec₀)
    (hcand₀ : candidate target id ⟨0, rec₀⟩ = true)
    (hleast : ∀ k rec, m.records.lookup k = some rec → candidate target id ⟨k, rec⟩ = true →
      rec₀.lastUsed ≤ rec.lastUsed) :
    m.pickLruLocked call target id = 0 := by
  by_contra hne
  have hfold := foldl_lruStep target id call.now (call.order.visit m.records.entries) none
  set l := (call.order.visit m.records.entries).filter (candidate target id) with hl
  change _ = Option.elim (l.argmin fun kv => kv.2.lastUsed) _ _ at hfold
  have hzero : (⟨0, rec₀⟩ : Σ _ : UInt64, Record) ∈ l := by
    rw [hl, List.mem_filter, Traversal.mem_visit, KeyedMap.mem_entries_iff]
    exact ⟨hrec₀, hcand₀⟩
  cases hmin : l.argmin fun kv => kv.2.lastUsed with
  | none =>
    rw [List.argmin_eq_none.mp hmin] at hzero
    cases hzero
  | some kv =>
    rw [hmin] at hfold
    have hid : m.pickLruLocked call target id = kv.1 := congrArg LruScan.victimId hfold
    have hmem : kv ∈ l := List.argmin_mem hmin
    have hkv : m.records.lookup kv.1 = some kv.2 ∧ candidate target id kv = true := by
      rw [hl, List.mem_filter, Traversal.mem_visit] at hmem
      exact ⟨KeyedMap.mem_entries_iff.mp hmem.1, hmem.2⟩
    -- the minimum found first is no later in the list than the region 0, which comes first
    have hindex := List.index_of_argmin hmin hzero (hleast kv.1 kv.2 hkv.1 hkv.2)
    rw [hl, horder, Traversal.first, List.filter_append, List.idxOf_append, List.idxOf_append,
      if_neg, if_pos] at hindex
    · have hlt : List.idxOf (⟨0, rec₀⟩ : Σ _ : UInt64, Record)
          ((m.records.entries.filter fun kv => decide (kv.1 = 0)).filter (candidate target id)) <
          ((m.records.entries.filter fun kv => decide (kv.1 = 0)).filter
            (candidate target id)).length := by
        refine List.idxOf_lt_length_iff.mpr ?_
        simp [List.mem_filter, KeyedMap.mem_entries_iff, hrec₀, hcand₀]
      omega
    · simp [List.mem_filter, KeyedMap.mem_entries_iff, hrec₀, hcand₀]
    · intro hmem'
      simp only [List.mem_filter, decide_eq_true_eq] at hmem'
      exact hne (hid.trans hmem'.1.2)

/-- When the scan visits the region 0 first, only regions used before it are evicted, and it
stays. -/
theorem EvictionRun.freed_eq (h : EvictionRun cx call needed id m m') (hacc : Accounted cx m)
    {rec₀ : Record} (horder : call.order = .first fun kv => kv.1 = 0)
    (hrec₀ : m.records.lookup 0 = some rec₀) (hevictable : Evictable id 0 rec₀) :
    m'.records.lookup 0 = some rec₀ ∧
      m'.ramTotal + m.olderOthers id rec₀.lastUsed =
        m.ramTotal + m'.olderOthers id rec₀.lastUsed := by
  induction h with
  | refl => exact ⟨hrec₀, rfl⟩
  | tail hrun hlast ih =>
    rename_i m₁ m₂
    obtain ⟨hrec₁, heq⟩ := ih
    have hacc₁ : Accounted cx m₁ := EvictionRun.accounted hrun hacc
    obtain ⟨k, rec, hk, hpick, hrec, -, hram, -, holder⟩ := hlast.totals hacc₁
    have hcand₀ : candidate .ram id ⟨0, rec₀⟩ = true :=
      (candidate_iff_evictable (hacc₁.atRest 0 rec₀ hrec₁)).mpr hevictable
    constructor
    · obtain ⟨rec', -, -, rfl⟩ := hlast.drops
      rw [lookup_dropRecord, if_neg (Ne.symm (hpick ▸ hk)), hrec₁]
    · -- the victim is least recently used, and 0 was not picked, so it was used before 0
      have hlt : rec.lastUsed < rec₀.lastUsed := by
        by_contra hge
        refine hk (hpick.trans (pickLruLocked_eq_zero horder hrec₁ hcand₀ ?_))
        intro k' rec' hrec' hcand'
        rcases m₁.pickLruLocked_spec call .ram id with ⟨rec₂, hrec₂, -, hleast⟩ | ⟨hzero, -⟩
        · rw [← hpick, hrec, Option.some.injEq] at hrec₂
          subst hrec₂
          have := hleast k' rec' hrec' hcand'
          omega
        · exact absurd (hpick.trans hzero) hk
      have := holder rec₀.lastUsed
      rw [if_pos hlt] at this
      omega

/-! ## When the loop fails -/

/-- A 64-bit sum that exceeds the budget has not wrapped when the budget held before. -/
theorem Accounted.toNat_full (h : Accounted cx m)
    (hfull : m.telemetry.residentRamBytes + needed > cx.budget.ramBytes) :
    m.ramTotal + needed.toNat < 2 ^ 64 ∧ cx.budget.ramBytes.toNat < m.ramTotal + needed.toNat := by
  have hlt := UInt64.lt_iff_toNat_lt.mp hfull
  rw [UInt64.toNat_add, h.ram_eq] at hlt
  have hle := h.ram_le
  have hneeded := needed.toNat_lt
  by_cases hwrap : m.ramTotal + needed.toNat < 2 ^ 64
  · rw [Nat.mod_eq_of_lt hwrap] at hlt
    exact ⟨hwrap, hlt⟩
  · omega

/-- Bytes that fit do fit, if their 64-bit sum has not wrapped. -/
theorem Accounted.toNat_fits (h : Accounted cx m) (hwrap : m.ramTotal + needed.toNat < 2 ^ 64)
    (hfits : ¬ m.telemetry.residentRamBytes + needed > cx.budget.ramBytes) :
    m.ramTotal + needed.toNat ≤ cx.budget.ramBytes.toNat := by
  have hle := UInt64.le_iff_toNat_le.mp (UInt64.not_lt.mp hfits)
  rwa [UInt64.toNat_add, h.ram_eq, Nat.mod_eq_of_lt hwrap] at hle

/-- What stands in the way of making room for `needed` bytes when a region with id 0 is
evictable: the regions used before it do not free enough. -/
def ZeroBlocks (cx : ResidencyContext ρ σ α) (m : ModelResidencyManager σ) (id : UInt64)
    (needed : ℕ) : Prop :=
  ∃ rec₀, m.records.lookup 0 = some rec₀ ∧ Evictable id 0 rec₀ ∧
    cx.budget.ramBytes.toNat + m.olderOthers id rec₀.lastUsed < m.ramTotal + needed

/-- The loop fails only when room was missing. -/
theorem full_of_makeRamRoomLocked_error {f : ResidencyFailure}
    (hfail : (makeRamRoomLocked cx call m needed id).1 = .error f) :
    m.telemetry.residentRamBytes + needed > cx.budget.ramBytes := by
  by_contra hfits
  rw [makeRamRoomLocked, if_neg hfits] at hfail
  cases hfail

/-- When the loop fails and no region with id 0 was in the way, no other region is left to evict,
and the bytes needed exceed the budget together with the pinned ones. -/
theorem makeRamRoomLocked_error (hacc : Accounted cx m) {f : ResidencyFailure}
    (hown : ∀ rec, m.records.lookup id = some rec → rec.state.satisfies .ram = false)
    (hzero : ¬ ZeroBlocks cx m id needed.toNat)
    (hfail : (makeRamRoomLocked cx call m needed id).1 = .error f) :
    cx.budget.ramBytes.toNat < needed.toNat + m.pinnedOthers id ∧
      ∀ k rec, (makeRamRoomLocked cx call m needed id).2.records.lookup k = some rec →
        ¬ Evictable id k rec := by
  obtain ⟨m₁, hrun, ⟨hok, -⟩ | ⟨hend, hfull, hpick⟩⟩ :=
    makeRamRoomLocked_spec cx call m needed id
  · rw [hok] at hfail
    cases hfail
  have hacc₁ : Accounted cx m₁ := hrun.accounted hacc
  have hfull₁ := (hacc₁.toNat_full hfull).2
  -- nothing that may be evicted is left, for the region 0 does not stand in the way
  have hnone : ∀ k rec, m₁.records.lookup k = some rec → ¬ Evictable id k rec := by
    intro k rec hrec hevictable
    rcases m₁.pickLruLocked_spec call .ram id with ⟨rec₀, hrec₀, hcand₀, hleast⟩ | ⟨-, hempty⟩
    · -- the victim is the region 0, so every region used before it is gone
      rw [hpick] at hrec₀ hcand₀
      refine hzero ⟨rec₀, hrun.lookup_of_some hacc hrec₀,
        (candidate_iff_evictable (hacc₁.atRest 0 rec₀ hrec₀)).mp hcand₀, ?_⟩
      have hgone : m₁.olderOthers id rec₀.lastUsed = 0 := by
        refine Nat.eq_zero_of_not_pos fun hpos => ?_
        obtain ⟨k', rec', hrec', hweight⟩ := KeyedMap.exists_pos_of_total_pos hpos
        split at hweight
        next holder =>
          have := hleast k' rec' hrec'
            ((candidate_iff_evictable (hacc₁.atRest k' rec' hrec')).mpr holder.1)
          omega
        next => omega
      have := hrun.freed_ge hacc rec₀.lastUsed
      omega
    · have := hempty k rec hrec
      rw [(candidate_iff_evictable (hacc₁.atRest k rec hrec)).mpr hevictable] at this
      cases this
  refine ⟨?_, ?_⟩
  · -- so all that is resident is pinned
    have hall : m₁.ramTotal = m₁.pinnedOthers id := by
      refine KeyedMap.total_congr fun k rec hrec => ?_
      have hrest := hacc₁.atRest k rec hrec
      by_cases hres : rec.state.satisfies .ram = true
      · have hk : k ≠ id := by
          rintro rfl
          rw [hown rec (hrun.lookup_of_some hacc hrec)] at hres
          cases hres
        have hpinned : 0 < rec.pins :=
          Nat.pos_of_ne_zero fun hpins => hnone k rec hrec ⟨hk, hpins, hres⟩
        rw [if_pos ⟨hk, hpinned, hres⟩, hrest.ramSize_eq hres]
      · rw [if_neg (fun h => hres h.2.2), Record.ramSize,
          if_neg (fun h => hres (hrest.ram_iff.mp h))]
    have := hrun.pinnedOthers_eq hacc
    omega
  · rw [hend]
    exact hnone

/-- The loop fails when the bytes needed exceed the budget together with the pinned ones. -/
theorem makeRamRoomLocked_of_pinned (hacc : Accounted cx m)
    (hwrap : m.ramTotal + needed.toNat < 2 ^ 64)
    (hpinned : cx.budget.ramBytes.toNat < needed.toNat + m.pinnedOthers id) :
    (makeRamRoomLocked cx call m needed id).1 = .error .ramBudgetExhausted := by
  obtain ⟨m₁, hrun, ⟨-, hfits⟩ | ⟨hend, -, -⟩⟩ := makeRamRoomLocked_spec cx call m needed id
  · have hacc₁ := hrun.accounted hacc
    have hless := hrun.ramTotal_le hacc
    have hkept := hrun.pinnedOthers_eq hacc
    have hbound := hacc₁.pinnedOthers_le id
    have hle := hacc₁.toNat_fits (lt_of_le_of_lt (Nat.add_le_add_right hless _) hwrap) hfits
    omega
  · rw [hend]
    rfl

/-- The loop fails, with the region 0 still there, when that region has its turn before there is
room and the scan visits it first. -/
theorem makeRamRoomLocked_of_zeroBlocks (hacc : Accounted cx m)
    (horder : call.order = .first fun kv => kv.1 = 0)
    (hwrap : m.ramTotal + needed.toNat < 2 ^ 64) (hzero : ZeroBlocks cx m id needed.toNat) :
    (makeRamRoomLocked cx call m needed id).1 = .error .ramBudgetExhausted ∧
      ∃ rec₀, (makeRamRoomLocked cx call m needed id).2.records.lookup 0 = some rec₀ ∧
        Evictable id 0 rec₀ := by
  obtain ⟨rec₀, hrec₀, hevictable, hblocked⟩ := hzero
  obtain ⟨m₁, hrun, ⟨-, hfits⟩ | ⟨hend, -, -⟩⟩ := makeRamRoomLocked_spec cx call m needed id
  · have hacc₁ := hrun.accounted hacc
    have hless := hrun.ramTotal_le hacc
    obtain ⟨-, hfreed⟩ := hrun.freed_eq hacc horder hrec₀ hevictable
    have hle := hacc₁.toNat_fits (lt_of_le_of_lt (Nat.add_le_add_right hless _) hwrap) hfits
    omega
  · rw [hend]
    exact ⟨rfl, rec₀, (hrun.freed_eq hacc horder hrec₀ hevictable).1, hevictable⟩

/-! ## Requests that fail for lack of RAM -/

/-- An upload does not fail for lack of RAM. -/
theorem uploadLocked_ne_ramBudgetExhausted :
    (uploadLocked cx call m id).1 ≠ .error .ramBudgetExhausted := by
  unfold uploadLocked
  cases cx.accelerator with
  | none => nofun
  | some M =>
    dsimp only
    split
    next => nofun
    next =>
      split
      next => nofun
      next =>
        split
        next => nofun
        next =>
          -- the loop for the device has an error of its own
          obtain ⟨m₁, -, ⟨hok, -⟩ | hfail | ⟨hstuck, -⟩⟩ := makeAccelRoomLocked_spec M call m
            (m.recordAt id).region.size (m.recordAt id).region.id
          · rw [hok]
            dsimp only
            unfold transfer
            split
            next => nofun
            next =>
              split
              next => nofun
              next => nofun
          · rw [hfail]
            nofun
          · rw [hstuck]
            nofun

/-- A load fails for lack of RAM exactly when the loop that makes room does, and leaves what that
loop leaves. -/
theorem loadToRamLocked_ramBudgetExhausted (cx : ResidencyContext ρ σ α)
    (call : ResidencyCall ρ α) (hkeys : m.KeysMatch) (hrec : m.records.lookup id = some rec) :
    ((loadToRamLocked cx call m id).1 = .error .ramBudgetExhausted ↔
      call.cancelBeforeLoad = false ∧
        (makeRamRoomLocked cx call m rec.region.size id).1 = .error .ramBudgetExhausted) ∧
    ((loadToRamLocked cx call m id).1 = .error .ramBudgetExhausted →
      (loadToRamLocked cx call m id).2 = (makeRamRoomLocked cx call m rec.region.size id).2) := by
  have hid : rec.region.id = id := hkeys id rec hrec
  unfold loadToRamLocked
  rw [recordAt_of_lookup hrec, hid]
  cases hcancel : call.cancelBeforeLoad with
  | true => simp [fail]
  | false =>
    cases hroom : makeRamRoomLocked cx call m rec.region.size id with
    | mk result m₁ =>
      cases result with
      | error f => simp
      | ok _ =>
        -- with room made the load fails for other reasons, if at all
        simp only [Bool.false_eq_true, ↓reduceIte, reduceCtorEq, and_false, iff_false]
        refine ⟨?_, ?_⟩ <;>
        · split
          next => nofun
          next =>
            split
            next => nofun
            next => nofun

/-- A placement fails for lack of RAM exactly when the region is not in RAM and the loop that
makes room for it fails, and leaves what that loop leaves. -/
theorem place_ramBudgetExhausted (cx : ResidencyContext ρ σ α) (call : ResidencyCall ρ α)
    (hkeys : m.KeysMatch) (hrec : m.records.lookup id = some rec) (target : ModelResidencyTarget) :
    ((place cx call m id target).1 = .error .ramBudgetExhausted ↔
      rec.state.satisfies .ram = false ∧ call.cancelBeforeLoad = false ∧
        (makeRamRoomLocked cx call m rec.region.size id).1 = .error .ramBudgetExhausted) ∧
    ((place cx call m id target).1 = .error .ramBudgetExhausted →
      (place cx call m id target).2 = (makeRamRoomLocked cx call m rec.region.size id).2) := by
  -- what follows the load never fails for lack of RAM
  have hrest : ∀ m₁ : ModelResidencyManager σ,
      (if (m₁.recordAt id).state.satisfies .accelerator then (.ok (), m₁)
        else uploadLocked cx call m₁ id : Result σ).1 ≠ .error .ramBudgetExhausted := by
    intro m₁
    split
    next => nofun
    next => exact uploadLocked_ne_ramBudgetExhausted
  obtain ⟨hiff, hstate⟩ := loadToRamLocked_ramBudgetExhausted cx call hkeys hrec
  unfold place
  rw [recordAt_of_lookup hrec]
  cases hram : rec.state.satisfies .ram with
  | true =>
    simp only [↓reduceIte, Bool.true_eq_false, false_and, iff_false]
    cases target with
    | ram => exact ⟨nofun, nofun⟩
    | accelerator => exact ⟨hrest m, fun h => absurd h (hrest m)⟩
  | false =>
    simp only [Bool.false_eq_true, ↓reduceIte, true_and]
    rw [← hiff]
    cases hload : loadToRamLocked cx call m id with
    | mk result m₁ =>
      rw [hload] at hstate
      cases result with
      | error f => exact ⟨Iff.rfl, hstate⟩
      | ok _ =>
        simp only [reduceCtorEq, iff_false]
        cases target with
        | ram => exact ⟨nofun, nofun⟩
        | accelerator => exact ⟨hrest m₁, fun h => absurd h (hrest m₁)⟩

/-! ## Requests -/

/-- The result of a request for `region`, by either of the two calls that make it resident. -/
def IsRequest (cx : ResidencyContext ρ σ α) (m : ModelResidencyManager σ) (region : ModelRegion)
    (target : ModelResidencyTarget) (call : ResidencyCall ρ α) (result : Result σ) : Prop :=
  result = m.ensureResident cx region target call ∨ result = m.prefetch cx region target call

/-- Creating the record of a region changes no total to which a new record adds nothing. -/
theorem total_getOrCreateLocked {f : UInt64 → Record → ℕ} {region : ModelRegion}
    (hzero : f region.id { region } = 0) :
    KeyedMap.total f (m.getOrCreateLocked region).records = KeyedMap.total f m.records := by
  unfold getOrCreateLocked
  cases hrec : m.records.lookup region.id with
  | some rec => rfl
  | none =>
    change KeyedMap.total f (m.records.insert region.id { region }) = _
    rw [KeyedMap.total_insert_of_notMem hrec, hzero, Nat.add_zero]

/-- A state that differs from `m` in the record created for `region` and in notes at most. -/
structure Prepared (cx : ResidencyContext ρ σ α) (m : ModelResidencyManager σ)
    (region : ModelRegion) (m₁ : ModelResidencyManager σ) (rec : Record) : Prop where
  keys : m₁.KeysMatch
  accounted : Accounted cx m₁
  lookup : m₁.records.lookup region.id = some rec
  lookup_ne : ∀ k, k ≠ region.id → m₁.records.lookup k = m.records.lookup k
  region_eq : rec.region = m.requested region
  inRam : rec.state.satisfies .ram = m.isResident region.id .ram
  ramTotal : m₁.ramTotal = m.ramTotal
  accelTotal : m₁.accelTotal = m.accelTotal
  pinned : m₁.pinnedOthers region.id = m.pinnedOthers region.id
  older : ∀ t, m₁.olderOthers region.id t = m.olderOthers region.id t

/-- What `getOrCreateLocked` prepares for a valid region. -/
theorem prepared_getOrCreateLocked (hkeys : m.KeysMatch) (hacc : Accounted cx m)
    {region : ModelRegion} (hvalid : region.valid = true) :
    Prepared cx m region (m.getOrCreateLocked region)
      ((m.records.lookup region.id).getD { region }) := by
  have hsteps : ResidencySteps cx m (m.getOrCreateLocked region) :=
    (getOrCreateLocked_steps hvalid).1
  obtain ⟨rec, hrec, hfound⟩ := lookup_getOrCreateLocked (m := m) region
  refine ⟨hkeys.steps hsteps, ?_, hfound ▸ hrec, fun k => lookup_getOrCreateLocked_of_ne, rfl, ?_,
    ?_, ?_, ?_, fun t => ?_⟩
  · exact hacc.steps hsteps
  · unfold isResident
    cases m.records.lookup region.id with
    | none => rfl
    | some rec => rfl
  · exact total_getOrCreateLocked (by simp [Record.ramSize])
  · exact total_getOrCreateLocked (by simp [Record.accelSize])
  · exact total_getOrCreateLocked (by simp)
  · exact total_getOrCreateLocked (by simp [Evictable])

/-- Counting a miss prepares nothing else. -/
theorem Prepared.countMiss {region : ModelRegion} {m₁ : ModelResidencyManager σ}
    (h : Prepared cx m region m₁ rec) : Prepared cx m region m₁.countMiss rec :=
  { h with
    keys := h.keys
    accounted := h.accounted.step (.note rfl rfl ⟨rfl, rfl⟩) }

/-- Whether the region 0 blocks the loop is decided before the record is created. -/
theorem Prepared.zeroBlocks_iff {region : ModelRegion} {m₁ : ModelResidencyManager σ} {n : ℕ}
    (h : Prepared cx m region m₁ rec) :
    ZeroBlocks cx m₁ region.id n ↔ ZeroBlocks cx m region.id n := by
  unfold ZeroBlocks
  constructor
  · rintro ⟨rec₀, hrec₀, hevictable, hlt⟩
    rw [h.lookup_ne 0 hevictable.1] at hrec₀
    rw [h.older, h.ramTotal] at hlt
    exact ⟨rec₀, hrec₀, hevictable, hlt⟩
  · rintro ⟨rec₀, hrec₀, hevictable, hlt⟩
    rw [← h.lookup_ne 0 hevictable.1] at hrec₀
    rw [← h.older, ← h.ramTotal] at hlt
    exact ⟨rec₀, hrec₀, hevictable, hlt⟩

/-- `ensureResident` fails for lack of RAM exactly when the loop that makes room for the region on
record fails, and leaves what that loop leaves. -/
theorem ensureResident_ramBudgetExhausted (call : ResidencyCall ρ α) (hkeys : m.KeysMatch)
    (hacc : Accounted cx m) {region : ModelRegion} (hvalid : region.valid = true)
    (target : ModelResidencyTarget) :
    ((m.ensureResident cx region target call).1 = .error .ramBudgetExhausted ↔
      m.isResident region.id .ram = false ∧ call.cancelBeforeLoad = false ∧
        (makeRamRoomLocked cx call (m.getOrCreateLocked region) (m.requested region).size
          region.id).1 = .error .ramBudgetExhausted) ∧
    ((m.ensureResident cx region target call).1 = .error .ramBudgetExhausted →
      (m.ensureResident cx region target call).2 =
        (makeRamRoomLocked cx call (m.getOrCreateLocked region) (m.requested region).size
          region.id).2) := by
  have hprep := prepared_getOrCreateLocked hkeys hacc hvalid
  have hrest := hprep.accounted.atRest _ _ hprep.lookup
  obtain ⟨hiff, hstate⟩ := place_ramBudgetExhausted cx call hprep.keys hprep.lookup target
  rw [hprep.region_eq] at hiff hstate
  rw [hprep.inRam] at hiff
  rw [← hiff]
  unfold ensureResident
  rw [if_neg (by simp [hvalid])]
  dsimp only
  rw [recordAt_of_lookup hprep.lookup]
  split
  next hsat =>
    -- the region is there already, so the placement would not fail either
    have hres := ModelResidencyState.satisfies_ram hsat
    rw [hprep.inRam] at hres
    simp only [reduceCtorEq, false_iff, false_implies, and_true]
    intro hplace
    rw [(hiff.mp hplace).1] at hres
    cases hres
  next =>
    rw [if_neg (by simp [hrest.transferring])]
    split
    next f m₁ hplace =>
      rw [hplace] at hstate ⊢
      exact ⟨Iff.rfl, hstate⟩
    next m₁ hplace =>
      rw [hplace]
      simp

/-- `prefetch` fails for lack of RAM only so, too. -/
theorem prefetch_ramBudgetExhausted (call : ResidencyCall ρ α) (hkeys : m.KeysMatch)
    (hacc : Accounted cx m) {region : ModelRegion} (hvalid : region.valid = true)
    {target : ModelResidencyTarget}
    (hfail : (m.prefetch cx region target call).1 = .error .ramBudgetExhausted) :
    m.isResident region.id .ram = false ∧
      (makeRamRoomLocked cx call (m.getOrCreateLocked region).countMiss (m.requested region).size
        region.id).1 = .error .ramBudgetExhausted ∧
      (m.prefetch cx region target call).2 =
        (makeRamRoomLocked cx call (m.getOrCreateLocked region).countMiss
          (m.requested region).size region.id).2 := by
  have hprep := (prepared_getOrCreateLocked hkeys hacc hvalid).countMiss
  -- prefetching counts a miss before it places the region
  obtain ⟨hiff, hstate⟩ := place_ramBudgetExhausted cx call hprep.keys hprep.lookup target
  rw [hprep.region_eq] at hiff hstate
  rw [hprep.inRam] at hiff
  unfold prefetch at hfail ⊢
  by_cases henabled : m.prefetchEnabled = true
  · rw [if_neg (not_not.mpr henabled), if_neg (not_not.mpr hvalid)] at hfail ⊢
    dsimp only at hfail ⊢
    split at hfail
    next => cases hfail
    next hsat =>
      rw [if_neg hsat]
      split at hfail
      next => cases hfail
      next htransferring =>
        rw [if_neg htransferring]
        split at hfail
        next f m₁ hplace =>
          rw [hplace] at hiff hstate
          cases hfail
          obtain ⟨hres, -, hroom⟩ := hiff.mp rfl
          exact ⟨hres, hroom, hstate rfl⟩
        next m₁ hplace => cases hfail
  · rw [if_pos henabled] at hfail
    cases hfail

/-- The states in which the loop of a request for `region` may begin. -/
def IsLoopStart (m : ModelResidencyManager σ) (region : ModelRegion)
    (m₁ : ModelResidencyManager σ) : Prop :=
  m₁ = m.getOrCreateLocked region ∨ m₁ = (m.getOrCreateLocked region).countMiss

/-- A request for `region` that fails for lack of RAM does so only when the region and the other
pinned ones exceed the budget together and no other region is left to evict. Every request evicts
regions that are not pinned, none before one used earlier. -/
def EvictsInOrder (cx : ResidencyContext ρ σ α) (m : ModelResidencyManager σ)
    (region : ModelRegion) : Prop :=
  ∀ target call result, IsRequest cx m region target call result →
    (result.1 = .error .ramBudgetExhausted →
      cx.budget.ramBytes.toNat < region.size.toNat + m.pinnedOthers region.id ∧
        ∀ k rec, result.2.records.lookup k = some rec → ¬ Evictable region.id k rec) ∧
    ∀ k rec, k ≠ region.id → m.records.lookup k = some rec → result.2.records.lookup k = none →
      Evictable region.id k rec ∧
        ∀ k' rec', result.2.records.lookup k' = some rec' → Evictable region.id k' rec' →
          rec.lastUsed ≤ rec'.lastUsed

/-- Where the loop of a request lets the request go on, the region fits the budget beside what is
resident then, as natural numbers. -/
def LeavesRoom (cx : ResidencyContext ρ σ α) (m : ModelResidencyManager σ)
    (region : ModelRegion) : Prop :=
  region.valid = true → m.isResident region.id .ram = false → ∀ call m₁ m₂,
    IsLoopStart m region m₁ →
    makeRamRoomLocked cx call m₁ (m.requested region).size region.id = (.ok (), m₂) →
      m₂.telemetry.residentRamBytes.toNat + (m.requested region).size.toNat ≤
        cx.budget.ramBytes.toNat

/-- What every request for `region` does about room. -/
structure RoomMade (cx : ResidencyContext ρ σ α) (m : ModelResidencyManager σ)
    (region : ModelRegion) : Prop where
  evicts : EvictsInOrder cx m region
  leaves : LeavesRoom cx m region

/-- The loop begins in a prepared state. -/
theorem IsLoopStart.prepared {region : ModelRegion} {m₁ : ModelResidencyManager σ}
    (h : IsLoopStart m region m₁) (hkeys : m.KeysMatch) (hacc : Accounted cx m)
    (hvalid : region.valid = true) : ∃ rec, Prepared cx m region m₁ rec := by
  have hprep := prepared_getOrCreateLocked hkeys hacc hvalid
  rcases h with rfl | rfl
  · exact ⟨_, hprep⟩
  · exact ⟨_, hprep.countMiss⟩

/-- A request leaves room exactly when the 64-bit sum in its loop does not wrap. -/
theorem leavesRoom_iff [Inhabited ρ] [Inhabited α] (hkeys : m.KeysMatch) (hacc : Accounted cx m)
    (region : ModelRegion) :
    LeavesRoom cx m region ↔ (region.valid = true → m.isResident region.id .ram = false →
      m.ramTotal + (m.requested region).size.toNat < 2 ^ 64) := by
  constructor
  · intro hleaves hvalid hres
    by_contra hwrap
    have hprep := prepared_getOrCreateLocked hkeys hacc hvalid
    -- the sum wraps to less than what is resident, so that there seems to be room
    let call : ResidencyCall ρ α :=
      { now := 0, cancelBeforeLoad := false, cancelBeforeUpload := false, hostNew := true,
        read := default, accel := default, order := .stored }
    have hfits : ¬ (m.getOrCreateLocked region).telemetry.residentRamBytes +
        (m.requested region).size > cx.budget.ramBytes := by
      intro hfull
      have hsum := (hprep.accounted.toNat_full hfull).1
      rw [hprep.ramTotal] at hsum
      exact hwrap hsum
    have hgo : makeRamRoomLocked cx call (m.getOrCreateLocked region) (m.requested region).size
        region.id = (.ok (), m.getOrCreateLocked region) := by
      rw [makeRamRoomLocked, if_neg hfits]
    have hroom := hleaves hvalid hres call _ _ (.inl rfl) hgo
    rw [hprep.accounted.ram_eq, hprep.ramTotal] at hroom
    have hbudget := cx.budget.ramBytes.toNat_lt
    omega
  · intro hwrap hvalid hres call m₁ m₂ hstart hgo
    obtain ⟨rec, hprep⟩ := hstart.prepared hkeys hacc hvalid
    have hsum := hwrap hvalid hres
    obtain ⟨m₃, hrun, ⟨hok, hfits⟩ | ⟨hend, -, -⟩⟩ :=
      makeRamRoomLocked_spec cx call m₁ (m.requested region).size region.id
    · obtain rfl : m₂ = m₃ := congrArg Prod.snd (hgo.symm.trans hok)
      have hacc₂ := hrun.accounted hprep.accounted
      have hless := hrun.ramTotal_le hprep.accounted
      rw [hprep.ramTotal] at hless
      rw [hacc₂.ram_eq]
      exact hacc₂.toNat_fits (lt_of_le_of_lt (Nat.add_le_add_right hless _) hsum) hfits
    · rw [hend] at hgo
      cases hgo

/-- A request for a region leaves the accounts in order and drops other regions least recently
used first. -/
theorem IsRequest.outcome {region : ModelRegion} {target : ModelResidencyTarget}
    {result : Result σ} (h : IsRequest cx m region target call result) (hkeys : m.KeysMatch)
    (hacc : Accounted cx m) : Accounted cx result.2 ∧ LruDrops region.id m result.2 := by
  have hsteps : ResidencySteps cx m result.2 ∧ LruDrops region.id m result.2 := by
    rcases h with rfl | rfl
    · by_cases hvalid : region.valid = true
      · have houtcome : Outcome cx m region.id (m.requested region) target
            (m.ensureResident cx region target call) := ensureResident_outcome hkeys hvalid
        exact ⟨houtcome.steps, houtcome.lru⟩
      · rw [ModelResidencyManager.ensureResident, if_pos hvalid]
        exact ⟨.single (.note rfl rfl ⟨rfl, rfl⟩), .of_lookup_eq fun _ _ => rfl⟩
    · by_cases hearly : m.prefetchEnabled = true ∧ region.valid = true
      · have houtcome : Outcome cx m region.id (m.requested region) target
            (m.prefetch cx region target call) := prefetch_outcome hkeys hearly.2 hearly.1
        exact ⟨houtcome.steps, houtcome.lru⟩
      · rw [prefetch_of_not_valid hearly]
        exact ⟨.refl, .refl m⟩
  exact ⟨hacc.steps hsteps.1, hsteps.2⟩

/-- A request that fails for lack of RAM failed in the loop that makes room. -/
theorem IsRequest.exhausted {region : ModelRegion} {target : ModelResidencyTarget}
    {result : Result σ} (h : IsRequest cx m region target call result) (hkeys : m.KeysMatch)
    (hacc : Accounted cx m) (hfail : result.1 = .error .ramBudgetExhausted) :
    region.valid = true ∧ m.isResident region.id .ram = false ∧
      ∃ m₁ rec, Prepared cx m region m₁ rec ∧
        (makeRamRoomLocked cx call m₁ (m.requested region).size region.id).1 =
          .error .ramBudgetExhausted ∧
        result.2 = (makeRamRoomLocked cx call m₁ (m.requested region).size region.id).2 := by
  have hvalid : region.valid = true := by
    by_contra hinvalid
    rcases h with rfl | rfl
    · rw [ModelResidencyManager.ensureResident, if_pos hinvalid] at hfail
      cases hfail
    · unfold ModelResidencyManager.prefetch at hfail
      rw [if_pos hinvalid] at hfail
      split at hfail <;> cases hfail
  have hprep := prepared_getOrCreateLocked hkeys hacc hvalid
  rcases h with rfl | rfl
  · obtain ⟨hiff, hstate⟩ := ensureResident_ramBudgetExhausted call hkeys hacc hvalid target
    obtain ⟨hres, -, hroom⟩ := hiff.mp hfail
    exact ⟨hvalid, hres, _, _, hprep, hroom, hstate hfail⟩
  · obtain ⟨hres, hroom, hstate⟩ := prefetch_ramBudgetExhausted call hkeys hacc hvalid hfail
    exact ⟨hvalid, hres, _, _, hprep.countMiss, hroom, hstate⟩

end ModelResidencyManager

open ModelResidencyManager

/-- Requests for a region make room as far as it can be made exactly when, unless the region is
invalid or in RAM, the 64-bit sum of the resident bytes and its size on record does not wrap, its
size on record exceeds the budget with the other pinned regions only if the size asked for does, and
no region with id 0 has its turn before there is room. -/
theorem roomMade_iff [Inhabited ρ] [Inhabited α] (cx : ResidencyContext ρ σ α) (accelMemory : σ)
    (m : ModelResidencyManager σ) (region : ModelRegion)
    (hreach : (residencySystem cx accelMemory).Reachable TransitionSystem.anyCall m) :
    RoomMade cx m region ↔
      (region.valid = true → m.isResident region.id .ram = false →
        m.telemetry.residentRamBytes.toNat + (m.requested region).size.toNat < 2 ^ 64 ∧
        (cx.budget.ramBytes.toNat < (m.requested region).size.toNat + m.pinnedOthers region.id →
          cx.budget.ramBytes.toNat < region.size.toNat + m.pinnedOthers region.id) ∧
        ¬ ZeroBlocks cx m region.id (m.requested region).size.toNat) := by
  obtain ⟨hkeys, hacc⟩ := Accounted.of_reachable hreach
  rw [hacc.ram_eq]
  constructor
  · rintro ⟨hmade, hleaves⟩ hvalid hres
    have hwrap := (leavesRoom_iff hkeys hacc region).mp hleaves hvalid hres
    refine ⟨hwrap, ?_⟩
    have hprep := prepared_getOrCreateLocked hkeys hacc hvalid
    -- a request that nothing else stops, on a map that is visited from the region 0
    let call : ResidencyCall ρ α :=
      { now := 0, cancelBeforeLoad := false, cancelBeforeUpload := false, hostNew := true,
        read := default, accel := default, order := .first fun kv => kv.1 = 0 }
    obtain ⟨hiff, hstate⟩ := ensureResident_ramBudgetExhausted call hkeys hacc hvalid .ram
    obtain ⟨hfailed, -⟩ := hmade .ram call _ (.inl rfl)
    rw [← hprep.ramTotal] at hwrap
    refine ⟨fun hpinned => ?_, fun hzero => ?_⟩
    · rw [← hprep.pinned] at hpinned
      exact (hfailed (hiff.mpr ⟨hres, rfl,
        makeRamRoomLocked_of_pinned hprep.accounted hwrap hpinned⟩)).1
    · have horder : call.order = .first fun kv => kv.1 = 0 := rfl
      obtain ⟨hroom, rec₀, hrec₀, hevictable⟩ := makeRamRoomLocked_of_zeroBlocks
        hprep.accounted horder hwrap (hprep.zeroBlocks_iff.mpr hzero)
      have hfail := hiff.mpr ⟨hres, rfl, hroom⟩
      rw [← hstate hfail] at hrec₀
      exact (hfailed hfail).2 0 rec₀ hrec₀ hevictable
  · intro hcond
    refine ⟨fun target call result hrequest => ?_, ?_⟩
    swap
    · exact (leavesRoom_iff hkeys hacc region).mpr fun hvalid hres => (hcond hvalid hres).1
    obtain ⟨hacc', hlru⟩ := hrequest.outcome hkeys hacc
    refine ⟨fun hfail => ?_, fun k rec hk hrec hnone => ?_⟩
    · obtain ⟨hvalid, hres, m₁, rec, hprep, hroom, hresult⟩ := hrequest.exhausted hkeys hacc hfail
      obtain ⟨-, hsize, hzero⟩ := hcond hvalid hres
      have hown : ∀ rec', m₁.records.lookup region.id = some rec' →
          rec'.state.satisfies .ram = false := by
        intro rec' hrec'
        cases hprep.lookup.symm.trans hrec'
        exact hprep.inRam.trans hres
      obtain ⟨hpinned, hleft⟩ := makeRamRoomLocked_error hprep.accounted hown
        (fun h => hzero (hprep.zeroBlocks_iff.mp h)) hroom
      rw [hprep.pinned] at hpinned
      rw [hresult]
      exact ⟨hsize hpinned, hleft⟩
    · obtain ⟨hcand, hle⟩ := hlru.dropped k rec hk hrec hnone
      refine ⟨(candidate_iff_evictable (hacc.atRest k rec hrec)).mp hcand, ?_⟩
      intro k' rec' hrec' hevictable
      exact hle k' rec' hrec'
        ((candidate_iff_evictable (hacc'.atRest k' rec' hrec')).mpr hevictable)

/-- Two regions in RAM, one of them pinned, and a third of the same size: room is made for it. -/
theorem roomMade_sample :
    RoomMade sampleContext (sampleRun [.ensureResident (sampleRegion 1 0) .ram (sampleCall 1),
      .ensureResident (sampleRegion 2 2) .ram (sampleCall 2), .pin 1]) (sampleRegion 3 4) := by
  set m := sampleRun [.ensureResident (sampleRegion 1 0) .ram (sampleCall 1),
    .ensureResident (sampleRegion 2 2) .ram (sampleCall 2), .pin 1] with hm
  refine (roomMade_iff sampleContext (.construct 4) m (sampleRegion 3 4)
    (reachable_foldl _ _ _)).mpr fun _ _ => ⟨?_, ?_, ?_⟩
  · rw [hm]
    decide +kernel
  · have hsize : (m.requested (sampleRegion 3 4)).size = (sampleRegion 3 4).size := by
      rw [hm]
      decide +kernel
    rw [hsize]
    exact id
  · rintro ⟨rec₀, hrec₀, -⟩
    have hnone : m.records.lookup 0 = none := by
      rw [hm]
      decide +kernel
    rw [hnone] at hrec₀
    cases hrec₀

/-- A region with id 0 fills the budget and is not pinned; a request for two bytes fails. -/
theorem not_roomMade_sample :
    ¬ ∀ m region, (residencySystem sampleContext (.construct 4)).Reachable
      TransitionSystem.anyCall m → RoomMade sampleContext m region := by
  intro hall
  have hmade := (hall _ (sampleRegion 1 4) (reachable_foldl _ _ [.ensureResident
    { id := 0, offset := 0, size := 4 } .ram (sampleCall 1)])).evicts .ram (sampleCall 2) _
    (.inl rfl)
  have hlarge := (hmade.1 (by decide +kernel)).1
  revert hlarge
  decide +kernel

/-! ## What a failed request has evicted -/

/-- After a request that failed for lack of RAM, every other region is as before, except that
regions that were resident and not pinned may have been evicted; the counters are the sums over
what is left. Where no other region could be evicted nothing has changed for them. -/
theorem others_of_ramBudgetExhausted (cx : ResidencyContext ρ σ α) (accelMemory : σ)
    (m : ModelResidencyManager σ) (region : ModelRegion) (target : ModelResidencyTarget)
    (call : ResidencyCall ρ α) (result : Result σ)
    (hreach : (residencySystem cx accelMemory).Reachable TransitionSystem.anyCall m)
    (hrequest : IsRequest cx m region target call result)
    (hfail : result.1 = .error .ramBudgetExhausted) :
    (∀ k, k ≠ region.id → result.2.records.lookup k = m.records.lookup k ∨
      result.2.records.lookup k = none ∧
        ∃ rec, m.records.lookup k = some rec ∧ Evictable region.id k rec) ∧
    result.2.telemetry.residentRamBytes.toNat = result.2.ramTotal ∧
    result.2.telemetry.residentAcceleratorBytes.toNat = result.2.accelTotal ∧
    ((∀ k rec, m.records.lookup k = some rec → ¬ Evictable region.id k rec) →
      (∀ k, k ≠ region.id → result.2.records.lookup k = m.records.lookup k) ∧
      result.2.telemetry.residentRamBytes = m.telemetry.residentRamBytes ∧
      result.2.telemetry.residentAcceleratorBytes = m.telemetry.residentAcceleratorBytes) := by
  obtain ⟨hkeys, hacc⟩ := Accounted.of_reachable hreach
  obtain ⟨hacc', -⟩ := hrequest.outcome hkeys hacc
  obtain ⟨-, -, m₁, rec, hprep, hroom, hresult⟩ := hrequest.exhausted hkeys hacc hfail
  obtain ⟨m₂, hrun, ⟨hok, -⟩ | ⟨hend, -, -⟩⟩ :=
    makeRamRoomLocked_spec cx call m₁ (m.requested region).size region.id
  · rw [hok] at hroom
    cases hroom
  rw [hend] at hresult
  -- the run of evictions is all that happens to the other regions
  have hothers : ∀ k, k ≠ region.id → result.2.records.lookup k = m.records.lookup k ∨
      result.2.records.lookup k = none ∧
        ∃ rec, m.records.lookup k = some rec ∧ Evictable region.id k rec := by
    intro k hk
    rw [hresult, ← hprep.lookup_ne k hk]
    exact hrun.lookup_cases hprep.accounted k
  refine ⟨hothers, hacc'.ram_eq, hacc'.accel_eq, fun hnone => ⟨fun k hk => ?_, ?_⟩⟩
  · rcases hothers k hk with heq | ⟨-, rec, hrec, hevictable⟩
    · exact heq
    · exact absurd hevictable (hnone k rec hrec)
  · -- without an evictable region the loop ends where it begins
    have hstart : m₂ = m₁ := by
      rcases hrun.cases_head with heq | ⟨m₃, hfirst, -⟩
      · exact heq.symm
      · obtain ⟨k, rec, -, -, hrec, hevictable, -⟩ := hfirst.totals hprep.accounted
        rw [hprep.lookup_ne k hevictable.1] at hrec
        exact absurd hevictable (hnone k rec hrec)
    rw [hstart] at hresult
    have hram : result.2.ramTotal = m.ramTotal := by
      rw [hresult, ← hprep.ramTotal]
      rfl
    have haccel : result.2.accelTotal = m.accelTotal := by
      rw [hresult, ← hprep.accelTotal]
      rfl
    constructor
    · rw [← UInt64.toNat_inj, hacc'.ram_eq, hacc.ram_eq, hram]
    · rw [← UInt64.toNat_inj, hacc'.accel_eq, hacc.accel_eq, haccel]

/-- One region is pinned, one is not; a request for three bytes of the four evicts the latter and
fails. -/
theorem others_of_ramBudgetExhausted_sample :
    let m := sampleRun [.ensureResident (sampleRegion 1 0) .ram (sampleCall 1),
      .ensureResident (sampleRegion 2 2) .ram (sampleCall 2), .pin 2]
    let result := m.ensureResident sampleContext { id := 3, size := 3 } .ram (sampleCall 3)
    result.2.records.lookup 1 = none ∧
      result.2.telemetry.residentRamBytes.toNat = result.2.ramTotal := by
  intro m result
  have hothers := others_of_ramBudgetExhausted sampleContext (.construct 4) m
    { id := 3, size := 3 } .ram (sampleCall 3) result (reachable_foldl _ _ _) (.inl rfl)
    (by decide +kernel)
  exact ⟨by decide +kernel, hothers.2.1⟩

/-- A request that fits under no permitted eviction has evicted a region all the same. -/
theorem not_others_unchanged :
    ¬ ∀ m region target call result,
      (residencySystem sampleContext (.construct 4)).Reachable TransitionSystem.anyCall m →
      IsRequest sampleContext m region target call result →
      result.1 = .error .ramBudgetExhausted →
      sampleContext.budget.ramBytes.toNat < region.size.toNat + m.pinnedOthers region.id →
      ∀ k, k ≠ region.id → result.2.records.lookup k = m.records.lookup k := by
  intro hall
  let m := sampleRun [.ensureResident (sampleRegion 1 0) .ram (sampleCall 1),
    .ensureResident (sampleRegion 2 2) .ram (sampleCall 2), .pin 2]
  have hsame := hall m { id := 3, size := 3 } .ram (sampleCall 3) _ (reachable_foldl _ _ _)
    (.inl rfl) (by decide +kernel) (by decide +kernel) 1 (by decide)
  revert hsame
  decide +kernel

end HeteroAccel
