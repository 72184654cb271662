import HeteroAccel.Model.Residency.Steps

/-!
# The loops that make room

`makeRamRoomLocked` drops regions from RAM and `makeAccelRoomLocked` sends regions back from the
accelerator, least recently used first, until there is room or the scan reports no victim.

## Main definitions

* `EvictsLru` and `DemotesLru`: one iteration of each loop;
* `makeRamRoomLocked_spec`, `makeAccelRoomLocked_lru`: what the loops do and why they end;
* `LruDrops`: the other regions after a call, none of them dropped before one used earlier.
-/

namespace HeteroAccel

namespace ModelResidencyManager

variable {ρ σ α : Type} {cx : ResidencyContext ρ σ α} {call : ResidencyCall ρ α}
  {m m' : ModelResidencyManager σ} {id : UInt64} {rec : Record}

/-! ## The loop that makes room in RAM -/

/-- One iteration of `makeRamRoomLocked`: while `needed` bytes do not fit, a least recently used
candidate is dropped. Its id is not `0`. -/
structure EvictsLru (cx : ResidencyContext ρ σ α) (call : ResidencyCall ρ α)
    (needed skipId : UInt64) (m m' : ModelResidencyManager σ) : Prop where
  full : m.telemetry.residentRamBytes + needed > cx.budget.ramBytes
  victim_ne_zero : m.pickLruLocked call .ram skipId ≠ 0
  drops : ∃ rec, m.records.lookup (m.pickLruLocked call .ram skipId) = some rec ∧
    candidate .ram skipId ⟨m.pickLruLocked call .ram skipId, rec⟩ = true ∧
    m' = m.dropRecord cx (m.pickLruLocked call .ram skipId) rec

/-- Iterations of `makeRamRoomLocked`. -/
abbrev EvictionRun (cx : ResidencyContext ρ σ α) (call : ResidencyCall ρ α)
    (needed skipId : UInt64) : ModelResidencyManager σ → ModelResidencyManager σ → Prop :=
  Relation.ReflTransGen (EvictsLru cx call needed skipId)

theorem busy_of_candidate {target : ModelResidencyTarget} {skipId : UInt64}
    (hcand : candidate target skipId ⟨id, rec⟩ = true) : rec.busy = false := by
  simp only [candidate, Bool.and_eq_true, Bool.not_eq_true'] at hcand
  exact hcand.1.2

/-- A candidate is not the region that room is made for. -/
theorem ne_skipId_of_candidate {target : ModelResidencyTarget} {skipId : UInt64}
    (hcand : candidate target skipId ⟨id, rec⟩ = true) : id ≠ skipId := by
  simp only [candidate, ne_eq, Bool.and_eq_true, decide_eq_true_eq] at hcand
  exact hcand.1.1

/-- A candidate is where room is needed. -/
theorem satisfies_of_candidate {target : ModelResidencyTarget} {skipId : UInt64}
    (hcand : candidate target skipId ⟨id, rec⟩ = true) : rec.state.satisfies target = true := by
  simp only [candidate, Bool.and_eq_true] at hcand
  exact hcand.2

/-- What `evictLocked` does to a candidate. -/
theorem evictLocked_of_candidate {target : ModelResidencyTarget} {skipId : UInt64}
    (hrec : m.records.lookup id = some rec) (hcand : candidate target skipId ⟨id, rec⟩ = true) :
    m.evictLocked cx id = (true, m.dropRecord cx id rec) := by
  simp [evictLocked, hrec, busy_of_candidate hcand]

/-- `makeRamRoomLocked` evicts until the bytes fit, or until the scan reports no victim. -/
theorem makeRamRoomLocked_spec (cx : ResidencyContext ρ σ α) (call : ResidencyCall ρ α)
    (m : ModelResidencyManager σ) (needed skipId : UInt64) :
    ∃ m', EvictionRun cx call needed skipId m m' ∧
      ((makeRamRoomLocked cx call m needed skipId = (.ok (), m') ∧
          ¬ m'.telemetry.residentRamBytes + needed > cx.budget.ramBytes) ∨
        (makeRamRoomLocked cx call m needed skipId = m'.fail .ramBudgetExhausted ∧
          m'.telemetry.residentRamBytes + needed > cx.budget.ramBytes ∧
          m'.pickLruLocked call .ram skipId = 0)) := by
  fun_induction makeRamRoomLocked cx call m needed skipId with
  | case1 m hfull hzero => exact ⟨m, .refl, .inr ⟨rfl, hfull, hzero⟩⟩
  | case2 m hfull hne m' hevict =>
    obtain ⟨rec, hrec, hcand⟩ := exists_of_pickLruLocked_ne_zero hne
    rw [evictLocked_of_candidate hrec hcand] at hevict
    cases hevict
  | case3 m hfull hne m' hevict ih =>
    obtain ⟨rec, hrec, hcand⟩ := exists_of_pickLruLocked_ne_zero hne
    rw [evictLocked_of_candidate hrec hcand] at hevict
    cases hevict
    obtain ⟨m₁, hrun, hend⟩ := ih
    exact ⟨m₁, .head ⟨hfull, hne, rec, hrec, hcand, rfl⟩ hrun, hend⟩
  | case4 m hfits => exact ⟨m, .refl, .inl ⟨rfl, hfits⟩⟩

/-- An eviction is an elementary change. -/
theorem EvictsLru.toStep {needed skipId : UInt64} (h : EvictsLru cx call needed skipId m m') :
    ResidencyStep cx m m' := by
  obtain ⟨rec, hrec, hcand, rfl⟩ := h.drops
  exact .drop hrec (busy_of_candidate hcand)

/-- Evictions are elementary changes. -/
theorem EvictionRun.toSteps {needed skipId : UInt64}
    (h : EvictionRun cx call needed skipId m m') : ResidencySteps cx m m' :=
  Relation.ReflTransGen.mono (fun _ _ => EvictsLru.toStep) _ _ h

/-- Evictions leave the region that room is made for. -/
theorem EvictionRun.lookup_skipId {needed skipId : UInt64}
    (h : EvictionRun cx call needed skipId m m') :
    m'.records.lookup skipId = m.records.lookup skipId := by
  induction h with
  | refl => rfl
  | tail _ hlast ih =>
    obtain ⟨rec, -, hcand, rfl⟩ := hlast.drops
    rw [lookup_dropRecord, if_neg (ne_skipId_of_candidate hcand).symm, ih]

/-! ## The loop that makes room on the accelerator -/

/-- One iteration of `makeAccelRoomLocked`: while `needed` bytes are not free, a least recently used
candidate goes back to RAM. -/
structure DemotesLru (M : IAcceleratorMemory σ α) (call : ResidencyCall ρ α)
    (needed skipId : UInt64) (m m' : ModelResidencyManager σ) : Prop where
  full : M.available m.accelMemory < needed
  victim_ne_zero : m.pickLruLocked call .accelerator skipId ≠ 0
  demotes : ∃ rec p, m.records.lookup (m.pickLruLocked call .accelerator skipId) = some rec ∧
    candidate .accelerator skipId ⟨m.pickLruLocked call .accelerator skipId, rec⟩ = true ∧
    rec.accel = some p ∧ m' = m.demote M (m.pickLruLocked call .accelerator skipId) rec p

/-- Iterations of `makeAccelRoomLocked`. -/
abbrev DemotionsLru (M : IAcceleratorMemory σ α) (call : ResidencyCall ρ α)
    (needed skipId : UInt64) : ModelResidencyManager σ → ModelResidencyManager σ → Prop :=
  Relation.ReflTransGen (DemotesLru M call needed skipId)

/-- `makeAccelRoomLocked` takes these steps until there is room, or there is no victim, or the
victim has no buffer. -/
theorem makeAccelRoomLocked_lru (M : IAcceleratorMemory σ α) (call : ResidencyCall ρ α)
    (m : ModelResidencyManager σ) (needed skipId : UInt64) :
    ∃ m', DemotionsLru M call needed skipId m m' ∧
      ((makeAccelRoomLocked M call m needed skipId = (.ok (), m') ∧
          needed ≤ M.available m'.accelMemory) ∨
        (makeAccelRoomLocked M call m needed skipId = m'.fail .acceleratorBudgetExhausted ∧
          M.available m'.accelMemory < needed ∧
          m'.pickLruLocked call .accelerator skipId = 0) ∨
        (makeAccelRoomLocked M call m needed skipId = (.error .stuck, m') ∧
          M.available m'.accelMemory < needed ∧
          ∃ rec, m'.records.lookup (m'.pickLruLocked call .accelerator skipId) = some rec ∧
            rec.state = .residentInAccelerator ∧ rec.accel = none)) := by
  fun_induction makeAccelRoomLocked M call m needed skipId with
  | case1 m hfull hzero => exact ⟨m, .refl, .inr (.inl ⟨rfl, hfull, hzero⟩)⟩
  | case2 m hfull hne hnone =>
    obtain ⟨rec, hrec, -⟩ := exists_of_pickLruLocked_ne_zero hne
    rw [hnone] at hrec
    cases hrec
  | case3 m hfull hne rec hrec haccel =>
    obtain ⟨rec', hrec', hcand⟩ := exists_of_pickLruLocked_ne_zero hne
    cases hrec.symm.trans hrec'
    have hstate := satisfies_of_candidate hcand
    simp only [ModelResidencyState.satisfies, decide_eq_true_eq] at hstate
    -- the victim has no buffer, so the loop of the source stands still
    exact ⟨m, .refl, .inr (.inr ⟨rfl, hfull, rec, hrec, hstate, haccel⟩)⟩
  | case4 m hfull hne rec hrec p haccel ih =>
    obtain ⟨rec', hrec', hcand⟩ := exists_of_pickLruLocked_ne_zero hne
    cases hrec.symm.trans hrec'
    obtain ⟨m', hrun, hend⟩ := ih
    exact ⟨m', .head ⟨hfull, hne, rec, p, hrec, hcand, haccel, rfl⟩ hrun, hend⟩
  | case5 m hroom => exact ⟨m, .refl, .inl ⟨rfl, UInt64.not_lt.mp hroom⟩⟩

/-- One iteration of `makeAccelRoomLocked`: a candidate goes back to RAM. -/
def Demotes (M : IAcceleratorMemory σ α) (skipId : UInt64) (m m' : ModelResidencyManager σ) :
    Prop :=
  ∃ id rec p, m.records.lookup id = some rec ∧
    candidate .accelerator skipId ⟨id, rec⟩ = true ∧ rec.accel = some p ∧ m' = m.demote M id rec p

/-- Iterations of `makeAccelRoomLocked`. -/
abbrev DemotionRun (M : IAcceleratorMemory σ α) (skipId : UInt64) :
    ModelResidencyManager σ → ModelResidencyManager σ → Prop :=
  Relation.ReflTransGen (Demotes M skipId)

/-- A demotion of the region used least recently is a demotion. -/
theorem DemotesLru.toDemotes {M : IAcceleratorMemory σ α} {needed skipId : UInt64}
    (h : DemotesLru M call needed skipId m m') : Demotes M skipId m m' := by
  obtain ⟨rec, p, hrec, hcand, hp, rfl⟩ := h.demotes
  exact ⟨_, rec, p, hrec, hcand, hp, rfl⟩

/-- `makeAccelRoomLocked` sends regions back to RAM until the accelerator has room, or until
there is no victim, or until it meets a region marked resident that has no buffer. -/
theorem makeAccelRoomLocked_spec (M : IAcceleratorMemory σ α) (call : ResidencyCall ρ α)
    (m : ModelResidencyManager σ) (needed skipId : UInt64) :
    ∃ m', DemotionRun M skipId m m' ∧
      ((makeAccelRoomLocked M call m needed skipId = (.ok (), m') ∧
          needed ≤ M.available m'.accelMemory) ∨
        makeAccelRoomLocked M call m needed skipId = m'.fail .acceleratorBudgetExhausted ∨
        (makeAccelRoomLocked M call m needed skipId = (.error .stuck, m') ∧
          ∃ id rec, m'.records.lookup id = some rec ∧ rec.state = .residentInAccelerator ∧
            rec.accel = none)) := by
  obtain ⟨m', hrun, hend⟩ := makeAccelRoomLocked_lru M call m needed skipId
  refine ⟨m', Relation.ReflTransGen.mono (fun _ _ => DemotesLru.toDemotes) _ _ hrun, ?_⟩
  rcases hend with hok | ⟨hfail, -, -⟩ | ⟨hstuck, -, rec, hrec, hstate, haccel⟩
  · exact .inl hok
  · exact .inr (.inl hfail)
  · exact .inr (.inr ⟨hstuck, _, rec, hrec, hstate, haccel⟩)

/-- Demotions are elementary changes. -/
theorem DemotionRun.toSteps {M : IAcceleratorMemory σ α} {skipId : UInt64}
    (hM : cx.accelerator = some M) (h : DemotionRun M skipId m m') : ResidencySteps cx m m' := by
  refine Relation.ReflTransGen.mono (fun m m' hdem => ?_) _ _ h
  obtain ⟨id, rec, p, hrec, hcand, hp, rfl⟩ := hdem
  have hstate := satisfies_of_candidate hcand
  simp only [ModelResidencyState.satisfies, decide_eq_true_eq] at hstate
  exact .demote hM hrec (busy_of_candidate hcand) hstate hp

/-- Demotions leave the region that room is made for. -/
theorem DemotionRun.lookup_skipId {M : IAcceleratorMemory σ α} {skipId : UInt64}
    (h : DemotionRun M skipId m m') :
    m'.records.lookup skipId = m.records.lookup skipId := by
  induction h with
  | refl => rfl
  | tail _ hlast ih =>
    obtain ⟨id, rec, p, -, hcand, -, rfl⟩ := hlast
    rw [lookup_demote, if_neg (ne_skipId_of_candidate hcand).symm, ih]

/-! ## The order of evictions -/

/-- The other regions after a change made for the region `id`: those kept are as evictable as
before, and those dropped were evictable and used no later than any that is still evictable. -/
structure LruDrops (id : UInt64) (m m' : ModelResidencyManager σ) : Prop where
  kept : ∀ k rec', k ≠ id → m'.records.lookup k = some rec' →
    ∃ rec, m.records.lookup k = some rec ∧ rec'.lastUsed = rec.lastUsed ∧
      candidate .ram id ⟨k, rec'⟩ = candidate .ram id ⟨k, rec⟩
  dropped : ∀ k rec, k ≠ id → m.records.lookup k = some rec → m'.records.lookup k = none →
    candidate .ram id ⟨k, rec⟩ = true ∧
      ∀ k' rec', m'.records.lookup k' = some rec' → candidate .ram id ⟨k', rec'⟩ = true →
        rec.lastUsed ≤ rec'.lastUsed

namespace LruDrops

/-- A change of the record of `id` only. -/
theorem of_lookup_eq (h : ∀ k, k ≠ id → m'.records.lookup k = m.records.lookup k) :
    LruDrops id m m' where
  kept k rec' hk hrec' := ⟨rec', (h k hk).symm.trans hrec', rfl, rfl⟩
  dropped k rec hk hrec hnone := by
    rw [h k hk, hrec] at hnone
    cases hnone

theorem refl (m : ModelResidencyManager σ) : LruDrops id m m := .of_lookup_eq fun _ _ => rfl

theorem of_insert {rec' : Record} (h : m'.records = m.records.insert id rec') :
    LruDrops id m m' := by
  refine .of_lookup_eq fun k hk => ?_
  rw [h, AList.lookup_insert_ne hk]

theorem trans {m'' : ModelResidencyManager σ} (h : LruDrops id m m') (h' : LruDrops id m' m'') :
    LruDrops id m m'' where
  kept k rec'' hk hrec'' := by
    obtain ⟨rec', hrec', hused', hcand'⟩ := h'.kept k rec'' hk hrec''
    obtain ⟨rec, hrec, hused, hcand⟩ := h.kept k rec' hk hrec'
    exact ⟨rec, hrec, hused'.trans hused, hcand'.trans hcand⟩
  dropped k rec hk hrec hnone := by
    cases hrec' : m'.records.lookup k with
    | some rec' =>
      -- dropped by the second change
      obtain ⟨rec₁, hrec₁, hused, hcand⟩ := h.kept k rec' hk hrec'
      cases hrec.symm.trans hrec₁
      obtain ⟨hcand', hle⟩ := h'.dropped k rec' hk hrec' hnone
      exact ⟨hcand ▸ hcand', hused ▸ hle⟩
    | none =>
      -- dropped by the first change: what is evictable now was evictable then
      obtain ⟨hcand, hle⟩ := h.dropped k rec hk hrec hrec'
      refine ⟨hcand, fun k' rec'' hrec'' hcand'' => ?_⟩
      obtain ⟨rec₁, hrec₁, hused, hsame⟩ :=
        h'.kept k' rec'' (ne_skipId_of_candidate hcand'') hrec''
      rw [hused]
      exact hle k' rec₁ hrec₁ (hsame ▸ hcand'')

end LruDrops

/-- An eviction takes a least recently used region. -/
theorem EvictsLru.lruDrops {needed : UInt64} (h : EvictsLru cx call needed id m m') :
    LruDrops id m m' := by
  obtain ⟨rec, hrec, hcand, rfl⟩ := h.drops
  rcases m.pickLruLocked_spec call .ram id with ⟨rec', hrec', -, hleast⟩ | ⟨hzero, -⟩
  · cases hrec.symm.trans hrec'
    constructor
    · intro k rec₁ _ hrec₁
      rw [lookup_dropRecord] at hrec₁
      split at hrec₁
      next => cases hrec₁
      next => exact ⟨rec₁, hrec₁, rfl, rfl⟩
    · intro k rec₁ _ hrec₁ hnone
      rw [lookup_dropRecord] at hnone
      split at hnone
      next hk =>
        subst hk
        cases hrec.symm.trans hrec₁
        -- the victim was a candidate, and no other candidate was used before it
        refine ⟨hcand, fun k' rec₂ hrec₂ hcand₂ => ?_⟩
        rw [lookup_dropRecord] at hrec₂
        split at hrec₂
        next => cases hrec₂
        next => exact hleast k' rec₂ hrec₂ hcand₂
      next =>
        rw [hrec₁] at hnone
        cases hnone
  · exact absurd hzero h.victim_ne_zero

/-- Evictions drop the regions that were used least recently. -/
theorem EvictionRun.lruDrops {needed : UInt64} (h : EvictionRun cx call needed id m m') :
    LruDrops id m m' := by
  induction h with
  | refl => exact .refl m
  | tail _ hlast ih => exact ih.trans hlast.lruDrops

/-- A demotion drops nothing: the region is as evictable from RAM as before. -/
theorem Demotes.lruDrops {M : IAcceleratorMemory σ α} (h : Demotes M id m m') :
    LruDrops id m m' := by
  obtain ⟨k₀, rec₀, p, hrec₀, hcand₀, -, rfl⟩ := h
  constructor
  · intro k rec' _ hrec'
    rw [lookup_demote] at hrec'
    split at hrec'
    next hk =>
      subst hk
      cases hrec'
      refine ⟨rec₀, hrec₀, rfl, ?_⟩
      have hstate := satisfies_of_candidate hcand₀
      simp only [ModelResidencyState.satisfies, decide_eq_true_eq] at hstate
      simp [candidate, Record.busy, ModelResidencyState.satisfies, hstate]
    next => exact ⟨rec', hrec', rfl, rfl⟩
  · intro k rec _ hrec hnone
    rw [lookup_demote] at hnone
    split at hnone
    next => cases hnone
    next =>
      rw [hrec] at hnone
      cases hnone

/-- Demotions drop nothing. -/
theorem DemotionRun.lruDrops {M : IAcceleratorMemory σ α} (h : DemotionRun M id m m') :
    LruDrops id m m' := by
  induction h with
  | refl => exact .refl m
  | tail _ hlast ih => exact ih.trans hlast.lruDrops

end ModelResidencyManager

end HeteroAccel
