import HeteroAccel.Mem.EvictionSelection
import HeteroAccel.Mem.Transactions

/-!
# The order of evictions

`enforcePressureLimits` touches every GPU block before it scores them. So all valid blocks have the
age 0, and within a priority the order of eviction is whatever order the map and the sort leave.

## Main definitions

* `Usage`, `usage`: runs of the manager with the times at which blocks were allocated or moved;
* `EvictsLRU`: what a call under pressure evicts, if it evicts the least recently used blocks;
* `EvictsAlike`: the states in which the order within a priority does not matter.
-/

namespace HeteroAccel.Mem

open MemoryManager EvictionPolicy

/-! ## Use -/

/-- The manager, its clients, and when the block under a key was last allocated or moved. -/
structure Usage where
  sys : Sys
  lastUse : ℕ → ℤ := fun _ => 0

namespace Usage

variable (u : Usage)

/-- The times of last use after a call. -/
def used : Call → ℕ → ℤ
  | .allocate _ size preferred priority env =>
    let block := (u.sys.mm.allocate env size preferred priority).1
    if block.isValid then Function.update u.lastUse block.id env.now else u.lastUse
  | .move v destination env =>
    let block := u.sys.handles v
    if block.isValid ∧ block.location ≠ destination then
      Function.update u.lastUse block.id env.now
    else u.lastUse
  | .release _ | .enforcePressureLimits _ => u.lastUse

/-- The effect of a call. -/
def call (c : Call) : Usage where
  sys := u.sys.call c
  lastUse := u.used c

end Usage

/-- The manager in use, from its construction on. -/
def usage : TransitionSystem Usage Call where
  Init u := ∃ s, system.Init s ∧ u = { sys := s }
  Step u c u' := u.sys.Permits c ∧ u' = u.call c

/-- The manager of a reachable usage satisfies the invariant. -/
theorem tracked_of_usage {u : Usage} (h : usage.Reachable TransitionSystem.anyCall u) :
    Tracked u.sys.mm := by
  have hsys : system.Reachable TransitionSystem.anyCall u.sys := by
    refine h.invariant (P := fun u => system.Reachable TransitionSystem.anyCall u.sys) ?_ ?_
    · rintro u ⟨s, hs, rfl⟩
      exact .init hs
    · rintro u c u' hu - ⟨hpermits, rfl⟩
      exact hu.step trivial ⟨hpermits, rfl⟩
  exact tracked_of_reachable hsys

/-! ## The property -/

namespace MemoryManager

/-- The entries of the non-critical blocks in GPU memory. -/
def gpuBlocks (mm : MemoryManager) : List (Σ _ : ℕ, MemoryBlock) :=
  mm.activeBlocks.entries.filter fun e => e.2.location = .gpu ∧ e.2.priority ≠ .critical

/-- How many of them have a property. -/
def gpuCount (mm : MemoryManager) (p : MemoryBlock → Bool) : ℕ := mm.gpuBlocks.countP fun e => p e.2

end MemoryManager

/-- A call that leads from `mm` to `mm'` has evicted the least recently used blocks. -/
structure EvictsLRU (mm mm' : MemoryManager) (lastUse : ℕ → ℤ) : Prop where
  /-- Four blocks, or all there are. -/
  count : (mm.gpuBlocks.filter fun e => (mm'.activeBlocks.lookup e.1).isNone).length =
    min 4 mm.gpuBlocks.length
  /-- No others. -/
  others : ∀ k e, mm.activeBlocks.lookup k = some e → ⟨k, e⟩ ∉ mm.gpuBlocks →
    mm'.activeBlocks.lookup k = some e
  /-- None is evicted before one of a lower priority. -/
  priority : ∀ e ∈ mm.gpuBlocks, ∀ e' ∈ mm.gpuBlocks, mm'.activeBlocks.lookup e.1 = none →
    mm'.activeBlocks.lookup e'.1 ≠ none → e.2.priority.rank ≤ e'.2.priority.rank
  /-- And none of the same priority before one that was used earlier. -/
  recency : ∀ e ∈ mm.gpuBlocks, ∀ e' ∈ mm.gpuBlocks, mm'.activeBlocks.lookup e.1 = none →
    mm'.activeBlocks.lookup e'.1 ≠ none → e.2.priority = e'.2.priority →
    lastUse e.1 ≤ lastUse e'.1

/-- The order within a priority does not matter: the blocks of a priority of which some are evicted
and some are not were all used at the same time; and no block that a move has left invalid is
chosen, as there is none or four blocks of lower priority are there. -/
structure EvictsAlike (mm : MemoryManager) (lastUse : ℕ → ℤ) : Prop where
  valid : (∀ e ∈ mm.gpuBlocks, e.2.id ≠ 0) ∨ 4 ≤ mm.gpuCount fun b => b.priority = .low
  alike : ∀ p : MemoryPriority, (mm.gpuCount fun b => b.priority.rank < p.rank) < 4 →
    4 < (mm.gpuCount fun b => b.priority.rank ≤ p.rank) →
    ∀ e ∈ mm.gpuBlocks, ∀ e' ∈ mm.gpuBlocks, e.2.priority = p → e'.2.priority = p →
      lastUse e.1 = lastUse e'.1

/-! ## The candidates and their scores -/

namespace MemoryManager

variable {env : Environment} {mm mm' : MemoryManager}

/-- An entry as it is scored: a valid block has just been touched, and nothing is known of what a
move has left. -/
def scoredEntry (now : ℤ) (e : Σ _ : ℕ, MemoryBlock) : ScoredBlock :=
  ⟨e.2.id, EvictionPolicy.scoreBlock now { e.2 with lastAccessed := if e.2.id = 0 then 0 else now },
    e.2.priority⟩

/-- The copy of an entry is scored as the entry is. -/
theorem scoredBlock_sync {k : ℕ} {e : MemoryBlock} {rm : ResidencyManager} (hmm : Tracked mm)
    (he : mm.activeBlocks.lookup k = some e) (hgrows : mm.residencyManager.Grows rm) :
    scoredBlock env.now (({ mm with residencyManager := rm }).syncBlockResidency env e).1 =
      scoredEntry env.now ⟨k, e⟩ := by
  by_cases hid : e.id = 0
  · have hzero : rm.records.lookup 0 = none := by
      have h := hgrows 0
      rw [hmm.unregistered] at h
      generalize rm.records.lookup 0 = o at h ⊢
      cases h
      rfl
    rw [syncBlockResidency_of_id_eq_zero hzero hid, scoredBlock, scoredEntry]
    simp only [hid, if_true]
    rfl
  · -- the entry has a record, but its times do not decide the score
    have hk := (hmm.entries k e he).id_eq hid
    rcases hmm.entries k e he with ⟨sp, m, -, -, -, hm, -, -⟩ | ⟨_, _, _, _, rfl, _⟩
    · have h := hgrows e.id
      rw [hk, hm] at h
      obtain ⟨m', hm'⟩ : ∃ m', rm.records.lookup k = some m' := by
        generalize rm.records.lookup k = o at h
        cases h
        exact ⟨_, rfl⟩
      rw [@syncBlockResidency_fst env { mm with residencyManager := rm } e m' (hk ▸ hm'),
        scoredBlock, scoredEntry]
      simp only [hid, if_false]
      rfl
    · exact absurd rfl hid

/-- The candidates are the GPU blocks in the order in which they are visited. -/
theorem scored_gpuCandidates (hmm : Tracked mm) (env : Environment) :
    (mm.gpuCandidates env).1.map (scoredBlock env.now) =
      ((env.traversal.visit mm.activeBlocks.entries).filter fun e => e.2.location = .gpu).map
        (scoredEntry env.now) := by
  -- what the loop keeps: only touches so far
  have hloop : ∀ (entries : List (Σ _ : ℕ, MemoryBlock)) (copies : List MemoryBlock)
      (rm : ResidencyManager), (∀ e ∈ entries, mm.activeBlocks.lookup e.1 = some e.2) →
      mm.residencyManager.Grows rm →
      (entries.foldl (collectCandidate env) (copies, { mm with residencyManager := rm })).1.map
          (scoredBlock env.now) =
        copies.map (scoredBlock env.now) ++
          (entries.filter fun e => e.2.location = .gpu).map (scoredEntry env.now) := by
    intro entries
    induction entries with
    | nil => simp
    | cons e entries ih =>
      intro copies rm hentries hgrows
      obtain ⟨he, hentries⟩ := List.forall_mem_cons.mp hentries
      rw [List.foldl_cons, collectCandidate]
      by_cases hgpu : e.2.location = .gpu
      · rw [if_pos hgpu, List.filter_cons_of_pos (by simpa using hgpu), List.map_cons]
        have hnext := ih (copies ++ [(({ mm with residencyManager := rm }).syncBlockResidency env
          e.2).1]) (rm.touch env.now e.2.id) hentries (hgrows.trans (rm.grows_touch env.now e.2.id))
        rw [List.map_append, List.map_singleton, scoredBlock_sync hmm he hgrows,
          List.append_assoc] at hnext
        exact hnext
      · rw [if_neg hgpu, List.filter_cons_of_neg (by simpa using hgpu)]
        exact ih copies rm hentries hgrows
  have h := hloop (env.traversal.visit mm.activeBlocks.entries) [] mm.residencyManager
    (fun e he => KeyedMap.mem_entries_iff.mp (env.traversal.mem_visit.mp he)) (.refl _)
  rwa [List.map_nil, List.nil_append] at h

/-- The candidates that may be evicted, in the order of their scores. -/
abbrev ranked (env : Environment) (mm : MemoryManager) : List ScoredBlock :=
  EvictionPolicy.ranked env.now env.ties (mm.gpuCandidates env).1

/-- The ranking is in the order of the scores. -/
theorem sorted_ranked (env : Environment) (mm : MemoryManager) :
    (mm.ranked env).Pairwise fun a b => a.score ≤ b.score :=
  pairwise_ranked env.now env.ties (mm.gpuCandidates env).1

/-- The ranking has every GPU block that is not critical. -/
theorem ranked_perm (hmm : Tracked mm) :
    (mm.ranked env).Perm (mm.gpuBlocks.map (scoredEntry env.now)) := by
  refine (EvictionPolicy.ranked_perm env.now env.ties (mm.gpuCandidates env).1).trans ?_
  have hscored := congrArg (List.filter fun b : ScoredBlock => b.priority ≠ .critical)
    (scored_gpuCandidates hmm env)
  rw [List.filter_map, List.filter_map, List.filter_filter] at hscored
  refine (List.Perm.of_eq hscored).trans ?_
  refine (((env.traversal.perm mm.activeBlocks.entries).filter _).map _).trans (.of_eq ?_)
  rw [gpuBlocks]
  congr 2
  ext e
  rw [Bool.eq_iff_iff, decide_eq_true_iff, Bool.and_eq_true, and_comm, decide_eq_true_iff]
  exact and_congr_right fun _ => decide_eq_true_iff

/-- The ids that are evicted under pressure. -/
theorem toEvict_of_pressure
    (h : mm.gpuPressure.assess mm.gpu.allocator.usedBytes mm.gpu.allocator.capacity ≠ .normal) :
    (mm.toEvict env).1 = ((mm.ranked env).take 4).map ScoredBlock.id := by
  rw [toEvict, if_neg h]
  exact selectIds_eq env.now env.ties (mm.gpuCandidates env).1 4

/-- The entries that are left. -/
theorem lookup_enforcePressureLimits (hmm : Tracked mm) (k : ℕ) :
    (mm.enforcePressureLimits env).activeBlocks.lookup k =
      if k ∈ (mm.toEvict env).1 then none else mm.activeBlocks.lookup k := by
  have hevict : ∀ (ids : List ℕ) (mm : MemoryManager), Tracked mm →
      (ids.foldl evictBlock mm).activeBlocks.lookup k =
        if k ∈ ids then none else mm.activeBlocks.lookup k := by
    intro ids
    induction ids with
    | nil => simp
    | cons id ids ih =>
      intro mm hmm
      rw [List.foldl_cons, ih _ (hmm.evictBlock id)]
      rcases evictBlock_cases hmm id with ⟨hnone, heq⟩ | ⟨e, he, hdrop⟩
      · rw [heq]
        by_cases hk : k = id
        · subst hk
          simp [hnone]
        · simp [hk]
      · rw [hdrop.lookup]
        by_cases hk : k = id <;> simp [hk]
  obtain ⟨⟨rm, hrm, -⟩, -⟩ := toEvict_spec env mm
  have hactive : (mm.toEvict env).2.activeBlocks = mm.activeBlocks := by rw [hrm]
  rw [enforcePressureLimits, ← hactive]
  exact hevict _ _ hmm.toEvict

/-! ### Scores -/

theorem lookup_of_mem_gpuBlocks {e : Σ _ : ℕ, MemoryBlock} (he : e ∈ mm.gpuBlocks) :
    mm.activeBlocks.lookup e.1 = some e.2 :=
  KeyedMap.mem_entries_iff.mp (List.mem_of_mem_filter he)

/-- Entries with one key are the same. -/
theorem eq_of_key_eq {e f : Σ _ : ℕ, MemoryBlock} (he : e ∈ mm.gpuBlocks)
    (hf : f ∈ mm.gpuBlocks) (hkey : f.1 = e.1) : f = e := by
  refine Sigma.ext hkey (heq_of_eq (Option.some.inj ?_))
  rw [← lookup_of_mem_gpuBlocks hf, ← lookup_of_mem_gpuBlocks he, hkey]

/-- A valid block has the score of its priority. -/
theorem score_of_valid (now : ℤ) {e : Σ _ : ℕ, MemoryBlock} (h : e.2.id ≠ 0) :
    (scoredEntry now e).score = EvictionPolicy.priorityScore e.2.priority := by
  simp [scoredEntry, EvictionPolicy.scoreBlock, h]

section Scores

variable (hmm : Tracked mm) {e e' : Σ _ : ℕ, MemoryBlock} (he : e ∈ mm.gpuBlocks)

include hmm he

/-- What a move has left has the priority `NORMAL` and a score above 0. -/
theorem score_of_moved (now : ℤ) (h : e.2.id = 0) :
    e.2.priority = .normal ∧ 0 < (scoredEntry now e).score := by
  have hpriority : e.2.priority = .normal := by
    rcases hmm.entries _ _ (lookup_of_mem_gpuBlocks he) with
      ⟨_, _, hk, _, _, _, _, _⟩ | ⟨_, _, _, _, heq, _⟩
    · exact absurd (hk.symm.trans h) (hmm.key_ne_zero _ _ (lookup_of_mem_gpuBlocks he))
    · rw [heq]
      rfl
  refine ⟨hpriority, ?_⟩
  simp only [scoredEntry, EvictionPolicy.scoreBlock, hpriority, EvictionPolicy.priorityScore]
  split_ifs with hcap
  · norm_num
  · linarith

/-- A block of low priority is valid. -/
theorem valid_of_low (h : e.2.priority = .low) : e.2.id ≠ 0 := by
  intro hid
  have hmoved := (score_of_moved hmm he 0 hid).1
  rw [h] at hmoved
  cases hmoved

/-- A valid block has the key as its id. -/
theorem id_eq_of_mem_gpuBlocks (hid : e.2.id ≠ 0) : e.2.id = e.1 :=
  (hmm.entries _ _ (lookup_of_mem_gpuBlocks he)).id_eq hid

/-- Where no block that a move has left is in question, scores are in the order of priorities. -/
theorem score_lt_of_rank_lt (now : ℤ) (he' : e' ∈ mm.gpuBlocks)
    (hvalid : e.2.priority = .low ∨ e.2.id ≠ 0 ∧ e'.2.id ≠ 0)
    (h : e.2.priority.rank < e'.2.priority.rank) :
    (scoredEntry now e).score < (scoredEntry now e').score := by
  by_cases hid : e'.2.id = 0
  · -- the first block has low priority, so its score is 0
    have hlow : e.2.priority = .low := hvalid.resolve_right fun hboth => hboth.2 hid
    rw [score_of_valid now (valid_of_low hmm he hlow), hlow]
    exact (score_of_moved hmm he' now hid).2
  · have hid' : e.2.id ≠ 0 := hvalid.elim (valid_of_low hmm he) And.left
    rw [score_of_valid now hid, score_of_valid now hid']
    exact (lt_add_of_pos_right _ (by norm_num)).trans (priorityScore_add_lt h)

end Scores

/-! ### What is chosen -/

section Chosen

variable (hmm : Tracked mm) {lastUse : ℕ → ℤ} (halike : EvictsAlike mm lastUse)

include hmm

/-- What is ranked is a GPU block with its score. -/
theorem mem_ranked {b : ScoredBlock} :
    b ∈ mm.ranked env ↔ ∃ e ∈ mm.gpuBlocks, scoredEntry env.now e = b := by
  rw [(ranked_perm hmm).mem_iff, List.mem_map]

/-- Counting the candidates is counting the entries. -/
theorem countP_ranked (p : MemoryPriority → Bool) :
    ((mm.ranked env).countP fun b => p b.priority) = mm.gpuCount fun b => p b.priority := by
  rw [(ranked_perm hmm).countP_eq, List.countP_map, gpuCount]
  rfl

/-- If there are four blocks of low priority, only such are chosen. -/
theorem low_of_mem_take (h : 4 ≤ mm.gpuCount fun b => b.priority = .low)
    {e : Σ _ : ℕ, MemoryBlock} (he : e ∈ mm.gpuBlocks)
    (htake : scoredEntry env.now e ∈ (mm.ranked env).take 4) : e.2.priority = .low := by
  by_contra hlow
  have hrank : 0 < e.2.priority.rank := by
    cases hp : e.2.priority <;> simp_all [MemoryPriority.rank]
  -- four blocks have a lower score
  have hcount := List.countP_lt_of_mem_take (sorted_ranked env mm) htake
    (p := fun b => decide (b.priority = .low)) fun b' hb' hlow' => by
      obtain ⟨e', he', rfl⟩ := (mem_ranked hmm).mp hb'
      have hlow' : e'.2.priority = .low := of_decide_eq_true hlow'
      exact score_lt_of_rank_lt hmm he' env.now he (.inl hlow') (by rw [hlow']; exact hrank)
  rw [countP_ranked hmm fun p => decide (p = .low)] at hcount
  omega

include halike

/-- No block that a move has left is in question where one is chosen. -/
theorem low_or_valid {e e' : Σ _ : ℕ, MemoryBlock} (he : e ∈ mm.gpuBlocks)
    (he' : e' ∈ mm.gpuBlocks) (htake : scoredEntry env.now e ∈ (mm.ranked env).take 4) :
    e.2.priority = .low ∨ e.2.id ≠ 0 ∧ e'.2.id ≠ 0 :=
  halike.valid.elim (fun hvalid => .inr ⟨hvalid e he, hvalid e' he'⟩)
    fun hlow => .inl (low_of_mem_take hmm hlow he htake)

/-- What is chosen is valid. -/
theorem valid_of_mem_take {e : Σ _ : ℕ, MemoryBlock} (he : e ∈ mm.gpuBlocks)
    (htake : scoredEntry env.now e ∈ (mm.ranked env).take 4) : e.2.id ≠ 0 :=
  (low_or_valid hmm halike he he htake).elim (valid_of_low hmm he) And.left

variable {e e' : Σ _ : ℕ, MemoryBlock} (he : e ∈ mm.gpuBlocks) (he' : e' ∈ mm.gpuBlocks)
  (htake : scoredEntry env.now e ∈ (mm.ranked env).take 4)
  (hdrop : scoredEntry env.now e' ∈ (mm.ranked env).drop 4)

include he he' htake hdrop

/-- What is chosen has at most the priority of what is not. -/
theorem rank_le_of_mem_take : e.2.priority.rank ≤ e'.2.priority.rank := by
  by_contra hlt
  have hle := List.le_of_mem_take_of_mem_drop (sorted_ranked env mm) htake hdrop
  rcases low_or_valid hmm halike he he' htake with hlow | ⟨hid, hid'⟩
  · rw [hlow] at hlt
    exact hlt (Nat.zero_le _)
  · exact absurd hle (score_lt_of_rank_lt hmm he' env.now he (.inr ⟨hid', hid⟩)
      (Nat.lt_of_not_le hlt)).not_ge

/-- A priority of which some blocks are chosen and some are not is cut by the bound of four. -/
theorem lastUse_eq_of_mem_take (hpriority : e.2.priority = e'.2.priority) :
    lastUse e.1 = lastUse e'.1 := by
  refine halike.alike e.2.priority ?_ ?_ e he e' he' rfl hpriority.symm
  · -- what has a lower priority has a lower score
    rw [← countP_ranked hmm fun p => decide (p.rank < e.2.priority.rank)]
    refine List.countP_lt_of_mem_take (sorted_ranked env mm) htake fun b hb hlt => ?_
    obtain ⟨f, hf, rfl⟩ := (mem_ranked hmm).mp hb
    have hlt : f.2.priority.rank < e.2.priority.rank := of_decide_eq_true hlt
    refine score_lt_of_rank_lt hmm hf env.now he ?_ hlt
    refine (low_or_valid hmm halike he hf htake).imp (fun hlow => ?_) And.symm
    rw [hlow] at hlt
    exact absurd hlt (Nat.not_lt_zero _)
  · -- what has no higher score has no higher priority
    rw [← countP_ranked hmm fun p => decide (p.rank ≤ e.2.priority.rank)]
    refine List.lt_countP_of_mem_drop (sorted_ranked env mm) hdrop fun b hb hle => ?_
    obtain ⟨f, hf, rfl⟩ := (mem_ranked hmm).mp hb
    by_contra hlt
    have hlt : e.2.priority.rank < f.2.priority.rank :=
      Nat.lt_of_not_le fun hrank => hlt (decide_eq_true hrank)
    refine absurd hle (score_lt_of_rank_lt hmm he' env.now hf ?_ (hpriority ▸ hlt)).not_ge
    refine (low_or_valid hmm halike he hf htake).imp (fun hlow => hpriority ▸ hlow) fun hboth => ?_
    have hvalid := low_or_valid hmm halike he he' htake
    exact ⟨hvalid.elim (fun hlow => valid_of_low hmm he' (hpriority ▸ hlow)) And.right, hboth.2⟩

end Chosen

/-! ### What is evicted -/

section Evicted

variable (hmm : Tracked mm) {lastUse : ℕ → ℤ} (halike : EvictsAlike mm lastUse)
  (hpressure : mm.gpuPressure.assess mm.gpu.allocator.usedBytes mm.gpu.allocator.capacity ≠ .normal)

include hmm halike

/-- Ids that are chosen are keys, and different. -/
theorem nodup_chosen : (((mm.ranked env).take 4).map ScoredBlock.id).Nodup := by
  have hkeys : (mm.gpuBlocks.map (scoredEntry env.now)).Pairwise
      fun b b' => b.id = b'.id → b.id = 0 := by
    rw [List.pairwise_map]
    have hnodup : mm.gpuBlocks.Pairwise fun e e' => e.1 ≠ e'.1 :=
      (List.pairwise_map.mp mm.activeBlocks.nodupKeys).filter _
    refine hnodup.imp_of_mem fun {e e'} he he' hne heq => ?_
    by_contra hid
    have hid : e.2.id ≠ 0 := hid
    have heq : e.2.id = e'.2.id := heq
    exact hne ((id_eq_of_mem_gpuBlocks hmm he hid).symm.trans
      (heq.trans (id_eq_of_mem_gpuBlocks hmm he' (heq ▸ hid))))
  have hranked : (mm.ranked env).Pairwise fun b b' => b.id = b'.id → b.id = 0 :=
    ((ranked_perm hmm).pairwise_iff fun {b b'} h heq => heq.symm ▸ h heq.symm).mpr hkeys
  refine List.pairwise_map.mpr ((hranked.sublist (List.take_sublist 4 _)).imp_of_mem ?_)
  intro b b' hb hb' h heq
  obtain ⟨e, he, rfl⟩ := (mem_ranked hmm).mp (List.mem_of_mem_take hb)
  exact valid_of_mem_take hmm halike he hb (h heq)

/-- The chosen ids are the keys of chosen entries. -/
theorem mem_chosen_iff {k : ℕ} : k ∈ ((mm.ranked env).take 4).map ScoredBlock.id ↔
    ∃ e ∈ mm.gpuBlocks, e.1 = k ∧ scoredEntry env.now e ∈ (mm.ranked env).take 4 := by
  constructor
  · intro h
    obtain ⟨b, hb, rfl⟩ := List.mem_map.mp h
    obtain ⟨e, he, rfl⟩ := (mem_ranked hmm).mp (List.mem_of_mem_take hb)
    have hid := valid_of_mem_take hmm halike he hb
    exact ⟨e, he, (id_eq_of_mem_gpuBlocks hmm he hid).symm, hb⟩
  · rintro ⟨e, he, rfl, htake⟩
    have hid := valid_of_mem_take hmm halike he htake
    exact List.mem_map.mpr ⟨_, htake, id_eq_of_mem_gpuBlocks hmm he hid⟩

include hpressure

/-- An entry is evicted if it is chosen. -/
theorem lookup_eq_none_iff {e : Σ _ : ℕ, MemoryBlock} (he : e ∈ mm.gpuBlocks) :
    (mm.enforcePressureLimits env).activeBlocks.lookup e.1 = none ↔
      scoredEntry env.now e ∈ (mm.ranked env).take 4 := by
  have hchosen : e.1 ∈ (mm.toEvict env).1 ↔ scoredEntry env.now e ∈ (mm.ranked env).take 4 := by
    rw [toEvict_of_pressure hpressure, mem_chosen_iff hmm halike]
    constructor
    · rintro ⟨f, hf, hkey, htake⟩
      rwa [← eq_of_key_eq he hf hkey]
    · exact fun htake => ⟨e, he, rfl, htake⟩
  rw [lookup_enforcePressureLimits hmm, lookup_of_mem_gpuBlocks he, ← hchosen]
  simp

/-- In such a state a call under pressure evicts the least recently used blocks. -/
theorem evictsLRU_of_alike : EvictsLRU mm (mm.enforcePressureLimits env) lastUse := by
  -- what is left is ranked behind the four that are chosen
  have hfate : ∀ e ∈ mm.gpuBlocks, (mm.enforcePressureLimits env).activeBlocks.lookup e.1 ≠ none →
      scoredEntry env.now e ∈ (mm.ranked env).drop 4 := by
    intro e he hleft
    have hmem : scoredEntry env.now e ∈ (mm.ranked env).take 4 ++ (mm.ranked env).drop 4 := by
      rw [List.take_append_drop]
      exact (mem_ranked hmm).mpr ⟨e, he, rfl⟩
    refine (List.mem_append.mp hmem).resolve_left fun htake => hleft ?_
    exact (lookup_eq_none_iff hmm halike hpressure he).mpr htake
  refine ⟨?_, fun k e he hnot => ?_, fun e he e' he' hout hleft => ?_,
    fun e he e' he' hout hleft hpriority => ?_⟩
  · -- the evicted entries are those whose keys are chosen
    have hkeys : ((mm.gpuBlocks.filter fun e =>
        ((mm.enforcePressureLimits env).activeBlocks.lookup e.1).isNone).map Sigma.fst).Perm
        (((mm.ranked env).take 4).map ScoredBlock.id) := by
      refine (List.perm_ext_iff_of_nodup ?_ (nodup_chosen hmm halike)).mpr fun k => ?_
      · exact mm.activeBlocks.nodupKeys.sublist (List.filter_sublist.trans List.filter_sublist)
      · rw [mem_chosen_iff hmm halike]
        simp only [List.mem_map, List.mem_filter, Option.isNone_iff_eq_none]
        constructor
        · rintro ⟨e, ⟨he, hout⟩, rfl⟩
          exact ⟨e, he, rfl, (lookup_eq_none_iff hmm halike hpressure he).mp hout⟩
        · rintro ⟨e, he, rfl, htake⟩
          exact ⟨e, ⟨he, (lookup_eq_none_iff hmm halike hpressure he).mpr htake⟩, rfl⟩
    have hlength := hkeys.length_eq
    rw [List.length_map, List.length_map, List.length_take, (ranked_perm hmm).length_eq,
      List.length_map] at hlength
    exact hlength
  · rw [lookup_enforcePressureLimits hmm, if_neg, he]
    rw [toEvict_of_pressure hpressure, mem_chosen_iff hmm halike]
    rintro ⟨f, hf, rfl, -⟩
    have hentry : f.2 = e := Option.some.inj ((lookup_of_mem_gpuBlocks hf).symm.trans he)
    exact hnot (hentry ▸ hf)
  · exact rank_le_of_mem_take hmm halike he he'
      ((lookup_eq_none_iff hmm halike hpressure he).mp hout) (hfate e' he' hleft)
  · exact (lastUse_eq_of_mem_take hmm halike he he'
      ((lookup_eq_none_iff hmm halike hpressure he).mp hout) (hfate e' he' hleft) hpriority).le

end Evicted

end MemoryManager

/-- **Evictions.** In every state that is reached by any calls and in which the order within a
priority does not matter, a call under pressure evicts the least recently used blocks. -/
theorem evictsLRU_of_reachable (u : Usage) (h : usage.Reachable TransitionSystem.anyCall u)
    (env : Environment)
    (hpressure : u.sys.mm.gpuPressure.assess u.sys.mm.gpu.allocator.usedBytes
      u.sys.mm.gpu.allocator.capacity ≠ .normal)
    (halike : EvictsAlike u.sys.mm u.lastUse) :
    EvictsLRU u.sys.mm (u.sys.mm.enforcePressureLimits env) u.lastUse :=
  evictsLRU_of_alike (tracked_of_usage h) halike hpressure

/-- A new manager with 100 MiB in each memory. -/
def Usage.small : Usage where
  sys := { mm := .new 104857600 104857600 }

/-- An allocation of 16 MiB of GPU memory in the second `v`. -/
def Call.sample (v : ℕ) (priority : MemoryPriority) : Call :=
  .allocate v 16777216 .gpu priority { now := v * 1000000000, createBuffer := v + 1 }

/-- Runs of such calls are possible. -/
theorem reachable_sample {calls : List Call}
    (h : TransitionSystem.Along (fun u c => u.sys.Permits c) Usage.call .small calls) :
    usage.Reachable TransitionSystem.anyCall (calls.foldl Usage.call .small) := by
  have hinit : usage.Reachable TransitionSystem.anyCall .small := .init ⟨_, ⟨_, _, rfl⟩, rfl⟩
  have hnext : ∀ (u : Usage) (c : Call), u.sys.Permits c →
      TransitionSystem.anyCall u c ∧ usage.Step u c (u.call c) := fun u c hok =>
    ⟨trivial, hok, rfl⟩
  exact hinit.foldl hnext h

/-- Four blocks of low priority and one of high priority. -/
def Usage.lowAndHigh : Usage :=
  [Call.sample 1 .low, .sample 2 .high, .sample 3 .low, .sample 4 .low, .sample 5 .low].foldl
    Usage.call .small

theorem evictsLRU_lowAndHigh :
    EvictsLRU Usage.lowAndHigh.sys.mm
      (Usage.lowAndHigh.sys.mm.enforcePressureLimits { now := 6000000000 })
      Usage.lowAndHigh.lastUse := by
  refine evictsLRU_of_reachable Usage.lowAndHigh (reachable_sample ?_) _ ?_ ⟨?_, ?_⟩
  · decide +kernel
  · decide +kernel
  · exact .inr (by decide +kernel)
  · -- no priority is cut
    have hcut : ∀ p : MemoryPriority,
        4 ≤ (Usage.lowAndHigh.sys.mm.gpuCount fun b => b.priority.rank < p.rank) ∨
          (Usage.lowAndHigh.sys.mm.gpuCount fun b => b.priority.rank ≤ p.rank) ≤ 4 := by
      intro p
      cases p <;> decide +kernel
    intro p hlt hle
    exact absurd (hcut p) (not_or.mpr ⟨Nat.not_le.mpr hlt, Nat.not_le.mpr hle⟩)

/-- Five blocks of one priority. -/
def Usage.fiveAlike : Usage :=
  [Call.sample 1 .normal, .sample 2 .normal, .sample 3 .normal, .sample 4 .normal,
    .sample 5 .normal].foldl Usage.call .small

/-- The map is visited from the last block to the first, and so are they evicted: the block that was
used last is evicted and the one that was used first is not. -/
theorem not_evictsLRU_fiveAlike :
    ¬∀ u, usage.Reachable TransitionSystem.anyCall u → ∀ env : Environment,
      u.sys.mm.gpuPressure.assess u.sys.mm.gpu.allocator.usedBytes
        u.sys.mm.gpu.allocator.capacity ≠ .normal →
      EvictsLRU u.sys.mm (u.sys.mm.enforcePressureLimits env) u.lastUse := by
  intro hall
  have hreach : usage.Reachable TransitionSystem.anyCall .fiveAlike :=
    reachable_sample (by decide +kernel)
  have hpressure : Usage.fiveAlike.sys.mm.gpuPressure.assess
      Usage.fiveAlike.sys.mm.gpu.allocator.usedBytes
      Usage.fiveAlike.sys.mm.gpu.allocator.capacity ≠ .normal := by decide +kernel
  have hlru := hall .fiveAlike hreach { now := 6000000000 } hpressure
  -- the four last blocks go, and the first one stays
  have hids : (Usage.fiveAlike.sys.mm.toEvict { now := 6000000000 }).1 = [5, 4, 3, 2] := by
    rw [toEvict_of_pressure hpressure, MemoryManager.ranked, EvictionPolicy.ranked,
      List.mergeSort_of_pairwise]
    · decide +kernel
    · decide +kernel
  have hlookup : ∀ k, (Usage.fiveAlike.sys.mm.enforcePressureLimits
      { now := 6000000000 }).activeBlocks.lookup k =
        if k ∈ [5, 4, 3, 2] then none else Usage.fiveAlike.sys.mm.activeBlocks.lookup k := by
    intro k
    rw [lookup_enforcePressureLimits (tracked_of_usage hreach), hids]
  have hblocks : ∀ k ∈ [1, 5], ∃ e ∈ Usage.fiveAlike.sys.mm.gpuBlocks,
      e.1 = k ∧ e.2.priority = .normal := by decide +kernel
  obtain ⟨first, hfirst, hkeyFirst, hpriorityFirst⟩ := hblocks 1 (by simp)
  obtain ⟨last, hlast, hkeyLast, hpriorityLast⟩ := hblocks 5 (by simp)
  have hle := hlru.recency last hlast first hfirst (by rw [hlookup, hkeyLast]; simp)
    (by rw [hlookup, hkeyFirst, ← hkeyFirst, lookup_of_mem_gpuBlocks hfirst]; simp [hkeyFirst])
    (hpriorityLast.trans hpriorityFirst.symm)
  rw [hkeyLast, hkeyFirst] at hle
  exact absurd hle (by decide +kernel)

end HeteroAccel.Mem
