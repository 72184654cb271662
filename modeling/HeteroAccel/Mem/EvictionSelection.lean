import HeteroAccel.Lib.FirstOfSorted
import HeteroAccel.Mem.MemoryTypes
import Mathlib.Data.List.Perm.Basic
import Mathlib.Tactic.NormNum

/-!
# Which blocks are selected for eviction

`EvictionPolicy` folds the priority and the age of a block into one number: 1000 points and more
between two priorities, and up to 900 points for the age. So blocks are selected by priority, and
within a priority by age; blocks that were not used for 900 seconds count as equally old.

## Main definitions

* `SelectsOldest`: what is selected, for a measure of the age;
* `Serves`: the heap has the bytes for the vectors of the selection;
* `MemoryBlock.age`, `MemoryBlock.cappedAge`: the age, and what counts of it.

## Main results

* `selectForEviction_returns_iff`: when the selection returns at all;
* `selectsOldest_cappedAge`: the selection, for any blocks with different ids;
* `not_selectsOldest_age`: two blocks that were not used for 1000 and for 2000 seconds.
-/

namespace HeteroAccel.Mem

/-- The priorities in their order, the lowest first. -/
def MemoryPriority.rank : MemoryPriority → ℕ
  | .low => 0
  | .normal => 1
  | .high => 2
  | .critical => 3

namespace MemoryBlock

variable (now : ℤ) (block : MemoryBlock)

/-- The nanoseconds since the last access. -/
def age : ℤ := now - block.lastAccessed

/-- The age as far as it counts: 900 seconds. -/
def cappedAge : ℤ := min (block.age now) 900000000000

end MemoryBlock

/-- What is selected when up to `count` of the candidates are to be evicted, the ones of the lowest
priorities and of these the oldest. -/
structure SelectsOldest (age : MemoryBlock → ℤ) (candidates : List MemoryBlock) (count : ℕ)
    (selected : List ℕ) : Prop where
  length : selected.length = min count (candidates.countP fun b => b.priority ≠ .critical)
  nodup : selected.Nodup
  /-- Only candidates, and no critical ones. -/
  candidate : ∀ id ∈ selected, ∃ b ∈ candidates, b.id = id ∧ b.priority ≠ .critical
  /-- No block while one of a lower priority is left out. -/
  priority : ∀ b ∈ candidates, ∀ b' ∈ candidates, b.id ∈ selected → b'.id ∉ selected →
    b.priority.rank ≤ b'.priority.rank
  /-- No block while one of its priority is left out that is older by a millisecond. -/
  oldest : ∀ b ∈ candidates, ∀ b' ∈ candidates, b.id ∈ selected → b'.id ∉ selected →
    b.priority = b'.priority → age b' < age b + 1000000

namespace EvictionPolicy

variable {now : ℤ} {ties : Traversal ScoredBlock} {candidates : List MemoryBlock} {count : ℕ}

/-- A candidate as it is scored. -/
def scoredBlock (now : ℤ) (b : MemoryBlock) : ScoredBlock :=
  ⟨b.id, scoreBlock now b, b.priority⟩

/-- The candidates that may be evicted, in the order of their scores. -/
def ranked (now : ℤ) (ties : Traversal ScoredBlock) (candidates : List MemoryBlock) :
    List ScoredBlock :=
  ((ties.visit (candidates.map (scoredBlock now))).mergeSort
    fun a b => !(b.score < a.score : Bool)).filter fun b => b.priority ≠ .critical

/-- The ranking is in the order of the scores. -/
theorem pairwise_ranked (now : ℤ) (ties : Traversal ScoredBlock) (candidates : List MemoryBlock) :
    (ranked now ties candidates).Pairwise fun a b => a.score ≤ b.score :=
  (List.pairwise_mergeSort_score ScoredBlock.score _).filter _

/-- The ranking has every candidate that is not critical. -/
theorem ranked_perm (now : ℤ) (ties : Traversal ScoredBlock) (candidates : List MemoryBlock) :
    (ranked now ties candidates).Perm
      ((candidates.filter fun b => b.priority ≠ .critical).map (scoredBlock now)) := by
  have hsort := ((List.mergeSort_perm (ties.visit (candidates.map (scoredBlock now)))
    fun a b => !(b.score < a.score : Bool)).trans (ties.perm _)).filter
      fun b => b.priority ≠ .critical
  rw [List.filter_map] at hsort
  exact hsort

/-- The first candidates in the order of their scores are selected. -/
theorem selectIds_eq (now : ℤ) (ties : Traversal ScoredBlock) (candidates : List MemoryBlock)
    (count : ℕ) :
    selectIds now ties candidates count =
      ((ranked now ties candidates).take count).map ScoredBlock.id :=
  rfl

/-! ## Reservations -/

section Reservations

variable {heap : Heap} {requested : UInt64}

/-- The heap has the bytes for the scored candidates and for `count` ids. -/
structure Serves (heap : Heap) (candidates : List MemoryBlock) (count : UInt64) : Prop where
  scored : scoredBlockBytes * candidates.length ≤ heap.bytes
  ids : idBytes * count.toNat ≤ heap.bytes

/-- With the bytes for both vectors the selection is made. -/
theorem selectForEviction_of_serves (h : Serves heap candidates requested) :
    selectForEviction heap now ties candidates requested =
      .ok (selectIds now ties candidates requested.toNat) := by
  have hscored := (Heap.reserve_eq_ok_iff (by decide)).mpr h.scored
  have hids := (Heap.reserve_eq_ok_iff (by decide)).mpr h.ids
  rw [selectForEviction]
  split
  next hnone =>
    -- nothing is selected of an empty list, or when nothing is asked for
    rw [Bool.or_eq_true, decide_eq_true_eq, List.isEmpty_iff] at hnone
    obtain rfl | rfl := hnone
    · rw [selectIds_eq, UInt64.toNat_zero, List.take_zero, List.map_nil]
    · have hvisit : ties.visit [] = [] := (ties.perm []).eq_nil
      simp [selectIds_eq, ranked, hvisit]
  next =>
    rw [hscored, hids]
    rfl

/-- The selection returns exactly when there is nothing to select or the heap has the bytes. -/
theorem selectForEviction_returns_iff :
    (∃ selected, selectForEviction heap now ties candidates requested = .ok selected) ↔
      requested = 0 ∨ candidates = [] ∨ Serves heap candidates requested := by
  by_cases hserves : Serves heap candidates requested
  · exact iff_of_true ⟨_, selectForEviction_of_serves hserves⟩ (.inr (.inr hserves))
  rw [selectForEviction]
  split
  next hnone =>
    rw [Bool.or_eq_true, decide_eq_true_eq, List.isEmpty_iff] at hnone
    exact iff_of_true ⟨_, rfl⟩ (hnone.imp_right .inl)
  next hsome =>
    rw [Bool.or_eq_true, decide_eq_true_eq, List.isEmpty_iff, not_or] at hsome
    refine iff_of_false ?_ (by simp [hsome, hserves])
    rintro ⟨selected, hok⟩
    -- both reservations have succeeded
    cases hscored : heap.reserve scoredBlockBytes candidates.length with
    | error e => simp [hscored, bind, Except.bind] at hok
    | ok _ =>
      cases hids : heap.reserve idBytes requested.toNat with
      | error e => simp [hscored, hids, bind, Except.bind] at hok
      | ok _ =>
        exact hserves ⟨(Heap.reserve_eq_ok_iff (by decide)).mp hscored,
          (Heap.reserve_eq_ok_iff (by decide)).mp hids⟩

end Reservations

/-! ## Scores -/

/-- A higher priority is worth more than any age. -/
theorem priorityScore_add_lt {p p' : MemoryPriority} (h : p.rank < p'.rank) :
    priorityScore p + 900 < priorityScore p' := by
  cases p <;> cases p' <;> simp [MemoryPriority.rank] at h <;> norm_num [priorityScore]

/-- The points for the age. -/
def agePenalty (now : ℤ) (b : MemoryBlock) : ℚ :=
  min ((((now - b.lastAccessed).tdiv 1000000 : ℤ) : ℚ) * (1 / 1000)) 900

/-- A score is the one of the priority, less what the age takes. -/
theorem scoreBlock_eq (now : ℤ) (b : MemoryBlock) :
    scoreBlock now b = priorityScore b.priority - agePenalty now b := by
  unfold scoreBlock agePenalty
  dsimp only
  split_ifs with hcap
  · rw [min_eq_right hcap.le]
  · rw [min_eq_left (not_lt.mp hcap)]

theorem agePenalty_le (now : ℤ) (b : MemoryBlock) : agePenalty now b ≤ 900 := min_le_right _ _

section Past

variable {b b' : MemoryBlock}

/-- A block that was accessed before now is not favoured by its age. -/
theorem agePenalty_nonneg (h : b.lastAccessed ≤ now) : 0 ≤ agePenalty now b := by
  have hms : 0 ≤ (now - b.lastAccessed).tdiv 1000000 := Int.tdiv_nonneg (by omega) (by decide)
  have hms' : (0 : ℚ) ≤ (((now - b.lastAccessed).tdiv 1000000 : ℤ) : ℚ) := by exact_mod_cast hms
  exact le_min (by linarith) (by norm_num)

/-- Scores are in the order of priorities. -/
theorem scoreBlock_lt (h : b.lastAccessed ≤ now) (hrank : b.priority.rank < b'.priority.rank) :
    scoreBlock now b < scoreBlock now b' := by
  have hscore := priorityScore_add_lt hrank
  have hpenalty := agePenalty_nonneg h
  have hpenalty' := agePenalty_le now b'
  rw [scoreBlock_eq, scoreBlock_eq]
  linarith

/-- A block that is older by a millisecond, as far as its age counts, has more points. -/
theorem agePenalty_lt (h : b.lastAccessed ≤ now)
    (hage : b.cappedAge now + 1000000 ≤ b'.cappedAge now) :
    agePenalty now b < agePenalty now b' := by
  rw [MemoryBlock.cappedAge, MemoryBlock.cappedAge, MemoryBlock.age, MemoryBlock.age] at hage
  -- in whole milliseconds
  have hms : (now - b.lastAccessed).tdiv 1000000 < 900000 ∧
      (now - b.lastAccessed).tdiv 1000000 < (now - b'.lastAccessed).tdiv 1000000 := by
    rw [Int.tdiv_eq_ediv_of_nonneg (by omega), Int.tdiv_eq_ediv_of_nonneg (by omega)]
    omega
  have hcap : (((now - b.lastAccessed).tdiv 1000000 : ℤ) : ℚ) < 900000 := by exact_mod_cast hms.1
  have hlt : (((now - b.lastAccessed).tdiv 1000000 : ℤ) : ℚ) <
      (((now - b'.lastAccessed).tdiv 1000000 : ℤ) : ℚ) := by exact_mod_cast hms.2
  rw [agePenalty, agePenalty, min_eq_left (by linarith)]
  exact lt_min (by linarith) (by linarith)

end Past

/-! ## The selection -/

section Selected

variable (hids : (candidates.map MemoryBlock.id).Nodup)

include hids

/-- Blocks with one id are the same. -/
theorem eq_of_id_eq {b b' : MemoryBlock} (hb : b ∈ candidates) (hb' : b' ∈ candidates)
    (h : b.id = b'.id) : b = b' :=
  List.inj_on_of_nodup_map hids hb hb' h

/-- The selected blocks are the first ones of the ranking. -/
theorem mem_selected_iff {b : MemoryBlock} (hb : b ∈ candidates) :
    b.id ∈ selectIds now ties candidates count ↔
      scoredBlock now b ∈ (ranked now ties candidates).take count := by
  rw [selectIds_eq, List.mem_map]
  constructor
  · rintro ⟨sb, hsb, hid⟩
    obtain ⟨b', hb', rfl⟩ := List.mem_map.mp ((ranked_perm now ties candidates).mem_iff.mp
      (List.mem_of_mem_take hsb))
    rwa [← eq_of_id_eq hids (List.mem_of_mem_filter hb') hb hid]
  · exact fun h => ⟨_, h, rfl⟩

/-- A block that is selected, and one of a priority below the critical one that is left out. -/
theorem scoreBlock_le {b b' : MemoryBlock} (hb : b ∈ candidates) (hb' : b' ∈ candidates)
    (hsel : b.id ∈ selectIds now ties candidates count)
    (hout : b'.id ∉ selectIds now ties candidates count)
    (hcritical : b'.priority ≠ .critical) : scoreBlock now b ≤ scoreBlock now b' := by
  rw [mem_selected_iff hids hb] at hsel
  rw [mem_selected_iff hids hb'] at hout
  have hmem : scoredBlock now b' ∈ (ranked now ties candidates).take count ++
      (ranked now ties candidates).drop count := by
    rw [List.take_append_drop]
    refine (ranked_perm now ties candidates).mem_iff.mpr (List.mem_map_of_mem ?_)
    exact List.mem_filter.mpr ⟨hb', decide_eq_true hcritical⟩
  have hdrop := (List.mem_append.mp hmem).resolve_left hout
  exact List.le_of_mem_take_of_mem_drop (pairwise_ranked now ties candidates) hsel hdrop

theorem not_critical_of_selected {b : MemoryBlock} (hb : b ∈ candidates)
    (hsel : b.id ∈ selectIds now ties candidates count) : b.priority ≠ .critical := by
  rw [mem_selected_iff hids hb] at hsel
  exact of_decide_eq_true (List.mem_filter.mp (List.mem_of_mem_take hsel)).2

end Selected

end EvictionPolicy

open EvictionPolicy

/-- The ids in the order of the scores are the ones of the lowest priorities, and of these the
oldest. -/
theorem selectsOldest_selectIds (now : ℤ) (ties : Traversal ScoredBlock)
    (candidates : List MemoryBlock) (count : ℕ) (hids : (candidates.map MemoryBlock.id).Nodup)
    (hpast : ∀ b ∈ candidates, b.lastAccessed ≤ now) :
    SelectsOldest (fun b => b.cappedAge now) candidates count
      (selectIds now ties candidates count) := by
  -- the ranking is a permutation of the candidates that may go
  have hperm := ranked_perm now ties candidates
  refine ⟨?_, ?_, fun id hid => ?_, fun b hb b' hb' hsel hout => ?_,
    fun b hb b' hb' hsel hout heq => ?_⟩
  · rw [selectIds_eq, List.length_map, List.length_take, hperm.length_eq, List.length_map,
      List.countP_eq_length_filter]
  · -- ids of different blocks
    have hnodup : ((ranked now ties candidates).map ScoredBlock.id).Nodup := by
      rw [(hperm.map ScoredBlock.id).nodup_iff, List.map_map]
      exact hids.sublist (List.filter_sublist.map _)
    rw [selectIds_eq]
    exact hnodup.sublist ((List.take_sublist _ _).map _)
  · rw [selectIds_eq] at hid
    obtain ⟨sb, hsb, rfl⟩ := List.mem_map.mp hid
    obtain ⟨b, hb, rfl⟩ := List.mem_map.mp (hperm.mem_iff.mp (List.mem_of_mem_take hsb))
    obtain ⟨hb, hcritical⟩ := List.mem_filter.mp hb
    exact ⟨b, hb, rfl, of_decide_eq_true hcritical⟩
  · by_contra hlt
    have hcritical := not_critical_of_selected hids hb hsel
    have hcritical' : b'.priority ≠ .critical := by
      intro h
      rw [h] at hlt
      cases hp : b.priority <;> simp_all [MemoryPriority.rank]
    exact absurd (scoreBlock_le hids hb hb' hsel hout hcritical')
      (scoreBlock_lt (hpast b' hb') (Nat.lt_of_not_le hlt)).not_ge
  · by_contra hge
    have hcritical := not_critical_of_selected hids hb hsel
    have hle := scoreBlock_le hids hb hb' hsel hout (heq ▸ hcritical)
    have hlt := agePenalty_lt (hpast b hb) (not_lt.mp hge)
    rw [scoreBlock_eq, scoreBlock_eq, heq] at hle
    linarith

/-- **The selection.** Of any blocks with different ids, accessed up to now, the ones of the lowest
priorities are selected, and of these the oldest, where ages count up to 900 seconds; if the heap
has the bytes for as many ids as are asked for. -/
theorem selectsOldest_cappedAge (heap : Heap) (now : ℤ) (ties : Traversal ScoredBlock)
    (candidates : List MemoryBlock) (count : UInt64) (hserves : Serves heap candidates count)
    (hids : (candidates.map MemoryBlock.id).Nodup)
    (hpast : ∀ b ∈ candidates, b.lastAccessed ≤ now) :
    ∃ selected, selectForEviction heap now ties candidates count = .ok selected ∧
      SelectsOldest (fun b => b.cappedAge now) candidates count.toNat selected :=
  ⟨_, selectForEviction_of_serves hserves, selectsOldest_selectIds now ties candidates _ hids hpast⟩

/-- Two blocks that were used before 1000 and before 2000 seconds. -/
def longUnused : List MemoryBlock :=
  [{ id := 1, lastAccessed := 1000000000000 }, { id := 2, lastAccessed := 0 }]

/-- A heap of 48 bytes, the ones of two scored blocks. -/
def smallHeap : Heap := ⟨48, by decide⟩

theorem serves_longUnused : Serves smallHeap longUnused 1 := ⟨by decide, by decide⟩

/-- One of the two is selected. -/
theorem selectsOldest_longUnused :
    ∃ selected, selectForEviction smallHeap 2000000000000 .stored longUnused 1 = .ok selected ∧
      SelectsOldest (fun b => b.cappedAge 2000000000000) longUnused 1 selected :=
  selectsOldest_cappedAge smallHeap 2000000000000 .stored longUnused 1 serves_longUnused (by decide)
    (by decide)

/-- Both ages count for 900 seconds, and the younger block is selected. -/
theorem not_selectsOldest_age : ¬∀ (heap : Heap) (now : ℤ) (ties : Traversal ScoredBlock)
    (candidates : List MemoryBlock) (count : UInt64), Serves heap candidates count →
    (candidates.map MemoryBlock.id).Nodup → (∀ b ∈ candidates, b.lastAccessed ≤ now) →
    ∃ selected, selectForEviction heap now ties candidates count = .ok selected ∧
      SelectsOldest (fun b => b.age now) candidates count.toNat selected := by
  intro hall
  obtain ⟨selected, hok, holdest⟩ := hall smallHeap 2000000000000 .stored longUnused 1
    serves_longUnused (by decide) (by decide)
  have hselected : selectIds 2000000000000 .stored longUnused 1 = [1] := by
    rw [selectIds_eq, ranked, List.mergeSort_of_pairwise]
    · decide +kernel
    · decide +kernel
  rw [selectForEviction_of_serves serves_longUnused, Except.ok.injEq] at hok
  have hone : selected = [1] := hok.symm.trans hselected
  have hold := holdest.oldest _ List.mem_cons_self _ (List.mem_cons_of_mem _ List.mem_cons_self)
  rw [hone] at hold
  exact absurd (hold (by decide) (by decide) rfl) (by decide)

end HeteroAccel.Mem
