import HeteroAccel.Mem.Handles

/-!
# Moves as transactions

A transaction either does all it promises or changes nothing. A move that exchanges storage returns
an invalid block, and one that fails has touched the entry before. So a move of a block elsewhere is
a transaction only where there is no valid entry to move, in whatever state it is called.

## Main definitions

* `MoveTransactional`: what a move promises;
* `moveTransactional_iff`: when it keeps the promise.
-/

namespace HeteroAccel.Mem

open MemoryManager

/-- What a move promises. When it returns `true`, the block is valid at the destination, with its
size, priority and residency, it is the one tracked entry of its storage, the old storage is no
longer in use, and a later release frees the new one. When it returns `false`, nothing has
changed. -/
def MoveTransactional (env : Environment) (mm : MemoryManager) (block : MemoryBlock)
    (destination : Space) : Prop :=
  let (moved, block', mm') := mm.move env block destination.location
  if moved = true then
    (block'.id ≠ 0 ∧ block'.size = block.size ∧ block'.priority = block.priority ∧
      block'.location = destination.location) ∧
    mm'.residencyManager.getResidency block'.id = destination.residency ∧
    (∃ e, mm'.activeBlocks.lookup block'.id = some e ∧ e.storage = block'.storage) ∧
    (∀ k e, mm'.activeBlocks.lookup k = some e → e.storage = block'.storage → k = block'.id) ∧
    (block.location ≠ destination.location →
      mm.StorageInUse block.storage ∧ ¬ mm'.StorageInUse block.storage) ∧
    mm'.StorageInUse block'.storage ∧ ¬ (mm'.release block').2.StorageInUse block'.storage
  else
    block' = block ∧ (∀ k, mm'.activeBlocks.lookup k = mm.activeBlocks.lookup k) ∧
      mm'.cpu = mm.cpu ∧ mm'.gpu = mm.gpu

/-- The entry under the block's id is its own. -/
def MemoryManager.Tracks (mm : MemoryManager) (block : MemoryBlock) : Prop :=
  ∃ e, mm.activeBlocks.lookup block.id = some e ∧ e.id = block.id ∧ e.storage = block.storage

/-- The invariant of the manager holds after any calls. -/
theorem tracked_of_reachable {s : Sys} (h : system.Reachable TransitionSystem.anyCall s) :
    Tracked s.mm := by
  refine h.invariant (P := fun s => Tracked s.mm) ?_ ?_
  · rintro s ⟨cpuBytes, gpuBytes, rfl⟩
    exact (Owned.new cpuBytes gpuBytes).tracked
  · rintro s c s' hs - ⟨hpermits, rfl⟩
    cases c with
    | allocate v size preferred priority env => exact hs.allocate hpermits.2 size preferred priority
    | release v => exact hs.release (s.handles v)
    | move v destination env => exact hs.move hpermits (s.handles v) destination
    | enforcePressureLimits env => exact hs.enforcePressureLimits

variable {env : Environment} {mm : MemoryManager} {block e : MemoryBlock} {destination : Space}

/-- A release frees the storage of the entry under the block's id exactly when the entry is
valid. -/
theorem storageInUse_release_iff (hmm : Tracked mm) (hvalid : block.id ≠ 0)
    (he : mm.activeBlocks.lookup block.id = some e) :
    (mm.release block).2.StorageInUse e.storage ↔ e.id = 0 := by
  rcases release_cases hmm block with ⟨hid, -⟩ | ⟨-, hnone, -⟩ | ⟨e', he', -, hdrop⟩
  · exact absurd hid hvalid
  · rw [he] at hnone
    cases hnone
  rw [he] at he'
  cases he'
  rcases hmm.entries _ e he with ⟨sp, m, hid, hloc, hstorage, -, -, -⟩ |
    ⟨sp, p, id, size, rfl, hstorage⟩
  · have hne : e.id ≠ 0 := hid ▸ hvalid
    refine ⟨?_, fun h => absurd h hne⟩
    rintro ⟨sp', id, r, hr, heq⟩
    -- only one id stands for the storage of the entry, and it is no longer in use
    obtain ⟨hsp, hhandle⟩ := Prod.mk.inj heq
    have : sp' = sp := Space.location_inj.mp (hsp.symm.trans hloc)
    subst this
    rw [hdrop.inUse] at hr
    split at hr
    next => cases hr
    next hkept =>
      exact absurd ⟨hid, hloc, (hmm.heaps sp').eq_of_inUse hr hstorage hhandle.symm⟩ hkept
  · refine ⟨fun _ => rfl, fun _ => ⟨sp, id, ⟨p, size⟩, ?_, rfl⟩⟩
    rw [hdrop.inUse, if_neg (fun h => hvalid h.1.symm)]
    exact hstorage

/-- A move to where the block is keeps its promise exactly when the block has its own entry. -/
theorem moveTransactional_of_location_eq (hmm : Tracked mm) (hvalid : block.id ≠ 0)
    (hloc : block.location = destination.location) :
    MoveTransactional env mm block destination ↔ mm.Tracks block := by
  have hmove : mm.move env block destination.location = (true, block, mm) := by
    rw [move, if_pos (by simp [hloc])]
  unfold MoveTransactional
  rw [hmove]
  simp only [if_true, ne_eq, hloc, not_true_eq_false, false_implies, true_and]
  constructor
  · rintro ⟨-, -, ⟨e, he, hstorage⟩, -, hused, hfreed⟩
    refine ⟨e, he, ?_, hstorage⟩
    by_contra hne
    -- an invalid entry would not be freed by the release
    have hid : e.id = 0 := by
      by_contra hid
      exact hne ((hmm.entries _ e he).id_eq hid)
    exact hfreed (hstorage ▸ (storageInUse_release_iff hmm hvalid he).mpr hid)
  · rintro ⟨e, he, hid, hstorage⟩
    have hne : e.id ≠ 0 := hid ▸ hvalid
    obtain ⟨heloc, hehandle⟩ := Prod.mk.inj hstorage
    rcases hmm.entries _ e he with ⟨sp, m, -, hsp, hused, hm, hres, -⟩ | ⟨sp, p, id, size, rfl, -⟩
    · have hdst : sp = destination :=
        Space.location_inj.mp (hsp.symm.trans (heloc.trans hloc))
      subst hdst
      refine ⟨⟨hvalid, trivial⟩, ?_, ⟨e, he, hstorage⟩, fun k e' he' heq => ?_, ?_, ?_⟩
      · rw [ResidencyManager.getResidency, hm]
        exact hres
      · obtain ⟨hloc', hhandle'⟩ := Prod.mk.inj (heq.trans hstorage.symm)
        exact hmm.distinct k _ e' e he' he hloc' hhandle'
      · exact ⟨sp, block.id, _, hused, by rw [← hstorage, MemoryBlock.storage, hsp]⟩
      · rw [← hstorage, storageInUse_release_iff hmm hvalid he]
        exact hne
    · exact absurd rfl hne

/-- A move of a block that is elsewhere keeps its promise exactly when there is no valid entry to
move. -/
theorem moveTransactional_of_location_ne (hmm : Tracked mm) (hfresh : env.Fresh mm)
    (hvalid : block.id ≠ 0) (hloc : block.location ≠ destination.location) :
    MoveTransactional env mm block destination ↔
      ∀ e, mm.activeBlocks.lookup block.id = some e → e.id = 0 := by
  unfold MoveTransactional
  rcases move_cases hmm hfresh block destination.location with
    ⟨hid | hid, -⟩ | ⟨-, -, hnone, hmove⟩ | ⟨-, -, tracked, mm', he, hmove, hsame⟩ |
      ⟨-, tracked, src, dst, newId, handle, mm', he, htloc, -, hsize, hmove, -⟩
  · exact absurd hid hvalid
  · exact absurd hid hloc
  · -- no entry: the move returns before it changes anything
    rw [hmove]
    refine ⟨fun _ e he => ?_, fun _ => ⟨rfl, fun _ => rfl, rfl, rfl⟩⟩
    rw [hnone] at he
    cases he
  · by_cases hid : tracked.id = 0
    · -- touching what an earlier move left changes nothing
      rw [move_of_id_eq_zero hmm hvalid hloc he hid]
      refine ⟨fun _ e he' => ?_, fun _ => ⟨rfl, fun k => ?_, rfl, rfl⟩⟩
      · rw [he] at he'
        cases he'
        exact hid
      · show ((mm.activeBlocks.insert _ _).lookup k) = _
        rw [KeyedMap.lookup_insert_eq_ite, syncBlockResidency_of_id_eq_zero hmm.unregistered hid]
        split
        next hk =>
          rw [hk, he]
          rcases hmm.entries _ _ he with ⟨_, _, hk', _, _, _, _, _⟩ | ⟨_, _, _, _, rfl, _⟩
          · exact absurd (hk'.symm.trans hid) hvalid
          · rfl
        next => rfl
    · -- the move has failed, but the entry was touched
      rw [hmove]
      refine ⟨fun h => ?_, fun h => absurd (h tracked he) hid⟩
      obtain ⟨-, hsameEntry, -, -⟩ := h
      have hentry := hsameEntry block.id
      rw [hsame.activeBlocks, he] at hentry
      have htouched : (mm.touched env block.id tracked).activeBlocks.lookup block.id =
          some (mm.syncBlockResidency env tracked).1 := AList.lookup_insert _
      rw [htouched] at hentry
      rcases hmm.entries _ _ he with ⟨_, m, hk, _, _, hm, _, hcount⟩ | ⟨_, _, _, _, rfl, _⟩
      · rw [syncBlockResidency_fst (hk ▸ hm)] at hentry
        have := congrArg MemoryBlock.accessCount (Option.some.inj hentry)
        simp only at this
        omega
      · exact absurd rfl hid
  · -- the move has succeeded, and returns an invalid block
    rw [hmove]
    have hid : tracked.id ≠ 0 := by
      rw [(hmm.own_of_size_ne_zero he hsize htloc).1]
      exact hvalid
    exact ⟨fun h => absurd rfl h.1.1, fun h => absurd (h tracked he) hid⟩

/-- In every state that calls of any kind reach, a move of a live handle keeps its promise exactly
when the block is at the destination and has its own entry, or is elsewhere and has no valid
entry. -/
theorem moveTransactional_iff (s : Sys) (v : ℕ) (destination : Space) (env : Environment)
    (hreach : system.Reachable TransitionSystem.anyCall s) (hlive : s.Live v)
    (hfresh : env.Fresh s.mm) :
    MoveTransactional env s.mm (s.handles v) destination ↔
      if (s.handles v).location = destination.location then s.mm.Tracks (s.handles v)
      else ∀ e, s.mm.activeBlocks.lookup (s.handles v).id = some e → e.id = 0 := by
  have hmm := tracked_of_reachable hreach
  split
  next hloc => exact moveTransactional_of_location_eq hmm hlive.1 hloc
  next hloc => exact moveTransactional_of_location_ne hmm hfresh hlive.1 hloc

/-- A CPU block that is asked to move to the CPU. -/
theorem moveTransactional_sampleRun :
    let s := sampleRun [.allocate 0 16 .cpu .normal { malloc := 1000 }]
    MoveTransactional { malloc := 2000 } s.mm (s.handles 0) .cpu := by
  refine (moveTransactional_iff (sampleRun [.allocate 0 16 .cpu .normal { malloc := 1000 }]) 0 .cpu
    { malloc := 2000 } (reachable_sampleRun (by decide +kernel)) (by decide +kernel)
    (by decide +kernel)).mpr ?_
  have htracks : ∃ e ∈ (sampleRun [
      .allocate 0 16 .cpu .normal { malloc := 1000 }]).mm.activeBlocks.lookup 1,
      e.id = 1 ∧ e.storage = (.cpu, 1000) := by
    decide +kernel
  exact htracks

/-- A CPU block is moved to the GPU: the move returns `true` and the invalid block. -/
theorem not_moveTransactional_sampleRun :
    ¬ ∀ (s : Sys) (v : ℕ) (destination : Space) (env : Environment),
      system.Reachable TransitionSystem.anyCall s → s.Live v → env.Fresh s.mm →
      MoveTransactional env s.mm (s.handles v) destination := by
  intro hall
  let s := sampleRun [.allocate 0 16 .cpu .normal { malloc := 1000 }]
  have hmove := hall s 0 .gpu { createBuffer := 7 } (reachable_sampleRun (by decide +kernel))
    (by decide +kernel) (by decide +kernel)
  have hresult : ∃ mm', s.mm.move { createBuffer := 7 } (s.handles 0) .gpu =
      (true, movedBlock .gpu 7, mm') :=
    ⟨_, Prod.ext (by decide +kernel) (Prod.ext (by decide +kernel) rfl)⟩
  obtain ⟨mm', hmm'⟩ := hresult
  unfold MoveTransactional at hmove
  rw [show Space.gpu.location = MemoryLocation.gpu from rfl, hmm'] at hmove
  exact hmove.1.1 rfl

end HeteroAccel.Mem
