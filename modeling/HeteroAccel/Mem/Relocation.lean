import HeteroAccel.Mem.Tracking

/-!
# Moves and evictions

`move` touches the tracked block, takes storage at the destination and transfers the bytes. Only if
all of this succeeds does it exchange the storage, and then the entry it leaves is invalid.
`enforcePressureLimits` touches the GPU blocks and gives some of them up.

## Main definitions

* `Relocates`: when `move` exchanges the storage of a block;
* `move_cases`: the four effects a move can have;
* `Tracked.move`, `Tracked.enforcePressureLimits`: both preserve the invariant.
-/

namespace HeteroAccel.Mem.MemoryManager

variable {env : Environment} {mm mm' : MemoryManager} {k id : ℕ} {e block tracked : MemoryBlock}
  {sp src dst : Space} {destination : MemoryLocation}

/-! ## The effects of a move -/

/-- The state after `move` has touched the entry under `k`. -/
def touched (env : Environment) (mm : MemoryManager) (k : ℕ) (tracked : MemoryBlock) :
    MemoryManager :=
  { mm with
    residencyManager := mm.residencyManager.touch env.now tracked.id
    activeBlocks := mm.activeBlocks.insert k (mm.syncBlockResidency env tracked).1 }

/-- The storage in use, the entries and the records are the same. -/
structure SameBlocks (mm mm' : MemoryManager) : Prop where
  heaps : ∀ sp, (mm'.heap sp).Valid sp
  inUse : mm'.inUse = mm.inUse
  activeBlocks : mm'.activeBlocks = mm.activeBlocks
  residencyManager : mm'.residencyManager = mm.residencyManager

/-- The storage behind the key `k` has been exchanged: the storage at `src` is no longer in use, the
one at `dst` is, under an id of its own, and the entry under `k` is invalid. -/
structure Relocated (mm : MemoryManager) (k : ℕ) (src dst : Space) (newId handle : ℕ)
    (size : UInt64) (mm' : MemoryManager) : Prop where
  heaps : ∀ sp, (mm'.heap sp).Valid sp
  unused : mm.inUse dst newId = none
  inUse : ∀ sp id, mm'.inUse sp id =
    if sp = dst ∧ id = newId then some ⟨handle, size⟩
    else if sp = src ∧ id = k then none
    else mm.inUse sp id
  lookup : ∀ k', mm'.activeBlocks.lookup k' =
    if k' = k then some (movedBlock dst handle) else mm.activeBlocks.lookup k'
  info : ∀ k' ≠ k, mm'.residencyManager.records.lookup k' = mm.residencyManager.records.lookup k'

/-- When `move` exchanges the storage of a block: the block is elsewhere, its entry is in the other
memory, the destination can serve an allocation of the entry's size, and the transfer succeeds. -/
def Relocates (env : Environment) (mm : MemoryManager) (block : MemoryBlock)
    (destination : MemoryLocation) : Prop :=
  block.id ≠ 0 ∧ block.location ≠ destination ∧
    ∃ tracked src dst, mm.activeBlocks.lookup block.id = some tracked ∧ src ≠ dst ∧
      tracked.location = src.location ∧ destination = dst.location ∧
      serves env mm tracked.size dst = true ∧ env.available = true ∧ env.transferOk = true

/-- A state with the same blocks satisfies the invariant. -/
theorem Tracked.of_sameBlocks (hmm : Tracked mm) (h : SameBlocks mm mm') : Tracked mm' := by
  apply hmm.of_grows h.heaps h.inUse h.activeBlocks
  rw [h.residencyManager]
  exact ResidencyManager.Grows.refl _

/-- Touching an entry keeps the invariant. -/
theorem Tracked.touched (hmm : Tracked mm) (he : mm.activeBlocks.lookup k = some e) :
    Tracked (mm.touched env k e) := by
  have hgrows := mm.residencyManager.grows_touch env.now e.id
  have hlookup : ∀ k', (mm.touched env k e).activeBlocks.lookup k' =
      if k' = k then some (mm.syncBlockResidency env e).1 else mm.activeBlocks.lookup k' :=
    fun k' => KeyedMap.lookup_insert_eq_ite
  have hheap : (mm.touched env k e).heap = mm.heap := heap_congr rfl rfl
  have hinUse : (mm.touched env k e).inUse = mm.inUse := inUse_congr rfl rfl
  -- only the entry `k` and its record change
  apply hmm.of_change k
  · intro sp
    rw [hheap]
    exact hmm.heaps sp
  · intro k' hk
    rw [hlookup, if_neg hk]
  · exact fun k' _ => hgrows k'
  · intro k' _ e' _ sp id r _ hr _
    rw [hinUse]
    exact hr
  · intro e' he'
    rw [hlookup, if_pos rfl] at he'
    cases he'
    refine ⟨hmm.key_ne_zero k e he, ?_, fun k' hk e' he' hloc hhandle => ?_⟩
    · -- the copy has the time and the count that are now on record
      rw [hinUse]
      rcases hmm.entries k e he with ⟨sp, m, hid, hloc, hst, hm, hres, -⟩ |
        ⟨sp, p, id, size, rfl, hst⟩
      · rw [syncBlockResidency_fst (hid ▸ hm)]
        refine .own sp { m with lastAccessed := env.now, accessCount := m.accessCount + 1 } hid hloc
          hst ?_ hres (le_refl _)
        show (mm.residencyManager.touch env.now e.id).records.lookup k = _
        rw [ResidencyManager.lookup_touch, if_pos hid.symm, hid, hm]
        rfl
      · rw [syncBlockResidency_of_id_eq_zero hmm.unregistered rfl]
        exact .moved sp p id size rfl hst
    · exact hk (hmm.distinct k' k e' e he' he hloc hhandle)
  · have := hgrows 0
    rw [hmm.unregistered] at this
    show (mm.residencyManager.touch env.now e.id).records.lookup 0 = none
    generalize (mm.residencyManager.touch env.now e.id).records.lookup 0 = o at this ⊢
    cases this
    rfl

/-- An exchange of storage keeps the invariant. -/
theorem Tracked.of_relocated (hmm : Tracked mm) {newId handle : ℕ} {size : UInt64}
    (he : mm.activeBlocks.lookup k = some e) (hid : e.id = k) (hloc : e.location = src.location)
    (hne : src ≠ dst) (h : Relocated mm k src dst newId handle size mm')
    (hzero : mm'.residencyManager.records.lookup 0 = none) : Tracked mm' := by
  have hkeep : ∀ id r, mm.inUse dst id = some r → mm'.inUse dst id = some r := by
    intro id r hr
    rw [h.inUse, if_neg, if_neg (fun hsrc => hne hsrc.1.symm), hr]
    rintro ⟨-, rfl⟩
    rw [h.unused] at hr
    cases hr
  have hnew : mm'.inUse dst newId = some ⟨handle, size⟩ := by
    rw [h.inUse, if_pos ⟨rfl, rfl⟩]
  apply hmm.of_change k h.heaps
  · intro k' hk
    rw [h.lookup, if_neg hk]
  · intro k' hk
    rw [h.info k' hk]
    exact ResidencyManager.Grows.refl _ k'
  · intro k' hk e' he' sp id r hloc' hr hrh
    by_cases hdst : sp = dst
    · subst hdst
      exact hkeep id r hr
    · rw [h.inUse, if_neg (fun hd => hdst hd.1), if_neg, hr]
      -- the storage that went is the one of `e`, which no other entry denotes
      rintro ⟨rfl, rfl⟩
      rcases hmm.entries _ e he with ⟨sp', m, -, hsp', hst, -, -, -⟩ | ⟨sp', p, id', size, rfl, -⟩
      · have hsp : sp' = sp := Space.location_inj.mp (hsp'.symm.trans hloc)
        subst hsp
        rw [hst] at hr
        cases hr
        exact hk (hmm.distinct k' _ e' e he' he (hloc'.trans hloc.symm) hrh.symm)
      · exact hmm.key_ne_zero _ _ he hid.symm
  · intro e' he'
    rw [h.lookup, if_pos rfl] at he'
    cases he'
    refine ⟨hmm.key_ne_zero k e he, .moved dst handle newId size rfl hnew,
      fun k' _ e' he' hloc' => ?_⟩
    exact hmm.ne_of_unused h.heaps h.unused hnew hkeep he' hloc'
  · exact hzero

/-! ## What a move does -/

theorem sameBlocks_refl (hmm : Tracked mm) : SameBlocks mm mm := ⟨hmm.heaps, rfl, rfl, rfl⟩

/-- Nothing of size zero is served. -/
theorem ne_zero_of_serves {size : UInt64} (h : serves env mm size sp = true) : size ≠ 0 := by
  rintro rfl
  simp [serves, PooledAllocator.canServe, Space.grants, poolBlockSize] at h

/-- An entry whose size can be served is valid, with its storage in use under its key. -/
theorem Tracked.own_of_size_ne_zero (hmm : Tracked mm) (he : mm.activeBlocks.lookup k = some e)
    (hsize : e.size ≠ 0) (hloc : e.location = sp.location) :
    e.id = k ∧ (mm.heap sp).inUse k = some ⟨e.backendHandle, e.size⟩ := by
  rcases hmm.entries k e he with ⟨sp', m, hid, hsp, hst, -, -, -⟩ | ⟨sp', p, id, size, rfl, -⟩
  · have : sp' = sp := Space.location_inj.mp (hsp.symm.trans hloc)
    subst this
    exact ⟨hid, hst⟩
  · exact absurd rfl hsize

/-- The new storage is given back when the transfer fails: nothing else has changed. -/
theorem sameBlocks_of_transfer_failed (hmm : Tracked mm) {size : UInt64} {newBlock : MemoryBlock}
    {h' : PooledAllocator} (hgrant : PooledAllocator.Granted dst (mm.heap dst) size newBlock h')
    (tm : TransferManager) :
    SameBlocks mm (({ mm.setHeap dst h' with transferManager := tm }).freeInternal newBlock).2 := by
  -- the new block is in use until it is given back
  have huse : h'.inUse newBlock.id = some ⟨newBlock.backendHandle, newBlock.size⟩ := by
    rw [hgrant.inUse, Function.update_self, hgrant.size_eq]
  -- giving it back restores the heap of `dst`
  obtain ⟨-, hvalid, hinUse⟩ := hgrant.valid.free_of_inUse hgrant.location huse
  have hheap : ({ mm.setHeap dst h' with transferManager := tm } : MemoryManager).heap =
      (mm.setHeap dst h').heap := heap_congr rfl rfl
  rw [freeInternal_location hgrant.location, hheap, heap_setHeap_self]
  refine ⟨heap_valid_setHeap (fun sp => ?_) hvalid, ?_, ?_, ?_⟩
  · rw [hheap]
    exact heap_valid_setHeap hmm.heaps hgrant.valid sp
  · funext sp id
    rw [inUse_setHeap, hinUse, hgrant.inUse, Function.update_idem]
    by_cases hsp : sp = dst
    · subst hsp
      rw [if_pos rfl, Function.update_apply]
      split
      next hid => rw [hid]; exact hgrant.unused.symm
      next => rfl
    · rw [if_neg hsp, inUse, hheap, heap_setHeap_of_ne hsp, inUse]
  · rw [activeBlocks_setHeap]
    exact activeBlocks_setHeap
  · rw [residencyManager_setHeap]
    exact residencyManager_setHeap

/-- The exchange, when the freed block has become the default one. -/
theorem exchangeStorage_eq {newBlock : MemoryBlock} {freed : MemoryManager}
    (hfree : ({ mm with
      residencyManager := mm.residencyManager.promote tracked.id dst.location }).freeInternal
        tracked = ({}, freed))
    (hzero : freed.residencyManager.records.lookup 0 = none) :
    mm.exchangeStorage env k tracked newBlock dst.location =
      (movedBlock dst newBlock.backendHandle, { freed with
        activeBlocks := freed.activeBlocks.insert k (movedBlock dst newBlock.backendHandle) }) := by
  simp only [exchangeStorage, hfree]
  rw [syncBlockResidency_of_id_eq_zero hzero rfl]
  rfl

/-- The exchange frees the old storage, which overwrites the tracked block: what is left is
invalid. -/
theorem exchangeStorage_relocated (env : Environment) (hmm : Tracked mm)
    (he : mm.activeBlocks.lookup k = some tracked) (hloc : tracked.location = src.location)
    (hne : src ≠ dst) (hsize : tracked.size ≠ 0) {newBlock : MemoryBlock} {h' : PooledAllocator}
    (hgrant : PooledAllocator.Granted dst (mm.heap dst) tracked.size newBlock h')
    (tm : TransferManager) :
    ∃ mm', ({ mm.setHeap dst h' with transferManager := tm }).exchangeStorage env k tracked newBlock
        dst.location = (movedBlock dst newBlock.backendHandle, mm') ∧
      Relocated mm k src dst newBlock.id newBlock.backendHandle tracked.size mm' ∧
      mm'.residencyManager.records.lookup 0 = none := by
  obtain ⟨hid, huse⟩ := hmm.own_of_size_ne_zero he hsize hloc
  obtain ⟨hfreed, hvalid, hinUse⟩ := (hmm.heaps src).free_of_inUse hloc (hid ▸ huse)
  -- the steps of the source: the record moves, then the old storage is freed
  let promoted : MemoryManager := { mm.setHeap dst h' with
    transferManager := tm
    residencyManager := (mm.setHeap dst h').residencyManager.promote tracked.id dst.location }
  let freed := promoted.setHeap src ((mm.heap src).free src tracked).2
  have hheap : promoted.heap = (mm.setHeap dst h').heap := heap_congr rfl rfl
  have hfree : promoted.freeInternal tracked = ({}, freed) := by
    rw [freeInternal_location hloc, hheap, heap_setHeap_of_ne hne, hfreed]
  have hinfo : ∀ k' ≠ k, freed.residencyManager.records.lookup k' =
      mm.residencyManager.records.lookup k' := by
    intro k' hk
    rw [residencyManager_setHeap]
    show (ResidencyManager.promote _ _ _).records.lookup k' = _
    rw [ResidencyManager.lookup_promote_of_ne _ (hid ▸ hk), residencyManager_setHeap]
  -- the id 0 stays unregistered, so the handle keeps its own times
  have hzero : freed.residencyManager.records.lookup 0 = none :=
    (hinfo 0 (hmm.key_ne_zero k tracked he).symm).trans hmm.unregistered
  have hactive : freed.activeBlocks = mm.activeBlocks :=
    (activeBlocks_setHeap : _ = promoted.activeBlocks).trans activeBlocks_setHeap
  refine ⟨_, exchangeStorage_eq hfree hzero, ?_, hzero⟩
  refine ⟨fun sp => ?_, hgrant.unused, fun sp id => ?_, fun k' => ?_, hinfo⟩
  · refine heap_valid_setHeap (fun sp => ?_) hvalid sp
    rw [hheap]
    exact heap_valid_setHeap hmm.heaps hgrant.valid sp
  · show freed.inUse sp id = _
    have hpromoted : promoted.inUse = (mm.setHeap dst h').inUse := inUse_congr rfl rfl
    rw [inUse_setHeap, hpromoted, inUse_setHeap, hinUse, hgrant.inUse, hid]
    by_cases hsrc : sp = src
    · subst hsrc
      rw [if_pos rfl, if_neg (fun h => hne h.1), Function.update_apply]
      simp [inUse]
    · rw [if_neg hsrc, if_neg (fun h => hsrc h.1 : ¬ (sp = src ∧ id = k))]
      by_cases hdst : sp = dst
      · subst hdst
        rw [if_pos rfl, Function.update_apply]
        simp [inUse]
      · rw [if_neg hdst, if_neg (fun h => hdst h.1)]
  · rw [hactive]
    exact KeyedMap.lookup_insert_eq_ite

/-- Nothing happens when the destination cannot serve. -/
theorem relocate_of_not_serves (hmm : Tracked mm) (hserve : serves env mm tracked.size dst = false)
    (transfer : TransferManager → MemoryBlock → ℕ × TransferManager) :
    mm.relocate env block tracked dst.location transfer = (false, block, mm) := by
  unfold relocate
  rw [allocateInternal_location, (hmm.heaps dst).allocate_of_not_canServe hserve, setHeap_heap]
  rfl

/-- Moving a tracked block to the other memory either changes no block, or exchanges the storage and
returns an invalid block. -/
theorem relocate_cases (hmm : Tracked mm) (hfresh : env.Fresh mm)
    (he : mm.activeBlocks.lookup block.id = some tracked) (hloc : tracked.location = src.location)
    (hne : src ≠ dst) (transfer : TransferManager → MemoryBlock → ℕ × TransferManager) :
    (∃ mm', mm.relocate env block tracked dst.location transfer = (false, block, mm') ∧
      SameBlocks mm mm') ∨
    (serves env mm tracked.size dst = true ∧
      (∃ newBlock, (transfer mm.transferManager newBlock).1 ≠ 0) ∧
      ∃ newId handle mm', mm.relocate env block tracked dst.location transfer =
          (true, movedBlock dst handle, mm') ∧
        Relocated mm block.id src dst newId handle tracked.size mm' ∧
        mm'.residencyManager.records.lookup 0 = none) := by
  by_cases hserve : serves env mm tracked.size dst = true
  · have hgrant := hmm.granted hfresh hserve
    have hvalid := MemoryBlock.isValid_iff.mpr hgrant.pos.ne'
    unfold relocate
    rw [allocateInternal_location]
    generalize ((mm.heap dst).allocate dst (env.answer dst) tracked.size).1 = newBlock
      at hgrant hvalid ⊢
    generalize ((mm.heap dst).allocate dst (env.answer dst) tracked.size).2 = h' at hgrant ⊢
    have htm : (mm.setHeap dst h').transferManager = mm.transferManager := by cases dst <;> rfl
    simp only [hvalid, Bool.not_true, htm]
    by_cases hth : (transfer mm.transferManager newBlock).1 = 0
    · -- a transfer that fails gives the new block back
      refine .inl ⟨_, ?_, sameBlocks_of_transfer_failed hmm hgrant
        (transfer mm.transferManager newBlock).2⟩
      rw [if_neg (by simp), if_pos hth]
    · obtain ⟨mm', heq, hrel, hzero⟩ := exchangeStorage_relocated env hmm he hloc hne
        (ne_zero_of_serves hserve) hgrant (transfer mm.transferManager newBlock).2
      refine .inr ⟨hserve, ⟨newBlock, hth⟩, newBlock.id, newBlock.backendHandle, mm',
        ?_, hrel, hzero⟩
      rw [if_neg (by simp), if_neg hth, heq]
  · exact .inl ⟨mm, relocate_of_not_serves hmm (eq_false_of_ne_true hserve) transfer,
      sameBlocks_refl hmm⟩

/-- A move of a tracked block, after the touch. -/
theorem move_eq_of_lookup (hvalid : block.id ≠ 0) (hdest : block.location ≠ destination)
    (he : mm.activeBlocks.lookup block.id = some tracked) :
    mm.move env block destination =
      let copy := (mm.syncBlockResidency env tracked).1
      if tracked.location = .cpu && destination = .gpu then
        (mm.touched env block.id tracked).relocate env block copy .gpu fun tm newBlock =>
          tm.upload env.available env.transferOk copy.backendHandle newBlock copy.size
      else if tracked.location = .gpu && destination = .cpu then
        (mm.touched env block.id tracked).relocate env block copy .cpu fun tm newBlock =>
          tm.download env.available env.transferOk copy newBlock.backendHandle copy.size
      else (false, block, mm.touched env block.id tracked) := by
  unfold move
  rw [if_neg (by simp [hvalid, hdest]), he]
  rfl

/-- Between two different memories the move relocates, with a transfer that needs the backend. -/
theorem move_eq_relocate (env : Environment) (hvalid : block.id ≠ 0)
    (hdest : block.location ≠ dst.location)
    (he : mm.activeBlocks.lookup block.id = some tracked) (hloc : tracked.location = src.location)
    (hne : src ≠ dst) :
    ∃ transfer : TransferManager → MemoryBlock → ℕ × TransferManager,
      mm.move env block dst.location = (mm.touched env block.id tracked).relocate env block
        (mm.syncBlockResidency env tracked).1 dst.location transfer ∧
      ∀ tm newBlock, (transfer tm newBlock).1 ≠ 0 →
        env.available = true ∧ env.transferOk = true := by
  rw [move_eq_of_lookup hvalid hdest he, hloc]
  rcases src with - | - <;> rcases dst with - | -
  · exact absurd rfl hne
  · exact ⟨_, if_pos rfl, fun tm newBlock h => tm.upload_ne_zero h⟩
  · exact ⟨_, (if_neg (by decide)).trans (if_pos rfl), fun tm newBlock h => tm.download_ne_zero h⟩
  · exact absurd rfl hne

/-- Without two different memories to relocate between, the move only touches the entry. -/
theorem move_eq_touched (hvalid : block.id ≠ 0) (hdest : block.location ≠ destination)
    (he : mm.activeBlocks.lookup block.id = some tracked)
    (hno : ∀ src dst : Space, src ≠ dst → tracked.location = src.location →
      destination ≠ dst.location) :
    mm.move env block destination = (false, block, mm.touched env block.id tracked) := by
  have hup : tracked.location = .cpu → destination ≠ .gpu := hno .cpu .gpu (by decide)
  have hdown : tracked.location = .gpu → destination ≠ .cpu := hno .gpu .cpu (by decide)
  rw [move_eq_of_lookup hvalid hdest he, if_neg (by simpa using hup), if_neg (by simpa using hdown)]

/-- A move of what an earlier move left only touches the entry: it has no size to allocate. -/
theorem move_of_id_eq_zero (hmm : Tracked mm) (hvalid : block.id ≠ 0)
    (hdest : block.location ≠ destination)
    (he : mm.activeBlocks.lookup block.id = some tracked) (hid : tracked.id = 0) :
    mm.move env block destination = (false, block, mm.touched env block.id tracked) := by
  have hsize : tracked.size = 0 := by
    rcases hmm.entries _ _ he with ⟨_, _, hk, _, _, _, _, _⟩ | ⟨_, _, _, _, rfl, _⟩
    · exact absurd (hk.symm.trans hid) hvalid
    · rfl
  by_cases hpair : ∃ src dst : Space, src ≠ dst ∧ tracked.location = src.location ∧
      destination = dst.location
  · obtain ⟨src, dst, hne, hloc, rfl⟩ := hpair
    obtain ⟨transfer, hmove, -⟩ := move_eq_relocate env hvalid hdest he hloc hne
    rw [hmove]
    refine relocate_of_not_serves (hmm.touched he) (eq_false_of_ne_true fun hserve => ?_) transfer
    exact ne_zero_of_serves hserve hsize
  · refine move_eq_touched hvalid hdest he fun src dst hne hloc hdst => ?_
    exact hpair ⟨src, dst, hne, hloc, hdst⟩

/-- The effects of a move. -/
theorem move_cases (hmm : Tracked mm) (hfresh : env.Fresh mm) (block : MemoryBlock)
    (destination : MemoryLocation) :
    ((block.id = 0 ∨ block.location = destination) ∧
      mm.move env block destination = (true, block, mm)) ∨
    (block.id ≠ 0 ∧ block.location ≠ destination ∧ mm.activeBlocks.lookup block.id = none ∧
      mm.move env block destination = (false, block, mm)) ∨
    (block.id ≠ 0 ∧ block.location ≠ destination ∧
      ∃ tracked mm', mm.activeBlocks.lookup block.id = some tracked ∧
        mm.move env block destination = (false, block, mm') ∧
        SameBlocks (mm.touched env block.id tracked) mm') ∨
    (Relocates env mm block destination ∧
      ∃ tracked src dst newId handle mm', mm.activeBlocks.lookup block.id = some tracked ∧
        tracked.location = src.location ∧ src ≠ dst ∧ tracked.size ≠ 0 ∧
        mm.move env block destination = (true, movedBlock dst handle, mm') ∧
        Relocated (mm.touched env block.id tracked) block.id src dst newId handle tracked.size mm' ∧
        mm'.residencyManager.records.lookup 0 = none) := by
  by_cases hid : block.id = 0
  · refine .inl ⟨.inl hid, ?_⟩
    rw [move, if_pos (by simp [hid])]
  by_cases hdest : block.location = destination
  · refine .inl ⟨.inr hdest, ?_⟩
    rw [move, if_pos (by simp [hdest])]
  cases he : mm.activeBlocks.lookup block.id with
  | none =>
    refine .inr (.inl ⟨hid, hdest, rfl, ?_⟩)
    rw [move, if_neg (by simp [hid, hdest]), he]
  | some tracked =>
    -- the block is touched first, whatever becomes of the move
    have hmm' : Tracked (mm.touched env block.id tracked) := hmm.touched he
    by_cases hpair : ∃ src dst : Space, src ≠ dst ∧ tracked.location = src.location ∧
        destination = dst.location
    · obtain ⟨src, dst, hne, hloc, rfl⟩ := hpair
      obtain ⟨transfer, hmove, htransfer⟩ := move_eq_relocate env hid hdest he hloc hne
      have he' : (mm.touched env block.id tracked).activeBlocks.lookup block.id =
          some (mm.syncBlockResidency env tracked).1 := AList.lookup_insert _
      have hheap : (mm.touched env block.id tracked).heap = mm.heap := heap_congr rfl rfl
      have hfresh' : env.Fresh (mm.touched env block.id tracked) := by
        intro sp
        rw [hheap]
        exact hfresh sp
      rw [hmove]
      rcases relocate_cases hmm' hfresh' he' hloc hne transfer with
        ⟨mm', heq, hsame⟩ | ⟨hserve, ⟨newBlock, hth⟩, newId, handle, mm', heq, hrel, hzero⟩
      · exact .inr (.inr (.inl ⟨hid, hdest, tracked, mm', rfl, heq, hsame⟩))
      · have hserves : serves env mm tracked.size dst = true := by
          rw [serves, hheap] at hserve
          exact hserve
        refine .inr (.inr (.inr ⟨⟨hid, hdest, tracked, src, dst, he, hne, hloc, rfl, hserves,
          htransfer _ _ hth⟩, tracked, src, dst, newId, handle, mm', rfl, hloc, hne,
          ne_zero_of_serves hserves, heq, hrel, hzero⟩))
    · refine .inr (.inr (.inl ⟨hid, hdest, tracked, _, rfl, move_eq_touched hid hdest he ?_,
        sameBlocks_refl hmm'⟩))
      intro src dst hne hloc hdst
      exact hpair ⟨src, dst, hne, hloc, hdst⟩

theorem Tracked.move (hmm : Tracked mm) (hfresh : env.Fresh mm) (block : MemoryBlock)
    (destination : MemoryLocation) : Tracked (mm.move env block destination).2.2 := by
  rcases move_cases hmm hfresh block destination with
    ⟨-, h⟩ | ⟨-, -, -, h⟩ | ⟨-, -, tracked, mm', he, h, hsame⟩ |
      ⟨-, tracked, src, dst, newId, handle, mm', he, hloc, hne, hsize, h, hrel, hzero⟩
  · rwa [h]
  · rwa [h]
  · rw [h]
    exact (hmm.touched he).of_sameBlocks hsame
  · rw [h]
    exact (hmm.touched he).of_relocated (AList.lookup_insert _)
      (hmm.own_of_size_ne_zero he hsize hloc).1 hloc hne hrel hzero

/-! ## Evictions -/

/-- Collecting the candidates touches blocks and changes nothing else; each candidate is the copy of
a GPU block. -/
theorem gpuCandidates_spec (env : Environment) (mm : MemoryManager) :
    (∃ rm, (mm.gpuCandidates env).2 = { mm with residencyManager := rm } ∧
      mm.residencyManager.Grows rm) ∧
    ∀ b ∈ (mm.gpuCandidates env).1, ∃ k e, mm.activeBlocks.lookup k = some e ∧
      e.location = .gpu ∧ b.id = e.id := by
  -- what the loop keeps: only touches so far, and only copies of visited GPU blocks
  let motive (acc : List MemoryBlock × MemoryManager) : Prop :=
    (∃ rm, acc.2 = { mm with residencyManager := rm } ∧ mm.residencyManager.Grows rm) ∧
    ∀ b ∈ acc.1, ∃ k e, mm.activeBlocks.lookup k = some e ∧ e.location = .gpu ∧ b.id = e.id
  have hinit : motive ([], mm) :=
    ⟨⟨mm.residencyManager, rfl, .refl _⟩, fun b hb => by cases hb⟩
  refine List.foldlRecOn (motive := motive) _ _ hinit ?_
  rintro ⟨candidates, mm'⟩ ⟨⟨rm, hrm, hgrows⟩, hcopies⟩ ⟨k, e⟩ hentry
  have he : mm.activeBlocks.lookup k = some e :=
    KeyedMap.mem_entries_iff.mp (env.traversal.mem_visit.mp hentry)
  show motive (collectCandidate env (candidates, mm') ⟨k, e⟩)
  unfold collectCandidate
  by_cases hgpu : e.location = .gpu
  · rw [if_pos hgpu]
    refine ⟨⟨rm.touch env.now e.id, ?_, hgrows.trans (rm.grows_touch env.now e.id)⟩, ?_⟩
    · show ({ mm' with residencyManager := _ } : MemoryManager) = _
      simp only at hrm
      rw [hrm]
    · intro b hb
      rcases List.mem_append.mp hb with hb | hb
      · exact hcopies b hb
      · rw [List.mem_singleton.mp hb]
        exact ⟨k, e, he, hgpu, rfl⟩
  · rw [if_neg hgpu]
    exact ⟨⟨rm, hrm, hgrows⟩, hcopies⟩

/-- Before evicting, `enforcePressureLimits` has touched blocks only, and it evicts GPU blocks. -/
theorem toEvict_spec (env : Environment) (mm : MemoryManager) :
    (∃ rm, (mm.toEvict env).2 = { mm with residencyManager := rm } ∧
      mm.residencyManager.Grows rm) ∧
    ∀ id ∈ (mm.toEvict env).1, ∃ k e, mm.activeBlocks.lookup k = some e ∧
      e.location = .gpu ∧ id = e.id := by
  obtain ⟨hstate, hcopies⟩ := gpuCandidates_spec env mm
  unfold toEvict
  split
  next => exact ⟨⟨_, rfl, .refl _⟩, fun id hid => by cases hid⟩
  next =>
    refine ⟨hstate, fun id hid => ?_⟩
    obtain ⟨b, hb, rfl⟩ := EvictionPolicy.exists_of_mem_selectIds hid
    exact hcopies b hb

theorem Tracked.toEvict (hmm : Tracked mm) : Tracked (mm.toEvict env).2 := by
  obtain ⟨⟨rm, hrm, hgrows⟩, -⟩ := toEvict_spec env mm
  rw [hrm]
  refine hmm.of_grows (fun sp => ?_) (inUse_congr rfl rfl) rfl hgrows
  rw [heap_congr rfl rfl]
  exact hmm.heaps sp

/-- One eviction gives up the entry under the id, if there is one. -/
theorem evictBlock_cases (hmm : Tracked mm) (id : ℕ) :
    (mm.activeBlocks.lookup id = none ∧ mm.evictBlock id = mm) ∨
    ∃ e, mm.activeBlocks.lookup id = some e ∧ Dropped mm id e (mm.evictBlock id) := by
  unfold evictBlock
  cases he : mm.activeBlocks.lookup id with
  | none => exact .inl ⟨rfl, rfl⟩
  | some e =>
    have h := hmm.dropped he
    refine .inr ⟨e, rfl, ⟨fun sp => ?_, fun sp id' => ?_, h.lookup, h.info⟩⟩
    · rw [heap_congr rfl rfl]
      exact h.heaps sp
    · rw [inUse_congr rfl rfl]
      exact h.inUse sp id'

theorem Tracked.evictBlock (hmm : Tracked mm) (id : ℕ) : Tracked (mm.evictBlock id) := by
  rcases evictBlock_cases hmm id with ⟨-, h⟩ | ⟨e, he, h⟩
  · rwa [h]
  · exact hmm.of_dropped he h

/-- The evictions under pressure keep the invariant. -/
theorem Tracked.enforcePressureLimits (hmm : Tracked mm) :
    Tracked (mm.enforcePressureLimits env) :=
  List.foldlRecOn (motive := Tracked) _ _ hmm.toEvict fun _ h id _ => h.evictBlock id

end HeteroAccel.Mem.MemoryManager
