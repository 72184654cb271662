import Mathlib.Logic.Function.Basic
import HeteroAccel.Mem.MemoryTypes

/-!
# Allocators and pools

`CPUAllocator` and `VulkanAllocator` hand out blocks with consecutive ids and keep a record of the
storage behind each; a `MemoryPool` on top of an allocator keeps released blocks of one size for
reuse. The memory manager uses both together, as a `PooledAllocator`.

## Main definitions

* `PooledAllocator.inUse`: the abstract state, a partial map from ids to the storage behind them;
* `PooledAllocator.Valid`: the invariant of the records and of the free list;
* `PooledAllocator.allocate_of_canServe`, `free_of_inUse`: an allocation adds one id to the map, a
  release removes one.
-/

namespace HeteroAccel.Mem

/-- What an allocation meets: whether the backend is available, what `malloc` or `createBuffer`
returns (0 when it refuses), and the time. -/
structure Answer where
  available : Bool := true
  handle : ℕ
  now : ℤ := 0

/-- The storage behind a block: `{ptr, size}` of the CPU allocator, the `Buffer` of the GPU one. -/
structure Record where
  handle : ℕ
  size : UInt64
  deriving DecidableEq, Repr

/-- The state of either allocator. -/
structure Allocator where
  records : KeyedMap ℕ Record := ∅
  nextId : ℕ := 1
  usedBytes : UInt64 := 0
  peakBytes : UInt64 := 0
  allocationCount : UInt64 := 0
  /-- The physical memory, or the device-local heaps, found at construction. -/
  capacity : UInt64 := 0

namespace Allocator

variable (a : Allocator)

/-- The part of `allocate` that both allocators share: the storage is recorded under the next
id. -/
def record (sp : Space) (ans : Answer) (size : UInt64) : MemoryBlock × Allocator :=
  let usedBytes := a.usedBytes + size
  ({ id := a.nextId
     size
     location := sp.location
     state := .resident
     residency := sp.residency
     backendHandle := ans.handle
     lastAccessed := ans.now },
   { a with
     records := a.records.insert a.nextId ⟨ans.handle, size⟩
     nextId := a.nextId + 1
     usedBytes
     peakBytes := if usedBytes > a.peakBytes then usedBytes else a.peakBytes
     allocationCount := a.allocationCount + 1 })

/-- The part of `free` that both allocators share; `freed` is the number of bytes it takes off
`usedBytes`. -/
def remove (freed : Record → MemoryBlock → UInt64) (block : MemoryBlock) :
    MemoryBlock × Allocator :=
  if !block.isValid then (block, a)
  else
    match a.records.lookup block.id with
    | none => (block, a) -- a double free or an unknown id is ignored
    | some r => ({}, { a with
        usedBytes := a.usedBytes - freed r block
        records := a.records.erase block.id })

end Allocator

/-- The CPU allocator gives a block, unless the size is 0 or the host has no memory. -/
def CPUAllocator.allocate (ans : Answer) (a : Allocator) (size : UInt64) :
    MemoryBlock × Allocator :=
  if size = 0 then ({}, a)
  else if ans.handle = 0 then ({}, a)
  else a.record .cpu ans size

/-- It takes a block back and subtracts the size that it has on record. -/
def CPUAllocator.free (a : Allocator) (block : MemoryBlock) : MemoryBlock × Allocator :=
  a.remove (fun r _ => r.size) block

/-- The Vulkan allocator gives a block, unless there is no device, the size is 0 or the device has
no memory. -/
def VulkanAllocator.allocate (ans : Answer) (a : Allocator) (size : UInt64) :
    MemoryBlock × Allocator :=
  if !ans.available || size = 0 then ({}, a)
  else if ans.handle = 0 then ({}, a)
  else a.record .gpu ans size

/-- It takes a block back and subtracts the size that the block names. -/
def VulkanAllocator.free (a : Allocator) (block : MemoryBlock) : MemoryBlock × Allocator :=
  a.remove (fun _ b => b.size) block

namespace Space

/-- The `allocate` of the memory's allocator. -/
def allocate : Space → Answer → Allocator → UInt64 → MemoryBlock × Allocator
  | .cpu => CPUAllocator.allocate
  | .gpu => VulkanAllocator.allocate

/-- The `free` of the memory's allocator. -/
def free : Space → Allocator → MemoryBlock → MemoryBlock × Allocator
  | .cpu => CPUAllocator.free
  | .gpu => VulkanAllocator.free

/-- Whether new storage of the size is granted. Only the GPU needs the backend. -/
def grants (sp : Space) (ans : Answer) (size : UInt64) : Bool :=
  size ≠ 0 && ans.handle ≠ 0 && (sp = .cpu || ans.available)

theorem allocate_eq (sp : Space) (ans : Answer) (a : Allocator) (size : UInt64) :
    sp.allocate ans a size = if sp.grants ans size then a.record sp ans size else ({}, a) := by
  rcases sp with - | -
  · unfold allocate CPUAllocator.allocate grants
    split_ifs <;> simp_all
  · unfold allocate VulkanAllocator.allocate grants
    cases havail : ans.available <;> split_ifs <;> simp_all

/-- A block that is not on record is not freed. -/
theorem free_of_lookup_eq_none (sp : Space) {a : Allocator} {block : MemoryBlock}
    (h : a.records.lookup block.id = none) : sp.free a block = (block, a) := by
  cases sp <;> simp [free, CPUAllocator.free, VulkanAllocator.free, Allocator.remove, h]

/-- A block that is on record is freed: the caller's block becomes invalid, and the record goes. -/
theorem free_of_lookup_eq_some (sp : Space) {a : Allocator} {block : MemoryBlock} {r : Record}
    (hid : block.id ≠ 0) (h : a.records.lookup block.id = some r) :
    (sp.free a block).1 = {} ∧ (sp.free a block).2.records = a.records.erase block.id ∧
      (sp.free a block).2.nextId = a.nextId := by
  have hvalid : block.isValid = true := MemoryBlock.isValid_iff.mpr hid
  cases sp <;> simp [free, CPUAllocator.free, VulkanAllocator.free, Allocator.remove, h, hvalid]

end Space

/-! ## Pools -/

/-- The size of the pooled blocks, 4 MiB. -/
def poolBlockSize : UInt64 := 4 * 1024 * 1024

/-- The free list has the block released last in front. -/
structure MemoryPool where
  blockSize : UInt64 := poolBlockSize
  maxFree : ℕ := 16
  freeList : List MemoryBlock := []
  reuseCount : UInt64 := 0
  activeCount : UInt64 := 0
  totalCreated : UInt64 := 0

namespace MemoryPool

variable (p : MemoryPool)

/-- `acquire`, over the `allocate` of the pool's allocator. -/
def acquire (allocate : UInt64 → MemoryBlock × Allocator) (a : Allocator) :
    MemoryBlock × MemoryPool × Allocator :=
  match p.freeList with
  | b :: freeList =>
    ({ b with state := .resident, accessCount := 0 },
      { p with
        freeList
        reuseCount := p.reuseCount + 1
        activeCount := p.activeCount + 1 }, a)
  | [] =>
    let (b, a) := allocate p.blockSize
    if b.isValid then
      (b, { p with
        activeCount := p.activeCount + 1
        totalCreated := p.totalCreated + 1 }, a)
    else (b, p, a)

/-- `release`, over the `free` of the pool's allocator. -/
def release (free : MemoryBlock → MemoryBlock × Allocator) (a : Allocator) (block : MemoryBlock) :
    MemoryBlock × MemoryPool × Allocator :=
  if !block.isValid then (block, p, a)
  else if p.freeList.length < p.maxFree then
    ({}, { p with
      activeCount := p.activeCount - 1
      freeList := { block with state := .free } :: p.freeList }, a)
  else ({}, { p with activeCount := p.activeCount - 1 }, (free block).2)

end MemoryPool

/-! ## An allocator with its pool -/

/-- An allocator of the manager and the 4 MiB pool on top of it. -/
structure PooledAllocator where
  allocator : Allocator := {}
  pool : MemoryPool := {}

namespace PooledAllocator

variable (h : PooledAllocator)

/-- `allocateInternal` at the location of `sp`. -/
def allocate (sp : Space) (ans : Answer) (size : UInt64) : MemoryBlock × PooledAllocator :=
  if size = poolBlockSize then
    let (b, pool, allocator) := h.pool.acquire (sp.allocate ans h.allocator) h.allocator
    (b, { allocator, pool })
  else
    let (b, allocator) := sp.allocate ans h.allocator size
    (b, { h with allocator })

/-- `freeInternal` at the location of `sp`. -/
def free (sp : Space) (block : MemoryBlock) : MemoryBlock × PooledAllocator :=
  if block.size = poolBlockSize then
    let (b, pool, allocator) := h.pool.release (sp.free h.allocator) h.allocator block
    (b, { allocator, pool })
  else
    let (b, allocator) := sp.free h.allocator block
    (b, { h with allocator })

/-- The ids of the free list. -/
def freeIds : List ℕ := h.pool.freeList.map MemoryBlock.id

/-- The id that the next allocation of a size gives its block. -/
def nextBlockId (size : UInt64) : ℕ :=
  if size = poolBlockSize then (h.freeIds.head?).getD h.allocator.nextId else h.allocator.nextId

/-- Whether an allocation of a size succeeds: from the free list, or with new storage. -/
def canServe (sp : Space) (ans : Answer) (size : UInt64) : Bool :=
  (size = poolBlockSize && !h.freeIds.isEmpty) || sp.grants ans size

/-- The storage behind the ids that callers hold: what is on record and not in the free list. -/
def inUse (id : ℕ) : Option Record :=
  if id ∈ h.freeIds then none else h.allocator.records.lookup id

/-- The invariant of an allocator and its pool. -/
structure Valid (sp : Space) (h : PooledAllocator) : Prop where
  blockSize : h.pool.blockSize = poolBlockSize
  nextId_pos : 0 < h.allocator.nextId
  /-- The ids on record have been handed out. -/
  ids : ∀ id r, h.allocator.records.lookup id = some r → 0 < id ∧ id < h.allocator.nextId
  /-- Different ids have different storage. -/
  handles : ∀ id id' r r', h.allocator.records.lookup id = some r →
    h.allocator.records.lookup id' = some r' → r.handle = r'.handle → id = id'
  /-- Free blocks are on record. -/
  free : ∀ b ∈ h.pool.freeList, b.location = sp.location ∧ b.size = poolBlockSize ∧
    h.allocator.records.lookup b.id = some ⟨b.backendHandle, b.size⟩
  nodup : h.freeIds.Nodup

/-- The storage that `malloc` or `createBuffer` returns is not in use. -/
def Fresh (ans : Answer) : Prop :=
  ∀ id r, h.allocator.records.lookup id = some r → r.handle ≠ ans.handle

/-- A newly constructed allocator and pool. -/
def new (capacity : UInt64) : PooledAllocator := { allocator := { capacity } }

theorem valid_new (sp : Space) (capacity : UInt64) : (new capacity).Valid sp where
  blockSize := rfl
  nextId_pos := Nat.one_pos
  ids _ _ h := by cases h
  handles _ _ _ _ h := by cases h
  free _ h := by cases h
  nodup := List.nodup_nil

variable {h} {sp : Space} {ans : Answer} {size : UInt64} {block : MemoryBlock}

/-- What is in use is on record and not free. -/
theorem inUse_eq_some {id : ℕ} {r : Record} :
    h.inUse id = some r ↔ id ∉ h.freeIds ∧ h.allocator.records.lookup id = some r := by
  unfold inUse
  split <;> simp_all

/-- Ids in use are positive. -/
theorem Valid.pos_of_inUse (hv : h.Valid sp) {id : ℕ} {r : Record} (hid : h.inUse id = some r) :
    0 < id :=
  (hv.ids id r (inUse_eq_some.mp hid).2).1

/-- Different ids in use have different storage. -/
theorem Valid.eq_of_inUse (hv : h.Valid sp) {id id' : ℕ} {r r' : Record}
    (hid : h.inUse id = some r) (hid' : h.inUse id' = some r') (heq : r.handle = r'.handle) :
    id = id' :=
  hv.handles id id' r r' (inUse_eq_some.mp hid).2 (inUse_eq_some.mp hid').2 heq

/-- The next id is not on record. -/
theorem Valid.lookup_nextId (hv : h.Valid sp) :
    h.allocator.records.lookup h.allocator.nextId = none := by
  by_contra hne
  obtain ⟨r, hr⟩ := Option.ne_none_iff_exists'.mp hne
  exact absurd (hv.ids _ _ hr).2 (lt_irrefl _)

/-- The ids of free blocks are on record. -/
theorem Valid.exists_of_mem_freeIds (hv : h.Valid sp) {id : ℕ} (hid : id ∈ h.freeIds) :
    ∃ r, h.allocator.records.lookup id = some r := by
  obtain ⟨b, hb, rfl⟩ := List.mem_map.mp hid
  exact ⟨_, (hv.free b hb).2.2⟩

/-- The next id is not the id of a free block. -/
theorem Valid.nextId_notMem (hv : h.Valid sp) : h.allocator.nextId ∉ h.freeIds := by
  intro hmem
  obtain ⟨r, hr⟩ := hv.exists_of_mem_freeIds hmem
  rw [hv.lookup_nextId] at hr
  cases hr

/-! ### Allocation -/

/-- The block and the state that an allocation leads to, in terms of the map of storage in use. -/
structure Granted (sp : Space) (h : PooledAllocator) (size : UInt64) (b : MemoryBlock)
    (h' : PooledAllocator) : Prop where
  valid : h'.Valid sp
  id : b.id = h.nextBlockId size
  pos : 0 < b.id
  location : b.location = sp.location
  size_eq : b.size = size
  /-- The id was not in use. -/
  unused : h.inUse b.id = none
  inUse : h'.inUse = Function.update h.inUse b.id (some ⟨b.backendHandle, size⟩)

/-- New storage is recorded under the next id. -/
theorem Valid.granted_record (hv : h.Valid sp) (hfresh : h.Fresh ans) (pool : MemoryPool)
    (hpool : pool.freeList = h.pool.freeList) (hblock : pool.blockSize = h.pool.blockSize)
    (hnext : h.nextBlockId size = h.allocator.nextId) :
    Granted sp h size (h.allocator.record sp ans size).1
      ⟨(h.allocator.record sp ans size).2, pool⟩ := by
  have hlookup : ∀ id, (h.allocator.records.insert h.allocator.nextId
      ⟨ans.handle, size⟩).lookup id =
        if id = h.allocator.nextId then some ⟨ans.handle, size⟩
        else h.allocator.records.lookup id := fun id => KeyedMap.lookup_insert_eq_ite
  have hids : freeIds ⟨(h.allocator.record sp ans size).2, pool⟩ = h.freeIds := by
    rw [freeIds, hpool, freeIds]
  have hvalid : Valid sp ⟨(h.allocator.record sp ans size).2, pool⟩ := by
    constructor
    · exact hblock.trans hv.blockSize
    · exact Nat.succ_pos _
    · intro id r hr
      rw [Allocator.record, hlookup] at hr
      split at hr
      next hid => exact ⟨hid ▸ hv.nextId_pos, hid ▸ Nat.lt_succ_self _⟩
      next => exact (hv.ids id r hr).imp_right Nat.lt_succ_of_lt
    · -- the new storage differs from all storage on record
      intro id id' r r' hr hr' heq
      rw [Allocator.record, hlookup] at hr hr'
      split at hr <;> split at hr'
      next hid hid' => rw [hid, hid']
      next => exact absurd (heq ▸ congrArg Record.handle (Option.some.inj hr)).symm
                (hfresh id' r' hr')
      next => exact absurd (heq.trans (congrArg Record.handle (Option.some.inj hr')).symm)
                (hfresh id r hr)
      next => exact hv.handles id id' r r' hr hr' heq
    · intro b hb
      rw [hpool] at hb
      obtain ⟨hloc, hsize, hrecord⟩ := hv.free b hb
      refine ⟨hloc, hsize, ?_⟩
      rw [Allocator.record, hlookup, if_neg, hrecord]
      rintro hid
      rw [hid, hv.lookup_nextId] at hrecord
      cases hrecord
    · rw [hids]
      exact hv.nodup
  refine ⟨hvalid, hnext.symm, hv.nextId_pos, rfl, rfl, ?_, ?_⟩
  · show h.inUse h.allocator.nextId = none
    rw [inUse, if_neg hv.nextId_notMem, hv.lookup_nextId]
  · funext id
    show (if id ∈ freeIds ⟨(h.allocator.record sp ans size).2, pool⟩ then none
      else (h.allocator.records.insert h.allocator.nextId ⟨ans.handle, size⟩).lookup id) =
        Function.update h.inUse h.allocator.nextId (some ⟨ans.handle, size⟩) id
    rw [hids, hlookup]
    by_cases hid : id = h.allocator.nextId
    · subst hid
      rw [if_neg hv.nextId_notMem, if_pos rfl, Function.update_self]
    · rw [if_neg hid, Function.update_of_ne hid]
      rfl

/-- The block in front of the free list is handed out again. -/
theorem Valid.granted_reuse (hv : h.Valid sp) {b : MemoryBlock} {freeList : List MemoryBlock}
    (hfree : h.pool.freeList = b :: freeList) (pool : MemoryPool)
    (hpool : pool.freeList = freeList) (hblock : pool.blockSize = h.pool.blockSize) :
    Granted sp h poolBlockSize { b with state := .resident, accessCount := 0 }
      ⟨h.allocator, pool⟩ := by
  have hfreeIds : h.freeIds = b.id :: freeList.map MemoryBlock.id := by
    rw [freeIds, hfree, List.map_cons]
  have hids : freeIds ⟨h.allocator, pool⟩ = freeList.map MemoryBlock.id := by rw [freeIds, hpool]
  obtain ⟨hloc, hsize, hrecord⟩ := hv.free b (by simp [hfree])
  have hnodup := hfreeIds ▸ hv.nodup
  have hvalid : Valid sp ⟨h.allocator, pool⟩ := by
    refine ⟨hblock.trans hv.blockSize, hv.nextId_pos, hv.ids, hv.handles, fun b' hb' => ?_, ?_⟩
    · exact hv.free b' (by rw [hfree]; exact List.mem_cons_of_mem _ (hpool ▸ hb'))
    · rw [hids]
      exact hnodup.of_cons
  refine ⟨hvalid, ?_, (hv.ids _ _ hrecord).1, hloc, hsize, ?_, ?_⟩
  · simp [nextBlockId, hfreeIds]
  · simp [inUse, hfreeIds]
  · -- the id in front leaves the free list, all others keep their place
    funext id
    show inUse ⟨h.allocator, pool⟩ id =
      Function.update h.inUse b.id (some ⟨b.backendHandle, poolBlockSize⟩) id
    rw [inUse, hids]
    by_cases hid : id = b.id
    · subst hid
      rw [if_neg hnodup.notMem, Function.update_self, ← hsize]
      exact hrecord
    · rw [Function.update_of_ne hid, inUse, hfreeIds]
      simp [hid]

/-- An allocation that can be served returns a block with an id that was not in use. -/
theorem Valid.allocate_of_canServe (hv : h.Valid sp) (hfresh : h.Fresh ans)
    (hserve : h.canServe sp ans size = true) :
    Granted sp h size (h.allocate sp ans size).1 (h.allocate sp ans size).2 := by
  unfold allocate
  by_cases hsize : size = poolBlockSize
  · subst hsize
    rw [if_pos rfl]
    unfold MemoryPool.acquire
    cases hfree : h.pool.freeList with
    | cons b freeList => exact hv.granted_reuse hfree _ rfl rfl
    | nil =>
      have hfreeIds : h.freeIds = [] := by simp [freeIds, hfree]
      have hgrants : sp.grants ans poolBlockSize = true := by
        simpa [canServe, hfreeIds] using hserve
      have hvalid : (h.allocator.record sp ans poolBlockSize).1.isValid = true :=
        MemoryBlock.isValid_iff.mpr hv.nextId_pos.ne'
      simp only [hv.blockSize, Space.allocate_eq, hgrants, hvalid, if_true]
      exact hv.granted_record hfresh _ hfree.symm hv.blockSize.symm
        (by simp [nextBlockId, hfreeIds])
  · have hgrants : sp.grants ans size = true := by simpa [canServe, hsize] using hserve
    rw [if_neg hsize]
    simp only [Space.allocate_eq, hgrants, if_true]
    exact hv.granted_record hfresh _ rfl rfl (by simp [nextBlockId, hsize])

/-- An allocation that cannot be served returns the invalid block and changes nothing. -/
theorem Valid.allocate_of_not_canServe (hv : h.Valid sp) (hserve : h.canServe sp ans size = false) :
    h.allocate sp ans size = ({}, h) := by
  rw [canServe, Bool.or_eq_false_iff] at hserve
  obtain ⟨hpool, hgrants⟩ := hserve
  unfold allocate
  by_cases hsize : size = poolBlockSize
  · subst hsize
    have hfree : h.pool.freeList = [] := by
      simpa [freeIds] using hpool
    rw [if_pos rfl]
    simp [MemoryPool.acquire, hfree, hv.blockSize, Space.allocate_eq, hgrants]
  · rw [if_neg hsize]
    simp [Space.allocate_eq, hgrants]

/-! ### Release -/

/-- Freeing the invalid block changes nothing. -/
theorem free_of_id_eq_zero (hid : block.id = 0) (hv : h.Valid sp) :
    h.free sp block = (block, h) := by
  have hlookup : h.allocator.records.lookup block.id = none := by
    by_contra hne
    obtain ⟨r, hr⟩ := Option.ne_none_iff_exists'.mp hne
    exact absurd (hv.ids _ _ hr).1 (by omega)
  unfold free
  split
  next => simp [MemoryPool.release, hid]
  next => rw [sp.free_of_lookup_eq_none hlookup]

/-- The records without one of them keep the invariant, if the free list does not need it. -/
theorem Valid.erase (hv : h.Valid sp) {id : ℕ} (hid : id ∉ h.freeIds) {a : Allocator}
    (ha : a.records = h.allocator.records.erase id) (hnext : a.nextId = h.allocator.nextId)
    {pool : MemoryPool} (hpool : pool.freeList = h.pool.freeList)
    (hblock : pool.blockSize = h.pool.blockSize) :
    Valid sp ⟨a, pool⟩ ∧ inUse ⟨a, pool⟩ = Function.update h.inUse id none := by
  have hlookup : ∀ id', a.records.lookup id' =
      if id' = id then none else h.allocator.records.lookup id' :=
    fun id' => ha ▸ KeyedMap.lookup_erase_eq_ite
  -- what is left was on record before
  have hold : ∀ id' r, a.records.lookup id' = some r → h.allocator.records.lookup id' = some r := by
    intro id' r hr
    rw [hlookup] at hr
    split at hr
    next => cases hr
    next => exact hr
  have hids : freeIds ⟨a, pool⟩ = h.freeIds := by rw [freeIds, hpool, freeIds]
  constructor
  · refine ⟨hblock.trans hv.blockSize, ?_, fun id' r hr => ?_, fun id₁ id₂ r₁ r₂ h₁ h₂ => ?_,
      fun b hb => ?_, hids ▸ hv.nodup⟩
    · exact hnext ▸ hv.nextId_pos
    · exact hnext ▸ hv.ids id' r (hold id' r hr)
    · exact hv.handles id₁ id₂ r₁ r₂ (hold _ _ h₁) (hold _ _ h₂)
    · rw [hpool] at hb
      obtain ⟨hloc, hsize, hrecord⟩ := hv.free b hb
      have hne : b.id ≠ id := fun heq => hid (heq ▸ List.mem_map_of_mem hb)
      exact ⟨hloc, hsize, by rw [hlookup, if_neg hne, hrecord]⟩
  · funext id'
    rw [inUse, hids, hlookup]
    by_cases heq : id' = id
    · subst heq
      rw [if_neg hid, if_pos rfl, Function.update_self]
    · rw [if_neg heq, Function.update_of_ne heq, inUse]

/-- Freeing a block in use invalidates the caller's block and ends the use of its id, whether the
storage goes to the free list or back to the system. -/
theorem Valid.free_of_inUse (hv : h.Valid sp) (hloc : block.location = sp.location)
    (huse : h.inUse block.id = some ⟨block.backendHandle, block.size⟩) :
    (h.free sp block).1 = {} ∧ (h.free sp block).2.Valid sp ∧
      (h.free sp block).2.inUse = Function.update h.inUse block.id none := by
  obtain ⟨hfree, hrecord⟩ := inUse_eq_some.mp huse
  have hid : block.id ≠ 0 := (hv.pos_of_inUse huse).ne'
  obtain ⟨hblock, hrecords, hnext⟩ := sp.free_of_lookup_eq_some hid hrecord
  unfold PooledAllocator.free
  by_cases hsize : block.size = poolBlockSize
  · rw [if_pos hsize]
    unfold MemoryPool.release
    rw [if_neg (by simpa using hid)]
    -- a block of the pool's size stays on record as long as the pool has room
    by_cases hroom : h.pool.freeList.length < h.pool.maxFree
    · rw [if_pos hroom]
      refine ⟨rfl, ⟨hv.blockSize, hv.nextId_pos, hv.ids, hv.handles, ?_, ?_⟩, ?_⟩
      · intro b hb
        rcases List.mem_cons.mp hb with rfl | hb
        · exact ⟨hloc, hsize, hrecord⟩
        · exact hv.free b hb
      · exact List.nodup_cons.mpr ⟨hfree, hv.nodup⟩
      · -- the record stays, but now it is one of a free block
        funext id
        by_cases heq : id = block.id
        · subst heq
          rw [Function.update_self]
          exact if_pos (List.mem_cons_self)
        · rw [Function.update_of_ne heq]
          simp [inUse, freeIds, heq]
    · rw [if_neg hroom]
      exact ⟨rfl, hv.erase hfree hrecords hnext rfl rfl⟩
  · rw [if_neg hsize]
    exact ⟨hblock, hv.erase hfree hrecords hnext rfl rfl⟩

end PooledAllocator

end HeteroAccel.Mem
