import HeteroAccel.Mem.Allocators

/-!
# The memory manager

`MemoryManager` gives out blocks of CPU and GPU memory, tracks them in one map by their ids, moves
them between the two memories and drops GPU blocks when GPU memory is short.

What a call meets outside the manager is its `Environment`: the time, the answers of `malloc` and of
the backend, and the orders that the source leaves open. A block that a function changes through a
reference is returned in front of the new state.
-/

namespace HeteroAccel.Mem

/-- What one call of the manager meets. -/
structure Environment where
  now : ℤ := 0
  /-- The pointer that `malloc` returns. -/
  malloc : ℕ := 0
  /-- The buffer id that the backend's `createBuffer` returns. -/
  createBuffer : ℕ := 0
  /-- The backend's `isAvailable()`. -/
  available : Bool := true
  /-- What the backend's `upload` or `download` returns. -/
  transferOk : Bool := true
  /-- The order in which the map of tracked blocks is visited. -/
  traversal : Traversal (Σ _ : ℕ, MemoryBlock) := .stored
  /-- The order in which blocks of equal scores are sorted. -/
  ties : Traversal ScoredBlock := .stored

/-- What an allocation in one of the memories meets. -/
def Environment.answer (env : Environment) : Space → Answer
  | .cpu => ⟨env.available, env.malloc, env.now⟩
  | .gpu => ⟨env.available, env.createBuffer, env.now⟩

/-- The memory manager: two allocators, the log of transfers, the residency records and the blocks
in use. -/
structure MemoryManager where
  cpu : PooledAllocator := {}
  gpu : PooledAllocator := {}
  transferManager : TransferManager := {}
  residencyManager : ResidencyManager := {}
  gpuPressure : PressureMonitor := {}
  activeBlocks : KeyedMap ℕ MemoryBlock := ∅
  evictionCount : UInt64 := 0

namespace MemoryManager

variable (env : Environment) (mm : MemoryManager)

/-- A block is touched, and gets what the residency manager knows of it. -/
def syncBlockResidency (block : MemoryBlock) : MemoryBlock × MemoryManager :=
  let residencyManager := mm.residencyManager.touch env.now block.id
  let (lastAccessed, accessCount) := (residencyManager.getBlockInfo block.id).getD (0, 0)
  ({ block with
      lastAccessed
      accessCount
      residency := residencyManager.getResidency block.id },
    { mm with residencyManager })

/-- The allocator of a location is asked; there is none for the accelerator and the disk. -/
def allocateInternal (size : UInt64) (loc : MemoryLocation) : MemoryBlock × MemoryManager :=
  match loc with
  | .cpu =>
    let (block, cpu) := mm.cpu.allocate .cpu (env.answer .cpu) size
    (block, { mm with cpu })
  | .gpu =>
    let (block, gpu) := mm.gpu.allocate .gpu (env.answer .gpu) size
    (block, { mm with gpu })
  | _ => ({}, mm)

/-- A block goes back to the allocator of its location, if there is one. -/
def freeInternal (block : MemoryBlock) : MemoryBlock × MemoryManager :=
  match block.location with
  | .cpu =>
    let (block, cpu) := mm.cpu.free .cpu block
    (block, { mm with cpu })
  | .gpu =>
    let (block, gpu) := mm.gpu.free .gpu block
    (block, { mm with gpu })
  | _ => (block, mm)

/-- The end of `allocate`: a new block is registered and tracked under its id. -/
def trackBlock (block : MemoryBlock) (priority : MemoryPriority) : MemoryBlock × MemoryManager :=
  let block := { block with priority }
  let mm := { mm with
    residencyManager := mm.residencyManager.registerBlock env.now block.id
      (if block.location = MemoryLocation.gpu then .gpu else .cpu) }
  let (block, mm) := mm.syncBlockResidency env block
  (block, { mm with activeBlocks := mm.activeBlocks.insert block.id block })

/-- `allocate`: a block where it is preferred, or on the CPU when the GPU refuses. -/
def allocate (size : UInt64) (preferred : MemoryLocation) (priority : MemoryPriority) :
    MemoryBlock × MemoryManager :=
  let (block, mm) := mm.allocateInternal env size preferred
  let (block, mm) :=
    -- the CPU is tried when the GPU refuses
    if !block.isValid && preferred = .gpu then mm.allocateInternal env size .cpu
    else (block, mm)
  if block.isValid then mm.trackBlock env block priority else (block, mm)

/-- A tracked block is given up: its record, its storage and its entry. -/
def dropBlock (id : ℕ) (tracked : MemoryBlock) : MemoryManager :=
  let mm := { mm with residencyManager := mm.residencyManager.unregisterBlock id }
  let (_, mm) := mm.freeInternal tracked
  { mm with activeBlocks := mm.activeBlocks.erase id }

/-- `release`: the block that is tracked under the id is freed, and what the caller holds is
cleared. -/
def release (block : MemoryBlock) : MemoryBlock × MemoryManager :=
  if !block.isValid then (block, mm)
  else
    match mm.activeBlocks.lookup block.id with
    | some tracked => ({}, mm.dropBlock block.id tracked)
    | none => ({}, mm)

/-- The end of a successful move: the old storage is freed, and the entry under `id` is given the
new one. -/
def exchangeStorage (id : ℕ) (tracked newBlock : MemoryBlock) (destination : MemoryLocation) :
    MemoryBlock × MemoryManager :=
  let mm := { mm with
    residencyManager := mm.residencyManager.promote tracked.id destination }
  -- `tracked` is passed by reference: what is freed is overwritten
  let (tracked, mm) := mm.freeInternal tracked
  let (tracked, mm) := mm.syncBlockResidency env { tracked with
    location := destination
    backendHandle := newBlock.backendHandle }
  (tracked, { mm with activeBlocks := mm.activeBlocks.insert id tracked })

/-- The two branches of `move`: storage at the destination, the transfer, and the exchange of the
old storage for the new one. -/
def relocate (block tracked : MemoryBlock) (destination : MemoryLocation)
    (transfer : TransferManager → MemoryBlock → ℕ × TransferManager) :
    Bool × MemoryBlock × MemoryManager :=
  let (newBlock, mm) := mm.allocateInternal env tracked.size destination
  if !newBlock.isValid then (false, block, mm)
  else
    let (th, transferManager) := transfer mm.transferManager newBlock
    let mm := { mm with transferManager }
    if th = 0 then
      let (_, mm) := mm.freeInternal newBlock
      (false, block, mm)
    else (true, mm.exchangeStorage env block.id tracked newBlock destination)

/-- `move`: the block gets a place at the destination, its bytes are copied, and the old place is
freed. -/
def move (block : MemoryBlock) (destination : MemoryLocation) :
    Bool × MemoryBlock × MemoryManager :=
  if !block.isValid || block.location = destination then (true, block, mm)
  else
    match mm.activeBlocks.lookup block.id with
    | none => (false, block, mm)
    | some tracked =>
      let (tracked, mm) := mm.syncBlockResidency env tracked
      let mm := { mm with activeBlocks := mm.activeBlocks.insert block.id tracked }
      if tracked.location = .cpu && destination = .gpu then
        mm.relocate env block tracked .gpu fun tm newBlock =>
          tm.upload env.available env.transferOk tracked.backendHandle newBlock tracked.size
      else if tracked.location = .gpu && destination = .cpu then
        mm.relocate env block tracked .cpu fun tm newBlock =>
          tm.download env.available env.transferOk tracked newBlock.backendHandle tracked.size
      else (false, block, mm)

/-- One round of the loop that collects the GPU blocks; it touches each. -/
def collectCandidate (acc : List MemoryBlock × MemoryManager) (entry : Σ _ : ℕ, MemoryBlock) :
    List MemoryBlock × MemoryManager :=
  if entry.2.location = .gpu then
    let (copy, mm) := acc.2.syncBlockResidency env entry.2
    (acc.1 ++ [copy], mm)
  else acc

/-- The GPU blocks that `enforcePressureLimits` considers. -/
def gpuCandidates : List MemoryBlock × MemoryManager :=
  (env.traversal.visit mm.activeBlocks.entries).foldl (collectCandidate env) ([], mm)

/-- One round of the eviction loop. -/
def evictBlock (id : ℕ) : MemoryManager :=
  match mm.activeBlocks.lookup id with
  | some tracked =>
    let mm := mm.dropBlock id tracked
    { mm with evictionCount := mm.evictionCount + 1 }
  | none => mm

/-- The ids that `enforcePressureLimits` evicts, and the state before it does. The heap is taken to
have the 32 bytes of the four ids. -/
def toEvict : List ℕ × MemoryManager :=
  if mm.gpuPressure.assess mm.gpu.allocator.usedBytes mm.gpu.allocator.capacity = .normal then
    ([], mm)
  else
    let (candidates, mm) := mm.gpuCandidates env
    (EvictionPolicy.selectIds env.now env.ties candidates 4, mm)

/-- `enforcePressureLimits`: the blocks that are selected under the present pressure are evicted in
turn. -/
def enforcePressureLimits : MemoryManager :=
  let (ids, mm) := mm.toEvict env
  ids.foldl evictBlock mm

/-! ## The two memories -/

/-- The allocator and the pool of one of the memories. -/
def heap : Space → PooledAllocator
  | .cpu => mm.cpu
  | .gpu => mm.gpu

/-- The manager with another allocator and pool. -/
def setHeap (sp : Space) (h : PooledAllocator) : MemoryManager :=
  match sp with
  | .cpu => { mm with cpu := h }
  | .gpu => { mm with gpu := h }

/-- The storage in use, by memory and id. -/
def inUse (sp : Space) (id : ℕ) : Option Record := (mm.heap sp).inUse id

variable {env mm} {sp sp' : Space} {h : PooledAllocator}

@[simp]
theorem heap_setHeap_self : (mm.setHeap sp h).heap sp = h := by
  cases sp <;> rfl

/-- A heap that is replaced leaves the other one. -/
theorem heap_setHeap_of_ne (hne : sp' ≠ sp) : (mm.setHeap sp h).heap sp' = mm.heap sp' := by
  cases sp <;> cases sp' <;> first | rfl | exact absurd rfl hne

@[simp]
theorem setHeap_heap : mm.setHeap sp (mm.heap sp) = mm := by
  cases sp <;> rfl

@[simp]
theorem activeBlocks_setHeap : (mm.setHeap sp h).activeBlocks = mm.activeBlocks := by
  cases sp <;> rfl

@[simp]
theorem residencyManager_setHeap : (mm.setHeap sp h).residencyManager = mm.residencyManager := by
  cases sp <;> rfl

/-- An allocation at one of the two locations is one of its heap. -/
theorem allocateInternal_location (size : UInt64) :
    mm.allocateInternal env size sp.location =
      (((mm.heap sp).allocate sp (env.answer sp) size).1,
        mm.setHeap sp ((mm.heap sp).allocate sp (env.answer sp) size).2) := by
  cases sp <;> rfl

/-- A block at one of the two locations is freed by its heap. -/
theorem freeInternal_location {block : MemoryBlock} (hloc : block.location = sp.location) :
    mm.freeInternal block =
      (((mm.heap sp).free sp block).1, mm.setHeap sp ((mm.heap sp).free sp block).2) := by
  cases sp <;> simp only [freeInternal, hloc, Space.location] <;> rfl

end MemoryManager

end HeteroAccel.Mem
