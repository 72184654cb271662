import HeteroAccel.Lib.KeyedMap

/-!
# Memory blocks and the bookkeeping around them

The vocabulary of the memory manager (`MemoryBlock` and its enumerations) and the parts of it that
own no storage: `ResidencyManager`, `TransferManager`, `PressureMonitor` and `EvictionPolicy`.

Clock readings are nanoseconds. Ratios and scores are exact rational numbers. Ids and access counts
are natural numbers: a counter that starts at zero and is only incremented does not reach `2 ^ 64`.
-/

namespace HeteroAccel.Mem

/-- Where a block lies. -/
inductive MemoryLocation where
  | cpu | gpu | accelerator | disk
  deriving DecidableEq, Repr

/-- The state of a block. Nothing sets the last two. -/
inductive MemoryState where
  | free | resident | loading | evicting
  deriving DecidableEq, Repr

/-- How important a block is; a critical one is never selected for eviction. -/
inductive MemoryPriority where
  | critical | high | normal | low
  deriving DecidableEq, Repr

/-- Where the residency manager believes a block to be. -/
inductive Residency where
  | disk | cpu | gpu | cpuAndGpu
  deriving DecidableEq, Repr

/-- How full a memory is. -/
inductive PressureLevel where
  | normal | warning | high | critical
  deriving DecidableEq, Repr

/-- The descriptor of one allocation. The default block is the invalid one. -/
structure MemoryBlock where
  id : ℕ := 0
  size : UInt64 := 0
  location : MemoryLocation := .cpu
  state : MemoryState := .free
  priority : MemoryPriority := .normal
  residency : Residency := .cpu
  lastAccessed : ℤ := 0
  accessCount : ℕ := 0
  /-- The raw pointer of a CPU block, the buffer id of a GPU block. -/
  backendHandle : ℕ := 0
  deriving DecidableEq, Repr

/-- Id 0 marks a block that denotes no storage. -/
def MemoryBlock.isValid (block : MemoryBlock) : Bool := block.id ≠ 0

/-- A block is valid exactly when it has an id. -/
@[simp]
theorem MemoryBlock.isValid_iff {block : MemoryBlock} : block.isValid = true ↔ block.id ≠ 0 := by
  simp [isValid]

/-- A block is invalid exactly when it has no id. -/
@[simp]
theorem MemoryBlock.isValid_eq_false {block : MemoryBlock} :
    block.isValid = false ↔ block.id = 0 := by
  simp [isValid]

/-- The two memories that the manager allocates from. -/
inductive Space where
  | cpu | gpu
  deriving DecidableEq, Repr

namespace Space

/-- The location of the blocks of a memory. -/
def location : Space → MemoryLocation
  | .cpu => .cpu
  | .gpu => .gpu

/-- The residency of a block that is in one memory only. -/
def residency : Space → Residency
  | .cpu => .cpu
  | .gpu => .gpu

/-- The two memories have two locations. -/
@[simp]
theorem location_inj {sp sp' : Space} : sp.location = sp'.location ↔ sp = sp' := by
  cases sp <;> cases sp' <;> decide

end Space

/-! ## Residency -/

/-- What the residency manager knows of a block. -/
structure Meta where
  residency : Residency := .cpu
  lastAccessed : ℤ := 0
  accessCount : ℕ := 0
  deriving DecidableEq, Repr

/-- What the residency manager keeps of the blocks it knows. -/
structure ResidencyManager where
  records : KeyedMap ℕ Meta := ∅

namespace ResidencyManager

variable (rm : ResidencyManager)

/-- A block gets a new record, also if it has one. -/
def registerBlock (now : ℤ) (id : ℕ) (initialResidency : Residency) : ResidencyManager :=
  ⟨rm.records.insert id ⟨initialResidency, now, 0⟩⟩

/-- The record of a block is erased. -/
def unregisterBlock (id : ℕ) : ResidencyManager := ⟨rm.records.erase id⟩

/-- The residency of a block that has also been copied to `target`. -/
def promoted (residency : Residency) (target : MemoryLocation) : Residency :=
  match target, residency with
  | .gpu, .cpu => .cpuAndGpu
  | .gpu, .disk => .gpu
  | .cpu, .disk => .cpu
  | .cpu, .gpu => .cpuAndGpu
  | _, residency => residency

/-- The residency of a block after it has been brought to a place; an unknown block is ignored. -/
def promote (id : ℕ) (target : MemoryLocation) : ResidencyManager :=
  match rm.records.lookup id with
  | none => rm
  | some m => ⟨rm.records.insert id { m with residency := promoted m.residency target }⟩

/-- A block without a record counts as being on disk. -/
def getResidency (id : ℕ) : Residency := ((rm.records.lookup id).map Meta.residency).getD .disk

/-- An access to a block; an unknown block is ignored. -/
def touch (now : ℤ) (id : ℕ) : ResidencyManager :=
  match rm.records.lookup id with
  | none => rm
  | some m => ⟨rm.records.insert id
      { m with lastAccessed := now, accessCount := m.accessCount + 1 }⟩

/-- The time of the last access and the number of accesses. -/
def getBlockInfo (id : ℕ) : Option (ℤ × ℕ) :=
  (rm.records.lookup id).map fun m => (m.lastAccessed, m.accessCount)

/-- A touch keeps the residency of every block and never lowers its count. -/
theorem lookup_touch (now : ℤ) (id id' : ℕ) :
    (rm.touch now id).records.lookup id' =
      if id' = id then
        (rm.records.lookup id).map fun m =>
          { m with lastAccessed := now, accessCount := m.accessCount + 1 }
      else rm.records.lookup id' := by
  unfold touch
  split
  next h =>
    split
    next heq => rw [heq, h]; rfl
    next => rfl
  next m h =>
    show (rm.records.insert id _).lookup id' = _
    rw [KeyedMap.lookup_insert_eq_ite, h]
    rfl

/-- Touching a block without a record changes nothing. -/
theorem touch_of_lookup_eq_none (now : ℤ) {id : ℕ} (h : rm.records.lookup id = none) :
    rm.touch now id = rm := by
  unfold touch
  rw [h]

/-- A promotion changes no other block's record. -/
theorem lookup_promote_of_ne {id id' : ℕ} {target : MemoryLocation} (h : id' ≠ id) :
    (rm.promote id target).records.lookup id' = rm.records.lookup id' := by
  unfold promote
  split
  next => rfl
  next m _ => exact AList.lookup_insert_ne h

end ResidencyManager

/-! ## Transfers -/

/-- One transfer, as it is logged. -/
structure TransferRecord where
  id : ℕ
  source : MemoryLocation
  destination : MemoryLocation
  bytes : UInt64
  success : Bool
  deriving DecidableEq, Repr

/-- The log of transfers, with the bytes of the two directions in 64 bits. -/
structure TransferManager where
  records : List TransferRecord := []
  nextId : ℕ := 1
  bytesUploaded : UInt64 := 0
  bytesDownloaded : UInt64 := 0

namespace TransferManager

variable (tm : TransferManager)

/-- The record of a transfer that the backend has attempted, and its handle: 0 when it failed. -/
def finishRecord (source destination : MemoryLocation) (ok : Bool) (size : UInt64) :
    ℕ × TransferManager :=
  (if ok then tm.nextId else 0,
    { tm with
      records := tm.records ++ [⟨tm.nextId, source, destination, size, ok⟩]
      nextId := tm.nextId + 1 })

/-- `upload`: `ok` is what the backend's `upload` returns. -/
def upload (available ok : Bool) (cpuPtr : ℕ) (gpuBlock : MemoryBlock) (size : UInt64) :
    ℕ × TransferManager :=
  if cpuPtr = 0 || !gpuBlock.isValid || size = 0 then (0, tm)
  else if !available then (0, tm)
  else if ok then
    { tm with bytesUploaded := tm.bytesUploaded + size }.finishRecord .cpu .gpu ok size
  else tm.finishRecord .cpu .gpu ok size

/-- `download`: `ok` is what the backend's `download` returns. -/
def download (available ok : Bool) (gpuBlock : MemoryBlock) (cpuPtr : ℕ) (size : UInt64) :
    ℕ × TransferManager :=
  if cpuPtr = 0 || !gpuBlock.isValid || size = 0 then (0, tm)
  else if !available then (0, tm)
  else if ok then
    { tm with bytesDownloaded := tm.bytesDownloaded + size }.finishRecord .gpu .cpu ok size
  else tm.finishRecord .gpu .cpu ok size

/-- Only a transfer that an available backend has performed has a handle. -/
theorem upload_ne_zero {available ok : Bool} {cpuPtr : ℕ} {gpuBlock : MemoryBlock} {size : UInt64}
    (h : (tm.upload available ok cpuPtr gpuBlock size).1 ≠ 0) : available = true ∧ ok = true := by
  unfold upload finishRecord at h
  split_ifs at h <;> simp_all

/-- A download that is logged had a device, and no failure. -/
theorem download_ne_zero {available ok : Bool} {cpuPtr : ℕ} {gpuBlock : MemoryBlock}
    {size : UInt64} (h : (tm.download available ok gpuBlock cpuPtr size).1 ≠ 0) :
    available = true ∧ ok = true := by
  unfold download finishRecord at h
  split_ifs at h <;> simp_all

end TransferManager

/-! ## Pressure and eviction -/

/-- The thresholds of a pressure monitor, as shares of the capacity. -/
structure PressureMonitor where
  warn : ℚ := 70 / 100
  high : ℚ := 85 / 100
  crit : ℚ := 95 / 100

/-- The pressure at a ratio of used to total bytes. -/
def PressureMonitor.assess (pm : PressureMonitor) (usedBytes capacityBytes : UInt64) :
    PressureLevel :=
  if capacityBytes = 0 then .normal
  else
    let ratio : ℚ := usedBytes.toNat / capacityBytes.toNat
    if ratio ≥ pm.crit then .critical
    else if ratio ≥ pm.high then .high
    else if ratio ≥ pm.warn then .warning
    else .normal

/-! ## Reservations -/

/-- What a reservation throws. -/
inductive ReserveError where
  | lengthError | badAlloc
  deriving DecidableEq, Repr

/-- The heap: the bytes it gives at once, which are those of one object at most. -/
structure Heap where
  bytes : ℕ
  bytes_lt : bytes < 2 ^ 63

/-- `std::vector::reserve` for `count` elements of `width` bytes. -/
def Heap.reserve (heap : Heap) (width count : ℕ) : Except ReserveError Unit :=
  if (2 ^ 63 - 1) / width < count then .error .lengthError
  else if heap.bytes < width * count then .error .badAlloc
  else .ok ()

/-- A reservation succeeds when the heap has the bytes. -/
theorem Heap.reserve_eq_ok_iff {heap : Heap} {width count : ℕ} (hwidth : 0 < width) :
    heap.reserve width count = .ok () ↔ width * count ≤ heap.bytes := by
  have hbytes := heap.bytes_lt
  have hlength : (2 ^ 63 - 1) / width < count ↔ 2 ^ 63 - 1 < width * count := by
    rw [Nat.div_lt_iff_lt_mul hwidth, Nat.mul_comm]
  rw [reserve]
  split_ifs with hlong hlarge
  · -- a vector that is too long takes more bytes than there are
    rw [hlength] at hlong
    exact iff_of_false nofun (by omega)
  · exact iff_of_false nofun (by omega)
  · exact iff_of_true rfl (by omega)

/-! ## Selection -/

/-- A candidate for eviction with its score. -/
structure ScoredBlock where
  id : ℕ
  score : ℚ
  priority : MemoryPriority
  deriving DecidableEq, Repr

namespace EvictionPolicy

/-- The bytes of a scored block in its vector. -/
def scoredBlockBytes : ℕ := 24

/-- The bytes of an id. -/
def idBytes : ℕ := 8

/-- What the priority contributes to a score. -/
def priorityScore : MemoryPriority → ℚ
  | .low => 0
  | .normal => 1000
  | .high => 10000
  | .critical => 100000

/-- The score of a block: the lowest is evicted first. -/
def scoreBlock (now : ℤ) (block : MemoryBlock) : ℚ :=
  let age := (now - block.lastAccessed).tdiv 1000000
  let agePenalty : ℚ := age * (1 / 1000)
  priorityScore block.priority - if agePenalty > 900 then 900 else agePenalty

/-- Up to `count` ids in the order of the scores, without the critical blocks. `std::sort` leaves
the order of equal scores open; `ties` is the order it starts from. -/
def selectIds (now : ℤ) (ties : Traversal ScoredBlock) (candidates : List MemoryBlock)
    (count : ℕ) : List ℕ :=
  let scored := candidates.map fun b => ⟨b.id, scoreBlock now b, b.priority⟩
  let sorted := (ties.visit scored).mergeSort fun a b => !(b.score < a.score : Bool)
  ((sorted.filter fun b => b.priority ≠ .critical).take count).map ScoredBlock.id

/-- `selectForEviction`. The vectors are reserved before they are filled, the one of the ids for the
whole `count`, and a reservation that fails throws. -/
def selectForEviction (heap : Heap) (now : ℤ) (ties : Traversal ScoredBlock)
    (candidates : List MemoryBlock) (count : UInt64) : Except ReserveError (List ℕ) :=
  if count = 0 || candidates.isEmpty then .ok []
  else do
    heap.reserve scoredBlockBytes candidates.length
    heap.reserve idBytes count.toNat
    return selectIds now ties candidates count.toNat

/-- Only candidates are selected. -/
theorem exists_of_mem_selectIds {now : ℤ} {ties : Traversal ScoredBlock}
    {candidates : List MemoryBlock} {count id : ℕ} (h : id ∈ selectIds now ties candidates count) :
    ∃ b ∈ candidates, b.id = id := by
  obtain ⟨sb, hsb, rfl⟩ := List.mem_map.mp h
  have hsorted := List.mem_of_mem_filter (List.mem_of_mem_take hsb)
  have hscored := (ties.mem_visit).mp (List.mem_mergeSort.mp hsorted)
  obtain ⟨b, hb, rfl⟩ := List.mem_map.mp hscored
  exact ⟨b, hb, rfl⟩

end EvictionPolicy

end HeteroAccel.Mem
