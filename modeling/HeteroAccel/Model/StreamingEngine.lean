import HeteroAccel.Lib.Transition
import HeteroAccel.Mem.MemoryManager

/-!
# The streaming engine

`StreamingEngine` and its `ResourceResidencyManager`: any number of `loadToWarmAsync`,
`promoteToHotAsync` and `evict` operations on one resource. A step is one call of the residency
manager or of the memory manager, each of which holds a mutex. The read of the file, whose data go
to a dummy buffer, is left out.
-/

namespace HeteroAccel.Model

open HeteroAccel.Mem

/-- The backends that a resource may be promoted to. -/
inductive ComputeBackend where
  | cpu | vulkan | cuda
  deriving DecidableEq, Repr

/-- Where a resource is, or in which transition. -/
inductive ResourceResidency where
  | disk | cold | warm | hot | loading | evicting
  deriving DecidableEq, Repr

/-- A resource of the model, with its block in memory. -/
structure ModelResource where
  id : ℕ := 0
  sizeBytes : UInt64 := 0
  block : MemoryBlock := {}

/-- The residency of each resource. -/
structure ResourceResidencyManager where
  states : KeyedMap ℕ ResourceResidency := ∅

namespace ResourceResidencyManager

variable (rm : ResourceResidencyManager) (id : ℕ) {src dst : ResourceResidency}

/-- The residency of a resource; one that is not on record is on disk. -/
def getResidency : ResourceResidency := (rm.states.lookup id).getD .disk

/-- The residency changes, if it is the expected one; the check and the change are one step. -/
def transition (src dst : ResourceResidency) : Bool × ResourceResidencyManager :=
  if rm.getResidency id ≠ src then (false, rm)
  else (true, ⟨rm.states.insert id dst⟩)

/-- The same as `transition`. -/
def tryBeginTransition (expectedFrom inProgressState : ResourceResidency) :
    Bool × ResourceResidencyManager :=
  if rm.getResidency id = expectedFrom then (true, ⟨rm.states.insert id inProgressState⟩)
  else (false, rm)

variable {rm id}

/-- A transition from the recorded residency is recorded; any other one changes nothing. -/
theorem transition_cases (rm : ResourceResidencyManager) (id : ℕ) (src dst : ResourceResidency) :
    (rm.getResidency id = src ∧ (rm.transition id src dst).1 = true ∧
      (rm.transition id src dst).2.getResidency id = dst) ∨
    (rm.getResidency id ≠ src ∧ rm.transition id src dst = (false, rm)) := by
  unfold transition
  split
  next hne => exact .inr ⟨hne, rfl⟩
  next heq =>
    refine .inl ⟨Decidable.not_not.mp heq, rfl, ?_⟩
    rw [getResidency, AList.lookup_insert, Option.getD_some]

theorem tryBeginTransition_eq (rm : ResourceResidencyManager) (id : ℕ)
    (src dst : ResourceResidency) :
    rm.tryBeginTransition id src dst = rm.transition id src dst := by
  by_cases h : rm.getResidency id = src <;> simp [tryBeginTransition, transition, h]

end ResourceResidencyManager

/-- The operations on a resource, each in a thread of its own. -/
inductive Operation where
  | loadToWarmAsync
  | promoteToHotAsync (backend : ComputeBackend)
  | evict (targetResidency : ResourceResidency)
  deriving DecidableEq, Repr

/-- How far an operation has come. -/
inductive Stage where
  | start
  /-- Behind a transition that could not be begun: the residency is read, once or twice. -/
  | checkWarm
  | checkHot
  /-- `evict` has read the residency, and is about to begin. -/
  | beginning (current : ResourceResidency)
  /-- The transition has begun; `current` is the residency it began from. -/
  | working (current : ResourceResidency)
  /-- In front of the closing transition. -/
  | closing (src dst : ResourceResidency) (result : Bool)
  | finished (result : Bool)
  deriving DecidableEq, Repr

/-- An operation in progress. -/
structure Task where
  operation : Operation
  stage : Stage := .start
  deriving DecidableEq, Repr

/-- One resource, the managers, and the operations on it; `promotedTo` records the device of the
last promotion that has begun. -/
structure StreamingEngine where
  residencyMgr : ResourceResidencyManager := {}
  memoryMgr : MemoryManager := {}
  resource : ModelResource := {}
  promotedTo : Option ComputeBackend := none
  tasks : List Task := []

namespace StreamingEngine

variable (env : Environment) (se : StreamingEngine)

/-- The recorded residency of the resource. -/
def residency : ResourceResidency := se.residencyMgr.getResidency se.resource.id

/-- `tryBeginTransition` on the resource. -/
def tryBegin (src dst : ResourceResidency) : Bool × StreamingEngine :=
  let (ok, residencyMgr) := se.residencyMgr.tryBeginTransition se.resource.id src dst
  (ok, { se with residencyMgr })

/-- The closing transition of an operation, whose result is ignored. -/
def close (src dst : ResourceResidency) : StreamingEngine :=
  { se with residencyMgr := (se.residencyMgr.transition se.resource.id src dst).2 }

/-- `memoryMgr_->allocate` for the resource. -/
def allocateBlock : StreamingEngine :=
  let (block, memoryMgr) := se.memoryMgr.allocate env se.resource.sizeBytes .cpu .normal
  { se with memoryMgr, resource := { se.resource with block } }

/-- `memoryMgr_->move` of the block. -/
def moveBlock (destination : MemoryLocation) : Bool × StreamingEngine :=
  let (success, block, memoryMgr) := se.memoryMgr.move env se.resource.block destination
  (success, { se with memoryMgr, resource := { se.resource with block } })

/-- `memoryMgr_->release` of the block, which is invalid afterwards. -/
def releaseBlock : StreamingEngine :=
  let (_, memoryMgr) := se.memoryMgr.release se.resource.block
  { se with memoryMgr, resource := { se.resource with block := {} } }

/-- The next step of an operation. -/
def advance (task : Task) : Option (Stage × StreamingEngine) :=
  match task.operation, task.stage with
  | .loadToWarmAsync, .start =>
    let (ok, se) := se.tryBegin .disk .loading
    some (if ok then .working .disk else .checkWarm, se)
  | .promoteToHotAsync backend, .start =>
    let (ok, se) := se.tryBegin .warm .loading
    if ok then
      -- a promotion to the CPU moves nothing
      some (if backend = .cpu then .closing .loading .hot true else .working .warm,
        { se with promotedTo := some backend })
    else some (.checkHot, se)
  | .evict targetResidency, .start =>
    some (if se.residency = targetResidency then .finished true else .beginning se.residency, se)
  | _, .checkWarm => some (if se.residency = .warm then .finished true else .checkHot, se)
  | _, .checkHot => some (.finished (se.residency = .hot), se)
  | .evict targetResidency, .beginning current =>
    let (ok, se) := se.tryBegin current .evicting
    if ok then
      some (if (current = .hot ∧ targetResidency = .warm) ∨
          ((current = .hot ∨ current = .warm) ∧ targetResidency = .disk) then .working current
        -- an invalid eviction path
        else .closing .evicting current false, se)
    else some (.finished false, se)
  | .loadToWarmAsync, .working _ =>
    let se := se.allocateBlock env
    some (if se.resource.block.isValid then .closing .loading .warm true
      else .closing .loading .disk false, se)
  | .promoteToHotAsync _, .working _ =>
    let (success, se) := se.moveBlock env .accelerator
    some (if success then .closing .loading .hot true else .closing .loading .warm false, se)
  | .evict targetResidency, .working current =>
    if current = .hot ∧ targetResidency = .warm then
      some (.closing .evicting .warm true, (se.moveBlock env .cpu).2)
    else some (.closing .evicting .disk true, se.releaseBlock)
  | _, .closing src dst result => some (.finished result, se.close src dst)
  | _, _ => none

end StreamingEngine

/-- What may happen next: a new operation is called, or one in progress makes a step. -/
inductive StreamingAct where
  | call (operation : Operation)
  /-- A step of the `i`-th operation. -/
  | step (i : ℕ) (env : Environment)

/-- The step that a label describes, where it is possible. -/
def StreamingEngine.step (se : StreamingEngine) : StreamingAct → Option StreamingEngine
  | .call operation => some { se with tasks := se.tasks ++ [{ operation }] }
  | .step i env =>
    match se.tasks[i]? with
    | some task =>
      match se.advance env task with
      | some (stage, se') => some { se' with tasks := se.tasks.set i { task with stage } }
      | none => none
    | none => none

/-- A resource that has not been loaded. The memory manager may have been in use, as long as the
blocks in its CPU pool are CPU blocks. -/
def streamingSystem : TransitionSystem StreamingEngine StreamingAct where
  Init se := se.residency = .disk ∧ se.resource.block.isValid = false ∧ se.tasks = [] ∧
    ∀ block ∈ se.memoryMgr.cpu.pool.freeList, block.location = .cpu
  Step se a se' := se.step a = some se'

end HeteroAccel.Model
