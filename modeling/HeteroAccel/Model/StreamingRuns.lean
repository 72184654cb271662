import HeteroAccel.Model.StreamingEngine

/-!
# Runs of the streaming engine

When all operations on a resource have finished, its residency should be stable and describe its
block. A load or a promotion whose closing transition comes while `evict` has taken over the
transitional residency `LOADING` leaves it there for ever, since `evict` restores it.

## Main definitions

* `Owns`: the resource has a block in one of the memories;
* `Fits`: a residency describes the block of the resource;
* `ClosesLoading`: the steps that do not close a load or a promotion behind `evict`;
* `Sound`: the invariant of such runs;
* `settled_of_reachable`: in such runs, residencies are stable in the end and describe the block.
-/

namespace HeteroAccel.Model

open HeteroAccel.Mem

/-- The memory of a device. -/
def ComputeBackend.memory (backend : ComputeBackend) : Space :=
  if backend = .cpu then .cpu else .gpu

namespace StreamingEngine

variable {env : Environment} {se se' : StreamingEngine}

/-- The resource has a valid block in a memory, where the memory manager tracks it. -/
def Owns (se : StreamingEngine) (sp : Space) : Prop :=
  se.resource.block.isValid = true ∧ se.resource.block.location = sp.location ∧
    ∃ tracked, se.memoryMgr.activeBlocks.lookup se.resource.block.id = some tracked ∧
      tracked.location = sp.location

/-- A residency describes the block of the resource. -/
def Fits (se : StreamingEngine) : ResourceResidency → Prop
  | .disk => se.resource.block.isValid = false
  | .warm => se.Owns .cpu
  | .hot => ∃ backend ∈ se.promotedTo, se.Owns backend.memory
  | _ => False

/-- The residency is stable, and describes the block. -/
def Settled (se : StreamingEngine) : Prop :=
  (se.residency = .disk ∨ se.residency = .warm ∨ se.residency = .hot) ∧ se.Fits se.residency

/-- The closing transition of a load or a promotion comes next. -/
def ClosesLoad : Stage → Prop
  | .closing .loading _ _ => True
  | _ => False

/-- A load or a promotion closes only while the residency is `LOADING`. -/
def ClosesLoading (se : StreamingEngine) (a : StreamingAct) : Prop :=
  match a with
  | .step i _ => ∀ task ∈ se.tasks[i]?, ClosesLoad task.stage → se.residency = .loading
  | .call _ => True

/-! ## The block -/

/-- The blocks that the CPU pool keeps are CPU blocks. -/
def CpuPooled (mm : MemoryManager) : Prop :=
  ∀ block ∈ mm.cpu.pool.freeList, block.location = .cpu

/-- Storage from the CPU memory. -/
theorem location_allocate_cpu {h : PooledAllocator} (ans : Answer) (size : UInt64)
    (hpool : ∀ block ∈ h.pool.freeList, block.location = .cpu) :
    (h.allocate .cpu ans size).1.location = .cpu ∧
      ∀ block ∈ (h.allocate .cpu ans size).2.pool.freeList, block.location = .cpu := by
  have hnew : ∀ size, (Space.cpu.allocate ans h.allocator size).1.location = .cpu := by
    intro size
    rw [Space.allocate_eq]
    split <;> rfl
  by_cases hsize : size = poolBlockSize
  · cases hfree : h.pool.freeList with
    | cons block freeList =>
      rw [hfree] at hpool
      simp only [PooledAllocator.allocate, if_pos hsize, MemoryPool.acquire, hfree]
      exact ⟨hpool block List.mem_cons_self, fun b hb => hpool b (List.mem_cons_of_mem _ hb)⟩
    | nil =>
      have hnone : ∀ b ∈ ([] : List MemoryBlock), b.location = .cpu := fun b hb => by cases hb
      simp only [PooledAllocator.allocate, if_pos hsize, MemoryPool.acquire, hfree]
      split
      next => exact ⟨hnew _, hnone⟩
      next => exact ⟨hnew _, hfree ▸ hnone⟩
  · simp only [PooledAllocator.allocate, if_neg hsize]
    exact ⟨hnew size, hpool⟩

/-- Storage given back to the CPU memory. -/
theorem location_free_cpu {h : PooledAllocator} {block : MemoryBlock}
    (hblock : block.location = .cpu)
    (hpool : ∀ block ∈ h.pool.freeList, block.location = .cpu) :
    ∀ b ∈ (h.free .cpu block).2.pool.freeList, b.location = .cpu := by
  by_cases hsize : block.size = poolBlockSize
  · simp only [PooledAllocator.free, if_pos hsize, MemoryPool.release]
    split
    next => exact hpool
    next =>
      split
      next => exact List.forall_mem_cons.mpr ⟨hblock, hpool⟩
      next => exact hpool
  · simp only [PooledAllocator.free, if_neg hsize]
    exact hpool

/-- A block that is allocated in CPU memory is one, and is tracked. -/
theorem allocate_cpu {mm : MemoryManager} (hpool : CpuPooled mm) (env : Environment)
    (size : UInt64) :
    CpuPooled (mm.allocate env size .cpu .normal).2 ∧
      ((mm.allocate env size .cpu .normal).1.isValid = true →
        (mm.allocate env size .cpu .normal).1.location = .cpu ∧
        (mm.allocate env size .cpu .normal).2.activeBlocks.lookup
          (mm.allocate env size .cpu .normal).1.id =
            some (mm.allocate env size .cpu .normal).1) := by
  obtain ⟨hlocation, hpool'⟩ := location_allocate_cpu (env.answer .cpu) size hpool
  generalize hserved : mm.cpu.allocate .cpu (env.answer .cpu) size = served at hlocation hpool'
  obtain ⟨block, cpu⟩ := served
  -- the GPU is not preferred, so that nothing else is tried
  have hallocate : mm.allocate env size .cpu .normal =
      if block.isValid then ({ mm with cpu } : MemoryManager).trackBlock env block .normal
      else (block, { mm with cpu }) := by
    simp [MemoryManager.allocate, MemoryManager.allocateInternal, hserved]
  by_cases hvalid : block.isValid
  · rw [hallocate, if_pos hvalid]
    exact ⟨hpool', fun _ => ⟨hlocation, AList.lookup_insert _⟩⟩
  · rw [hallocate, if_neg hvalid]
    exact ⟨hpool', fun h => absurd h hvalid⟩

/-- No block is moved to the location `ACCELERATOR`. -/
theorem move_accelerator {mm : MemoryManager} (hpool : CpuPooled mm) (env : Environment)
    {block tracked : MemoryBlock} (hvalid : block.isValid = true)
    (hlocation : block.location = .cpu)
    (htracked : mm.activeBlocks.lookup block.id = some tracked) :
    (mm.move env block .accelerator).1 = false ∧ (mm.move env block .accelerator).2.1 = block ∧
      CpuPooled (mm.move env block .accelerator).2.2 ∧
      ∃ tracked',
        (mm.move env block .accelerator).2.2.activeBlocks.lookup block.id = some tracked' ∧
        tracked'.location = tracked.location := by
  unfold MemoryManager.move
  rw [if_neg (by simp [hvalid, hlocation]), htracked]
  dsimp only
  rw [if_neg (by simp), if_neg (by simp)]
  exact ⟨rfl, rfl, hpool, _, AList.lookup_insert _, rfl⟩

/-- A released block leaves the pool with CPU blocks only. -/
theorem release_pooled {mm : MemoryManager} (hpool : CpuPooled mm) (block : MemoryBlock) :
    CpuPooled (mm.release block).2 := by
  unfold MemoryManager.release
  split
  next => exact hpool
  next =>
    split
    next tracked _ =>
      unfold CpuPooled
      cases hlocation : tracked.location with
      | cpu =>
        simp only [MemoryManager.dropBlock, MemoryManager.freeInternal, hlocation]
        exact location_free_cpu hlocation hpool
      | gpu =>
        simp only [MemoryManager.dropBlock, MemoryManager.freeInternal, hlocation]
        exact hpool
      | accelerator =>
        simp only [MemoryManager.dropBlock, MemoryManager.freeInternal, hlocation]
        exact hpool
      | disk =>
        simp only [MemoryManager.dropBlock, MemoryManager.freeInternal, hlocation]
        exact hpool
    next => exact hpool

/-! ## Roles -/

/-- What an operation does to the residency: a load or promotion has begun, an eviction has begun
from a stable residency, or `evict` has taken over `LOADING`. -/
inductive Role where
  | none | loads | evicts | holds
  deriving DecidableEq

/-- What a task does for the memory at this stage. -/
def role (task : Task) : Role :=
  match task.operation, task.stage with
  | .evict _, .working _ => .evicts
  | _, .working _ => .loads
  | _, .closing .loading _ _ => .loads
  | _, .closing .evicting .loading _ => .holds
  | _, .closing .evicting .evicting _ => .none
  | _, .closing .evicting _ _ => .evicts
  | _, _ => .none

/-- The residency that the block fits during an operation: the one that it begins from, or closes
with. -/
def expected (task : Task) : Option ResourceResidency :=
  match task.operation, task.stage with
  | .loadToWarmAsync, .working _ => some .disk
  | .promoteToHotAsync _, .working _ => some .warm
  | .evict _, .working current => some current
  | _, .closing .loading dst _ => some dst
  | _, .closing .evicting .loading _ => none
  | _, .closing .evicting .evicting _ => none
  | _, .closing .evicting dst _ => some dst
  -- no operation closes otherwise
  | _, .closing _ _ _ => some .cold
  | _, _ => none

/-- What a residency says of the block here, where all promotions that succeed are to the CPU. -/
def Keeps (se : StreamingEngine) : ResourceResidency → Prop
  | .disk => se.resource.block.isValid = false
  | .warm => se.Owns .cpu
  | .hot => se.promotedTo = some .cpu ∧ se.Owns .cpu
  | _ => False

/-- A residency and the numbers of operations by their roles. -/
def RolesFit (r : ResourceResidency) (loads evicts holds : ℕ) : Prop :=
  match r with
  | .loading => loads = 1 ∧ evicts = 0 ∧ holds = 0
  | .evicting => loads + evicts = 1 ∧ holds = loads
  | .cold => False
  | _ => loads = 0 ∧ evicts = 0 ∧ holds = 0

/-- The number of operations with a role. -/
def count (tasks : List Task) (r : Role) : ℕ := tasks.countP fun task => role task = r

/-- The tasks of a role are counted one by one. -/
theorem count_cons (task : Task) (tasks : List Task) (r : Role) :
    count (task :: tasks) r = count tasks r + if role task = r then 1 else 0 := by
  simp [count, List.countP_cons]

/-- What steps keep that close loads only while the residency is `LOADING`. -/
structure Sound (se : StreamingEngine) : Prop where
  roles : RolesFit se.residency (count se.tasks .loads) (count se.tasks .evicts)
    (count se.tasks .holds)
  expects : ∀ task ∈ se.tasks, ∀ r ∈ expected task, se.Keeps r
  /-- A stable residency describes the block. -/
  stable : ∀ r, se.residency = r → r = .disk ∨ r = .warm ∨ r = .hot → se.Keeps r
  pooled : CpuPooled se.memoryMgr

/-- Operations without a part in the transition expect nothing. -/
theorem expected_of_role {task : Task} (hloads : role task ≠ .loads) (hevicts : role task ≠ .evicts)
    (h : ∀ r ∈ expected task, se.Keeps r) : expected task = none := by
  obtain ⟨operation, stage⟩ := task
  cases stage with
  | working current => cases operation <;> simp [role] at hloads hevicts
  | closing src dst result => cases src <;> cases dst <;> simp_all [role, expected, Keeps]
  | _ => cases operation <;> rfl

/-- The operations behind a step of one of them. -/
theorem Sound.of_perm {task : Task} {others : List Task} (hperm : se.tasks.Perm (task :: others))
    (hroles : RolesFit se.residency
      (count others .loads + if role task = .loads then 1 else 0)
      (count others .evicts + if role task = .evicts then 1 else 0)
      (count others .holds + if role task = .holds then 1 else 0))
    (hothers : ∀ task ∈ others, ∀ r ∈ expected task, se.Keeps r)
    (htask : ∀ r ∈ expected task, se.Keeps r)
    (hstable : ∀ r, se.residency = r → r = .disk ∨ r = .warm ∨ r = .hot → se.Keeps r)
    (hpooled : CpuPooled se.memoryMgr) : Sound se := by
  have hcount : ∀ r, count se.tasks r = count others r + if role task = r then 1 else 0 := by
    intro r
    rw [← count_cons]
    exact hperm.countP_eq _
  refine ⟨?_, fun t ht => ?_, hstable, hpooled⟩
  · rw [hcount, hcount, hcount]
    exact hroles
  · rcases List.mem_cons.mp (hperm.mem_iff.mp ht) with rfl | ht
    · exact htask
    · exact hothers t ht

/-- The others expect nothing, when none of them has begun. -/
theorem expected_of_count {others : List Task}
    (hothers : ∀ task ∈ others, ∀ r ∈ expected task, se.Keeps r)
    (hloads : count others .loads = 0) (hevicts : count others .evicts = 0) :
    ∀ task ∈ others, ∀ r ∈ expected task, se'.Keeps r := by
  intro task htask r hr
  have hload := List.countP_eq_zero.mp hloads task htask
  have hevict := List.countP_eq_zero.mp hevicts task htask
  rw [expected_of_role (by simpa using hload) (by simpa using hevict) (hothers task htask)] at hr
  cases hr

/-! ## Steps -/

/-- An operation begins if the residency is the expected one. -/
theorem tryBegin_cases (se : StreamingEngine) (src dst : ResourceResidency) :
    (∃ residencyMgr, se.residency = src ∧
      se.tryBegin src dst = (true, { se with residencyMgr }) ∧
      residencyMgr.getResidency se.resource.id = dst) ∨
    (se.residency ≠ src ∧ se.tryBegin src dst = (false, se)) := by
  unfold tryBegin residency
  rw [ResourceResidencyManager.tryBeginTransition_eq]
  rcases se.residencyMgr.transition_cases se.resource.id src dst with ⟨hsrc, hok, hdst⟩ | ⟨hne, heq⟩
  · refine .inl ⟨_, hsrc, ?_, hdst⟩
    rw [← hok]
  · exact .inr ⟨hne, by rw [heq]⟩

/-- An operation closes if the residency is its own. -/
theorem close_cases (se : StreamingEngine) (src dst : ResourceResidency) :
    (∃ residencyMgr, se.residency = src ∧ se.close src dst = { se with residencyMgr } ∧
      residencyMgr.getResidency se.resource.id = dst) ∨
    (se.residency ≠ src ∧ se.close src dst = se) := by
  unfold close residency
  rcases se.residencyMgr.transition_cases se.resource.id src dst with ⟨hsrc, -, hdst⟩ | ⟨hne, heq⟩
  · exact .inl ⟨_, hsrc, rfl, hdst⟩
  · exact .inr ⟨hne, by rw [heq]⟩

/-- A stable residency, as far as it says something of the block. -/
theorem Keeps.stable {r : ResourceResidency} (h : se.Keeps r) :
    r = .disk ∨ r = .warm ∨ r = .hot := by
  cases r <;> simp [Keeps] at h ⊢

variable {task : Task} {others tasks : List Task} {stage : Stage}

/-- What an operation and the others know of a sound state. -/
structure Known (se : StreamingEngine) (task : Task) (others : List Task) : Prop where
  roles : RolesFit se.residency
    (count others .loads + if role task = .loads then 1 else 0)
    (count others .evicts + if role task = .evicts then 1 else 0)
    (count others .holds + if role task = .holds then 1 else 0)
  others : ∀ task ∈ others, ∀ r ∈ expected task, se.Keeps r
  task : ∀ r ∈ expected task, se.Keeps r
  stable : ∀ r, se.residency = r → r = .disk ∨ r = .warm ∨ r = .hot → se.Keeps r
  pooled : CpuPooled se.memoryMgr

/-- In a sound state a task and the others are known. -/
theorem Sound.known (h : Sound se) (hperm : se.tasks.Perm (task :: others)) :
    Known se task others := by
  have hroles := h.roles
  have hcount : ∀ r, count se.tasks r = count others r + if role task = r then 1 else 0 := by
    intro r
    rw [← count_cons]
    exact hperm.countP_eq _
  rw [hcount, hcount, hcount] at hroles
  exact ⟨hroles, fun t ht => h.expects t (hperm.mem_iff.mpr (List.mem_cons_of_mem _ ht)),
    h.expects task (hperm.mem_iff.mpr List.mem_cons_self), h.stable, h.pooled⟩

/-- A step by which an operation takes no part in a transition, and did not before. -/
theorem Known.quiet (h : Known se task others) (hrole : role task = .none)
    (hperm : tasks.Perm ({ task with stage } :: others))
    (hrole' : role { task with stage } = .none) (hexpected : expected { task with stage } = none) :
    Sound { se with tasks } := by
  refine Sound.of_perm hperm ?_ h.others (fun r hr => ?_) h.stable h.pooled
  · have hroles := h.roles
    rw [hrole] at hroles
    rw [hrole']
    exact hroles
  · rw [hexpected] at hr
    cases hr

/-- An operation begins its transition from a stable residency. -/
theorem Known.begun (h : Known se task others) (hrole : role task = .none)
    (hstable : se.residency = .disk ∨ se.residency = .warm ∨ se.residency = .hot)
    (hperm : se'.tasks.Perm ({ task with stage } :: others))
    (hrole' : (role { task with stage } = .loads ∧ se'.residency = .loading) ∨
      (role { task with stage } = .evicts ∧ se'.residency = .evicting))
    (hexpected : ∀ r ∈ expected { task with stage }, se'.Keeps r)
    (hpooled : CpuPooled se'.memoryMgr) :
    Sound se' := by
  have hzero : count others .loads = 0 ∧ count others .evicts = 0 ∧ count others .holds = 0 := by
    have hroles := h.roles
    rw [hrole] at hroles
    rcases hstable with hr | hr | hr <;> simpa [RolesFit, hr] using hroles
  refine Sound.of_perm hperm ?_ (expected_of_count h.others hzero.1 hzero.2.1) hexpected ?_ hpooled
  · rw [hzero.1, hzero.2.1, hzero.2.2]
    rcases hrole' with ⟨hrole', hr⟩ | ⟨hrole', hr⟩ <;> simp [RolesFit, hr, hrole']
  · intro r hr hcases
    rcases hrole' with ⟨-, hr'⟩ | ⟨-, hr'⟩ <;> rw [hr', eq_comm] at hr <;> simp [hr] at hcases

/-- An operation that has begun its transition works on the block. -/
theorem Known.worked (h : Known se task others) (hrole : role task = .loads ∨ role task = .evicts)
    (hresidency : se'.residency = se.residency)
    (hperm : se'.tasks.Perm ({ task with stage } :: others))
    (hrole' : role { task with stage } = role task)
    (hexpected : ∀ r ∈ expected { task with stage }, se'.Keeps r)
    (hpooled : CpuPooled se'.memoryMgr) :
    Sound se' := by
  have hroles := h.roles
  -- no other operation works on the block, and the residency is not stable
  have hzero : count others .loads = 0 ∧ count others .evicts = 0 ∧
      ∀ r, se.residency = r → ¬(r = .disk ∨ r = .warm ∨ r = .hot) := by
    rcases hrole with hrole | hrole <;> rw [hrole] at hroles <;>
      cases hr : se.residency <;> simp [RolesFit, hr] at hroles ⊢ <;> omega
  refine Sound.of_perm hperm ?_ (expected_of_count h.others hzero.1 hzero.2.1) hexpected ?_ hpooled
  · rw [hresidency, hrole']
    exact hroles
  · exact fun r hr hcases => absurd hcases (hzero.2.2 r (hresidency ▸ hr))

/-- An operation closes its transition with a stable residency. -/
theorem Known.closed (h : Known se task others)
    (hrole : (role task = .loads ∧ se.residency = .loading) ∨ role task = .evicts)
    (hperm : se'.tasks.Perm ({ task with stage } :: others))
    (hrole' : role { task with stage } = .none) (hexpected : expected { task with stage } = none)
    (hkeeps : se'.Keeps se'.residency) (hpooled : CpuPooled se'.memoryMgr) : Sound se' := by
  have hroles := h.roles
  have hzero : count others .loads = 0 ∧ count others .evicts = 0 ∧ count others .holds = 0 := by
    rcases hrole with ⟨hrole, hr⟩ | hrole
    · rw [hrole, hr] at hroles
      simpa [RolesFit] using hroles
    · rw [hrole] at hroles
      cases hr : se.residency with
      | evicting =>
        simp [RolesFit, hr] at hroles ⊢
        omega
      | _ => simp [RolesFit, hr] at hroles
  refine Sound.of_perm hperm ?_ (expected_of_count h.others hzero.1 hzero.2.1)
    (fun r hr => ?_) ?_ hpooled
  · rw [hzero.1, hzero.2.1, hzero.2.2, hrole']
    rcases hkeeps.stable with hr | hr | hr <;> simp [RolesFit, hr]
  · rw [hexpected] at hr
    cases hr
  · rintro r rfl -
    exact hkeeps

/-- An eviction begins from a stable residency, or takes over a transitional one. -/
theorem Known.evictionBegun {targetResidency current : ResourceResidency}
    {residencyMgr : ResourceResidencyManager}
    (h : Known se ⟨.evict targetResidency, .beginning current⟩ others) (hr : se.residency = current)
    (hperm : tasks.Perm (⟨.evict targetResidency,
      if (current = .hot ∧ targetResidency = .warm) ∨
        ((current = .hot ∨ current = .warm) ∧ targetResidency = .disk) then .working current
      else .closing .evicting current false⟩ :: others))
    (hr' : residencyMgr.getResidency se.resource.id = .evicting) :
    Sound { se with residencyMgr, tasks } := by
  by_cases hstable : current = .disk ∨ current = .warm ∨ current = .hot
  · have hkeeps := h.stable current hr hstable
    refine h.begun rfl (hr ▸ hstable) hperm (.inr ⟨?_, hr'⟩) ?_ h.pooled
    · split
      next => rfl
      next => rcases hstable with rfl | rfl | rfl <;> rfl
    · split
      next =>
        rintro r ⟨⟩
        exact hkeeps
      next =>
        intro r hexpected
        rcases hstable with rfl | rfl | rfl <;> cases hexpected <;> exact hkeeps
  · have hroles := h.roles
    rw [hr] at hroles
    have hpath : ¬((current = .hot ∧ targetResidency = .warm) ∨
        ((current = .hot ∨ current = .warm) ∧ targetResidency = .disk)) := by
      rintro (⟨rfl, -⟩ | ⟨rfl | rfl, -⟩) <;> simp at hstable
    rw [if_neg hpath] at hperm
    have hnot : ∀ r, residencyMgr.getResidency se.resource.id = r →
        ¬(r = .disk ∨ r = .warm ∨ r = .hot) := by
      rintro r rfl
      simp [hr']
    cases current with
    | loading =>
      -- the load or the promotion has not closed yet
      refine Sound.of_perm hperm ?_ h.others (fun r hr => by cases hr)
        (fun r hr hcases => absurd hcases (hnot r hr)) h.pooled
      show RolesFit (residencyMgr.getResidency se.resource.id) _ _ _
      rw [hr']
      simp [RolesFit, role] at hroles ⊢
      omega
    | evicting =>
      refine Sound.of_perm hperm ?_ h.others (fun r hr => by cases hr)
        (fun r hr hcases => absurd hcases (hnot r hr)) h.pooled
      show RolesFit (residencyMgr.getResidency se.resource.id) _ _ _
      rw [hr']
      exact hroles
    | cold => exact hroles.elim
    | _ => simp at hstable

/-- A load allocates its block. -/
theorem Known.allocated {current : ResourceResidency}
    (h : Known se ⟨.loadToWarmAsync, .working current⟩ others)
    (hperm : tasks.Perm (⟨.loadToWarmAsync,
      if (se.allocateBlock env).resource.block.isValid then .closing .loading .warm true
      else .closing .loading .disk false⟩ :: others)) :
    Sound { se.allocateBlock env with tasks } := by
  obtain ⟨hpooled, hallocated⟩ := allocate_cpu h.pooled env se.resource.sizeBytes
  refine h.worked (.inl rfl) rfl hperm ?_ ?_ hpooled
  · split <;> rfl
  · split
    next hvalid =>
      rintro r ⟨⟩
      obtain ⟨hlocation, htracked⟩ := hallocated hvalid
      exact ⟨hvalid, hlocation, _, htracked, hlocation⟩
    next hinvalid =>
      rintro r ⟨⟩
      exact Bool.eq_false_iff.mpr hinvalid

/-- A promotion that moves its block fails. -/
theorem Known.moved {backend : ComputeBackend} {current : ResourceResidency}
    (h : Known se ⟨.promoteToHotAsync backend, .working current⟩ others)
    (hperm : tasks.Perm (⟨.promoteToHotAsync backend,
      if (se.moveBlock env .accelerator).1 then .closing .loading .hot true
      else .closing .loading .warm false⟩ :: others)) :
    Sound { (se.moveBlock env .accelerator).2 with tasks } := by
  obtain ⟨hvalid, hlocation, tracked, htracked, htracked'⟩ := h.task .warm rfl
  obtain ⟨hfails, hblock, hpooled, moved, hmoved, hmoved'⟩ :=
    move_accelerator h.pooled env hvalid hlocation htracked
  have hmove : (se.moveBlock env .accelerator).1 = false := hfails
  rw [hmove] at hperm
  refine h.worked (.inl rfl) rfl hperm rfl ?_ hpooled
  rintro r ⟨⟩
  show Owns _ .cpu
  unfold Owns moveBlock
  dsimp only
  rw [hblock]
  exact ⟨hvalid, hlocation, moved, hmoved, hmoved'.trans htracked'⟩

/-- The block of a hot resource is in CPU memory already, so that an eviction to `WARM` moves
nothing. -/
theorem Known.demoted {targetResidency current : ResourceResidency}
    (h : Known se ⟨.evict targetResidency, .working current⟩ others) (hcurrent : current = .hot)
    (hperm : tasks.Perm (⟨.evict targetResidency, .closing .evicting .warm true⟩ :: others)) :
    Sound { (se.moveBlock env .cpu).2 with tasks } := by
  have hhot : se.Keeps .hot := hcurrent ▸ h.task current rfl
  have hmove : (se.moveBlock env .cpu).2 = se := by
    simp [moveBlock, MemoryManager.move, hhot.2.2.1, Space.location]
  rw [hmove]
  refine h.worked (.inr rfl) rfl hperm rfl ?_ h.pooled
  rintro r ⟨⟩
  exact hhot.2

/-- A closing transition. -/
theorem Known.closes {operation : Operation} {src dst : ResourceResidency} {result : Bool}
    (h : Known se ⟨operation, .closing src dst result⟩ others)
    (hcloses : ClosesLoad (.closing src dst result) → se.residency = .loading)
    (hperm : tasks.Perm (⟨operation, .finished result⟩ :: others)) :
    Sound { se.close src dst with tasks } := by
  have hnone : role ⟨operation, .finished result⟩ = .none ∧
      expected ⟨operation, .finished result⟩ = none := by
    cases operation <;> exact ⟨rfl, rfl⟩
  have hroles := h.roles
  -- closing with a residency that the block fits
  have hclosed : se.residency = src → se.Keeps dst →
      (role ⟨operation, .closing src dst result⟩ = .loads ∧ se.residency = .loading) ∨
        role ⟨operation, .closing src dst result⟩ = .evicts →
          Sound { se.close src dst with tasks } := by
    intro hr hkeeps hrole
    rcases se.close_cases src dst with ⟨residencyMgr, -, hclose, hr'⟩ | ⟨hne, -⟩
    · rw [hclose]
      refine h.closed hrole hperm hnone.1 hnone.2 ?_ h.pooled
      show Keeps _ (residencyMgr.getResidency se.resource.id)
      rw [hr']
      exact hkeeps
    · exact absurd hr hne
  -- an eviction closes in front of every other operation
  have hevicting : role ⟨operation, .closing src dst result⟩ = .evicts ∨
      role ⟨operation, .closing src dst result⟩ = .holds → se.residency = .evicting := by
    rintro (hrole | hrole) <;> rw [hrole] at hroles <;>
      cases hr : se.residency <;> simp [RolesFit, hr] at hroles ⊢
  cases src with
  | loading =>
    have hr := hcloses trivial
    have hrole :
      role ⟨operation, .closing .loading dst result⟩ = .loads := by cases operation <;> rfl
    have hkeeps : se.Keeps dst := h.task dst (by cases operation <;> rfl)
    exact hclosed hr hkeeps (.inl ⟨hrole, hr⟩)
  | evicting =>
    cases dst with
    | loading =>
      have hrole : role ⟨operation, .closing .evicting .loading result⟩ = .holds := by
        cases operation <;> rfl
      have hr := hevicting (.inr hrole)
      rcases se.close_cases .evicting .loading with ⟨residencyMgr, -, hclose, hr'⟩ | ⟨hne, -⟩
      · rw [hclose]
        refine Sound.of_perm hperm ?_ h.others
          (fun r hr => by rw [hnone.2] at hr; cases hr) ?_ h.pooled
        · show RolesFit (residencyMgr.getResidency se.resource.id) _ _ _
          rw [hr', hnone.1]
          rw [hr, hrole] at hroles
          simp [RolesFit] at hroles ⊢
          omega
        · intro r hr hcases
          rw [← show residencyMgr.getResidency se.resource.id = r from hr, hr'] at hcases
          simp at hcases
      · exact absurd hr hne
    | evicting =>
      have hrole : role ⟨operation, .closing .evicting .evicting result⟩ = .none := by
        cases operation <;> rfl
      -- nothing changes
      have hresidency : (se.close .evicting .evicting).residency = se.residency := by
        rcases se.close_cases .evicting .evicting with ⟨residencyMgr, hr, hclose, hr'⟩ | ⟨-, hclose⟩
        · rw [hclose, hr]
          exact hr'
        · rw [hclose]
      refine Sound.of_perm hperm ?_ h.others (fun r hr => by rw [hnone.2] at hr; cases hr)
        (fun r hr => h.stable r (hresidency.symm.trans hr)) h.pooled
      show RolesFit (se.close .evicting .evicting).residency _ _ _
      rw [hresidency, hnone.1]
      rw [hrole] at hroles
      exact hroles
    | cold => exact (h.task .cold (by cases operation <;> rfl)).elim
    | _ =>
      exact hclosed (hevicting (.inl (by cases operation <;> rfl)))
        (h.task _ (by cases operation <;> rfl)) (.inr (by cases operation <;> rfl))
  | _ => exact (h.task .cold (by cases operation <;> rfl)).elim

/-- The steps of an operation keep the residency sound. -/
theorem Sound.advance (h : Sound se) (hperm : se.tasks.Perm (task :: others))
    (hcloses : ClosesLoad task.stage → se.residency = .loading)
    (hadvance : se.advance env task = some (stage, se'))
    (hperm' : tasks.Perm ({ task with stage } :: others)) : Sound { se' with tasks } := by
  have hknown := h.known hperm
  obtain ⟨operation, stage₀⟩ := task
  unfold StreamingEngine.advance at hadvance
  dsimp only at hadvance
  split at hadvance
  · -- a load begins
    rcases se.tryBegin_cases .disk .loading with ⟨residencyMgr, hr, hbegin, hr'⟩ | ⟨-, hbegin⟩
    · rw [hbegin] at hadvance
      cases hadvance
      refine hknown.begun rfl (.inl hr) hperm' (.inl ⟨rfl, hr'⟩) ?_ hknown.pooled
      rintro r ⟨⟩
      exact hknown.stable _ hr (.inl rfl)
    · rw [hbegin] at hadvance
      cases hadvance
      exact hknown.quiet rfl hperm' rfl rfl
  · -- a promotion begins
    next backend =>
    rcases se.tryBegin_cases .warm .loading with ⟨residencyMgr, hr, hbegin, hr'⟩ | ⟨-, hbegin⟩
    · rw [hbegin] at hadvance
      cases hadvance
      have hwarm := hknown.stable _ hr (.inr (.inl rfl))
      by_cases hcpu : backend = .cpu
      · rw [if_pos hcpu] at hperm'
        refine hknown.begun rfl (.inr (.inl hr)) hperm' (.inl ⟨rfl, hr'⟩) ?_ hknown.pooled
        rintro r ⟨⟩
        exact ⟨by rw [hcpu], hwarm⟩
      · rw [if_neg hcpu] at hperm'
        refine hknown.begun rfl (.inr (.inl hr)) hperm' (.inl ⟨rfl, hr'⟩) ?_ hknown.pooled
        rintro r ⟨⟩
        exact hwarm
    · rw [hbegin] at hadvance
      cases hadvance
      exact hknown.quiet rfl hperm' rfl rfl
  · -- an eviction reads the residency
    cases hadvance
    refine hknown.quiet rfl hperm' ?_ ?_ <;> split <;> rfl
  · -- the residency is read instead
    cases hadvance
    refine hknown.quiet ?_ hperm' ?_ ?_
    · cases operation <;> rfl
    · split <;> cases operation <;> rfl
    · split <;> cases operation <;> rfl
  · cases hadvance
    refine hknown.quiet ?_ hperm' ?_ ?_ <;> cases operation <;> rfl
  · next targetResidency current =>
    rcases se.tryBegin_cases current .evicting with ⟨residencyMgr, hr, hbegin, hr'⟩ | ⟨-, hbegin⟩
    · rw [hbegin] at hadvance
      cases hadvance
      exact hknown.evictionBegun hr hperm' hr'
    · rw [hbegin] at hadvance
      cases hadvance
      exact hknown.quiet rfl hperm' rfl rfl
  · -- an operation works on the block
    cases hadvance
    exact hknown.allocated hperm'
  · cases hadvance
    exact hknown.moved hperm'
  · next targetResidency current =>
    split at hadvance
    next hdemote =>
      cases hadvance
      exact hknown.demoted hdemote.1 hperm'
    next =>
      cases hadvance
      refine hknown.worked (.inr rfl) rfl hperm' rfl ?_ (release_pooled hknown.pooled _)
      rintro r ⟨⟩
      exact rfl
  · next src dst result =>
    cases hadvance
    exact hknown.closes hcloses hperm'
  · cases hadvance

/-- The steps that close loads only while the residency is `LOADING` keep it sound. -/
theorem Sound.step (h : Sound se) {a : StreamingAct} (hcloses : ClosesLoading se a)
    (hstep : se.step a = some se') : Sound se' := by
  cases a with
  | call operation =>
    cases hstep
    refine Sound.of_perm (List.perm_append_singleton _ _) ?_ h.expects
      (fun r hr => by cases operation <;> cases hr) h.stable h.pooled
    have hrole : role { operation } = .none := by cases operation <;> rfl
    rw [hrole]
    exact h.roles
  | step i env =>
    unfold StreamingEngine.step at hstep
    dsimp only at hstep
    split at hstep
    next task htask =>
      split at hstep
      next stage se₁ hadvance =>
        cases hstep
        obtain ⟨hi, rfl⟩ := List.getElem?_eq_some_iff.mp htask
        refine h.advance (List.getElem_cons_eraseIdx_perm hi).symm ?_ hadvance
          (List.set_perm_cons_eraseIdx hi _)
        exact hcloses _ htask
      next => cases hstep
    next => cases hstep

/-- All operations have finished. -/
def AllFinished (se : StreamingEngine) : Prop :=
  ∀ task ∈ se.tasks, ∃ result, task.stage = .finished result

/-- In a sound state in which all tasks have finished, the resource is settled. -/
theorem Sound.settled (h : Sound se) (hfinished : se.AllFinished) : se.Settled := by
  have hnone : ∀ r ≠ .none, count se.tasks r = 0 := by
    intro r hr
    refine List.countP_eq_zero.mpr fun task htask => ?_
    obtain ⟨result, hstage⟩ := hfinished task htask
    have hrole : role task = .none := by
      obtain ⟨operation, stage⟩ := task
      cases hstage
      cases operation <;> rfl
    simpa [hrole] using hr.symm
  have hroles := h.roles
  rw [hnone _ (by decide), hnone _ (by decide), hnone _ (by decide)] at hroles
  have hstable : se.residency = .disk ∨ se.residency = .warm ∨ se.residency = .hot := by
    cases hr : se.residency <;> simp [RolesFit, hr] at hroles ⊢
  have hkeeps := h.stable _ rfl hstable
  refine ⟨hstable, ?_⟩
  rcases hstable with hr | hr | hr <;> rw [hr] at hkeeps ⊢
  · exact hkeeps
  · exact hkeeps
  · exact ⟨.cpu, hkeeps.1, hkeeps.2⟩

/-- **Residencies do not stick.** In runs in which loads and promotions close only while the
residency is `LOADING`, the residency is stable and describes the block whenever all operations have
finished. -/
theorem settled_of_reachable (h : streamingSystem.Reachable ClosesLoading se)
    (hfinished : se.AllFinished) : se.Settled := by
  refine Sound.settled (h.invariant (P := Sound) ?_ fun se a se' hs ha hstep => hs.step ha hstep)
    hfinished
  rintro se ⟨hdisk, hinvalid, htasks, hpooled⟩
  refine ⟨?_, ?_, ?_, hpooled⟩
  · rw [htasks, hdisk]
    exact ⟨rfl, rfl, rfl⟩
  · rw [htasks]
    exact fun task htask => by cases htask
  · rintro r rfl -
    rw [hdisk]
    exact hinvalid

/-! ### Sample runs -/

/-- The state after a step; where the step is not possible, nothing changes. -/
def next (se : StreamingEngine) (a : StreamingAct) : StreamingEngine := (se.step a).getD se

/-- A new resource and a new memory manager after a list of steps. -/
def sampleRun (acts : List StreamingAct) : StreamingEngine :=
  acts.foldl next { resource := { id := 1, sizeBytes := 64 } }

/-- A list of steps that are possible leads to a reachable state. -/
theorem reachable_sampleRun {guard : StreamingEngine → StreamingAct → Prop}
    {acts : List StreamingAct}
    (h : TransitionSystem.Along (fun se a => guard se a ∧ (se.step a).isSome) next
      { resource := { id := 1, sizeBytes := 64 } } acts) :
    streamingSystem.Reachable guard (sampleRun acts) := by
  have hinit : streamingSystem.Reachable guard
      ({ resource := { id := 1, sizeBytes := 64 } } : StreamingEngine) :=
    .init ⟨rfl, rfl, rfl, fun block hblock => by cases hblock⟩
  refine hinit.foldl (fun se a hsa => ⟨hsa.1, ?_⟩) h
  obtain ⟨se', hse'⟩ := Option.isSome_iff_exists.mp hsa.2
  show se.step a = some (se.next a)
  rw [next, hse', Option.getD_some]

instance (stage : Stage) : Decidable (ClosesLoad stage) := by
  unfold ClosesLoad
  split <;> infer_instance

instance (se : StreamingEngine) (a : StreamingAct) : Decidable (ClosesLoading se a) := by
  unfold ClosesLoading
  split <;> infer_instance

/-- A resource is loaded, and promoted to the CPU while an eviction waits. -/
def settledActs : List StreamingAct :=
  [.call .loadToWarmAsync, .step 0 {}, .call (.evict .disk), .step 1 {}, .step 0 { malloc := 1000 },
    .step 0 {}, .step 1 {}, .call (.promoteToHotAsync .cpu), .step 2 {}, .step 2 {}]

/-- The sample run ends with the resource on the device. -/
theorem settled_settledActs :
    (sampleRun settledActs).residency = .hot ∧ (sampleRun settledActs).Settled := by
  have hfinished : (sampleRun settledActs).tasks = [⟨.loadToWarmAsync, .finished true⟩,
      ⟨.evict .disk, .finished false⟩, ⟨.promoteToHotAsync .cpu, .finished true⟩] := by
    decide +kernel
  refine ⟨by decide +kernel, settled_of_reachable (reachable_sampleRun (by decide +kernel)) ?_⟩
  unfold AllFinished
  rw [hfinished]
  simp

/-- An eviction takes over the residency of a load, which closes before it is restored. -/
def stuckActs : List StreamingAct :=
  [.call .loadToWarmAsync, .step 0 {}, .call (.evict .disk), .step 1 {}, .step 1 {},
    .step 0 { malloc := 1000 }, .step 0 {}, .step 1 {}]

/-- The resource is left `LOADING`. -/
theorem not_settled_stuckActs :
    ¬∀ se : StreamingEngine, streamingSystem.Reachable TransitionSystem.anyCall se →
      se.AllFinished → se.Settled := by
  intro hall
  have hfinished : (sampleRun stuckActs).tasks = [⟨.loadToWarmAsync, .finished true⟩,
      ⟨.evict .disk, .finished false⟩] := by decide +kernel
  have hr : (sampleRun stuckActs).residency = .loading := by decide +kernel
  have hsettled := hall (sampleRun stuckActs) (reachable_sampleRun (by decide +kernel)) (by
    unfold AllFinished
    rw [hfinished]
    simp)
  rcases hsettled.1 with h | h | h <;> rw [hr] at h <;> cases h

end StreamingEngine
end HeteroAccel.Model
