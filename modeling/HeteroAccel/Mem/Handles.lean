import HeteroAccel.Lib.Transition
import HeteroAccel.Mem.Relocation

/-!
# Handles and their storage

Clients hold the blocks that the memory manager returns, and pass them to its calls. A block is a
handle to its storage from the allocation that returns it until it is released, or dropped under
pressure.

Ids come from two allocators and from pools that hand them out again, and there is one map for all
of them. So a handle keeps its own entry only in runs that never use an id which is the key of a
tracked block. In such runs, if no move succeeds either, handles neither alias nor leak.

## Main definitions

* `Sys`, `Call`, `system`: the clients' variables and the manager, and the calls on them;
* `HandlesSound`: handles have one entry each, denote different storage, and leak none;
* `Call.Safe`: the calls after which this still holds;
* `handlesSound_of_reachable`: it holds in every state that safe calls reach.
-/

namespace HeteroAccel.Mem

open MemoryManager

/-- The manager and the variables in which clients keep its blocks. A variable that has not been
used holds the invalid block. -/
structure Sys where
  mm : MemoryManager
  handles : ℕ → MemoryBlock := fun _ => {}
  /-- The variables whose storage was dropped under pressure. -/
  evicted : ℕ → Bool := fun _ => false

/-- The calls on the manager. A block is passed by the variable that holds it. -/
inductive Call where
  | allocate (v : ℕ) (size : UInt64) (preferred : MemoryLocation) (priority : MemoryPriority)
    (env : Environment)
  | release (v : ℕ)
  | move (v : ℕ) (destination : MemoryLocation) (env : Environment)
  | enforcePressureLimits (env : Environment)

namespace Sys

variable (s : Sys)

/-- A variable holds a live handle: a valid block whose storage was not dropped. -/
def Live (v : ℕ) : Prop := (s.handles v).id ≠ 0 ∧ s.evicted v = false

/-- The effect of a call. -/
def call : Call → Sys
  | .allocate v size preferred priority env =>
    let (block, mm) := s.mm.allocate env size preferred priority
    { mm
      handles := Function.update s.handles v block
      evicted := Function.update s.evicted v false }
  | .release v =>
    let (block, mm) := s.mm.release (s.handles v)
    { s with mm, handles := Function.update s.handles v block }
  | .move v destination env =>
    let (_, block, mm) := s.mm.move env (s.handles v) destination
    { s with mm, handles := Function.update s.handles v block }
  | .enforcePressureLimits env =>
    { s with
      mm := s.mm.enforcePressureLimits env
      evicted := fun v => s.evicted v ||
        ((s.handles v).location = .gpu && (s.mm.toEvict env).1.contains (s.handles v).id) }

/-- Clients do not overwrite a valid block, and new storage is not storage in use. -/
def Permits : Call → Prop
  | .allocate v _ _ _ env => (s.handles v).id = 0 ∧ env.Fresh s.mm
  | .release _ => True
  | .move _ _ env => env.Fresh s.mm
  | .enforcePressureLimits _ => True

end Sys

/-- A newly constructed manager, on a machine with so much CPU and GPU memory. -/
def MemoryManager.new (cpuBytes gpuBytes : UInt64) : MemoryManager :=
  { cpu := .new cpuBytes, gpu := .new gpuBytes }

/-- The manager and its clients, from the construction of the manager on. -/
def system : TransitionSystem Sys Call where
  Init s := ∃ cpuBytes gpuBytes, s = { mm := .new cpuBytes gpuBytes }
  Step s c s' := s.Permits c ∧ s' = s.call c

/-! ## The property -/

/-- The storage that a block denotes. -/
def MemoryBlock.storage (block : MemoryBlock) : MemoryLocation × ℕ :=
  (block.location, block.backendHandle)

/-- Some id stands for the storage. -/
def MemoryManager.StorageInUse (mm : MemoryManager) (storage : MemoryLocation × ℕ) : Prop :=
  ∃ sp id r, mm.inUse sp id = some r ∧ storage = (sp.location, r.handle)

/-- Handles neither alias nor leak. -/
structure HandlesSound (s : Sys) : Prop where
  /-- A live handle has an entry that describes its own storage, which is in use. -/
  tracked : ∀ v, s.Live v → ∃ e, s.mm.activeBlocks.lookup (s.handles v).id = some e ∧
    e.storage = (s.handles v).storage ∧ e.size = (s.handles v).size ∧
    ∃ sp, (s.handles v).location = sp.location ∧ s.mm.inUse sp (s.handles v).id =
      some ⟨(s.handles v).backendHandle, (s.handles v).size⟩
  /-- No other entry describes it. -/
  unique : ∀ v, s.Live v → ∀ k e, s.mm.activeBlocks.lookup k = some e →
    e.storage = (s.handles v).storage → k = (s.handles v).id
  /-- Distinct live handles denote distinct storage. -/
  distinct : ∀ v w, s.Live v → s.Live w → v ≠ w → (s.handles v).storage ≠ (s.handles w).storage
  /-- Releasing a live handle frees exactly its own storage. -/
  freed : ∀ v, s.Live v → ∀ storage,
    (s.mm.release (s.handles v)).2.StorageInUse storage ↔
      s.mm.StorageInUse storage ∧ storage ≠ (s.handles v).storage
  /-- It leaves the tracking of the other live handles as it was. -/
  others : ∀ v w, s.Live v → s.Live w → v ≠ w →
    (s.mm.release (s.handles v)).2.activeBlocks.lookup (s.handles w).id =
      s.mm.activeBlocks.lookup (s.handles w).id
  /-- All storage in use is that of some live handle. -/
  noLeak : ∀ storage, s.mm.StorageInUse storage → ∃ v, s.Live v ∧ (s.handles v).storage = storage

/-- The calls that neither use the key of a tracked block for another one nor exchange storage. -/
def Call.Safe (s : Sys) : Call → Prop
  -- the id that the next block will get is not the key of an entry
  | .allocate _ size preferred _ env => ∀ sp, servedFrom env s.mm size preferred = some sp →
      s.mm.activeBlocks.lookup ((s.mm.heap sp).nextBlockId size) = none
  -- a handle whose storage was dropped is not used where its id stands for another block
  | .release v => s.Live v ∨ s.mm.activeBlocks.lookup (s.handles v).id = none
  | .move v destination env => ¬ Relocates env s.mm (s.handles v) destination
  | .enforcePressureLimits _ => True

/-! ## The invariant -/

/-- An entry and a handle, or two entries, are about the same block. -/
structure SameBlock (e e' : MemoryBlock) : Prop where
  id : e'.id = e.id
  location : e'.location = e.location
  size : e'.size = e.size
  backendHandle : e'.backendHandle = e.backendHandle

theorem SameBlock.rel_refl : ∀ o : Option MemoryBlock, Option.Rel SameBlock o o
  | none => .none
  | some _ => .some ⟨rfl, rfl, rfl, rfl⟩

/-- The invariant of safe runs: live handles and entries correspond to each other, and every id in
use has an entry. -/
structure Owned (s : Sys) : Prop where
  tracked : Tracked s.mm
  live : ∀ v, s.Live v → ∃ e, s.mm.activeBlocks.lookup (s.handles v).id = some e ∧
    SameBlock (s.handles v) e
  inj : ∀ v w, s.Live v → s.Live w → (s.handles v).id = (s.handles w).id → v = w
  entry : ∀ k e, s.mm.activeBlocks.lookup k = some e →
    e.id = k ∧ ∃ v, s.Live v ∧ (s.handles v).id = k
  inUse : ∀ sp id r, s.mm.inUse sp id = some r →
    ∃ e, s.mm.activeBlocks.lookup id = some e ∧ e.location = sp.location

namespace Owned

variable {s s' : Sys} {v : ℕ}

theorem new (cpuBytes gpuBytes : UInt64) : Owned { mm := .new cpuBytes gpuBytes } where
  tracked := {
    heaps := fun sp => by
      cases sp
      · exact PooledAllocator.valid_new _ _
      · exact PooledAllocator.valid_new _ _
    key_ne_zero := fun k e he => by cases he
    entries := fun k e he => by cases he
    distinct := fun k k' e e' he => by cases he
    unregistered := rfl }
  live v hv := absurd rfl hv.1
  inj v w hv := absurd rfl hv.1
  entry k e he := by cases he
  inUse sp id r hr := by cases sp <;> cases hr

/-- The invariant survives a change of the manager that keeps the storage in use and what the
entries say of their blocks. -/
theorem of_sameBlock (h : Owned s) (htracked : Tracked s'.mm) (hinUse : s'.mm.inUse = s.mm.inUse)
    (hhandles : s'.handles = s.handles) (hevicted : s'.evicted = s.evicted)
    (hentries : ∀ k, Option.Rel SameBlock (s.mm.activeBlocks.lookup k)
      (s'.mm.activeBlocks.lookup k)) : Owned s' := by
  have hlive : ∀ v, s'.Live v ↔ s.Live v := fun v => by rw [Sys.Live, hhandles, hevicted, Sys.Live]
  -- the entries of both states correspond, whichever of the two is asked first
  have hforward : ∀ k e, s.mm.activeBlocks.lookup k = some e →
      ∃ e', s'.mm.activeBlocks.lookup k = some e' ∧ SameBlock e e' := by
    intro k e he
    have hrel := hentries k
    rw [he] at hrel
    generalize s'.mm.activeBlocks.lookup k = o at hrel ⊢
    rcases hrel with hsame | -
    exact ⟨_, rfl, hsame⟩
  have hback : ∀ k e', s'.mm.activeBlocks.lookup k = some e' →
      ∃ e, s.mm.activeBlocks.lookup k = some e ∧ SameBlock e e' := by
    intro k e' he'
    have hrel := hentries k
    rw [he'] at hrel
    generalize s.mm.activeBlocks.lookup k = o at hrel ⊢
    rcases hrel with hsame | -
    exact ⟨_, rfl, hsame⟩
  -- a live handle, two live handles with one id, an entry, a range in use
  refine ⟨htracked, fun v hv => ?_, fun v w hv hw heq => ?_, fun k e' he' => ?_,
    fun sp id r hr => ?_⟩
  · obtain ⟨e, he, hsame⟩ := h.live v ((hlive v).mp hv)
    obtain ⟨e', he', hsame'⟩ := hforward _ e he
    rw [hhandles]
    exact ⟨e', he', hsame'.id.trans hsame.id, hsame'.location.trans hsame.location,
      hsame'.size.trans hsame.size, hsame'.backendHandle.trans hsame.backendHandle⟩
  · rw [hhandles] at heq
    exact h.inj v w ((hlive v).mp hv) ((hlive w).mp hw) heq
  · obtain ⟨e, he, hsame⟩ := hback k e' he'
    obtain ⟨hid, v, hv, hvk⟩ := h.entry k e he
    exact ⟨hsame.id.trans hid, v, (hlive v).mpr hv, by rw [hhandles, hvk]⟩
  · rw [hinUse] at hr
    obtain ⟨e, he, hloc⟩ := h.inUse sp id r hr
    obtain ⟨e', he', hsame⟩ := hforward id e he
    exact ⟨e', he', hsame.location.trans hloc⟩

/-- The invariant survives when only variables without a live handle change. -/
theorem of_live (h : Owned s) (hmm : s'.mm = s.mm) (hlive : ∀ w, s'.Live w ↔ s.Live w)
    (hhandles : ∀ w, s.Live w → s'.handles w = s.handles w) : Owned s' := by
  refine ⟨hmm ▸ h.tracked, fun w hw => ?_, fun w w' hw hw' heq => ?_, fun k e he => ?_,
    fun sp id r hr => ?_⟩
  · rw [hhandles w ((hlive w).mp hw), hmm]
    exact h.live w ((hlive w).mp hw)
  · have hw := (hlive w).mp hw
    have hw' := (hlive w').mp hw'
    rw [hhandles w hw, hhandles w' hw'] at heq
    exact h.inj w w' hw hw' heq
  · obtain ⟨hid, w, hw, hwk⟩ := h.entry k e (hmm ▸ he)
    exact ⟨hid, w, (hlive w).mpr hw, by rw [hhandles w hw, hwk]⟩
  · rw [hmm] at hr ⊢
    exact h.inUse sp id r hr

/-- A new block under a key that was free becomes a new handle. -/
theorem of_allocated (h : Owned s) (hv : (s.handles v).id = 0) {env : Environment} {size : UInt64}
    {sp : Space} {block : MemoryBlock} {mm' : MemoryManager}
    (halloc : Allocated env s.mm size sp block mm')
    (hfree : s.mm.activeBlocks.lookup block.id = none) :
    Owned ⟨mm', Function.update s.handles v block, Function.update s.evicted v false⟩ := by
  set s' : Sys := ⟨mm', Function.update s.handles v block, Function.update s.evicted v false⟩
  have hself : s'.handles v = block := Function.update_self _ _ _
  have hother : ∀ w ≠ v, s'.handles w = s.handles w := fun w hw => Function.update_of_ne hw _ _
  have hnotLive : ¬ s.Live v := fun hlive => hlive.1 hv
  have hlive : ∀ w ≠ v, (s'.Live w ↔ s.Live w) := by
    intro w hw
    have hevicted : s'.evicted w = s.evicted w := Function.update_of_ne hw _ _
    rw [Sys.Live, hother w hw, hevicted, Sys.Live]
  -- a handle that was live has another id than the new block
  have hid : ∀ w, s.Live w → (s.handles w).id ≠ block.id := by
    intro w hw heq
    obtain ⟨e, he, -⟩ := h.live w hw
    rw [heq, hfree] at he
    cases he
  refine ⟨h.tracked.of_allocated halloc, fun w hw => ?_, fun w w' hw hw' heq => ?_,
    fun k e he => ?_, fun sp' id r hr => ?_⟩
  · by_cases hwv : w = v
    · subst hwv
      rw [hself]
      exact ⟨block, by rw [halloc.lookup, if_pos rfl], rfl, rfl, rfl, rfl⟩
    · have hw := (hlive w hwv).mp hw
      rw [hother w hwv, halloc.lookup, if_neg (hid w hw)]
      exact h.live w hw
  · by_contra hne
    by_cases hwv : w = v
    · subst hwv
      have hw' := (hlive w' (Ne.symm hne)).mp hw'
      rw [hself, hother w' (Ne.symm hne)] at heq
      exact hid w' hw' heq.symm
    · have hwlive := (hlive w hwv).mp hw
      by_cases hwv' : w' = v
      · subst hwv'
        rw [hself, hother w hne] at heq
        exact hid w hwlive heq
      · rw [hother w hwv, hother w' hwv'] at heq
        exact hne (h.inj w w' hwlive ((hlive w' hwv').mp hw') heq)
  · rw [halloc.lookup] at he
    split at he
    next hk =>
      cases he
      refine ⟨hk.symm, v, ⟨?_, Function.update_self _ _ _⟩, ?_⟩
      · rw [hself]
        exact halloc.id_pos.ne'
      · rw [hself, hk]
    next =>
      obtain ⟨hek, w, hw, hwk⟩ := h.entry k e he
      have hwv : w ≠ v := fun heq => hnotLive (heq ▸ hw)
      exact ⟨hek, w, (hlive w hwv).mpr hw, by rw [hother w hwv, hwk]⟩
  · rw [halloc.inUse] at hr
    split at hr
    next heq =>
      obtain ⟨rfl, rfl⟩ := heq
      exact ⟨block, by rw [halloc.lookup, if_pos rfl], halloc.location⟩
    next =>
      obtain ⟨e, he, hloc⟩ := h.inUse sp' id r hr
      have hne : id ≠ block.id := by
        rintro rfl
        rw [hfree] at he
        cases he
      exact ⟨e, by rw [halloc.lookup, if_neg hne, he], hloc⟩

/-- An entry is given up together with the handle to its block. -/
theorem of_dropped (h : Owned s) {k : ℕ} {e : MemoryBlock}
    (he : s.mm.activeBlocks.lookup k = some e) (hdrop : Dropped s.mm k e s'.mm)
    (hlive : ∀ w, s'.Live w ↔ s.Live w ∧ (s.handles w).id ≠ k)
    (hhandles : ∀ w, s'.Live w → s'.handles w = s.handles w) : Owned s' := by
  obtain ⟨hek, -⟩ := h.entry k e he
  refine ⟨h.tracked.of_dropped he hdrop, fun w hw => ?_, fun w w' hw hw' heq => ?_,
    fun k' e' he' => ?_, fun sp id r hr => ?_⟩
  · obtain ⟨hw', hne⟩ := (hlive w).mp hw
    rw [hhandles w hw, hdrop.lookup, if_neg hne]
    exact h.live w hw'
  · rw [hhandles w hw, hhandles w' hw'] at heq
    exact h.inj w w' ((hlive w).mp hw).1 ((hlive w').mp hw').1 heq
  · rw [hdrop.lookup] at he'
    split at he'
    next => cases he'
    next hne =>
      obtain ⟨hid, w, hw, hwk⟩ := h.entry k' e' he'
      have hw' := (hlive w).mpr ⟨hw, hwk ▸ hne⟩
      exact ⟨hid, w, hw', by rw [hhandles w hw', hwk]⟩
  · rw [hdrop.inUse] at hr
    split at hr
    next => cases hr
    next hne =>
      obtain ⟨e', he', hloc⟩ := h.inUse sp id r hr
      refine ⟨e', ?_, hloc⟩
      rw [hdrop.lookup, if_neg, he']
      -- the entry that went has no storage left in use
      rintro rfl
      rw [he] at he'
      cases he'
      exact hne ⟨hek, hloc, rfl⟩

end Owned

/-! ## Safe calls keep the invariant -/

namespace Sys

/-- The effect of one eviction on the manager and on the handles. -/
def evict (s : Sys) (id : ℕ) : Sys :=
  { s with
    mm := s.mm.evictBlock id
    evicted := fun v => s.evicted v ||
      ((s.handles v).location = .gpu && decide ((s.handles v).id = id)) }

/-- Dropping blocks under pressure is a sequence of single evictions. -/
theorem foldl_evict (s : Sys) (ids : List ℕ) :
    ids.foldl evict s = { s with
      mm := ids.foldl evictBlock s.mm
      evicted := fun v => s.evicted v ||
        ((s.handles v).location = .gpu && ids.contains (s.handles v).id) } := by
  induction ids generalizing s with
  | nil => simp
  | cons id ids ih =>
    rw [List.foldl_cons, ih]
    simp only [evict, List.foldl_cons, List.contains_cons, Bool.and_or_distrib_left, Bool.or_assoc]
    rfl

end Sys

variable {s : Sys} {v : ℕ}

/-- A safe allocation keeps the invariant. -/
theorem Owned.allocate (h : Owned s) {size : UInt64} {preferred : MemoryLocation}
    {priority : MemoryPriority} {env : Environment}
    (hpermits : s.Permits (.allocate v size preferred priority env))
    (hsafe : Call.Safe s (.allocate v size preferred priority env)) :
    Owned (s.call (.allocate v size preferred priority env)) := by
  obtain ⟨hv, hfresh⟩ := hpermits
  have hcall : s.call (.allocate v size preferred priority env) =
      ⟨(s.mm.allocate env size preferred priority).2,
        Function.update s.handles v (s.mm.allocate env size preferred priority).1,
        Function.update s.evicted v false⟩ := rfl
  rw [hcall]
  rcases allocate_cases h.tracked hfresh size preferred priority with
    ⟨-, hnone⟩ | ⟨sp, hserved, -, halloc⟩
  · -- nothing was served: the variable holds an invalid block, as before
    rw [hnone]
    refine h.of_live rfl (fun w => ?_) (fun w hw => ?_)
    · by_cases hwv : w = v
      · subst hwv
        simp [Sys.Live, hv]
      · simp [Sys.Live, hwv]
    · have hwv : w ≠ v := fun heq => hw.1 (heq ▸ hv)
      exact Function.update_of_ne hwv _ _
  · refine h.of_allocated hv halloc ?_
    rw [halloc.id]
    exact hsafe sp hserved

theorem Owned.release (h : Owned s) (hsafe : Call.Safe s (.release v)) :
    Owned (s.call (.release v)) := by
  have hcall : s.call (.release v) = { s with
      mm := (s.mm.release (s.handles v)).2
      handles := Function.update s.handles v (s.mm.release (s.handles v)).1 } := rfl
  rw [hcall]
  -- an invalid handle, one without an entry, and one whose block is freed
  rcases release_cases h.tracked (s.handles v) with
    ⟨-, heq⟩ | ⟨hid, hnone, heq⟩ | ⟨e, he, hblock, hdrop⟩
  · rw [heq]
    refine h.of_live rfl (fun w => ?_) (fun w _ => ?_)
    · simp [Sys.Live]
    · simp
  · -- the handle has no entry, so it was dropped earlier
    have hnotLive : ¬ s.Live v := by
      intro hlive
      obtain ⟨e, he, -⟩ := h.live v hlive
      rw [hnone] at he
      cases he
    rw [heq]
    refine h.of_live rfl (fun w => ?_) (fun w hw => ?_)
    · by_cases hwv : w = v
      · subst hwv
        simp [Sys.Live] at hnotLive ⊢
        exact hnotLive
      · simp [Sys.Live, hwv]
    · have hwv : w ≠ v := fun heq => hnotLive (heq ▸ hw)
      exact Function.update_of_ne hwv _ _
  · have hlive : s.Live v := by
      -- the guard of the call leaves live handles only
      rcases hsafe with hlive | hnone
      · exact hlive
      · rw [he] at hnone
        cases hnone
    rw [hblock]
    refine h.of_dropped he hdrop (fun w => ?_) (fun w hw => ?_)
    · by_cases hwv : w = v
      · subst hwv
        simp [Sys.Live]
      · have hne : s.Live w → (s.handles w).id ≠ (s.handles v).id :=
          fun hw heq => hwv (h.inj w v hw hlive heq)
        simp only [Sys.Live, Function.update_of_ne hwv] at hne ⊢
        tauto
    · have hwv : w ≠ v := by
        rintro rfl
        exact hw.1 (by simp)
      exact Function.update_of_ne hwv _ _

theorem Owned.move (h : Owned s) {destination : MemoryLocation} {env : Environment}
    (hfresh : env.Fresh s.mm) (hsafe : Call.Safe s (.move v destination env)) :
    Owned (s.call (.move v destination env)) := by
  have hcall : s.call (.move v destination env) = { s with
      mm := (s.mm.move env (s.handles v) destination).2.2
      handles := Function.update s.handles v
        (s.mm.move env (s.handles v) destination).2.1 } := rfl
  rw [hcall]
  rcases move_cases h.tracked hfresh (s.handles v) destination with
    ⟨-, heq⟩ | ⟨-, -, -, heq⟩ | ⟨-, -, tracked, mm', he, heq, hsame⟩ | ⟨hrel, -⟩
  · rw [heq, Function.update_eq_self]
    exact h
  · rw [heq, Function.update_eq_self]
    exact h
  · rw [heq, Function.update_eq_self]
    refine h.of_sameBlock ((h.tracked.touched he).of_sameBlocks hsame)
      (hsame.inUse.trans (inUse_congr rfl rfl)) rfl rfl fun k => ?_
    show Option.Rel SameBlock _ (mm'.activeBlocks.lookup k)
    rw [hsame.activeBlocks]
    show Option.Rel SameBlock _ ((s.mm.activeBlocks.insert _ _).lookup k)
    rw [KeyedMap.lookup_insert_eq_ite]
    split
    next hk =>
      -- the touched entry still describes the same block
      rw [hk, he]
      exact .some ⟨rfl, rfl, rfl, rfl⟩
    next => exact SameBlock.rel_refl _
  · exact absurd hrel hsafe

/-- The eviction of a GPU block keeps the invariant. -/
theorem Owned.evict (h : Owned s) {id : ℕ}
    (hgpu : ∀ e, s.mm.activeBlocks.lookup id = some e → e.location = .gpu) :
    Owned (s.evict id) := by
  have hnotId : s.mm.activeBlocks.lookup id = none → ∀ w, s.Live w → (s.handles w).id ≠ id := by
    rintro hnone w hw rfl
    obtain ⟨e, he, -⟩ := h.live w hw
    rw [hnone] at he
    cases he
  rcases evictBlock_cases h.tracked id with ⟨hnone, heq⟩ | ⟨e, he, hdrop⟩
  · refine h.of_live heq (fun w => ?_) (fun w _ => rfl)
    have := hnotId hnone w
    simp only [Sys.Live, Sys.evict, Bool.or_eq_false_iff, Bool.and_eq_false_iff,
      decide_eq_false_iff_not] at this ⊢
    tauto
  · refine h.of_dropped he hdrop (fun w => ?_) (fun w _ => rfl)
    -- the handle of the entry is in GPU memory, as the entry is
    have hloc : s.Live w → (s.handles w).id = id → (s.handles w).location = .gpu := by
      rintro hw rfl
      obtain ⟨e', he', hsame⟩ := h.live w hw
      rw [← hsame.location]
      exact hgpu e' he'
    simp only [Sys.Live, Sys.evict, Bool.or_eq_false_iff, Bool.and_eq_false_iff,
      decide_eq_false_iff_not] at hloc ⊢
    tauto

/-- The evictions under pressure keep the invariant. -/
theorem Owned.enforcePressureLimits (h : Owned s) (env : Environment) :
    Owned (s.call (.enforcePressureLimits env)) := by
  obtain ⟨⟨rm, hrm, hgrows⟩, hids⟩ := toEvict_spec env s.mm
  let touched : Sys := { s with mm := (s.mm.toEvict env).2 }
  have htouched : Owned touched := by
    refine h.of_sameBlock h.tracked.toEvict ?_ rfl rfl fun k => ?_
    · show (s.mm.toEvict env).2.inUse = _
      rw [hrm]
      exact inUse_congr rfl rfl
    · show Option.Rel SameBlock _ ((s.mm.toEvict env).2.activeBlocks.lookup k)
      rw [hrm]
      exact SameBlock.rel_refl _
  have hcall : s.call (.enforcePressureLimits env) =
      (s.mm.toEvict env).1.foldl Sys.evict touched := by
    rw [Sys.foldl_evict]
    rfl
  have hgpu : ∀ id ∈ (s.mm.toEvict env).1, ∀ e,
      touched.mm.activeBlocks.lookup id = some e → e.location = .gpu := by
    intro id hid e he
    obtain ⟨k, e', he', hloc, rfl⟩ := hids id hid
    have hactive : touched.mm.activeBlocks = s.mm.activeBlocks := by
      show (s.mm.toEvict env).2.activeBlocks = _
      rw [hrm]
    rw [hactive, (h.entry k e' he').1, he'] at he
    cases he
    exact hloc
  rw [hcall]
  generalize (s.mm.toEvict env).1 = ids at hgpu
  generalize touched = t at htouched hgpu
  -- the remaining ids keep naming GPU blocks, if they name a block
  induction ids generalizing t with
  | nil => exact htouched
  | cons id ids ih =>
    refine ih (t.evict id) (htouched.evict (hgpu id List.mem_cons_self)) fun id' hid' e he => ?_
    refine hgpu id' (List.mem_cons_of_mem _ hid') e ?_
    rcases evictBlock_cases htouched.tracked id with ⟨-, heq⟩ | ⟨e', he', hdrop⟩
    · exact heq ▸ he
    · have hlookup := hdrop.lookup id'
      have he : (t.mm.evictBlock id).activeBlocks.lookup id' = some e := he
      rw [he] at hlookup
      split at hlookup
      next => cases hlookup
      next => exact hlookup.symm

/-- Safe calls keep the invariant. -/
theorem Owned.step (h : Owned s) {c : Call} {s' : Sys} (hsafe : c.Safe s)
    (hstep : system.Step s c s') : Owned s' := by
  obtain ⟨hpermits, rfl⟩ := hstep
  cases c with
  | allocate v size preferred priority env => exact h.allocate hpermits hsafe
  | release v => exact h.release hsafe
  | move v destination env => exact h.move hpermits hsafe
  | enforcePressureLimits env => exact h.enforcePressureLimits env

/-- The invariant holds in every state that safe calls reach. -/
theorem owned_of_reachable (h : system.Reachable (fun s c => c.Safe s) s) : Owned s := by
  refine h.invariant ?_ fun s c s' hs hsafe hstep => hs.step hsafe hstep
  rintro s ⟨cpuBytes, gpuBytes, rfl⟩
  exact .new cpuBytes gpuBytes

/-! ## What the invariant says of handles -/

namespace Owned

/-- A live handle, its entry, and its storage. -/
theorem exists_entry (h : Owned s) (hv : s.Live v) :
    ∃ e sp, s.mm.activeBlocks.lookup (s.handles v).id = some e ∧ SameBlock (s.handles v) e ∧
      (s.handles v).location = sp.location ∧ s.mm.inUse sp (s.handles v).id =
        some ⟨(s.handles v).backendHandle, (s.handles v).size⟩ := by
  obtain ⟨e, he, hsame⟩ := h.live v hv
  rcases h.tracked.entries _ e he with ⟨sp, m, -, hloc, hstorage, -, -, -⟩ |
    ⟨sp, p, id, size, rfl, -⟩
  · refine ⟨e, sp, he, hsame, hsame.location ▸ hloc, ?_⟩
    rw [hstorage, hsame.backendHandle, hsame.size]
  · exact absurd hsame.id.symm hv.1

/-- The storage of a live handle belongs to its id only. -/
theorem storage_ne (h : Owned s) (hv : s.Live v) {sp : Space} {id : ℕ} {r : Record}
    (hr : s.mm.inUse sp id = some r) (heq : (sp.location, r.handle) = (s.handles v).storage) :
    id = (s.handles v).id := by
  obtain ⟨e, sp', he, hsame, hloc, hstorage⟩ := h.exists_entry hv
  obtain ⟨hsp, hhandle⟩ := Prod.mk.inj heq
  have : sp = sp' := Space.location_inj.mp (hsp.trans hloc)
  subst this
  exact (h.tracked.heaps sp).eq_of_inUse hr hstorage hhandle

/-- A release of a live handle gives up its entry. -/
theorem release_dropped (h : Owned s) (hv : s.Live v) :
    ∃ e, s.mm.activeBlocks.lookup (s.handles v).id = some e ∧ SameBlock (s.handles v) e ∧
      Dropped s.mm (s.handles v).id e (s.mm.release (s.handles v)).2 := by
  obtain ⟨e, he, hsame⟩ := h.live v hv
  rcases release_cases h.tracked (s.handles v) with ⟨hid, -⟩ | ⟨-, hnone, -⟩ | ⟨e', he', -, hdrop⟩
  · exact absurd hid hv.1
  · rw [he] at hnone
    cases hnone
  · rw [he] at he'
    cases he'
    exact ⟨e, he, hsame, hdrop⟩

/-- The handles of an owned state are sound. -/
theorem handlesSound (h : Owned s) : HandlesSound s where
  tracked v hv := by
    obtain ⟨e, sp, he, hsame, hloc, hstorage⟩ := h.exists_entry hv
    exact ⟨e, he, Prod.ext hsame.location hsame.backendHandle, hsame.size, sp, hloc, hstorage⟩
  unique v hv k e' he' heq := by
    obtain ⟨e, he, hsame⟩ := h.live v hv
    obtain ⟨hloc, hhandle⟩ := Prod.mk.inj heq
    exact h.tracked.distinct _ _ e' e he' he (hloc.trans hsame.location.symm)
      (hhandle.trans hsame.backendHandle.symm)
  distinct v w hv hw hne heq := by
    obtain ⟨e, sp, he, hsame, hloc, hstorage⟩ := h.exists_entry hv
    refine hne (h.inj v w hv hw (h.storage_ne hw hstorage ?_))
    rw [← heq, MemoryBlock.storage, hloc]
  freed v hv storage := by
    obtain ⟨e, he, hsame, hdrop⟩ := h.release_dropped hv
    have hid : e.id = (s.handles v).id := hsame.id
    constructor
    · rintro ⟨sp, id, r, hr, rfl⟩
      rw [hdrop.inUse] at hr
      split at hr
      next => cases hr
      next hkept =>
        refine ⟨⟨sp, id, r, hr, rfl⟩, fun heq => hkept ⟨hid, ?_, h.storage_ne hv hr heq⟩⟩
        exact hsame.location.trans (Prod.mk.inj heq).1.symm
    · rintro ⟨⟨sp, id, r, hr, rfl⟩, hne⟩
      refine ⟨sp, id, r, ?_, rfl⟩
      rw [hdrop.inUse, if_neg, hr]
      -- what was dropped is the storage of the handle
      rintro ⟨-, hloc, rfl⟩
      obtain ⟨e', sp', -, -, hloc', hstorage⟩ := h.exists_entry hv
      have : sp = sp' := Space.location_inj.mp (hloc.symm.trans (hsame.location.trans hloc'))
      subst this
      rw [hstorage] at hr
      cases hr
      exact hne (by rw [MemoryBlock.storage, hloc'])
  others v w hv hw hne := by
    obtain ⟨e, -, -, hdrop⟩ := h.release_dropped hv
    rw [hdrop.lookup, if_neg fun heq => hne (h.inj v w hv hw heq.symm)]
  noLeak := by
    rintro storage ⟨sp, id, r, hr, rfl⟩
    obtain ⟨e, he, hloc⟩ := h.inUse sp id r hr
    obtain ⟨-, v, hv, rfl⟩ := h.entry id e he
    obtain ⟨e', sp', he', hsame, hloc', hstorage⟩ := h.exists_entry hv
    rw [he] at he'
    cases he'
    have : sp = sp' := Space.location_inj.mp (hloc.symm.trans (hsame.location.trans hloc'))
    subst this
    rw [hstorage] at hr
    cases hr
    exact ⟨v, hv, by rw [MemoryBlock.storage, hloc']⟩

end Owned

/-- Handles neither alias nor leak in any state that is reached by allocations whose id is not the
key of a tracked block, moves that do not exchange storage, releases of live handles, and
evictions. -/
theorem handlesSound_of_reachable (s : Sys) (h : system.Reachable (fun s c => c.Safe s) s) :
    HandlesSound s :=
  (owned_of_reachable h).handlesSound

/-! ## Runs -/

section Decidable

instance (h : PooledAllocator) (ans : Answer) : Decidable (h.Fresh ans) :=
  decidable_of_iff (∀ entry ∈ h.allocator.records.entries, entry.2.handle ≠ ans.handle)
    ⟨fun hall id r hr => hall ⟨id, r⟩ (KeyedMap.mem_entries_iff.mpr hr),
      fun hfresh entry hentry => hfresh entry.1 entry.2 (KeyedMap.mem_entries_iff.mp hentry)⟩

instance (p : Space → Prop) [DecidablePred p] : Decidable (∀ sp, p sp) :=
  decidable_of_iff (p .cpu ∧ p .gpu)
    ⟨fun ⟨hcpu, hgpu⟩ sp => match sp with | .cpu => hcpu | .gpu => hgpu,
      fun h => ⟨h .cpu, h .gpu⟩⟩

instance (p : Space → Prop) [DecidablePred p] : Decidable (∃ sp, p sp) :=
  decidable_of_iff (p .cpu ∨ p .gpu)
    ⟨fun h => h.elim (⟨.cpu, ·⟩) (⟨.gpu, ·⟩),
      fun ⟨sp, h⟩ => match sp with | .cpu => .inl h | .gpu => .inr h⟩

instance (env : Environment) (mm : MemoryManager) : Decidable (env.Fresh mm) :=
  inferInstanceAs (Decidable (∀ sp, (mm.heap sp).Fresh (env.answer sp)))

instance (s : Sys) (v : ℕ) : Decidable (s.Live v) :=
  inferInstanceAs (Decidable (_ ∧ _))

instance (env : Environment) (mm : MemoryManager) (block : MemoryBlock)
    (destination : MemoryLocation) : Decidable (Relocates env mm block destination) :=
  decidable_of_iff (block.id ≠ 0 ∧ block.location ≠ destination ∧
    ∃ tracked ∈ mm.activeBlocks.lookup block.id, ∃ src dst : Space, src ≠ dst ∧
      tracked.location = src.location ∧ destination = dst.location ∧
      serves env mm tracked.size dst = true ∧ env.available = true ∧ env.transferOk = true)
    ⟨fun ⟨hid, hloc, tracked, he, src, dst, h⟩ => ⟨hid, hloc, tracked, src, dst, he, h⟩,
      fun ⟨hid, hloc, tracked, src, dst, he, h⟩ => ⟨hid, hloc, tracked, he, src, dst, h⟩⟩

instance (s : Sys) : ∀ c, Decidable (s.Permits c)
  | .allocate _ _ _ _ env => inferInstanceAs (Decidable (_ ∧ env.Fresh s.mm))
  | .release _ => inferInstanceAs (Decidable True)
  | .move _ _ env => inferInstanceAs (Decidable (env.Fresh s.mm))
  | .enforcePressureLimits _ => inferInstanceAs (Decidable True)

instance (s : Sys) : ∀ c : Call, Decidable (c.Safe s)
  | .allocate _ size preferred _ env => inferInstanceAs (Decidable (∀ sp,
      servedFrom env s.mm size preferred = some sp →
      s.mm.activeBlocks.lookup ((s.mm.heap sp).nextBlockId size) = none))
  | .release v => inferInstanceAs (Decidable (s.Live v ∨ _))
  | .move v destination env =>
    inferInstanceAs (Decidable (¬ Relocates env s.mm (s.handles v) destination))
  | .enforcePressureLimits _ => inferInstanceAs (Decidable True)

end Decidable

/-- A run from a newly constructed manager. -/
def sampleRun (calls : List Call) : Sys := calls.foldl Sys.call { mm := .new 0 0 }

/-- A run whose calls are permitted and meet the guard reaches its last state. -/
theorem reachable_sampleRun {guard : Sys → Call → Prop} {calls : List Call}
    (h : TransitionSystem.Along (fun s c => guard s c ∧ s.Permits c) Sys.call
      { mm := .new 0 0 } calls) : system.Reachable guard (sampleRun calls) := by
  have hinit : system.Reachable guard { mm := .new 0 0 } := .init ⟨0, 0, rfl⟩
  refine hinit.foldl (fun s c hok => ?_) h
  exact ⟨hok.1, hok.2, rfl⟩

/-- Blocks of both memories and of the pool, a move whose transfer fails and two releases: one id is
used in both memories, one after the other. -/
theorem handlesSound_of_reachable_sampleRun :
    HandlesSound (sampleRun [
      .allocate 0 16 .cpu .normal { malloc := 1000 },
      .allocate 1 poolBlockSize .cpu .normal { malloc := 2000 },
      .release 0,
      .allocate 2 16 .gpu .high { createBuffer := 1 },
      .move 1 .gpu { createBuffer := 2, transferOk := false },
      .release 1]) :=
  handlesSound_of_reachable _ (reachable_sampleRun (by decide +kernel))

/-- A CPU block and a GPU block both get the id 1, and the entry of the first is overwritten. -/
theorem not_handlesSound_sampleRun :
    ¬ ∀ s, system.Reachable TransitionSystem.anyCall s → HandlesSound s := by
  intro hall
  have hsound := hall (sampleRun [
    .allocate 0 16 .cpu .normal { malloc := 1000 },
    .allocate 1 16 .gpu .normal { createBuffer := 7 }])
    (reachable_sampleRun (by decide +kernel))
  obtain ⟨e, he, hstorage, -⟩ := hsound.tracked 0 (by decide +kernel)
  have hoverwritten : ¬ ∃ e ∈ (sampleRun [
      .allocate 0 16 .cpu .normal { malloc := 1000 },
      .allocate 1 16 .gpu .normal { createBuffer := 7 }]).mm.activeBlocks.lookup 1,
      e.storage = (.cpu, 1000) := by
    decide +kernel
  exact hoverwritten ⟨e, he, hstorage⟩

end HeteroAccel.Mem
