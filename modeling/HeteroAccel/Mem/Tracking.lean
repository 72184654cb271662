import HeteroAccel.Mem.MemoryManager

/-!
# What the map of tracked blocks means

The map `activeBlocks` is keyed by ids that two allocators give out independently, and a successful
`move` leaves an invalid block in it. In spite of both, some facts hold whatever is called: each
entry denotes storage that is in use, no two entries denote the same storage, and an entry that is
still valid has the record of the residency manager under its key.

## Main definitions

* `EntrySound`: the two shapes of an entry, with the storage behind it;
* `Tracked`: the invariant;
* `allocate_of_servedFrom`, `move_cases`: what the calls of the manager do to a tracked state;
* `Tracked.allocate`, `Tracked.release`, `Tracked.move`, `Tracked.enforcePressureLimits`: they
  preserve the invariant.
-/

namespace HeteroAccel.Mem

/-- What is known of a block has only grown. -/
def Meta.Grows (m m' : Meta) : Prop := m'.residency = m.residency ∧ m.accessCount ≤ m'.accessCount

theorem Meta.Grows.refl (m : Meta) : m.Grows m := ⟨rfl, le_refl _⟩

theorem Meta.Grows.trans {m m' m'' : Meta} (h : m.Grows m') (h' : m'.Grows m'') : m.Grows m'' :=
  ⟨h'.1.trans h.1, h.2.trans h'.2⟩

namespace ResidencyManager

/-- Every block is known to both, and what is known of it has only grown. -/
def Grows (rm rm' : ResidencyManager) : Prop :=
  ∀ id, Option.Rel Meta.Grows (rm.records.lookup id) (rm'.records.lookup id)

theorem Grows.refl (rm : ResidencyManager) : rm.Grows rm := fun id =>
  match rm.records.lookup id with
  | none => .none
  | some m => .some (.refl m)

/-- The residency manager's records grow step by step. -/
theorem Grows.trans {rm rm' rm'' : ResidencyManager} (h : rm.Grows rm') (h' : rm'.Grows rm'') :
    rm.Grows rm'' := by
  intro id
  have h₁ := h id
  have h₂ := h' id
  generalize rm.records.lookup id = a, rm'.records.lookup id = b, rm''.records.lookup id = c
    at h₁ h₂ ⊢
  rcases h₁ with h₁ | -
  · rcases h₂ with h₂ | -
    exact .some (h₁.trans h₂)
  · exact h₂

theorem grows_touch (rm : ResidencyManager) (now : ℤ) (id : ℕ) : rm.Grows (rm.touch now id) := by
  intro id'
  rw [lookup_touch]
  split
  next h =>
    subst h
    rcases rm.records.lookup id' with - | m
    · exact .none
    · exact .some ⟨rfl, Nat.le_succ _⟩
  next => exact Grows.refl rm id'

end ResidencyManager

/-- The block that a successful `move` leaves in the map: the old block was overwritten when its
storage was freed, and only the location and the storage were filled in again. -/
def movedBlock (sp : Space) (handle : ℕ) : MemoryBlock :=
  { location := sp.location, residency := .disk, backendHandle := handle }

/-- An entry and the storage behind it. `inUse` is the storage in use, `info` what the residency
manager knows. -/
inductive EntrySound (inUse : Space → ℕ → Option Record) (info : ℕ → Option Meta) (k : ℕ)
    (e : MemoryBlock) : Prop
  /-- A valid block, under its own id. -/
  | own (sp : Space) (m : Meta) (id : e.id = k) (location : e.location = sp.location)
      (storage : inUse sp k = some ⟨e.backendHandle, e.size⟩) (known : info k = some m)
      (residency : m.residency = sp.residency) (accessCount : e.accessCount ≤ m.accessCount)
  /-- What a move left, whose storage has some other id. -/
  | moved (sp : Space) (handle id : ℕ) (size : UInt64) (eq : e = movedBlock sp handle)
      (storage : inUse sp id = some ⟨handle, size⟩)

namespace EntrySound

variable {inUse inUse' : Space → ℕ → Option Record} {info info' : ℕ → Option Meta} {k : ℕ}
  {e : MemoryBlock}

/-- Every entry has storage in use. -/
theorem exists_inUse (h : EntrySound inUse info k e) :
    ∃ sp id r, e.location = sp.location ∧ inUse sp id = some r ∧ r.handle = e.backendHandle := by
  rcases h with ⟨sp, m, hid, hloc, hstorage, -, -, -⟩ | ⟨sp, handle, id, size, rfl, hstorage⟩
  · exact ⟨sp, k, _, hloc, hstorage, rfl⟩
  · exact ⟨sp, id, _, rfl, hstorage, rfl⟩

/-- An entry stays sound as long as its storage stays in use. -/
theorem mono (h : EntrySound inUse info k e)
    (hstorage : ∀ sp id r, e.location = sp.location → inUse sp id = some r →
      r.handle = e.backendHandle → inUse' sp id = some r)
    (hinfo : Option.Rel Meta.Grows (info k) (info' k)) : EntrySound inUse' info' k e := by
  rcases h with ⟨sp, m, hid, hloc, hst, hm, hres, hcount⟩ | ⟨sp, handle, id, size, rfl, hst⟩
  · rw [hm] at hinfo
    obtain ⟨m', hm', hgrows⟩ : ∃ m', info' k = some m' ∧ m.Grows m' := by
      rcases hk : info' k with - | m' <;> rw [hk] at hinfo
      · cases hinfo
      · exact ⟨m', rfl, by cases hinfo; assumption⟩
    exact .own sp m' hid hloc (hstorage sp k _ hloc hst rfl) hm' (hgrows.1.trans hres)
      (hcount.trans hgrows.2)
  · exact .moved sp handle id size rfl (hstorage sp id _ rfl hst rfl)

/-- A valid entry is under its own id. -/
theorem id_eq (h : EntrySound inUse info k e) (hid : e.id ≠ 0) : e.id = k := by
  rcases h with ⟨_, _, hk, _, _, _, _, _⟩ | ⟨_, _, _, _, rfl, _⟩
  · exact hk
  · exact absurd rfl hid

end EntrySound

/-- The answers of `malloc` and of `createBuffer` are storage that is not in use. -/
def Environment.Fresh (env : Environment) (mm : MemoryManager) : Prop :=
  ∀ sp, (mm.heap sp).Fresh (env.answer sp)

namespace MemoryManager

/-- The invariant of the manager. -/
structure Tracked (mm : MemoryManager) : Prop where
  heaps : ∀ sp, (mm.heap sp).Valid sp
  key_ne_zero : ∀ k e, mm.activeBlocks.lookup k = some e → k ≠ 0
  entries : ∀ k e, mm.activeBlocks.lookup k = some e →
    EntrySound mm.inUse mm.residencyManager.records.lookup k e
  /-- No two entries denote the same storage. -/
  distinct : ∀ k k' e e', mm.activeBlocks.lookup k = some e →
    mm.activeBlocks.lookup k' = some e' → e.location = e'.location →
    e.backendHandle = e'.backendHandle → k = k'
  unregistered : mm.residencyManager.records.lookup 0 = none

variable {env : Environment} {mm mm' : MemoryManager} {k id : ℕ} {e block : MemoryBlock}
  {sp : Space}

/-- Calls change one entry at a time: the invariant survives if the other entries, their storage and
their records are kept, and the changed entry denotes storage that no other entry denotes. -/
theorem Tracked.of_change (hmm : Tracked mm) (k : ℕ) (hheaps : ∀ sp, (mm'.heap sp).Valid sp)
    (hother : ∀ k' ≠ k, mm'.activeBlocks.lookup k' = mm.activeBlocks.lookup k')
    (hinfo : ∀ k' ≠ k, Option.Rel Meta.Grows (mm.residencyManager.records.lookup k')
      (mm'.residencyManager.records.lookup k'))
    (hstorage : ∀ k' ≠ k, ∀ e', mm.activeBlocks.lookup k' = some e' → ∀ sp id r,
      e'.location = sp.location → mm.inUse sp id = some r → r.handle = e'.backendHandle →
      mm'.inUse sp id = some r)
    (hnew : ∀ e, mm'.activeBlocks.lookup k = some e → k ≠ 0 ∧
      EntrySound mm'.inUse mm'.residencyManager.records.lookup k e ∧
      ∀ k' ≠ k, ∀ e', mm.activeBlocks.lookup k' = some e' → e'.location = e.location →
        e'.backendHandle ≠ e.backendHandle)
    (hzero : mm'.residencyManager.records.lookup 0 = none) : Tracked mm' := by
  refine ⟨hheaps, fun k' e' he' => ?_, fun k' e' he' => ?_,
    fun k₁ k₂ e₁ e₂ h₁ h₂ hloc hhandle => ?_,
    hzero⟩
  · by_cases hk : k' = k
    · exact hk ▸ (hnew e' (hk ▸ he')).1
    · exact hmm.key_ne_zero k' e' (hother k' hk ▸ he')
  · by_cases hk : k' = k
    · exact hk ▸ (hnew e' (hk ▸ he')).2.1
    · have hold := hother k' hk ▸ he'
      exact (hmm.entries k' e' hold).mono (hstorage k' hk e' hold) (hinfo k' hk)
  · -- at most one of two different keys is the changed one
    by_contra hne
    by_cases hk₁ : k₁ = k
    · subst hk₁
      have hold := hother k₂ (Ne.symm hne) ▸ h₂
      exact (hnew e₁ h₁).2.2 k₂ (Ne.symm hne) e₂ hold hloc.symm hhandle.symm
    · by_cases hk₂ : k₂ = k
      · subst hk₂
        exact (hnew e₂ h₂).2.2 k₁ hne e₁ (hother k₁ hne ▸ h₁) hloc hhandle
      · exact hne (hmm.distinct k₁ k₂ e₁ e₂ (hother k₁ hk₁ ▸ h₁) (hother k₂ hk₂ ▸ h₂) hloc hhandle)

/-- The invariant survives when blocks are touched. -/
theorem Tracked.of_grows (hmm : Tracked mm) (hheaps : ∀ sp, (mm'.heap sp).Valid sp)
    (hinUse : mm'.inUse = mm.inUse) (hactive : mm'.activeBlocks = mm.activeBlocks)
    (hinfo : mm.residencyManager.Grows mm'.residencyManager) : Tracked mm' := by
  have hzero : mm'.residencyManager.records.lookup 0 = none := by
    have := hinfo 0
    rw [hmm.unregistered] at this
    generalize mm'.residencyManager.records.lookup 0 = o at this ⊢
    cases this
    rfl
  refine hmm.of_change 0 hheaps (fun k' _ => by rw [hactive]) (fun k' _ => hinfo k')
    (fun k' _ e' he' sp id r _ hr _ => by rw [hinUse]; exact hr) (fun e he => ?_) hzero
  rw [hactive] at he
  exact absurd rfl (hmm.key_ne_zero 0 e he)

/-- Storage that comes into use is denoted by no entry. -/
theorem Tracked.ne_of_unused (hmm : Tracked mm) (hheaps : ∀ sp, (mm'.heap sp).Valid sp)
    {p : ℕ} {size : UInt64} (hunused : mm.inUse sp id = none)
    (hnew : mm'.inUse sp id = some ⟨p, size⟩)
    (hkeep : ∀ id' r, mm.inUse sp id' = some r → mm'.inUse sp id' = some r)
    (he : mm.activeBlocks.lookup k = some e) (hloc : e.location = sp.location) :
    e.backendHandle ≠ p := by
  intro hhandle
  obtain ⟨sp', id', r, hloc', hr, hrh⟩ := (hmm.entries k e he).exists_inUse
  have hsp : sp' = sp := Space.location_inj.mp (hloc'.symm.trans hloc)
  subst hsp
  -- the entry's storage has another id, so it is still in use next to the new one
  have hne : id' ≠ id := by
    rintro rfl
    rw [hunused] at hr
    cases hr
  exact hne ((hheaps sp').eq_of_inUse (hkeep id' r hr) hnew (hrh.trans hhandle))

/-! ## The two memories -/

/-- The heaps depend on the two allocators only. -/
theorem heap_congr (hcpu : mm'.cpu = mm.cpu) (hgpu : mm'.gpu = mm.gpu) : mm'.heap = mm.heap := by
  funext sp
  cases sp
  · exact hcpu
  · exact hgpu

/-- The blocks in use depend on the two allocators only. -/
theorem inUse_congr (hcpu : mm'.cpu = mm.cpu) (hgpu : mm'.gpu = mm.gpu) :
    mm'.inUse = mm.inUse := by
  funext sp id
  rw [inUse, heap_congr hcpu hgpu, inUse]

/-- A change of one memory leaves the blocks in use of the other one. -/
theorem inUse_setHeap (sp' : Space) {h : PooledAllocator} :
    (mm.setHeap sp h).inUse sp' = if sp' = sp then h.inUse else mm.inUse sp' := by
  funext id
  split
  next hsp => rw [hsp, inUse, heap_setHeap_self]
  next hsp => rw [inUse, heap_setHeap_of_ne hsp, inUse]

theorem heap_valid_setHeap (hheaps : ∀ sp, (mm.heap sp).Valid sp) {h : PooledAllocator}
    (hv : h.Valid sp) (sp' : Space) : ((mm.setHeap sp h).heap sp').Valid sp' := by
  by_cases hsp : sp' = sp
  · subst hsp
    rwa [heap_setHeap_self]
  · rw [heap_setHeap_of_ne hsp]
    exact hheaps sp'

/-! ## Touching -/

@[simp]
theorem syncBlockResidency_snd (mm : MemoryManager) (block : MemoryBlock) :
    (mm.syncBlockResidency env block).2 =
      { mm with residencyManager := mm.residencyManager.touch env.now block.id } := rfl

/-- The copy of a registered block gets the time and the count of the touch. -/
theorem syncBlockResidency_fst {m : Meta}
    (hm : mm.residencyManager.records.lookup block.id = some m) :
    (mm.syncBlockResidency env block).1 =
      { block with
        lastAccessed := env.now
        accessCount := m.accessCount + 1
        residency := m.residency } := by
  have htouch := mm.residencyManager.lookup_touch env.now block.id block.id
  rw [if_pos rfl, hm] at htouch
  simp [syncBlockResidency, ResidencyManager.getBlockInfo, ResidencyManager.getResidency, htouch]

/-- Nothing is known of an invalid block. -/
theorem syncBlockResidency_of_id_eq_zero
    (hzero : mm.residencyManager.records.lookup 0 = none) (hid : block.id = 0) :
    mm.syncBlockResidency env block =
      ({ block with lastAccessed := 0, accessCount := 0, residency := .disk }, mm) := by
  rw [← hid] at hzero
  have htouch := mm.residencyManager.touch_of_lookup_eq_none env.now hzero
  simp [syncBlockResidency, htouch, ResidencyManager.getBlockInfo, ResidencyManager.getResidency,
    hzero]

/-! ## Allocation -/

/-- Whether an allocation in one of the memories succeeds. -/
def serves (env : Environment) (mm : MemoryManager) (size : UInt64) (sp : Space) : Bool :=
  (mm.heap sp).canServe sp (env.answer sp) size

/-- The memory that an allocation is served from. The CPU is tried when the GPU cannot serve. -/
def servedFrom (env : Environment) (mm : MemoryManager) (size : UInt64)
    (preferred : MemoryLocation) : Option Space :=
  match preferred with
  | .cpu => if serves env mm size .cpu then some .cpu else none
  | .gpu =>
    if serves env mm size .gpu then some .gpu
    else if serves env mm size .cpu then some .cpu
    else none
  | _ => none

/-- A memory that can serve hands out a block whose id was not in use. -/
theorem Tracked.granted (hmm : Tracked mm) (hfresh : env.Fresh mm) {size : UInt64}
    (hserve : serves env mm size sp = true) :
    PooledAllocator.Granted sp (mm.heap sp) size ((mm.heap sp).allocate sp (env.answer sp) size).1
      ((mm.heap sp).allocate sp (env.answer sp) size).2 :=
  (hmm.heaps sp).allocate_of_canServe (hfresh sp) hserve

/-- The memory an allocation is served from can serve it. -/
theorem serves_of_servedFrom {size : UInt64} {preferred : MemoryLocation}
    (h : servedFrom env mm size preferred = some sp) : serves env mm size sp = true := by
  unfold servedFrom at h
  split at h
  · split_ifs at h
    cases h
    assumption
  · split_ifs at h <;> cases h <;> assumption
  · cases h

/-- An allocation that is served from a memory takes storage there and tracks the block. -/
theorem allocate_of_servedFrom (hmm : Tracked mm) (hfresh : env.Fresh mm) {size : UInt64}
    {preferred : MemoryLocation} (priority : MemoryPriority)
    (h : servedFrom env mm size preferred = some sp) :
    mm.allocate env size preferred priority =
      (mm.setHeap sp ((mm.heap sp).allocate sp (env.answer sp) size).2).trackBlock env
        ((mm.heap sp).allocate sp (env.answer sp) size).1 priority := by
  have hvalid : ((mm.heap sp).allocate sp (env.answer sp) size).1.isValid = true :=
    MemoryBlock.isValid_iff.mpr (hmm.granted hfresh (serves_of_servedFrom h)).pos.ne'
  unfold servedFrom at h
  unfold allocate
  split at h
  · split_ifs at h
    cases h
    rw [show MemoryLocation.cpu = Space.cpu.location from rfl, allocateInternal_location]
    simp [hvalid]
  · split_ifs at h with hgpu
    · cases h
      rw [show MemoryLocation.gpu = Space.gpu.location from rfl, allocateInternal_location]
      simp [hvalid]
    · -- the GPU has returned the invalid block, and nothing has changed
      cases h
      have hfail := (hmm.heaps .gpu).allocate_of_not_canServe (eq_false_of_ne_true hgpu)
      have hretry : mm.allocateInternal env size .gpu = ({}, mm) := by
        rw [show MemoryLocation.gpu = Space.gpu.location from rfl, allocateInternal_location, hfail,
          setHeap_heap]
      rw [hretry]
      simp only [MemoryBlock.isValid, ne_eq, not_true_eq_false, decide_false, Bool.not_false,
        decide_true, Bool.and_self, if_true]
      rw [show MemoryLocation.cpu = Space.cpu.location from rfl, allocateInternal_location]
      rw [if_pos (by simpa using hvalid)]
  · cases h

/-- An allocation that no memory can serve returns the invalid block and changes nothing. -/
theorem allocate_of_servedFrom_eq_none (hmm : Tracked mm) {size : UInt64}
    {preferred : MemoryLocation} (priority : MemoryPriority)
    (h : servedFrom env mm size preferred = none) :
    mm.allocate env size preferred priority = ({}, mm) := by
  have hfail : ∀ sp : Space, ¬ serves env mm size sp = true →
      mm.allocateInternal env size sp.location = ({}, mm) := by
    intro sp hserve
    rw [allocateInternal_location,
      (hmm.heaps sp).allocate_of_not_canServe (eq_false_of_ne_true hserve), setHeap_heap]
  unfold servedFrom at h
  unfold allocate
  split at h
  · split_ifs at h with hcpu
    rw [show MemoryLocation.cpu = Space.cpu.location from rfl, hfail .cpu hcpu]
    rfl
  · split_ifs at h with hgpu hcpu
    have hcpu' : mm.allocateInternal env size .cpu = ({}, mm) := hfail .cpu hcpu
    rw [show MemoryLocation.gpu = Space.gpu.location from rfl, hfail .gpu hgpu]
    simp [hcpu', Space.location]
  · rcases preferred with - | - | - | - <;> first | contradiction | rfl

/-- The block that an allocation returns and tracks. -/
def trackedBlock (env : Environment) (sp : Space) (block : MemoryBlock)
    (priority : MemoryPriority) : MemoryBlock :=
  { block with priority, lastAccessed := env.now, accessCount := 1, residency := sp.residency }

theorem trackBlock_eq (mm : MemoryManager) (hloc : block.location = sp.location)
    (priority : MemoryPriority) :
    mm.trackBlock env block priority =
      (trackedBlock env sp block priority,
        { mm with
          residencyManager :=
            (mm.residencyManager.registerBlock env.now block.id sp.residency).touch env.now block.id
          activeBlocks :=
            mm.activeBlocks.insert block.id (trackedBlock env sp block priority) }) := by
  have hres : (if block.location = MemoryLocation.gpu then Residency.gpu else .cpu) =
      sp.residency := by
    rw [hloc]
    cases sp <;> rfl
  have hsync := @syncBlockResidency_fst env { mm with
    residencyManager := mm.residencyManager.registerBlock env.now block.id sp.residency }
    { block with priority } _ (AList.lookup_insert _)
  simp only [trackBlock, hres, hsync, syncBlockResidency_snd]
  rfl

/-- What an allocation has recorded of its block. -/
theorem lookup_registerBlock_touch (rm : ResidencyManager) (now : ℤ) (residency : Residency)
    (k : ℕ) : ((rm.registerBlock now id residency).touch now id).records.lookup k =
      if k = id then some ⟨residency, now, 1⟩ else rm.records.lookup k := by
  rw [ResidencyManager.lookup_touch]
  show (if k = id then (AList.lookup id (rm.records.insert id ⟨residency, now, 0⟩)).map _
    else (rm.records.insert id ⟨residency, now, 0⟩).lookup k) = _
  rw [AList.lookup_insert]
  split
  next => rfl
  next hne => exact AList.lookup_insert_ne hne

/-- The effect of an allocation that is served: one id comes into use in one memory, and becomes the
key of the block's entry and record. -/
structure Allocated (env : Environment) (mm : MemoryManager) (size : UInt64) (sp : Space)
    (block : MemoryBlock) (mm' : MemoryManager) : Prop where
  heaps : ∀ sp, (mm'.heap sp).Valid sp
  id : block.id = (mm.heap sp).nextBlockId size
  id_pos : 0 < block.id
  location : block.location = sp.location
  size_eq : block.size = size
  accessCount : block.accessCount = 1
  unused : mm.inUse sp block.id = none
  inUse : ∀ sp' k, mm'.inUse sp' k =
    if sp' = sp ∧ k = block.id then some ⟨block.backendHandle, block.size⟩ else mm.inUse sp' k
  lookup : ∀ k, mm'.activeBlocks.lookup k =
    if k = block.id then some block else mm.activeBlocks.lookup k
  info : ∀ k, mm'.residencyManager.records.lookup k =
    if k = block.id then some ⟨sp.residency, env.now, 1⟩
    else mm.residencyManager.records.lookup k

/-- An allocation returns a block with the effect of a served allocation, or the invalid block
without any effect. -/
theorem allocate_cases (hmm : Tracked mm) (hfresh : env.Fresh mm) (size : UInt64)
    (preferred : MemoryLocation) (priority : MemoryPriority) :
    (servedFrom env mm size preferred = none ∧
      mm.allocate env size preferred priority = ({}, mm)) ∨
    ∃ sp, servedFrom env mm size preferred = some sp ∧
      (mm.allocate env size preferred priority).1.priority = priority ∧
      Allocated env mm size sp (mm.allocate env size preferred priority).1
        (mm.allocate env size preferred priority).2 := by
  cases hserved : servedFrom env mm size preferred with
  | none => exact .inl ⟨rfl, allocate_of_servedFrom_eq_none hmm priority hserved⟩
  | some sp =>
    have hgrant := hmm.granted hfresh (serves_of_servedFrom hserved)
    rw [allocate_of_servedFrom hmm hfresh priority hserved, trackBlock_eq _ hgrant.location]
    refine .inr ⟨sp, rfl, rfl, ?_⟩
    -- each field of `Allocated`, read off the granted block
    exact {
      heaps := heap_valid_setHeap hmm.heaps hgrant.valid
      id := hgrant.id
      id_pos := hgrant.pos
      location := hgrant.location
      size_eq := hgrant.size_eq
      accessCount := rfl
      unused := hgrant.unused
      inUse := fun sp' k => by
        show (mm.setHeap sp _).inUse sp' k = _
        rw [inUse_setHeap]
        by_cases hsp : sp' = sp
        · subst hsp
          rw [if_pos rfl, hgrant.inUse, Function.update_apply]
          simp only [true_and, trackedBlock, hgrant.size_eq]
          rfl
        · rw [if_neg hsp, if_neg (fun h => hsp h.1)]
      lookup := fun k => by
        show AList.lookup k (AList.insert _ _ (mm.setHeap sp _).activeBlocks) = _
        rw [activeBlocks_setHeap]
        exact KeyedMap.lookup_insert_eq_ite
      info := fun k => by
        show AList.lookup k ((ResidencyManager.registerBlock _ _ _ _).touch _ _).records = _
        rw [lookup_registerBlock_touch, residencyManager_setHeap]
        rfl }

/-- An allocation keeps the invariant, also when its id is the key of another block's entry. -/
theorem Tracked.of_allocated (hmm : Tracked mm) {size : UInt64}
    (h : Allocated env mm size sp block mm') : Tracked mm' := by
  -- the id of the new block was in no use, so no range is taken away
  have hkeep : ∀ sp' id r, mm.inUse sp' id = some r → mm'.inUse sp' id = some r := by
    intro sp' id r hr
    rw [h.inUse, if_neg, hr]
    rintro ⟨rfl, rfl⟩
    rw [h.unused] at hr
    cases hr
  have hnew : mm'.inUse sp block.id = some ⟨block.backendHandle, block.size⟩ := by
    rw [h.inUse, if_pos ⟨rfl, rfl⟩]
  apply hmm.of_change block.id h.heaps
  · intro k hk
    rw [h.lookup, if_neg hk]
  · intro k hk
    rw [h.info, if_neg hk]
    exact ResidencyManager.Grows.refl _ k
  · intro k _ e _ sp' id r _ hr _
    exact hkeep sp' id r hr
  · intro e he
    rw [h.lookup, if_pos rfl] at he
    cases he
    refine ⟨h.id_pos.ne', ?_, fun k _ e he hloc => ?_⟩
    · refine .own sp (Meta.mk sp.residency env.now 1) rfl h.location hnew ?_ rfl h.accessCount.le
      rw [h.info, if_pos rfl]
    · exact hmm.ne_of_unused h.heaps h.unused hnew (hkeep sp) he (hloc.trans h.location)
  · rw [h.info, if_neg h.id_pos.ne]
    exact hmm.unregistered

/-- An allocation keeps the invariant, if the allocators answer with fresh ids. -/
theorem Tracked.allocate (hmm : Tracked mm) (hfresh : env.Fresh mm) (size : UInt64)
    (preferred : MemoryLocation) (priority : MemoryPriority) :
    Tracked (mm.allocate env size preferred priority).2 := by
  rcases allocate_cases hmm hfresh size preferred priority with ⟨-, h⟩ | ⟨sp, -, -, h⟩
  · rwa [h]
  · exact hmm.of_allocated h

/-! ## Release -/

/-- The effect of giving up an entry: its key is free again, and if the entry is still valid its
storage is no longer in use. -/
structure Dropped (mm : MemoryManager) (k : ℕ) (e : MemoryBlock) (mm' : MemoryManager) : Prop where
  heaps : ∀ sp, (mm'.heap sp).Valid sp
  inUse : ∀ sp id, mm'.inUse sp id =
    if e.id = k ∧ e.location = sp.location ∧ id = k then none else mm.inUse sp id
  lookup : ∀ k', mm'.activeBlocks.lookup k' = if k' = k then none else mm.activeBlocks.lookup k'
  info : ∀ k', mm'.residencyManager.records.lookup k' =
    if k' = k then none else mm.residencyManager.records.lookup k'

theorem dropBlock_eq (mm : MemoryManager) (k : ℕ) (hloc : e.location = sp.location) :
    mm.dropBlock k e = { mm.setHeap sp ((mm.heap sp).free sp e).2 with
      residencyManager := mm.residencyManager.unregisterBlock k
      activeBlocks := mm.activeBlocks.erase k } := by
  rw [dropBlock, freeInternal_location hloc]
  cases sp <;> rfl

/-- Giving up a tracked entry has the effect of a drop. -/
theorem Tracked.dropped (hmm : Tracked mm) (he : mm.activeBlocks.lookup k = some e) :
    Dropped mm k e (mm.dropBlock k e) := by
  have hkey := hmm.key_ne_zero k e he
  have hlookup : ∀ k', (mm.activeBlocks.erase k).lookup k' =
      if k' = k then none else mm.activeBlocks.lookup k' := fun k' => KeyedMap.lookup_erase_eq_ite
  have hinfo : ∀ k', (mm.residencyManager.unregisterBlock k).records.lookup k' =
      if k' = k then none else mm.residencyManager.records.lookup k' :=
    fun k' => KeyedMap.lookup_erase_eq_ite
  rcases hmm.entries k e he with ⟨sp, m, hid, hloc, hstorage, -, -, -⟩ | ⟨sp, p, id, size, rfl, -⟩
  · have huse : (mm.heap sp).inUse e.id = some ⟨e.backendHandle, e.size⟩ := hid ▸ hstorage
    obtain ⟨-, hvalid, hinUse⟩ := (hmm.heaps sp).free_of_inUse hloc huse
    rw [dropBlock_eq mm k hloc]
    refine ⟨heap_valid_setHeap hmm.heaps hvalid, fun sp' id => ?_, hlookup, hinfo⟩
    show (mm.setHeap sp _).inUse sp' id = _
    rw [inUse_setHeap, hloc]
    by_cases hsp : sp' = sp
    · subst hsp
      rw [if_pos rfl, hinUse, hid, Function.update_apply]
      simp [MemoryManager.inUse]
    · rw [if_neg hsp, if_neg]
      rintro ⟨-, hloc', -⟩
      exact hsp (Space.location_inj.mp hloc').symm
  · -- an invalid block frees nothing
    have hloc : (movedBlock sp p).location = sp.location := rfl
    have hfree : (mm.heap sp).free sp (movedBlock sp p) = (movedBlock sp p, mm.heap sp) :=
      PooledAllocator.free_of_id_eq_zero rfl (hmm.heaps sp)
    rw [dropBlock_eq mm k hloc, hfree, setHeap_heap]
    refine ⟨hmm.heaps, fun sp' id' => ?_, hlookup, hinfo⟩
    rw [if_neg (fun h => hkey h.1.symm)]
    rfl

/-- A block that is dropped keeps the invariant. -/
theorem Tracked.of_dropped (hmm : Tracked mm) (he : mm.activeBlocks.lookup k = some e)
    (h : Dropped mm k e mm') : Tracked mm' := by
  apply hmm.of_change k h.heaps
  · intro k' hk
    rw [h.lookup, if_neg hk]
  · intro k' hk
    rw [h.info, if_neg hk]
    exact ResidencyManager.Grows.refl _ k'
  · intro k' hk e' he' sp id r hloc hr hrh
    rw [h.inUse, if_neg, hr]
    -- the storage that went is the one of `e`, which no other entry denotes
    rintro ⟨hid, hloc', rfl⟩
    rcases hmm.entries _ e he with ⟨sp', m, -, hsp', hst, -, -, -⟩ | ⟨sp', p, id', size, rfl, -⟩
    · have hsp : sp' = sp := Space.location_inj.mp (hsp'.symm.trans hloc')
      subst hsp
      rw [hst] at hr
      cases hr
      exact hk (hmm.distinct k' _ e' e he' he (hloc.trans hloc'.symm) hrh.symm)
    · exact hmm.key_ne_zero _ _ he hid.symm
  · intro e' he'
    rw [h.lookup, if_pos rfl] at he'
    cases he'
  · rw [h.info]
    split
    next => rfl
    next => exact hmm.unregistered

/-- A release gives up the entry under the block's id, whatever it is, and invalidates the block. -/
theorem release_cases (hmm : Tracked mm) (block : MemoryBlock) :
    (block.id = 0 ∧ mm.release block = (block, mm)) ∨
    (block.id ≠ 0 ∧ mm.activeBlocks.lookup block.id = none ∧ mm.release block = ({}, mm)) ∨
    ∃ e, mm.activeBlocks.lookup block.id = some e ∧ (mm.release block).1 = {} ∧
      Dropped mm block.id e (mm.release block).2 := by
  by_cases hid : block.id = 0
  · exact .inl ⟨hid, by simp [release, hid]⟩
  · have hvalid : ¬ (!block.isValid) = true := by simpa using hid
    cases he : mm.activeBlocks.lookup block.id with
    | none => exact .inr (.inl ⟨hid, rfl, by rw [release, if_neg hvalid, he]⟩)
    | some e =>
      have hrelease : mm.release block = ({}, mm.dropBlock block.id e) := by
        rw [release, if_neg hvalid, he]
      rw [hrelease]
      exact .inr (.inr ⟨e, rfl, rfl, hmm.dropped he⟩)

theorem Tracked.release (hmm : Tracked mm) (block : MemoryBlock) :
    Tracked (mm.release block).2 := by
  rcases release_cases hmm block with ⟨-, h⟩ | ⟨-, -, h⟩ | ⟨e, he, -, h⟩
  · rwa [h]
  · rwa [h]
  · exact hmm.of_dropped he h

end MemoryManager

end HeteroAccel.Mem
