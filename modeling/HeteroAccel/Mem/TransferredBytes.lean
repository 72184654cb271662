import HeteroAccel.Lib.Buffer
import HeteroAccel.Lib.ByteStream
import HeteroAccel.Mem.Handles

/-!
# The bytes of a move

What the storage of the blocks holds, and what a move does to it. `upload` and `download` divide the
size of the block by the size of a float, and the backend copies that many floats: the bytes behind
the last whole float stay where they are, while the transfer counts as one of the whole size.

## Main definitions

* `moveContents`: the contents of all storage after a move;
* `MovePreserves`, `ChainPreserves`: a move keeps the bytes, an upload and a download restore them.

## Main results

* `movePreserves_iff`: moves of blocks that are a whole number of floats, and no others, keep the
  bytes.
-/

namespace HeteroAccel.Mem

open MemoryManager

/-- What the CPU memory at a pointer and the GPU buffer with an id hold. -/
abbrev Contents := MemoryLocation × ℕ → Bytes

/-- The backend's copy of `count` floats. -/
def copyFloats (count : ℕ) (src dst : Bytes) : Bytes := Buffer.blit dst 0 (src.take (4 * count))

namespace TransferManager

variable (tm : TransferManager) (available ok : Bool)

/-- The contents after `upload`. -/
def uploadContents (cpuPtr : ℕ) (gpuBlock : MemoryBlock) (size : UInt64) (contents : Contents) :
    Contents :=
  if (tm.upload available ok cpuPtr gpuBlock size).1 = 0 then contents
  else
    let buf := (MemoryLocation.gpu, gpuBlock.backendHandle)
    Function.update contents buf
      (copyFloats (size / 4).toNat (contents (.cpu, cpuPtr)) (contents buf))

/-- The contents after `download`. -/
def downloadContents (gpuBlock : MemoryBlock) (cpuPtr : ℕ) (size : UInt64) (contents : Contents) :
    Contents :=
  if (tm.download available ok gpuBlock cpuPtr size).1 = 0 then contents
  else
    let buf := (MemoryLocation.gpu, gpuBlock.backendHandle)
    Function.update contents (.cpu, cpuPtr)
      (copyFloats (size / 4).toNat (contents buf) (contents (.cpu, cpuPtr)))

end TransferManager

namespace MemoryManager

variable (env : Environment) (mm : MemoryManager)

/-- The contents after `relocate`; new storage holds `fresh` before the transfer. -/
def relocateContents (tracked : MemoryBlock) (destination : MemoryLocation)
    (transfer : TransferManager → MemoryBlock → Contents → Contents) (fresh : Bytes)
    (contents : Contents) : Contents :=
  let (newBlock, mm) := mm.allocateInternal env tracked.size destination
  if !newBlock.isValid then contents
  else transfer mm.transferManager newBlock
    (Function.update contents (destination, newBlock.backendHandle) fresh)

/-- The contents after `move`. -/
def moveContents (block : MemoryBlock) (destination : MemoryLocation) (fresh : Bytes)
    (contents : Contents) : Contents :=
  if !block.isValid || block.location = destination then contents
  else
    match mm.activeBlocks.lookup block.id with
    | none => contents
    | some tracked =>
      let (tracked, mm) := mm.syncBlockResidency env tracked
      let mm := { mm with activeBlocks := mm.activeBlocks.insert block.id tracked }
      if tracked.location = .cpu && destination = .gpu then
        mm.relocateContents env tracked .gpu (fun tm newBlock =>
          tm.uploadContents env.available env.transferOk tracked.backendHandle newBlock
            tracked.size) fresh contents
      else if tracked.location = .gpu && destination = .cpu then
        mm.relocateContents env tracked .cpu (fun tm newBlock =>
          tm.downloadContents env.available env.transferOk tracked newBlock.backendHandle
            tracked.size) fresh contents
      else contents

end MemoryManager

/-! ## The property -/

/-- The new storage that a move of the block returns holds what the storage of the tracked block
held, whatever both held before. -/
def MovePreserves (env : Environment) (mm : MemoryManager) (block tracked : MemoryBlock)
    (destination : MemoryLocation) : Prop :=
  ∀ (contents : Contents) (fresh : Bytes),
    (contents tracked.storage).length = tracked.size.toNat → fresh.length = tracked.size.toNat →
    mm.moveContents env block destination fresh contents
      (mm.move env block destination).2.1.storage = contents tracked.storage

/-- An upload to a new buffer and a download from it to new memory, when both are performed, restore
the bytes. -/
def ChainPreserves (size : UInt64) : Prop :=
  ∀ (tm tm' : TransferManager) (contents : Contents) (cpuPtr cpuPtr' : ℕ) (gpuBlock : MemoryBlock)
    (fresh fresh' : Bytes),
    (contents (.cpu, cpuPtr)).length = size.toNat → fresh.length = size.toNat →
    fresh'.length = size.toNat →
    (tm.upload true true cpuPtr gpuBlock size).1 ≠ 0 →
    (tm'.download true true gpuBlock cpuPtr' size).1 ≠ 0 →
    let uploaded := tm.uploadContents true true cpuPtr gpuBlock size
      (Function.update contents (.gpu, gpuBlock.backendHandle) fresh)
    tm'.downloadContents true true gpuBlock cpuPtr' size
      (Function.update uploaded (.cpu, cpuPtr') fresh') (.cpu, cpuPtr') = contents (.cpu, cpuPtr)

/-! ## Copies of floats -/

variable {src dst : Bytes} {size : UInt64}

/-- A whole number of floats is copied whole. -/
theorem copyFloats_of_dvd (hdvd : 4 ∣ size.toNat) (hsrc : src.length = size.toNat)
    (hdst : dst.length = size.toNat) : copyFloats (size / 4).toNat src dst = src := by
  have hcount : 4 * (size / 4).toNat = size.toNat := Nat.mul_div_cancel' hdvd
  unfold copyFloats
  rw [hcount, ← hsrc, List.take_length]
  exact Buffer.blit_zero_of_length_eq (hsrc.trans hdst.symm)

/-- Otherwise the last byte is not copied. -/
theorem copyFloats_ne (hdvd : ¬4 ∣ size.toNat) :
    copyFloats (size / 4).toNat (List.replicate size.toNat 1) (List.replicate size.toNat 0) ≠
      List.replicate size.toNat 1 := by
  have hcount : (size / 4).toNat = size.toNat / 4 := rfl
  have hlt : 4 * (size / 4).toNat < size.toNat := by omega
  intro heq
  have hlast := congrArg (fun bytes : Bytes => bytes[size.toNat - 1]?) heq
  unfold copyFloats at hlast
  have hlength : ((List.replicate size.toNat (1 : UInt8)).take (4 * (size / 4).toNat)).length =
      4 * (size / 4).toNat := by
    rw [List.length_take, List.length_replicate]
    omega
  rw [Buffer.getElem?_blit_of_notMem] at hlast
  · rw [List.getElem?_replicate, List.getElem?_replicate, if_pos (by omega),
      if_pos (by omega)] at hlast
    exact absurd (Option.some.inj hlast) (by decide)
  · rw [hlength, List.length_replicate]
    omega
  · rw [hlength]
    omega

/-- A chain of a whole number of floats restores the bytes. -/
theorem chainPreserves_of_dvd (hdvd : 4 ∣ size.toNat) : ChainPreserves size := by
  intro tm tm' contents cpuPtr cpuPtr' gpuBlock fresh fresh' hsrc hfresh hfresh' hup hdown
  dsimp only
  unfold TransferManager.downloadContents TransferManager.uploadContents
  rw [if_neg hup, if_neg hdown]
  have hne : ((.gpu, gpuBlock.backendHandle) : MemoryLocation × ℕ) ≠ (.cpu, cpuPtr') := by simp
  have hne' : ((.cpu, cpuPtr) : MemoryLocation × ℕ) ≠ (.gpu, gpuBlock.backendHandle) := by simp
  simp only [Function.update_self, Function.update_of_ne hne, Function.update_of_ne hne']
  rw [copyFloats_of_dvd hdvd hsrc hfresh, copyFloats_of_dvd hdvd hsrc hfresh']

/-! ## Moves -/

section Move

variable {env : Environment} {mm mm' : MemoryManager} {block block' tracked : MemoryBlock}
  {destination : MemoryLocation} {fresh : Bytes} {contents : Contents}

/-- The block that a relocation returns denotes the new storage, to which the transfer has been
made. -/
theorem relocateContents_eq {transfer : TransferManager → MemoryBlock → ℕ × TransferManager}
    {copy : TransferManager → MemoryBlock → Contents → Contents}
    (h : mm.relocate env block tracked destination transfer = (true, block', mm')) :
    ∃ (tm : TransferManager) (newBlock : MemoryBlock), (transfer tm newBlock).1 ≠ 0 ∧
      block'.storage = (destination, newBlock.backendHandle) ∧
      mm.relocateContents env tracked destination copy fresh contents =
        copy tm newBlock
          (Function.update contents (destination, newBlock.backendHandle) fresh) := by
  unfold relocate at h
  unfold relocateContents
  cases hnew : mm.allocateInternal env tracked.size destination with
  | mk newBlock mm₁ =>
    rw [hnew] at h
    dsimp only at h ⊢
    -- a successful move has passed both guards
    by_cases hvalid : newBlock.isValid = true
    · rw [if_neg (by simp [hvalid])] at h ⊢
      by_cases hth : (transfer mm₁.transferManager newBlock).1 = 0
      · rw [if_pos hth] at h
        cases (Prod.mk.inj h).1
      · rw [if_neg hth] at h
        obtain ⟨-, hblock⟩ := Prod.mk.inj h
        have hfst : _ = block' := congrArg Prod.fst hblock
        refine ⟨_, _, hth, ?_, rfl⟩
        rw [← hfst]
        rfl
    · rw [if_pos (by simpa using hvalid)] at h
      cases (Prod.mk.inj h).1

/-- What a move that performs its transfer leaves in the new storage. -/
theorem moveContents_eq (hvalid : block.id ≠ 0) (hdest : block.location ≠ destination)
    (he : mm.activeBlocks.lookup block.id = some tracked)
    (hmove : mm.move env block destination = (true, block', mm')) :
    mm.moveContents env block destination fresh contents block'.storage =
      copyFloats (tracked.size / 4).toNat (contents tracked.storage) fresh := by
  rw [move_eq_of_lookup hvalid hdest he] at hmove
  unfold moveContents
  rw [if_neg (by simp [hvalid, hdest]), he]
  dsimp only at hmove ⊢
  have hloc : (mm.syncBlockResidency env tracked).1.location = tracked.location := rfl
  rw [hloc]
  split_ifs at hmove ⊢ with hup hdown
  · -- an upload reads the CPU memory
    obtain ⟨tm, newBlock, hth, hstorage, hcontents⟩ := relocateContents_eq hmove
    have hsrc : tracked.storage = (.cpu, tracked.backendHandle) := by
      simp [MemoryBlock.storage, (by simpa using hup : _ ∧ _).1]
    have hne : ((.cpu, tracked.backendHandle) : MemoryLocation × ℕ) ≠
        (.gpu, newBlock.backendHandle) := by simp
    refine (congrFun hcontents _).trans ?_
    unfold TransferManager.uploadContents
    rw [if_neg hth, hstorage, hsrc, Function.update_self, Function.update_self,
      ← Function.update_of_ne hne fresh contents]
    rfl
  · -- a download writes it
    obtain ⟨tm, newBlock, hth, hstorage, hcontents⟩ := relocateContents_eq hmove
    have hsrc : tracked.storage = (.gpu, tracked.backendHandle) := by
      simp [MemoryBlock.storage, (by simpa using hdown : _ ∧ _).1]
    have hne : ((.gpu, tracked.backendHandle) : MemoryLocation × ℕ) ≠
        (.cpu, newBlock.backendHandle) := by simp
    refine (congrFun hcontents _).trans ?_
    unfold TransferManager.downloadContents
    rw [if_neg hth, hstorage, hsrc, Function.update_self, Function.update_self,
      ← Function.update_of_ne hne fresh contents]
    rfl
  · cases hmove

/-- **Bytes of a move.** A move that performs its transfer keeps the bytes of the block, and a chain
of transfers of its size restores them, exactly when the size is a multiple of that of a float. -/
theorem movePreserves_iff (hvalid : block.id ≠ 0) (hdest : block.location ≠ destination)
    (he : mm.activeBlocks.lookup block.id = some tracked)
    (hmove : mm.move env block destination = (true, block', mm')) :
    MovePreserves env mm block tracked destination ∧ ChainPreserves tracked.size ↔
      4 ∣ tracked.size.toNat := by
  have hresult : (mm.move env block destination).2.1 = block' := by rw [hmove]
  constructor
  · rintro ⟨hpreserves, -⟩
    by_contra hdvd
    let contents : Contents := fun _ => List.replicate tracked.size.toNat 1
    have h := hpreserves contents (List.replicate tracked.size.toNat 0)
      List.length_replicate List.length_replicate
    rw [hresult, moveContents_eq hvalid hdest he hmove] at h
    exact copyFloats_ne hdvd h
  · intro hdvd
    refine ⟨fun contents fresh hsrc hfresh => ?_, chainPreserves_of_dvd hdvd⟩
    rw [hresult, moveContents_eq hvalid hdest he hmove]
    exact copyFloats_of_dvd hdvd hsrc hfresh

end Move

/-- The state after one allocation of CPU memory. -/
def allocatedRun (size : UInt64) : Sys :=
  sampleRun [.allocate 0 size .cpu .normal { malloc := 1000 }]

/-- A block of sixteen bytes. -/
theorem movePreserves_sixteen : ∃ tracked : MemoryBlock,
    (allocatedRun 16).mm.activeBlocks.lookup 1 = some tracked ∧ tracked.size = 16 ∧
    MovePreserves { createBuffer := 7 } (allocatedRun 16).mm ((allocatedRun 16).handles 0) tracked
      .gpu ∧ ChainPreserves tracked.size := by
  have hvalid : ((allocatedRun 16).handles 0).id = 1 := by decide +kernel
  have hlookup : ((allocatedRun 16).mm.activeBlocks.lookup 1).isSome = true ∧
      ((allocatedRun 16).mm.activeBlocks.lookup 1).all (fun e => e.size = 16) = true := by
    decide +kernel
  obtain ⟨tracked, he⟩ := Option.isSome_iff_exists.mp hlookup.1
  have hsize : tracked.size = 16 := by simpa [he] using hlookup.2
  have hmove : (allocatedRun 16).mm.move { createBuffer := 7 } ((allocatedRun 16).handles 0) .gpu =
      (true, _, _) := Prod.ext (by decide +kernel) rfl
  refine ⟨tracked, he, hsize, ?_⟩
  refine (movePreserves_iff (by decide +kernel) (by decide +kernel) ?_ hmove).mpr ?_
  · rw [hvalid]
    exact he
  · rw [hsize]
    decide

/-- A block of six bytes, of which a move transfers four. -/
theorem not_movePreserves : ¬∀ (env : Environment) (mm mm' : MemoryManager)
    (block block' tracked : MemoryBlock) (destination : MemoryLocation), block.id ≠ 0 →
    block.location ≠ destination → mm.activeBlocks.lookup block.id = some tracked →
    mm.move env block destination = (true, block', mm') →
    MovePreserves env mm block tracked destination := by
  intro h
  have hlookup : ((allocatedRun 6).mm.activeBlocks.lookup
      ((allocatedRun 6).handles 0).id).isSome = true := by decide +kernel
  obtain ⟨tracked, he⟩ := Option.isSome_iff_exists.mp hlookup
  have hsize : ((allocatedRun 6).mm.activeBlocks.lookup
      ((allocatedRun 6).handles 0).id).all (fun e => e.size = 6) = true := by decide +kernel
  rw [he] at hsize
  obtain hsix : tracked.size = 6 := by simpa using hsize
  have hvalid : ((allocatedRun 6).handles 0).id ≠ 0 := by decide +kernel
  have hdest : ((allocatedRun 6).handles 0).location ≠ MemoryLocation.gpu := by decide +kernel
  have hmove : (allocatedRun 6).mm.move { createBuffer := 7 } ((allocatedRun 6).handles 0) .gpu =
      (true, _, _) := Prod.ext (by decide +kernel) rfl
  have hpreserves := h _ _ _ _ _ _ _ hvalid hdest he hmove
  have hresult := hpreserves (fun _ => List.replicate 6 1) (List.replicate 6 0)
    (by rw [hsix]; rfl) (by rw [hsix]; rfl)
  rw [hmove, moveContents_eq hvalid hdest he hmove, hsix] at hresult
  exact absurd hresult (by decide)

end HeteroAccel.Mem
