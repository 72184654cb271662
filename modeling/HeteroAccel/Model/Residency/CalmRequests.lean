import HeteroAccel.Model.Residency.Refusals
import HeteroAccel.Model.Residency.Requests

/-!
# Requests that nothing fails

A request that meets no failure outside the manager is granted as long as there is room. An
accelerator that serves every upload keeps doing so from one request to the next.

## Main definitions

* `IAcceleratorMemory.Serves`: a memory that grants and fills what it reports as free;
* `CalmCall`: a call that meets no failure.

## Main results

* `HostAcceleratorMemory.serves`: the host stand-in serves, at fresh pointers;
* `InPlace.granted`: a calm request is granted.
-/

namespace HeteroAccel

variable {ρ σ α : Type}

/-! ## Accelerators that serve -/

/-- One upload for each of the answers, with any buffers given back before: the memory is available,
grants what it reports as free, and takes the bytes. -/
def IAcceleratorMemory.Serves (M : IAcceleratorMemory σ α) : List α → σ → Prop
  | [], _ => True
  | env :: envs, s => ∀ s', M.Released s s' →
    M.isAvailable s' = true ∧ M.Serves envs s' ∧
      ∀ n, n ≠ 0 → n ≤ M.available s' → ∃ p, (M.allocate env s' n).1 = some p ∧
        ∀ src, src.length = n.toNat →
          (M.upload env (M.allocate env s' n).2 src p n).1 = true ∧
            M.Serves envs (M.upload env (M.allocate env s' n).2 src p n).2

/-- After a request, the memory serves the others. -/
theorem IAcceleratorMemory.Serves.after {M : IAcceleratorMemory σ α} {env : α} {envs : List α}
    {s s' : σ} (h : M.Serves (env :: envs) s) (hafter : M.MemoryAfter env s s') :
    M.Serves envs s' := by
  cases hafter with
  | released hreleased => exact (h s' hreleased).2.1
  | uploaded hreleased hpos hroom hgrant hsrc =>
    obtain ⟨p, hp, hfilled⟩ := (h _ hreleased).2.2 _ hpos hroom
    cases hgrant.symm.trans hp
    exact (hfilled _ hsrc).2

namespace HostAcceleratorMemory

variable {capacity : UInt64} {m : HostAcceleratorMemory}

/-- What is free is what the used bytes leave of the capacity. -/
theorem toNat_available : m.available.toNat = m.capacity.toNat - m.used.toNat := by
  unfold available
  split
  next hgt => exact UInt64.toNat_sub_of_le _ _ (UInt64.le_of_lt hgt)
  next hle =>
    have := UInt64.le_iff_toNat_le.mp (UInt64.not_lt.mp hle)
    simp
    omega

/-- The host stand-in reports as free what its buffers leave. -/
theorem reports (capacity : UInt64) : (spec capacity).Reports := by
  intro m n hm hle
  have hused : m.used.toNat = bufferBytes m.allocs := hm.used_eq
  have hle' : bufferBytes m.allocs + n.toNat ≤ min capacity.toNat (2 ^ 63 - 1) := hle
  change n ≤ m.available
  rw [UInt64.le_iff_toNat_le, toNat_available, hm.capacity_eq]
  omega

/-- What a released buffer leaves of the memory. -/
theorem release_frame (p : ℕ) :
    (m.release p).failNextUpload = m.failNextUpload ∧
      ∀ q, m.allocs.lookup q = none → (m.release p).allocs.lookup q = none := by
  unfold release
  split
  next => exact ⟨rfl, fun _ => id⟩
  next =>
    refine ⟨rfl, fun q hq => ?_⟩
    rw [KeyedMap.lookup_erase_eq_ite]
    split
    next => rfl
    next => exact hq

/-- Releases make no pointer live, and no simulated failure due. -/
theorem Valid.of_released {m' : HostAcceleratorMemory} (hm : Valid capacity m)
    (h : toInterface.Released m m') :
    Valid capacity m' ∧ m'.failNextUpload = m.failNextUpload ∧
      ∀ q, m.allocs.lookup q = none → m'.allocs.lookup q = none := by
  induction h with
  | refl => exact ⟨hm, rfl, fun _ => id⟩
  | tail _ hlast ih =>
    obtain ⟨p, rfl⟩ := hlast
    obtain ⟨hvalid, hfail, hnone⟩ := ih
    obtain ⟨hsame, hframe⟩ := release_frame p
    exact ⟨hvalid.release p, hsame.trans hfail, fun q hq => hframe q (hnone q hq)⟩

/-- The memory with a buffer of zeros at a pointer. -/
def withBuffer (m : HostAcceleratorMemory) (p : ℕ) (n : UInt64) : HostAcceleratorMemory :=
  { m with
    allocs := m.allocs.insert p (List.replicate n.toNat 0)
    used := m.used + n
    lastError := "" }

/-- What is reported as free is granted, at a pointer that is not in use. -/
theorem Valid.allocate_fresh (hm : Valid capacity m) (hcap : capacity.toNat < 2 ^ 63) {p : ℕ}
    (hp : p ≠ 0) (hnone : m.allocs.lookup p = none) {n : UInt64} (hn : n ≠ 0)
    (hroom : n ≤ m.available) : m.allocate (some p) n = (some p, m.withBuffer p n) := by
  -- the buffer fits the capacity, and so what a process can hold
  have hfits : m.used.toNat + n.toNat ≤ capacity.toNat := by
    have hpos : n.toNat ≠ 0 := fun h => hn (UInt64.toNat_inj.mp (by simpa using h))
    rw [UInt64.le_iff_toNat_le, toNat_available, hm.capacity_eq] at hroom
    omega
  have hnew : newBuffer (some p) m n = some p := by
    simp only [newBuffer, Option.filter_some, decide_eq_true_eq]
    rw [if_pos ⟨hp, hnone, by omega⟩]
  have hsum : (m.used + n).toNat = m.used.toNat + n.toNat := by
    rw [UInt64.toNat_add]
    exact Nat.mod_eq_of_lt (by omega)
  have hcapacity : ¬ m.used + n > m.capacity := by
    rw [gt_iff_lt, UInt64.not_lt, UInt64.le_iff_toNat_le, hsum, hm.capacity_eq]
    exact hfits
  rw [HostAcceleratorMemory.allocate, if_neg hn, if_neg hcapacity, hnew, withBuffer]

/-- The new buffer is filled, and no other pointer becomes live. -/
theorem upload_withBuffer (hfail : m.failNextUpload = false) {p : ℕ} {n : UInt64}
    (src : List UInt8) :
    ((m.withBuffer p n).upload src p n).1 = true ∧
      ((m.withBuffer p n).upload src p n).2.failNextUpload = false ∧
      ∀ q, q ≠ p → m.allocs.lookup q = none →
        ((m.withBuffer p n).upload src p n).2.allocs.lookup q = none := by
  have hupload : ((m.withBuffer p n).upload src p n).1 = true :=
    upload_of_lookup hfail (AList.lookup_insert _) (by simp)
  rcases upload_cases (m := m.withBuffer p n) src p n with ⟨hrefused, -⟩ | ⟨b, -, -, he⟩
  · rw [hupload] at hrefused
    cases hrefused
  · rw [he]
    refine ⟨rfl, hfail, fun q hqp hq => ?_⟩
    dsimp only
    rw [AList.lookup_insert_ne hqp]
    exact (AList.lookup_insert_ne hqp).trans hq

/-- The host stand-in serves at different pointers that are not in use, when no simulated failure is
due and the host has memory for its whole capacity. -/
theorem serves (hcap : capacity.toNat < 2 ^ 63) {pointers : List ℕ} (hm : Valid capacity m)
    (hfail : m.failNextUpload = false) (hnodup : pointers.Nodup)
    (hfresh : ∀ p ∈ pointers, p ≠ 0 ∧ m.allocs.lookup p = none) :
    toInterface.Serves (pointers.map some) m := by
  induction pointers generalizing m with
  | nil => exact trivial
  | cons p pointers ih =>
    intro m' hreleased
    obtain ⟨hp, hnodup⟩ := List.nodup_cons.mp hnodup
    obtain ⟨hvalid, hsame, hnone⟩ := hm.of_released hreleased
    have hfail' : m'.failNextUpload = false := hsame.trans hfail
    have hrest : ∀ q ∈ pointers, q ≠ 0 ∧ m'.allocs.lookup q = none := fun q hq =>
      ⟨(hfresh q (List.mem_cons_of_mem _ hq)).1, hnone q (hfresh q (List.mem_cons_of_mem _ hq)).2⟩
    obtain ⟨hne, hp'⟩ := hfresh p List.mem_cons_self
    refine ⟨rfl, ih hvalid hfail' hnodup hrest, fun n hn hroom => ⟨p, ?_⟩⟩
    have halloc : m'.allocate (some p) n = (some p, m'.withBuffer p n) :=
      hvalid.allocate_fresh hcap hne (hnone p hp') hn hroom
    refine ⟨congrArg Prod.fst halloc, fun src hsrc => ?_⟩
    change ((m'.allocate (some p) n).2.upload src p n).1 = true ∧
      toInterface.Serves (pointers.map some) ((m'.allocate (some p) n).2.upload src p n).2
    have hvalid' := (hvalid.allocate (some p) n).upload src p n
    rw [halloc] at hvalid' ⊢
    obtain ⟨hupload, hfilled, hframe⟩ := upload_withBuffer hfail' (p := p) (n := n) src
    -- the other pointers are as fresh as before
    refine ⟨hupload, ih hvalid' hfilled hnodup fun q hq => ⟨(hrest q hq).1, ?_⟩⟩
    have hqp : q ≠ p := fun heq => hp (heq ▸ hq)
    exact hframe q hqp (hrest q hq).2

end HostAcceleratorMemory

namespace ModelResidencyManager

/-! ## Calm requests -/

/-- A call that meets no failure: the cancel flag is not set, the host has memory for the buffer,
and the region can be read, as it is requested and as it is on record. -/
structure CalmCall (cx : ResidencyContext ρ σ α) (m : ModelResidencyManager σ)
    (target : ModelResidencyTarget) (region : ModelRegion) (call : ResidencyCall ρ α) : Prop where
  valid : region.valid = true
  load : call.cancelBeforeLoad = false
  hostNew : call.hostNew = true
  read : ∀ r, r = region ∨ r = m.requested region →
    ∃ bytes, cx.source.read call.read r.offset r.size = .ok bytes
  upload : target = .accelerator → call.cancelBeforeUpload = false

/-- The host has the RAM that the regions and everything resident take, within the budget. -/
def HostRoom (cx : ResidencyContext ρ σ α) (m : ModelResidencyManager σ) (readings : List ℕ)
    (regions : List ModelRegion) : Prop :=
  min cx.budget.ramBytes.toNat (m.bytesInUse .ram readings regions fun _ _ => true) ≤ cx.hostBytes

variable {cx : ResidencyContext ρ σ α} {call : ResidencyCall ρ α} {target : ModelResidencyTarget}
  {m₀ m : ModelResidencyManager σ} {readings : List ℕ} {done rest : List ModelRegion}
  {region : ModelRegion} {rec : Record} {M : IAcceleratorMemory σ α} {capacity foreign : ℕ}
  {spec : M.Spec capacity}

/-- The host has memory for a region that fits the budget. -/
theorem InPlace.hostNew (hroom : Room cx m₀ readings spec target (done ++ region :: rest))
    (hhost : HostRoom cx m₀ readings (done ++ region :: rest)) (hacc : Accounted cx m)
    (h : InPlace cx m₀ target readings done (done ++ [region]) m)
    (hrec : m.records.lookup region.id = some rec) (hout : rec.state.satisfies .ram = false)
    (hsize : rec.region.size = (m₀.requested region).size) (hnew : call.hostNew = true)
    (hfits : ¬ m.telemetry.residentRamBytes + rec.region.size > cx.budget.ramBytes) :
    m.hostNew cx call rec.region.size = true := by
  have hheld := h.held_add_le (p := fun _ _ => true) hrec hout hsize fun _ _ _ _ _ _ _ _ => .inr rfl
  have hgrow : ∀ p, m₀.bytesInUse .ram readings (done ++ [region]) p ≤
      m₀.bytesInUse .ram readings (done ++ region :: rest) p := by
    intro p
    have hle : m₀.bytesInUse .ram readings (done ++ [region]) p ≤
        m₀.bytesInUse .ram readings (done ++ [region] ++ rest) p := bytesInUse_le_append rest p
    rwa [List.append_assoc, List.singleton_append] at hle
  -- the region alone fits the budget, and so the host
  have hown : rec.region.size.toNat ≤
      m₀.bytesInUse .ram readings (done ++ [region]) fun _ _ => false := by
    unfold bytesInUse
    rw [List.map_append, List.sum_append, List.map_singleton, List.sum_singleton, hsize]
    omega
  have hram := hroom.ram
  have hgrowNone := hgrow fun _ _ => false
  have hgrowAll := hgrow fun _ _ => true
  have hlt := cx.hostBytes_lt
  have htotal := hacc.ram_eq
  have hresident := hacc.ramTotal_lt
  unfold HostRoom at hhost
  rw [hacc.ramTotal_eq] at htotal hresident
  have hsum : (m.telemetry.residentRamBytes + rec.region.size).toNat =
      m.telemetry.residentRamBytes.toNat + rec.region.size.toNat := by
    rw [UInt64.toNat_add]
    exact Nat.mod_eq_of_lt (by omega)
  have hbudget := UInt64.le_iff_toNat_le.mp (UInt64.not_lt.mp hfits)
  rw [ModelResidencyManager.hostNew, hnew, Bool.true_and, decide_eq_true_iff, hacc.ramOwned_eq,
    hacc.ramTotal_eq]
  omega

/-- What an accelerator must keep to when the regions are requested there. -/
structure Served (cx : ResidencyContext ρ σ α) (spec : M.Spec capacity) (envs : List α)
    (s : σ) : Prop where
  attached : cx.accelerator = some M
  reports : spec.Reports
  serves : M.Serves envs s

/-- A calm request is granted when there is room. -/
theorem InPlace.granted (hroom : Room cx m₀ readings spec target (done ++ region :: rest))
    (hhost : HostRoom cx m₀ readings (done ++ region :: rest)) (hkeys : m.KeysMatch)
    (hacc₀ : Accounted cx m₀) (hsteps₀ : ResidencySteps cx m₀ m)
    (h : InPlace cx m₀ target readings done done m) (hnew : ∀ r ∈ done, r.id ≠ region.id)
    (hzero : (0 : UInt64) ∉ (done ++ [region]).map ModelRegion.id)
    (hsizes : ∀ rec₀, m₀.records.lookup region.id = some rec₀ →
      rec₀.state.satisfies .ram = true →
      rec₀.region.size = region.size ∨ Outlasts cx m₀ readings done rec₀)
    (hcalm : CalmCall cx m₀ target region call) {envs : List α}
    (haccel : target = .accelerator →
      Served cx spec (call.accel :: envs) m.accelMemory ∧ AccelHolds spec foreign m₀) :
    (m.ensureResident cx region target call).1 = .ok () ∧ ∀ M, cx.accelerator = some M →
      M.MemoryAfter call.accel m.accelMemory
        (m.ensureResident cx region target call).2.accelMemory := by
  have hacc : Accounted cx m := hacc₀.steps hsteps₀
  have hcreate : ResidencySteps cx m (m.getOrCreateLocked region) :=
    (getOrCreateLocked_steps hcalm.valid).1
  have hmemory := getOrCreateLocked_accelMemory (m := m) region
  obtain ⟨rec, hrec, -⟩ := lookup_getOrCreateLocked (m := m) region
  have hsize := h.requested_size hnew hsizes hrec
  have haccel' : target = .accelerator →
      cx.accelerator = some M ∧ spec.Reports ∧ AccelHolds spec foreign m₀ := fun htarget =>
    ⟨(haccel htarget).1.attached, (haccel htarget).1.reports, (haccel htarget).2⟩
  -- in every manager the request goes through, everything is in its place
  have hreached : ∀ {m' rec'}, Reaches cx call target region.id (m.getOrCreateLocked region) m' →
      m'.records.lookup region.id = some rec' → ResidencySteps cx m₀ m' ∧
        InPlace cx m₀ target readings done (done ++ [region]) m' ∧ rec'.region = rec.region := by
    intro m' rec' hreach hrec'
    obtain ⟨rec'', hrec'', hregion⟩ := hreach.steps.tracks ⟨rec, hrec, rfl⟩
    cases hrec'.symm.trans hrec''
    refine ⟨(hsteps₀.trans hcreate).trans hreach.steps.steps, ?_, hregion⟩
    exact (h.create hnew).steps hacc₀ (hsteps₀.trans hcreate) hnew ⟨rec, hrec, rfl⟩ hsize
      (scans_of_room hroom hacc₀ hzero haccel') hreach.steps
  have hend : Refusal cx call target region.id (m.getOrCreateLocked region) ∨ _ :=
    ensureResident_refusal hkeys hacc hcalm.valid
  refine hend.resolve_left fun hrefused => ?_
  cases hrefused with
  | cancelledLoad hcancel =>
    rw [hcalm.load] at hcancel
    cases hcancel
  | ramFull hreach hrec' hout hfull hnone =>
    obtain ⟨hsteps, h', hregion⟩ := hreached hreach hrec'
    exact (h'.picksIdle_ram hroom (hacc₀.steps hsteps) hzero hrec' hout (by rw [hregion, hsize])
      hfull).ne_zero hnone
  | hostFull hreach hrec' hout hfits hhostNew =>
    obtain ⟨hsteps, h', hregion⟩ := hreached hreach hrec'
    rw [h'.hostNew hroom hhost (hacc₀.steps hsteps) hrec' hout (by rw [hregion, hsize])
      hcalm.hostNew hfits] at hhostNew
    cases hhostNew
  | unread hreach hrec' hout hread =>
    obtain ⟨hsteps, h', hregion⟩ := hreached hreach hrec'
    obtain ⟨bytes, hbytes⟩ := hcalm.read rec.region
      ((h.region_cases hnew hrec).symm.imp_left fun h => h.1)
    rw [hregion] at hread
    exact hread bytes hbytes
  | noAccelerator htarget hnone =>
    rw [(haccel htarget).1.attached] at hnone
    cases hnone
  | unavailable htarget hM hreach havail =>
    obtain ⟨hserved, -⟩ := haccel htarget
    cases hserved.attached.symm.trans hM
    have hreleased := hreach.released M hM
    rw [hmemory] at hreleased
    rw [(hserved.serves _ hreleased).1] at havail
    cases havail
  | cancelledUpload htarget hcancel =>
    rw [hcalm.upload htarget] at hcancel
    cases hcancel
  | accelFull htarget hM hreach hrec' hout hfull hnone =>
    obtain ⟨hsteps, h', hregion⟩ := hreached hreach hrec'
    obtain ⟨hserved, hholds₀⟩ := haccel htarget
    cases hserved.attached.symm.trans hM
    exact (h'.picksIdle_accel hroom htarget hserved.reports hholds₀ (hholds₀.steps hacc₀ hM hsteps)
      (hacc₀.steps hsteps) hzero hrec' hout (by rw [hregion, hsize]) hfull).ne_zero hnone
  | untransferred htarget hM hreach hrec' hstate hroom' htransfer =>
    obtain ⟨hsteps, -, -⟩ := hreached hreach hrec'
    obtain ⟨hserved, -⟩ := haccel htarget
    cases hserved.attached.symm.trans hM
    have hreleased := hreach.released M hM
    rw [hmemory] at hreleased
    have hrest := (hacc₀.steps hsteps).atRest _ _ hrec'
    obtain ⟨bytes, hram⟩ := Option.isSome_iff_exists.mp
      (hrest.ram_iff.mpr (by simp [ModelResidencyState.satisfies, hstate]))
    obtain ⟨p, hp, hfilled⟩ := (hserved.serves _ hreleased).2.2 _ hrest.size_ne_zero hroom'
    have htaken := (hfilled bytes (length_of_fileSlice (hrest.content bytes hram))).1
    have hlost := htransfer p hp
    rw [hram, Option.getD_some, htaken] at hlost
    cases hlost

end ModelResidencyManager

end HeteroAccel
