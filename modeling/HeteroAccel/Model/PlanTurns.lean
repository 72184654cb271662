import HeteroAccel.Model.PlanResidencyAdapter
import HeteroAccel.Model.Residency.CalmRequests
import HeteroAccel.Model.Residency.Needs

/-!
# The turns of a plan

The adapter requests one region in each turn. Whether every region is where it was requested after
the last turn is told by what is known before the first one: the sizes of the regions, the budget,
what is pinned, and when each region was used last.

## Main definitions

* `afterTurns`, `EachTurn`: the manager after some turns, and a condition on each turn;
* `Settled`: every request was granted, and every region is where it was requested and nowhere else;
* `Fits`: the condition on the manager before the turns;
* `Calm`: the turns meet no failure outside the manager.

## Main results

* `settled_of_fits`: where the regions fit, turns that are granted settle them;
* `granted_of_calm`: where the regions fit, calm turns are granted;
* `Settled.fits`: settled regions fit, if the order of use decides what a scan picks.
-/

namespace HeteroAccel

namespace ModelResidencyManager

variable {ρ σ α : Type} {cx : ResidencyContext ρ σ α} {call : ResidencyCall ρ α}
  {m : ModelResidencyManager σ} {region : ModelRegion} {target : ModelResidencyTarget}

theorem KeysMatch.ensureResident (hkeys : m.KeysMatch) (target : ModelResidencyTarget) :
    (m.ensureResident cx region target call).2.KeysMatch :=
  hkeys.steps (apply_steps hkeys (.ensureResident region target call) (fun _ => nofun)
    (fun _ => nofun))

/-- A request is a sequence of elementary changes. -/
theorem ensureResident_steps (hkeys : m.KeysMatch) :
    ResidencySteps cx m (m.ensureResident cx region target call).2 :=
  apply_steps hkeys (.ensureResident region target call) (fun _ => nofun) (fun _ => nofun)

/-- A region whose request is granted is resident. -/
theorem isResident_of_ensureResident (hkeys : m.KeysMatch) {target : ModelResidencyTarget}
    (hok : (m.ensureResident cx region target call).1 = .ok ()) :
    (m.ensureResident cx region target call).2.isResident region.id target = true := by
  obtain ⟨rec, hrec, hsat⟩ :=
    (ensureResident_outcome hkeys (valid_of_ensureResident hok)).resident hok
  rw [isResident_of_lookup hrec, hsat]

/-- A granted request for RAM leaves the region on the accelerator if it is there. -/
theorem isResident_accelerator_ensureResident
    (hok : (m.ensureResident cx region .ram call).1 = .ok ()) :
    (m.ensureResident cx region .ram call).2.isResident region.id .accelerator =
      m.isResident region.id .accelerator := by
  obtain ⟨rec, hrec, -⟩ := lookup_getOrCreateLocked (m := m) region
  rw [← isResident_getOrCreateLocked (m := m), isResident_of_lookup hrec]
  unfold ModelResidencyManager.ensureResident at hok ⊢
  split at hok
  next => cases hok
  next hvalid =>
    rw [if_neg hvalid]
    dsimp only at hok ⊢
    rw [recordAt_of_lookup hrec] at hok ⊢
    split at hok
    next hram =>
      rw [if_pos hram]
      exact (isResident_of_lookup (AList.lookup_insert _)).trans (by rw [recordAt_of_lookup hrec])
    next hram =>
      rw [if_neg hram]
      split at hok
      next => cases hok
      next hidle =>
        rw [if_neg hidle]
        -- the region is loaded, and is then in RAM only
        have hplace : place cx call (m.getOrCreateLocked region) region.id .ram =
            loadToRamLocked cx call (m.getOrCreateLocked region) region.id := by
          unfold place
          rw [recordAt_of_lookup hrec]
          dsimp only
          rw [if_neg hram]
          split
          next h => exact h.symm
          next h => exact h.symm
        rw [hplace] at hok ⊢
        generalize hload : loadToRamLocked cx call (m.getOrCreateLocked region) region.id = result
          at hok ⊢
        obtain ⟨_ | _, m₁⟩ := result
        · cases hok
        · obtain ⟨rec₁, hrec₁, hstate⟩ := state_of_loadToRamLocked (by rw [hload])
          rw [hload] at hrec₁
          have hrest := Bool.eq_false_iff.mpr hram
          simp only [ModelResidencyState.satisfies, Bool.or_eq_false_iff] at hrest
          refine (isResident_of_lookup (AList.lookup_insert _)).trans ?_
          rw [recordAt_of_lookup hrec₁]
          show ModelResidencyState.satisfies rec₁.state .accelerator = _
          rw [hstate]
          exact hrest.2.symm

end ModelResidencyManager

namespace PlanResidencyAdapter

open ModelResidencyManager TransitionSystem

variable {ρ σ α : Type} {cx : ResidencyContext ρ σ α} {target : ModelResidencyTarget}
  {m : ModelResidencyManager σ} {turns : List (ModelRegion × Turn ρ α)} {t : ModelRegion × Turn ρ α}

/-! ## Turns -/

/-- The manager after the requests of the given turns. -/
def afterTurns (cx : ResidencyContext ρ σ α) (target : ModelResidencyTarget)
    (m : ModelResidencyManager σ) (turns : List (ModelRegion × Turn ρ α)) :
    ModelResidencyManager σ :=
  turns.foldl (fun m t => (m.ensureResident cx t.1 target t.2.load).2) m

/-- A condition on every turn and the manager it finds. -/
def EachTurn (cx : ResidencyContext ρ σ α) (target : ModelResidencyTarget)
    (P : ModelResidencyManager σ → ModelRegion × Turn ρ α → Prop)
    (m : ModelResidencyManager σ) (turns : List (ModelRegion × Turn ρ α)) : Prop :=
  Along P (fun m t => (m.ensureResident cx t.1 target t.2.load).2) m turns

/-- The manager grants the request of a turn. -/
def Granted (cx : ResidencyContext ρ σ α) (target : ModelResidencyTarget)
    (m : ModelResidencyManager σ) (t : ModelRegion × Turn ρ α) : Prop :=
  (m.ensureResident cx t.1 target t.2.load).1 = .ok ()

theorem afterTurns_append_singleton :
    afterTurns cx target m (turns ++ [t]) =
      ((afterTurns cx target m turns).ensureResident cx t.1 target t.2.load).2 := by
  rw [afterTurns, List.foldl_append]
  rfl

/-- A condition on each turn, turn by turn. -/
theorem eachTurn_append_singleton
    {P : ModelResidencyManager σ → ModelRegion × Turn ρ α → Prop} :
    EachTurn cx target P m (turns ++ [t]) ↔
      EachTurn cx target P m turns ∧ P (afterTurns cx target m turns) t :=
  along_append_singleton

theorem keysMatch_afterTurns (hkeys : m.KeysMatch) : (afterTurns cx target m turns).KeysMatch := by
  induction turns using List.reverseRecOn with
  | nil => exact hkeys
  | append_singleton turns t ih =>
    rw [afterTurns_append_singleton]
    exact ih.ensureResident target

/-- The turns are sequences of elementary changes. -/
theorem afterTurns_steps (hkeys : m.KeysMatch) :
    ResidencySteps cx m (afterTurns cx target m turns) := by
  induction turns using List.reverseRecOn with
  | nil => exact .refl
  | append_singleton turns t ih =>
    rw [afterTurns_append_singleton]
    exact ih.trans (ensureResident_steps (keysMatch_afterTurns hkeys))

/-- What the last turn does to another region. -/
theorem fate_afterTurns (hkeys : m.KeysMatch) {k : UInt64} (hk : k ≠ t.1.id) :
    Fate target k (Displaces cx (afterTurns cx target m turns) t.1 target t.2.load k)
      (afterTurns cx target m turns) (afterTurns cx target m (turns ++ [t])) := by
  rw [afterTurns_append_singleton]
  exact ensureResident_fate cx t.2.load (keysMatch_afterTurns hkeys) target hk

/-- The ids of the turns before the last one. -/
theorem nodup_append_singleton (hids : ((turns ++ [t]).map fun t => t.1.id).Nodup) :
    (turns.map fun t => t.1.id).Nodup ∧ ∀ s ∈ turns, s.1.id ≠ t.1.id := by
  rw [List.map_append, List.nodup_append] at hids
  refine ⟨hids.1, fun s hs => ?_⟩
  exact hids.2.2 _ (List.mem_map_of_mem hs) _ (List.mem_singleton.mpr rfl)

/-- No turn is for the region with the id `0`. -/
theorem zero_notMem (hzero : ∀ s ∈ turns ++ [t], s.1.id ≠ 0) :
    (0 : UInt64) ∉ (turns.map Prod.fst ++ [t.1]).map ModelRegion.id := by
  rw [← List.map_singleton, ← List.map_append, List.map_map, List.mem_map]
  rintro ⟨s, hs, hs0⟩
  exact hzero s hs hs0

/-! ## Conditions on the manager before the turns -/

section Before

variable (cx : ResidencyContext ρ σ α) (m : ModelResidencyManager σ) (readings : List ℕ)
  {M : IAcceleratorMemory σ α} {capacity : ℕ} (spec : M.Spec capacity)
  (target : ModelResidencyTarget)

/-- The regions fit: there is room for them, requests for RAM find none of them on the accelerator,
and one that falls before its turn is requested with the size it had. -/
structure Fits (regions : List ModelRegion) : Prop
    extends Room cx m readings spec target regions where
  off : target = .ram → ∀ before region after, regions = before ++ region :: after →
    ∀ rec, m.records.lookup region.id = some rec → rec.state.satisfies .accelerator = true →
      Falls cx m readings before region.id rec
  sizes : ∀ before region after, regions = before ++ region :: after →
    ∀ rec, m.records.lookup region.id = some rec → rec.state.satisfies .ram = true →
      rec.region.size = region.size ∨ Outlasts cx m readings before rec

/-- The turns meet no failure outside the manager. -/
structure Calm (turns : List (ModelRegion × Turn ρ α)) : Prop where
  calls : ∀ t ∈ turns, CalmCall cx m target t.1 t.2.load
  host : HostRoom cx m readings (turns.map Prod.fst)
  served : target = .accelerator →
    Served cx spec (turns.map fun t => t.2.load.accel) m.accelMemory

end Before

/-- Every request was granted, and every region is where it was requested and nowhere else. -/
structure Settled (cx : ResidencyContext ρ σ α) (target : ModelResidencyTarget)
    (m : ModelResidencyManager σ) (turns : List (ModelRegion × Turn ρ α)) : Prop where
  granted : EachTurn cx target (Granted cx target) m turns
  resident : ∀ t ∈ turns, (afterTurns cx target m turns).isResident t.1.id target = true
  off : target = .ram → ∀ t ∈ turns,
    (afterTurns cx target m turns).isResident t.1.id .accelerator = false

variable {readings : List ℕ} {M : IAcceleratorMemory σ α} {capacity foreign : ℕ}
  {spec : M.Spec capacity} {rest : List ModelRegion}

/-- The turns leave everything in its place, when they are granted and the regions fit. -/
theorem inPlace_afterTurns (hkeys : m.KeysMatch) (hacc : Accounted cx m)
    (hfits : Fits cx m readings spec target (turns.map Prod.fst ++ rest))
    (hids : (turns.map fun t => t.1.id).Nodup) (hzero : ∀ t ∈ turns, t.1.id ≠ 0)
    (hreadings : ∀ t ∈ turns, t.2.load.now ∈ readings)
    (haccel : target = .accelerator →
      cx.accelerator = some M ∧ spec.Reports ∧ AccelHolds spec foreign m)
    (hgranted : EachTurn cx target (Granted cx target) m turns) :
    InPlace cx m target readings (turns.map Prod.fst) (turns.map Prod.fst)
      (afterTurns cx target m turns) := by
  induction turns using List.reverseRecOn generalizing rest with
  | nil => exact .start
  | append_singleton turns t ih =>
    obtain ⟨hids, hne⟩ := nodup_append_singleton hids
    obtain ⟨hgranted, hlast⟩ := eachTurn_append_singleton.mp hgranted
    rw [List.map_append, List.map_singleton, List.append_assoc, List.singleton_append] at hfits
    have hbefore := ih hfits hids (fun s hs => hzero s (List.mem_append_left _ hs))
      (fun s hs => hreadings s (List.mem_append_left _ hs)) hgranted
    rw [List.map_append, List.map_singleton, afterTurns_append_singleton]
    exact hbefore.request (keysMatch_afterTurns hkeys) hacc (afterTurns_steps hkeys)
      (List.forall_mem_map.mpr hne) (hfits.sizes _ _ _ rfl)
      (hreadings t (List.mem_append_right _ (List.mem_singleton.mpr rfl))) hlast
      (scans_of_room hfits.toRoom hacc (zero_notMem hzero) haccel)

/-- Where the regions fit, calm turns are granted. -/
theorem granted_of_calm (hkeys : m.KeysMatch) (hacc : Accounted cx m)
    (hfits : Fits cx m readings spec target (turns.map Prod.fst ++ rest))
    (hids : (turns.map fun t => t.1.id).Nodup) (hzero : ∀ t ∈ turns, t.1.id ≠ 0)
    (hreadings : ∀ t ∈ turns, t.2.load.now ∈ readings)
    (hcalm : ∀ t ∈ turns, CalmCall cx m target t.1 t.2.load)
    (hhost : HostRoom cx m readings (turns.map Prod.fst ++ rest)) {envs : List α}
    (haccel : target = .accelerator →
      Served cx spec (turns.map (fun t => t.2.load.accel) ++ envs) m.accelMemory ∧
        AccelHolds spec foreign m) :
    EachTurn cx target (Granted cx target) m turns ∧
      (target = .accelerator → M.Serves envs (afterTurns cx target m turns).accelMemory) := by
  induction turns using List.reverseRecOn generalizing rest envs with
  | nil => exact ⟨trivial, fun htarget => (haccel htarget).1.serves⟩
  | append_singleton turns t ih =>
    obtain ⟨hids, hne⟩ := nodup_append_singleton hids
    have hleft : ∀ s ∈ turns, s ∈ turns ++ [t] := fun s hs => List.mem_append_left _ hs
    have hright : t ∈ turns ++ [t] := List.mem_append_right _ (List.mem_singleton.mpr rfl)
    rw [List.map_append, List.map_singleton, List.append_assoc, List.singleton_append]
      at hfits hhost haccel
    -- the earlier requests are granted, with the last region still to come
    obtain ⟨hgranted, hserves⟩ := ih hfits hids (fun s hs => hzero s (hleft s hs))
      (fun s hs => hreadings s (hleft s hs)) (fun s hs => hcalm s (hleft s hs)) hhost haccel
    have hready : target = .accelerator →
        cx.accelerator = some M ∧ spec.Reports ∧ AccelHolds spec foreign m := fun htarget =>
      ⟨(haccel htarget).1.attached, (haccel htarget).1.reports, (haccel htarget).2⟩
    have hbefore := inPlace_afterTurns hkeys hacc hfits hids (fun s hs => hzero s (hleft s hs))
      (fun s hs => hreadings s (hleft s hs)) hready hgranted
    -- so there is room for the last one, too
    obtain ⟨hok, hafter⟩ := hbefore.granted hfits.toRoom hhost (keysMatch_afterTurns hkeys) hacc
      (afterTurns_steps hkeys) (List.forall_mem_map.mpr hne) (zero_notMem hzero)
      (hfits.sizes _ _ _ rfl) (hcalm t hright) fun htarget =>
        ⟨⟨(hready htarget).1, (hready htarget).2.1, hserves htarget⟩, (hready htarget).2.2⟩
    refine ⟨eachTurn_append_singleton.mpr ⟨hgranted, hok⟩, fun htarget => ?_⟩
    rw [afterTurns_append_singleton]
    exact (hserves htarget).after (hafter M (hready htarget).1)

/-- Calm turns over regions that fit are granted, each of them. -/
theorem Calm.granted (h : Calm cx m readings spec target turns) (hkeys : m.KeysMatch)
    (hacc : Accounted cx m) (hfits : Fits cx m readings spec target (turns.map Prod.fst))
    (hids : (turns.map fun t => t.1.id).Nodup) (hzero : ∀ t ∈ turns, t.1.id ≠ 0)
    (hreadings : ∀ t ∈ turns, t.2.load.now ∈ readings)
    (hholds : target = .accelerator → AccelHolds spec foreign m) :
    EachTurn cx target (Granted cx target) m turns := by
  have hall : Fits cx m readings spec target (turns.map Prod.fst ++ []) := by
    rwa [List.append_nil]
  have hhost : HostRoom cx m readings (turns.map Prod.fst ++ []) := by
    rw [List.append_nil]
    exact h.host
  have hserved : target = .accelerator →
      Served cx spec (turns.map (fun t => t.2.load.accel) ++ []) m.accelMemory ∧
        AccelHolds spec foreign m := by
    rw [List.append_nil]
    exact fun htarget => ⟨h.served htarget, hholds htarget⟩
  exact (granted_of_calm hkeys hacc hall hids hzero hreadings h.calls hhost hserved).1

/-! ## Settled regions fit -/

/-- What is settled after the last turn was settled before it, and its region was not on the
accelerator if it was requested for RAM. -/
theorem Settled.init (hkeys : m.KeysMatch) (hids : ((turns ++ [t]).map fun t => t.1.id).Nodup)
    (h : Settled cx target m (turns ++ [t])) : Settled cx target m turns ∧
      (target = .ram → (afterTurns cx target m turns).isResident t.1.id .accelerator = false) := by
  obtain ⟨hids, hne⟩ := nodup_append_singleton hids
  obtain ⟨hgranted, hlast⟩ := eachTurn_append_singleton.mp h.granted
  have hleft : ∀ s ∈ turns, s ∈ turns ++ [t] := fun s hs => List.mem_append_left _ hs
  refine ⟨⟨hgranted, fun s hs => ?_, fun hram s hs => ?_⟩, fun hram => ?_⟩
  · exact (fate_afterTurns hkeys (hne s hs)).isResident_of (h.resident s (hleft s hs))
  · have hoff := h.off hram s (hleft s hs)
    have hfate : Fate target s.1.id _ (afterTurns cx target m turns)
        (afterTurns cx target m (turns ++ [t])) := fate_afterTurns hkeys (hne s hs)
    cases hfate with
    | kept _ hsame => rwa [isResident_congr hsame] at hoff
    | lost _ hout _ =>
      rw [h.resident s (hleft s hs)] at hout
      cases hout
  · subst hram
    have hoff := h.off rfl t (List.mem_append_right _ (List.mem_singleton.mpr rfl))
    rwa [afterTurns_append_singleton, isResident_accelerator_ensureResident hlast] at hoff

/-- So it was before each turn. -/
theorem Settled.before {after : List (ModelRegion × Turn ρ α)} (hkeys : m.KeysMatch)
    (hids : ((turns ++ t :: after).map fun t => t.1.id).Nodup)
    (h : Settled cx target m (turns ++ t :: after)) : Settled cx target m turns ∧
      (target = .ram → (afterTurns cx target m turns).isResident t.1.id .accelerator = false) := by
  induction after using List.reverseRecOn with
  | nil => exact h.init hkeys hids
  | append_singleton after u ih =>
    rw [← List.cons_append, ← List.append_assoc] at h hids
    exact ih (nodup_append_singleton hids).1 (h.init hkeys hids).1

/-- Settled turns leave everything in its place, if the order of use decides what a scan picks. -/
theorem Settled.inPlace {regions : List ModelRegion} (horder : Orderly m readings regions)
    (hkeys : m.KeysMatch) (hacc : Accounted cx m) (hids : (turns.map fun t => t.1.id).Nodup)
    (hzero : ∀ t ∈ turns, t.1.id ≠ 0) (hreadings : ∀ t ∈ turns, t.2.load.now ∈ readings)
    (hregions : ∀ t ∈ turns, t.1 ∈ regions) (h : Settled cx target m turns) :
    InPlace cx m target readings (turns.map Prod.fst) (turns.map Prod.fst)
      (afterTurns cx target m turns) := by
  induction turns using List.reverseRecOn with
  | nil => exact .start
  | append_singleton turns t ih =>
    have hleft : ∀ s ∈ turns, s ∈ turns ++ [t] := fun s hs => List.mem_append_left _ hs
    have hright : t ∈ turns ++ [t] := List.mem_append_right _ (List.mem_singleton.mpr rfl)
    have hbefore := ih (nodup_append_singleton hids).1 (fun s hs => hzero s (hleft s hs))
      (fun s hs => hreadings s (hleft s hs)) (fun s hs => hregions s (hleft s hs))
      (h.init hkeys hids).1
    have hne := (nodup_append_singleton hids).2
    have hspared : ∀ r ∈ turns.map Prod.fst, ((afterTurns cx target m turns).ensureResident cx t.1
        target t.2.load).2.isResident r.id target = true := by
      rw [← afterTurns_append_singleton]
      exact List.forall_mem_map.mpr fun s hs => h.resident s (hleft s hs)
    rw [List.map_append, List.map_singleton, afterTurns_append_singleton]
    exact hbefore.request (keysMatch_afterTurns hkeys) hacc (afterTurns_steps hkeys)
      (List.forall_mem_map.mpr hne)
      (fun rec hrec _ => .inl (horder.sizes t.1 (hregions t hright) rec hrec))
      (hreadings t hright) (eachTurn_append_singleton.mp h.granted).2
      (scans_of_spared horder hacc (zero_notMem hzero) (List.forall_mem_map.mpr hne) hspared)

/-- Settled regions fit, if the order of use decides what a scan picks. -/
theorem Settled.fits (horder : Orderly m readings (turns.map Prod.fst)) (hkeys : m.KeysMatch)
    (hacc : Accounted cx m) (hids : (turns.map fun t => t.1.id).Nodup)
    (hzero : ∀ t ∈ turns, t.1.id ≠ 0) (hreadings : ∀ t ∈ turns, t.2.load.now ∈ readings)
    (hholds : target = .accelerator → cx.accelerator = some M ∧ AccelHolds spec foreign m)
    (h : Settled cx target m turns) : Fits cx m readings spec target (turns.map Prod.fst) := by
  have hacc' : Accounted cx (afterTurns cx target m turns) := hacc.steps (afterTurns_steps hkeys)
  have hend := h.inPlace horder hkeys hacc hids hzero hreadings fun t ht => List.mem_map_of_mem ht
  have hids' : ((turns.map Prod.fst).map ModelRegion.id).Nodup := by rwa [List.map_map]
  refine ⟨⟨?ram, fun htarget => ?accel⟩,
    fun htarget before region after hsplit rec hrec hres => ?off,
    fun before region after hsplit rec hrec _ => .inl (horder.sizes region ?_ rec hrec)⟩
  case ram =>
    -- what is in place at the end was never beyond the budget
    have hle : m.bytesInUse .ram readings (turns.map Prod.fst) (fun _ _ => false) ≤
        (afterTurns cx target m turns).bytesAt .ram fun _ _ => true :=
      hend.bytesInUse_le hids' (fun s hs => ModelResidencyState.satisfies_ram hs)
        fun _ _ _ _ _ _ hnone => by cases hnone
    have hbudget := hacc'.ram_le
    rw [hacc'.ramTotal_eq] at hbudget
    exact hle.trans hbudget
  case accel =>
    obtain ⟨hM, hholds⟩ := hholds htarget
    have hholds' : AccelHolds spec foreign (afterTurns cx target m turns) :=
      hholds.steps hacc hM (afterTurns_steps hkeys)
    have hle : m.bytesInUse .accelerator readings (turns.map Prod.fst) (fun _ _ => false) ≤
        (afterTurns cx target m turns).bytesAt .accelerator fun _ _ => true :=
      hend.bytesInUse_le hids' (fun s hs => htarget ▸ hs) fun _ _ _ _ _ _ hnone => by cases hnone
    have hcap := spec.bufferBytes_le _ hholds'.valid
    rw [hholds'.owned, hacc'.accelTotal_eq] at hcap
    rw [hholds.foreignBytes_eq]
    omega
  case off =>
    subst htarget
    -- a region that is resident before its turn would be found there
    obtain ⟨first, last, rfl, rfl, hlast⟩ := List.map_eq_append_iff.mp hsplit
    obtain ⟨t, last, rfl, rfl, rfl⟩ := List.map_eq_cons_iff.mp hlast
    obtain ⟨hfirst, hoff⟩ := h.before hkeys hids
    have hleft : ∀ s ∈ first, s ∈ first ++ t :: last := fun s hs => List.mem_append_left _ hs
    rw [List.map_append, List.nodup_append, List.map_cons] at hids
    have hbefore := hfirst.inPlace horder hkeys hacc hids.1 (fun s hs => hzero s (hleft s hs))
      (fun s hs => hreadings s (hleft s hs)) fun s hs => List.mem_map_of_mem (hleft s hs)
    have hk : t.1.id ∉ (first.map Prod.fst).map ModelRegion.id := by
      rw [List.map_map]
      exact fun hmem => hids.2.2 _ hmem _ List.mem_cons_self rfl
    cases hlookup : (afterTurns cx .ram m first).records.lookup t.1.id with
    | none => exact (hbefore.lost _ rec hk hrec hlookup).falls horder hrec
    | some rec' =>
      obtain ⟨rec₀, hrec₀, hremains⟩ := hbefore.others _ rec' hk hlookup
      cases hrec.symm.trans hrec₀
      have hstill := hoff rfl
      rw [isResident_of_lookup hlookup, hremains.kept hres (.inl rfl)] at hstill
      cases hstill
  · rw [hsplit]
    exact List.mem_append_right _ List.mem_cons_self

/-! ## Turns that are refused -/

end PlanResidencyAdapter

end HeteroAccel
