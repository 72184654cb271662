import HeteroAccel.Lib.KeyedMap
import HeteroAccel.Orchestration.BackendCapabilities
import Mathlib.Data.List.Sort

/-!
# The selection of a backend

`EngineOrchestrator::select_backend`: a forced backend that is verified, or the best of the backends
that pass every gate, or a backend for the CPU to fall back to. `std::sort` leaves candidates of one
score in an unspecified order, which is a `Traversal` here.

## Main definitions

* `selectBackend`: the selection;
* `SelectionSafe`: what every selection should promise, and `selectionSafe_iff`: when it does.
-/

namespace HeteroAccel.Orchestration

variable {φ : Type}

/-- A request for a backend. -/
structure SelectionRequest where
  modelArch : String := ""
  quantType : Int32 := 0
  modelSizeBytes : UInt64 := 0
  nCtx : UInt64 := 512
  preferLatency : Bool := false
  allowCpuFallback : Bool := true
  /-- Empty to select automatically. -/
  forcedBackend : String := ""
  nLayers : UInt32 := 0
  nEmbd : UInt32 := 0
  nHeads : UInt32 := 0
  nKvHeads : UInt32 := 0
  nFf : UInt32 := 0
  vocabSize : UInt32 := 0
  deriving DecidableEq, Repr

/-- The selected backend and the reasons; no backend is an empty name. -/
structure SelectionResult where
  selectedBackend : String := ""
  reason : String := ""
  rejectedBackends : List String := []
  isFallback : Bool := false
  usedBenchmarkHistory : Bool := false
  estimatedMemoryBytes : UInt64 := 0
  deriving DecidableEq, Repr

/-- A backend that has passed every gate. -/
structure Candidate (φ : Type) where
  caps : BackendCapabilities φ
  score : φ
  usedHistory : Bool

/-- What a selection is made from. -/
structure Orchestrator (φ : Type) where
  ops : ScoreOps φ
  hw : HardwareDetector
  backends : Backends φ
  /-- `perf_history_`: the best throughput observed for each backend. -/
  perfHistory : KeyedMap String φ := ∅
  /-- The order in which `std::sort` leaves candidates of one score. -/
  ties : Traversal (Candidate φ) := .stored

/-- `n / (1024 * 1024)` and the unit. -/
def inMegabytes (n : UInt64) : String := toString (n / (1024 * 1024)) ++ " MB"

namespace Orchestrator

variable (o : Orchestrator φ) (req : SelectionRequest)

/-! ## A forced backend -/

/-- The registered backend of an id. -/
def findBackend (id : String) : Option (BackendCapabilities φ) :=
  o.backends.list.find? fun b => b.backendId = id

/-- The checks made for a forced backend. -/
def compatible (b : BackendCapabilities φ) : Bool :=
  b.isAvailable o.hw && b.supportsQuant req.quantType && b.supportsArch req.modelArch

/-- Why a forced backend is rejected. -/
def incompatibility (b : BackendCapabilities φ) : String :=
  req.forcedBackend ++ ": forced backend incompatible (" ++
    (if !b.isAvailable o.hw then "hardware unavailable; " else "") ++
    (if !b.supportsQuant req.quantType then
      "unsupported quant " ++ toString req.quantType ++ "; " else "") ++
    (if !b.supportsArch req.modelArch then "unsupported arch " ++ req.modelArch ++ "; " else "") ++
    ")"

/-- The backend that the request forces, or a fallback. -/
def selectForced : SelectionResult :=
  match o.findBackend req.forcedBackend with
  | some forced =>
    if o.compatible req forced then
      { selectedBackend := req.forcedBackend
        reason := "Forced backend override matched and verified" }
    else if req.allowCpuFallback then
      { selectedBackend := "hydroxl_cpu"
        isFallback := true
        rejectedBackends := [o.incompatibility req forced]
        reason := "Forced backend '" ++ req.forcedBackend ++
          "' unavailable; falling back to hydroxl_cpu" }
    else
      { rejectedBackends := [o.incompatibility req forced]
        reason := "Forced backend '" ++ req.forcedBackend ++
          "' is unavailable and fallback disallowed" }
  | none =>
    if req.allowCpuFallback then
      { selectedBackend := "hydroxl_cpu"
        isFallback := true
        rejectedBackends := [req.forcedBackend ++ ": backend not registered"]
        reason := "Forced backend '" ++ req.forcedBackend ++
          "' not found; falling back to hydroxl_cpu" }
    else
      { rejectedBackends := [req.forcedBackend ++ ": backend not registered"]
        reason := "Forced backend '" ++ req.forcedBackend ++ "' is not registered" }

/-! ## Candidates -/

/-- The memory that a request needs: the estimate from the dimensions if they are known, else a
share above the size of the file. -/
def memoryNeeded : UInt64 :=
  if req.nLayers > 0 && req.nEmbd > 0 && req.vocabSize > 0 then
    (estimate o.ops req.nLayers req.nEmbd req.nHeads req.nKvHeads req.nFf req.vocabSize
      req.nCtx.toUInt32 (o.ops.lit (11 / 10))).totalEstimated
  else o.ops.scale req.modelSizeBytes (12 / 10)

/-- The request needs more than nine tenths of the RAM that is available. -/
def highMemoryPressure : Bool :=
  let availRam := if o.hw.availableRamBytes = 0 then o.hw.availableSystemRam
    else o.hw.availableRamBytes
  availRam > 0 && o.memoryNeeded req > o.ops.scale availRam (9 / 10)

/-- Not enough memory is reported for the model on the GPU that the backend would use. -/
def lacksVram : Bool :=
  o.hw.bestGpu.any fun gpu => gpu.vramBytes > 0 && gpu.vramBytes < o.memoryNeeded req

/-- Why a backend is no candidate, the first gate that it does not pass. -/
def rejection (b : BackendCapabilities φ) : Option String :=
  if o.highMemoryPressure req && b.needsGpu then
    some (b.backendId ++ ": memory footprint exceeds 90% available RAM; CPU prioritized")
  else if !b.isAvailable o.hw then
    some (b.backendId ++ ": hardware requirements not satisfied")
  else if !b.supportsQuant req.quantType then
    some (b.backendId ++ ": quant type " ++ toString req.quantType ++ " not supported")
  else if !b.supportsArch req.modelArch then
    some (b.backendId ++ ": architecture '" ++ req.modelArch ++ "' not supported")
  else if o.memoryNeeded req > 0 then
    if b.needsGpu then
      if o.lacksVram req then
        some (b.backendId ++ ": insufficient VRAM (have " ++
          inMegabytes (((o.hw.bestGpu).map DeviceInfo.vramBytes).getD 0) ++ ", need " ++
          inMegabytes (o.memoryNeeded req) ++ ")")
      else none
    else if o.hw.availableSystemRam < o.memoryNeeded req then
      some (b.backendId ++ ": insufficient system RAM (have " ++
        inMegabytes o.hw.availableSystemRam ++ ", need " ++
        inMegabytes (o.memoryNeeded req) ++ ")")
    else none
  else none

/-- A backend with its score: throughput times headroom over the cost of a cold start. -/
def candidate (b : BackendCapabilities φ) : Candidate φ :=
  let ops := o.ops
  let observed := (o.perfHistory.lookup b.backendId).filter fun tokS => ops.lt (ops.lit 0) tokS
  let throughput := observed.getD b.relativeThroughput
  let initCost := ops.max (ops.lit 50) b.initCostMs
  let initCostFactor := ops.add (ops.lit 1) (ops.div initCost (ops.lit 1000))
  let initCostFactor := if req.preferLatency then ops.mul initCostFactor (ops.lit 2)
    else initCostFactor
  let ramHeadroomFactor :=
    if o.memoryNeeded req > 0 && o.hw.availableSystemRam > 0 then
      let ratio := ops.div (ops.ofSize o.hw.availableSystemRam) (ops.ofSize (o.memoryNeeded req))
      ops.min (ops.lit 2) (ops.max (ops.lit 1) (ops.div ratio (ops.lit 2)))
    else ops.lit 1
  { caps := b
    score := ops.add (ops.div (ops.mul throughput ramHeadroomFactor) initCostFactor)
      (ops.mul (ops.ofInt b.priority) (ops.lit (1 / 1000)))
    usedHistory := observed.isSome }

/-- The backends that are not rejected, with their scores. -/
def candidates : List (Candidate φ) :=
  (o.backends.list.filter fun b => (o.rejection req b).isNone).map (o.candidate req)

/-- The candidates, the highest score first. -/
def ranked : List (Candidate φ) :=
  (o.ties.visit (o.candidates req)).insertionSort fun a b => o.ops.lt a.score b.score = false

/-! ## The selection -/

/-- The backend that is fallen back to. -/
def fallbackBackend : Option (BackendCapabilities φ) :=
  o.backends.list.find? fun b =>
    b.backendId = "hydroxl_cpu" || (!b.requiresVulkan && !b.requiresCuda)

/-- The result before a backend is chosen among the candidates. -/
def scanned : SelectionResult where
  rejectedBackends := o.backends.list.filterMap (o.rejection req)
  estimatedMemoryBytes := o.memoryNeeded req

/-- The result without a candidate. -/
def notSelected : SelectionResult :=
  { o.scanned req with reason := "No candidate backend satisfied model and hardware constraints" }

/-- The candidate of the best score. -/
def selectBest : SelectionResult :=
  match o.ranked req with
  | best :: _ =>
    { o.scanned req with
      selectedBackend := best.caps.backendId
      usedBenchmarkHistory := best.usedHistory
      reason := "Auto-selected backend '" ++ best.caps.backendId ++ "' (score=" ++
        o.ops.toFixed best.score ++ ")" }
  | [] =>
    if req.allowCpuFallback then
      match o.fallbackBackend with
      | some b =>
        { o.scanned req with
          selectedBackend := b.backendId
          isFallback := true
          reason := "Fallback to " ++ b.backendId ++
            " (no candidate passed all primary constraints)" }
      | none => o.notSelected req
    else o.notSelected req

/-- `select_backend`. -/
def selectBackend : SelectionResult :=
  if req.forcedBackend ≠ "" then o.selectForced req else o.selectBest req

/-! ## What a selection promises -/

/-- The memory gates of the automatic selection. -/
structure PassesMemoryGates (b : BackendCapabilities φ) : Prop where
  pressure : o.highMemoryPressure req = true → b.needsGpu = false
  vram : o.memoryNeeded req > 0 → b.needsGpu = true → o.lacksVram req = false
  ram : o.memoryNeeded req > 0 → b.needsGpu = false →
    o.memoryNeeded req ≤ o.hw.availableSystemRam

/-- What every selection should promise. -/
structure SelectionSafe (res : SelectionResult) : Prop where
  registered : res.selectedBackend = "" ∨
    ∃ b ∈ o.backends.list, b.backendId = res.selectedBackend
  usable : res.selectedBackend ≠ "" → res.isFallback = false →
    ∃ b ∈ o.backends.list, b.backendId = res.selectedBackend ∧ b.isAvailable o.hw = true ∧
      b.supportsQuant req.quantType = true ∧ b.supportsArch req.modelArch = true ∧
      (req.forcedBackend = "" → o.PassesMemoryGates req b)
  fallback : res.isFallback = true →
    ∃ b ∈ o.backends.list, b.backendId = res.selectedBackend ∧ b.needsGpu = false
  selected : res.selectedBackend = "" →
    req.allowCpuFallback = false ∨ ∀ b ∈ o.backends.list, b.needsGpu = true

variable {o req}

/-- A backend that no gate rejects is usable. -/
theorem usable_of_rejection_eq_none {b : BackendCapabilities φ} (h : o.rejection req b = none) :
    b.isAvailable o.hw = true ∧ b.supportsQuant req.quantType = true ∧
      b.supportsArch req.modelArch = true ∧ o.PassesMemoryGates req b := by
  unfold rejection at h
  split at h
  next => cases h
  next hpressure =>
    split at h
    next => cases h
    next havailable =>
      split at h
      next => cases h
      next hquant =>
        split at h
        next => cases h
        next harch =>
          refine ⟨by simpa using havailable, by simpa using hquant, by simpa using harch,
            fun hp => by simpa [hp] using hpressure, fun hneeded hgpu => ?_, fun hneeded hgpu => ?_⟩
          · rw [if_pos hneeded, if_pos hgpu] at h
            split at h
            next => cases h
            next hvram => simpa using hvram
          · rw [if_pos hneeded, if_neg (by simp [hgpu])] at h
            split at h
            next => cases h
            next hram => exact UInt64.not_lt.mp hram

/-- What is ranked is a backend that was not rejected. -/
theorem mem_ranked {c : Candidate φ} :
    c ∈ o.ranked req ↔
      ∃ b ∈ o.backends.list, o.rejection req b = none ∧ o.candidate req b = c := by
  simp [ranked, candidates, and_assoc]

/-- A candidate that is ranked is a registered backend that is usable. -/
theorem usable_of_mem_ranked {c : Candidate φ} (h : c ∈ o.ranked req) :
    c.caps ∈ o.backends.list ∧ c.caps.isAvailable o.hw = true ∧
      c.caps.supportsQuant req.quantType = true ∧ c.caps.supportsArch req.modelArch = true ∧
      o.PassesMemoryGates req c.caps := by
  obtain ⟨b, hb, hnone, rfl⟩ := mem_ranked.mp h
  exact ⟨hb, usable_of_rejection_eq_none hnone⟩

/-! A forced backend. -/

/-- A backend that is found is registered under its id. -/
theorem findBackend_eq_some {id : String} {b : BackendCapabilities φ}
    (h : o.findBackend id = some b) : b ∈ o.backends.list ∧ b.backendId = id :=
  ⟨List.mem_of_find?_eq_some h, by simpa using List.find?_some h⟩

/-- The backend found for an id is the one that is registered under it. -/
theorem findBackend_eq_some_of_mem {b : BackendCapabilities φ} (h : b ∈ o.backends.list) :
    o.findBackend b.backendId = some b := by
  have hsome : (o.findBackend b.backendId).isSome = true :=
    List.find?_isSome.mpr ⟨b, h, by simp⟩
  obtain ⟨found, hfound⟩ := Option.isSome_iff_exists.mp hsome
  obtain ⟨hmem, hid⟩ := findBackend_eq_some hfound
  rw [hfound, Backends.eq_of_backendId hmem h hid]

/-- A forced backend that is compatible is selected. -/
theorem safe_selectForced_of_compatible {b : BackendCapabilities φ}
    (hforced : req.forcedBackend ≠ "") (hb : b ∈ o.backends.list)
    (hid : b.backendId = req.forcedBackend)
    (hcompatible : o.compatible req b = true) : o.SelectionSafe req (o.selectForced req) := by
  have hselected : o.selectForced req =
      { selectedBackend := req.forcedBackend
        reason := "Forced backend override matched and verified" } := by
    unfold selectForced
    rw [← hid, findBackend_eq_some_of_mem hb]
    exact if_pos hcompatible
  simp only [compatible, Bool.and_eq_true] at hcompatible
  rw [hselected]
  exact ⟨.inr ⟨b, hb, hid⟩, fun _ _ => ⟨b, hb, hid, hcompatible.1.1, hcompatible.1.2,
    hcompatible.2, fun h => absurd h hforced⟩, nofun, fun h => absurd h hforced⟩

/-- Any other forced backend is replaced by `hydroxl_cpu`, whatever is registered under that id. -/
theorem selectForced_of_not_compatible
    (hincompatible : ∀ b ∈ o.backends.list, b.backendId = req.forcedBackend →
      o.compatible req b = false) :
    (o.selectForced req).selectedBackend =
        (if req.allowCpuFallback then "hydroxl_cpu" else "") ∧
      (o.selectForced req).isFallback = req.allowCpuFallback := by
  unfold selectForced
  split
  next forced hfound =>
    obtain ⟨hmem, hid⟩ := findBackend_eq_some hfound
    rw [if_neg (by rw [hincompatible forced hmem hid]; decide)]
    cases req.allowCpuFallback <;> exact ⟨rfl, rfl⟩
  next =>
    cases req.allowCpuFallback <;> exact ⟨rfl, rfl⟩

/-- When the answer to a forced backend is safe. -/
theorem safe_selectForced_iff (hforced : req.forcedBackend ≠ "") :
    o.SelectionSafe req (o.selectForced req) ↔
      (req.allowCpuFallback = true →
        (∃ b ∈ o.backends.list, b.backendId = req.forcedBackend ∧ o.compatible req b = true) ∨
          ∃ b ∈ o.backends.list, b.backendId = "hydroxl_cpu" ∧ b.needsGpu = false) := by
  by_cases hcompatible :
      ∃ b ∈ o.backends.list, b.backendId = req.forcedBackend ∧ o.compatible req b = true
  · obtain ⟨b, hb, hid, hcompatible⟩ := hcompatible
    exact iff_of_true (safe_selectForced_of_compatible hforced hb hid hcompatible)
      fun _ => .inl ⟨b, hb, hid, hcompatible⟩
  · -- without a compatible candidate the choice is the fallback or none
    have hincompatible : ∀ b ∈ o.backends.list, b.backendId = req.forcedBackend →
        o.compatible req b = false := by
      intro b hb hid
      by_contra h
      exact hcompatible ⟨b, hb, hid, by simpa using h⟩
    obtain ⟨hselected, hfallback⟩ := selectForced_of_not_compatible hincompatible
    constructor
    · intro hsafe hallow
      obtain ⟨b, hb, hid, hcpu⟩ := hsafe.fallback (by rw [hfallback, hallow])
      rw [hselected, if_pos hallow] at hid
      exact .inr ⟨b, hb, hid, hcpu⟩
    · intro hcondition
      cases hallow : req.allowCpuFallback
      · rw [hallow] at hselected hfallback
        refine ⟨.inl hselected, fun h => absurd hselected h, fun h => ?_, fun _ => .inl hallow⟩
        rw [hfallback] at h
        cases h
      · obtain ⟨b, hb, hid, hcpu⟩ := (hcondition hallow).resolve_left hcompatible
        rw [hallow] at hselected hfallback
        have hid' : b.backendId = (o.selectForced req).selectedBackend := hid.trans hselected.symm
        refine ⟨.inr ⟨b, hb, hid'⟩, fun _ h => ?_, fun _ => ⟨b, hb, hid', hcpu⟩, fun h => ?_⟩
        · rw [hfallback] at h
          cases h
        · rw [hselected] at h
          exact absurd h (by decide)

/-! The automatic selection. -/

/-- The candidate that is ranked first is safe unless its id is empty. -/
theorem safe_selectBest_of_ranked {best : Candidate φ} {rest : List (Candidate φ)}
    (hranked : o.ranked req = best :: rest) :
    o.SelectionSafe req (o.selectBest req) ↔
      (req.allowCpuFallback = true → best.caps.backendId = "" →
        ∀ b ∈ o.backends.list, b.needsGpu = true) := by
  obtain ⟨hmem, havailable, hquant, harch, hgates⟩ :=
    usable_of_mem_ranked (hranked ▸ List.mem_cons_self : best ∈ o.ranked req)
  have hselected : (o.selectBest req).selectedBackend = best.caps.backendId := by
    rw [selectBest, hranked]
  have hfallback : (o.selectBest req).isFallback = false := by
    rw [selectBest, hranked]
    rfl
  constructor
  · intro hsafe hallow hempty
    -- an empty identifier reads as no choice at all
    rcases hsafe.selected (hselected.trans hempty) with h | h
    · rw [hallow] at h
      cases h
    · exact h
  · intro hcondition
    refine ⟨.inr ⟨_, hmem, hselected.symm⟩,
      fun _ _ => ⟨_, hmem, hselected.symm, havailable, hquant, harch, fun _ => hgates⟩,
      fun h => ?_, fun hempty => ?_⟩
    · rw [hfallback] at h
      cases h
    · cases hallow : req.allowCpuFallback
      · exact .inl rfl
      · exact .inr (hcondition hallow (hselected.symm.trans hempty))

/-- Without a candidate the selection is safe if the backend that is fallen back to needs no GPU and
has an id, or if there is none. -/
theorem safe_selectBest_of_nil (hranked : o.ranked req = []) :
    o.SelectionSafe req (o.selectBest req) ↔
      (req.allowCpuFallback = true → ∀ b, o.fallbackBackend = some b →
        b.needsGpu = false ∧ b.backendId ≠ "") := by
  have hnone : req.allowCpuFallback = false ∨ o.fallbackBackend = none →
      o.selectBest req = o.notSelected req := by
    intro h
    rw [selectBest, hranked]
    dsimp only
    rcases h with h | h
    · rw [if_neg (by simp [h])]
    · rw [h, ite_self]
  have hunselected : o.selectBest req = o.notSelected req →
      (req.allowCpuFallback = false ∨ ∀ b ∈ o.backends.list, b.needsGpu = true) →
      o.SelectionSafe req (o.selectBest req) := by
    intro hres hselected
    rw [hres]
    exact ⟨.inl rfl, fun h => absurd rfl h, nofun, fun _ => hselected⟩
  cases hallow : req.allowCpuFallback
  · exact iff_of_true (hunselected (hnone (.inl hallow)) (.inl hallow)) nofun
  · cases hfound : o.fallbackBackend with
    | none =>
      refine iff_of_true (hunselected (hnone (.inr hfound)) (.inr fun b hb => ?_)) fun _ => nofun
      -- a backend that needs no GPU would have been found
      have hneither := List.find?_eq_none.mp hfound b hb
      cases hgpu : b.needsGpu
      · simp only [BackendCapabilities.needsGpu, Bool.or_eq_false_iff] at hgpu
        simp [hgpu] at hneither
      · rfl
    | some b =>
      have hb : b ∈ o.backends.list := List.mem_of_find?_eq_some hfound
      have hres : (o.selectBest req).selectedBackend = b.backendId ∧
          (o.selectBest req).isFallback = true := by
        rw [selectBest, hranked]
        dsimp only
        rw [if_pos hallow, hfound]
        exact ⟨rfl, rfl⟩
      obtain ⟨hselected, hfallback⟩ := hres
      constructor
      · rintro hsafe - b' hb'
        obtain rfl := Option.some.inj hb'
        obtain ⟨b', hmem, hid, hcpu⟩ := hsafe.fallback hfallback
        rw [hselected] at hid
        obtain rfl := Backends.eq_of_backendId hmem hb hid
        refine ⟨hcpu, fun hempty => ?_⟩
        rcases hsafe.selected (hselected.trans hempty) with h | h
        · rw [hallow] at h
          cases h
        · rw [h b' hb] at hcpu
          cases hcpu
      · intro hcondition
        obtain ⟨hcpu, hempty⟩ := hcondition rfl b rfl
        refine ⟨.inr ⟨b, hb, hselected.symm⟩, fun _ h => ?_,
          fun _ => ⟨b, hb, hselected.symm, hcpu⟩, fun h => absurd (hselected.symm.trans h) hempty⟩
        rw [hfallback] at h
        cases h

/-- A selection is safe exactly when falling back is disallowed; or the forced backend is
compatible, or a `hydroxl_cpu` is registered that needs no GPU; or, without a forced backend, the
best candidate has an id or every backend needs a GPU, and without a candidate the backend that is
fallen back to has an id and needs no GPU. -/
theorem selectionSafe_iff (o : Orchestrator φ) (req : SelectionRequest) :
    o.SelectionSafe req (o.selectBackend req) ↔
      (req.allowCpuFallback = true →
        (req.forcedBackend ≠ "" →
          (∃ b ∈ o.backends.list, b.backendId = req.forcedBackend ∧ o.compatible req b = true) ∨
            ∃ b ∈ o.backends.list, b.backendId = "hydroxl_cpu" ∧ b.needsGpu = false) ∧
        (req.forcedBackend = "" →
          (∀ best ∈ (o.ranked req).head?, best.caps.backendId = "" →
            ∀ b ∈ o.backends.list, b.needsGpu = true) ∧
          (o.ranked req = [] → ∀ b, o.fallbackBackend = some b →
            b.needsGpu = false ∧ b.backendId ≠ ""))) := by
  unfold selectBackend
  by_cases hforced : req.forcedBackend = ""
  · rw [if_neg (not_not.mpr hforced)]
    cases hranked : o.ranked req with
    | nil =>
      rw [safe_selectBest_of_nil hranked]
      simp [hforced]
    | cons best rest =>
      rw [safe_selectBest_of_ranked hranked]
      simp [hforced]
  · rw [if_pos hforced, safe_selectForced_iff hforced]
    simp [hforced]

/-- A machine without Vulkan on which only a backend for Vulkan is registered. -/
def vulkanOnly : Orchestrator ℚ where
  ops := exactOps
  hw := { availableSystemRam := 8 * 1024 * 1024 * 1024 }
  backends := ({} : Backends ℚ).register {
    backendId := "hydroxl_vulkan"
    requiresVulkan := true
    relativeThroughput := 5 / 2
    initCostMs := 500 }

/-- Forcing the backend falls back to one that is not registered. -/
theorem not_selectionSafe_sample :
    ¬ vulkanOnly.SelectionSafe { forcedBackend := "hydroxl_vulkan" }
      (vulkanOnly.selectBackend { forcedBackend := "hydroxl_vulkan" }) := by
  intro hsafe
  have hunregistered : ∀ b ∈ vulkanOnly.backends.list, b.backendId ≠
      (vulkanOnly.selectBackend { forcedBackend := "hydroxl_vulkan" }).selectedBackend := by
    decide +kernel
  obtain ⟨b, hb, hid, -⟩ := hsafe.fallback (by decide +kernel)
  exact hunregistered b hb hid

end Orchestrator

end HeteroAccel.Orchestration
