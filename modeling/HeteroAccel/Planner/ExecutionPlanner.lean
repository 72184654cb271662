import HeteroAccel.Lib.KeyedMap
import HeteroAccel.Planner.ExecutionPlan
import Mathlib.Data.List.Sort
import Mathlib.Data.String.Basic

/-!
# The execution planner

`ExecutionPlanner::plan`: an engine and a placement for a model, from what the model requires, what
the devices of a capability report offer, and what the registered engines can do. The placements are
tried from the most ambitious one down.

A pointer to a device of the report is the kind of the device here: the report has at most one
device that is looked up under each of the three names.

## Main definitions

* `choose`: the placement, and `Chosen`: everything that was checked for it;
* `plan`, and `plan_cases`: a viable plan is the completion of a placement.
-/

namespace HeteroAccel.Planner

/-! ## What the planner is given -/

/-- What an engine may advertise; each is one bit of the mask. -/
inductive EngineCapability where
  | textGeneration | embeddings | vision | audio | multimodal
  | backendCpu | backendVulkan | backendCuda | backendNpu
  | streaming | batching | cancellation | dynamicLoading
  deriving DecidableEq, Repr

/-- The bit of a capability. -/
def EngineCapability.toUInt32 : EngineCapability → UInt32
  | .textGeneration => 0x0001
  | .embeddings => 0x0002
  | .vision => 0x0004
  | .audio => 0x0008
  | .multimodal => 0x0010
  | .backendCpu => 0x0100
  | .backendVulkan => 0x0200
  | .backendCuda => 0x0400
  | .backendNpu => 0x0800
  | .streaming => 0x1000
  | .batching => 0x2000
  | .cancellation => 0x4000
  | .dynamicLoading => 0x8000

/-- The capabilities of an engine, or those a model requires, as a mask of 32 bits. -/
structure EngineCapabilitySet where
  mask : UInt32 := 0
  deriving DecidableEq, Repr

namespace EngineCapabilitySet

/-- The mask with one more bit. -/
def add (caps : EngineCapabilitySet) (cap : EngineCapability) : EngineCapabilitySet :=
  { mask := caps.mask ||| cap.toUInt32 }

/-- The bit of a capability is set. -/
def has (caps : EngineCapabilitySet) (cap : EngineCapability) : Bool :=
  caps.mask &&& cap.toUInt32 ≠ 0

end EngineCapabilitySet

/-- The file formats that a model inspector tells apart. -/
inductive ModelFormat where
  | unknown | gguf | safetensors | onnx | pytorch | nativeAgr | other
  deriving DecidableEq, Repr

/-- The quantizations of a model; the planner only asks whether it is known. -/
inductive QuantizationType where
  | f32 | f16 | bf16 | q8 | q6 | q5 | q4 | q3 | q2 | unknown
  deriving DecidableEq, Repr

/-- What the inspection of a model has found. A memory requirement of 0 counts as unknown. -/
structure ModelRequirements where
  format : ModelFormat := .unknown
  estimatedMemoryBytes : Option UInt64 := none
  layerCount : Option UInt32 := none
  contextLength : Option UInt32 := none
  quantization : QuantizationType := .unknown
  requiredCapabilities : EngineCapabilitySet := {}
  deriving DecidableEq, Repr

/-- A report on one engine, by its name in the registry. -/
structure EngineCompatibility where
  engineName : String
  supported : Bool := false
  reason : String := ""
  deriving DecidableEq, Repr

/-- A report on the devices of one backend; the planner asks for them by `backendType`. -/
structure DeviceCompatibility where
  backendType : String
  available : Bool := false
  supported : Bool := false
  memoryCapacity : UInt64 := 0
  deriving DecidableEq, Repr

/-- What the report says of the resources. The planner never trusts the first field alone. -/
structure ResourceFeasibility where
  fullResidencyFeasible : Bool := false
  streamingPotentiallyFeasible : Bool := false
  deriving DecidableEq, Repr

/-- The report that the planner gets: engines, devices and resources. -/
structure CapabilityReport where
  engines : List EngineCompatibility := []
  devices : List DeviceCompatibility := []
  resources : ResourceFeasibility := {}
  deriving DecidableEq, Repr

/-- The registered factories, each by the capabilities of the engine it creates, or by `none` where
it creates no engine. -/
abbrev ExecutionEngineRegistry := KeyedMap String (Option EngineCapabilitySet)

/-! ## Engines -/

/-- The share of a model, in percent, below which a partial residency is not planned. -/
def kPartialResidentPercent : UInt64 := 15

/-- The first device of the report with this backend. -/
def findDevice (report : CapabilityReport) (backendType : String) : Option DeviceCompatibility :=
  report.devices.find? fun device => device.backendType = backendType

/-- A device that is reported, available and supported. -/
def deviceUsable : Option DeviceCompatibility → Bool
  | some device => device.available && device.supported
  | none => false

/-- An engine has every required capability, of those that name a task. -/
def coversRequired (caps : EngineCapabilitySet) (req : ModelRequirements) : Bool :=
  [.textGeneration, .embeddings, .vision, .audio, .multimodal].all fun bit =>
    !(req.requiredCapabilities.has bit && !caps.has bit)

/-- An engine can run a plan of this mode; a hybrid plan needs the CPU and one accelerator. -/
def hasBackend (caps : EngineCapabilitySet) : ExecutionMode → Bool
  | .cpu => caps.has .backendCpu
  | .vulkan => caps.has .backendVulkan
  | .cuda => caps.has .backendCuda
  | .hybrid => caps.has .backendCpu && (caps.has .backendVulkan || caps.has .backendCuda)
  | .unsupported => false

/-- An engine that was looked at, with the reason if it is not eligible. -/
structure Candidate where
  key : String
  caps : EngineCapabilitySet := {}
  eligible : Bool := false
  rejection : String := ""
  deriving DecidableEq, Repr

/-- The candidate for a key of the registry. -/
def candidateFor (requirements : ModelRequirements) (report : CapabilityReport)
    (registry : ExecutionEngineRegistry) (key : String) : Candidate :=
  match registry.lookup key with
  | none | some none => { key, rejection := key ++ ": factory returned no engine" }
  | some (some caps) =>
    let listed := report.engines.find? fun entry => entry.engineName = key
    if !report.engines.isEmpty && listed.isNone then
      { key, caps, rejection := key ++ ": absent from capability report" }
    else
      match listed.filter fun entry => !entry.supported with
      | some entry =>
        { key
          caps
          rejection := key ++ ": " ++
            (if entry.reason = "" then "capability report rejected the engine" else entry.reason) }
      | none =>
        if !coversRequired caps requirements then
          { key, caps, rejection := key ++ ": missing a required engine capability" }
        else { key, caps, eligible := true }

/-- The candidates, in the order of their keys. -/
def candidatesOf (requirements : ModelRequirements) (report : CapabilityReport)
    (registry : ExecutionEngineRegistry) : List Candidate :=
  (registry.keys.insertionSort (· ≤ ·)).map (candidateFor requirements report registry)

/-- The eligible candidate for a mode whose key is the least in the order of strings. -/
def selectEngine (candidates : List Candidate) (mode : ExecutionMode) : Option Candidate :=
  candidates.foldl
    (fun best candidate =>
      if !candidate.eligible then best
      else if !hasBackend candidate.caps mode then best
      else
        match best with
        | none => some candidate
        | some b => if candidate.key < b.key then some candidate else best)
    none

/-- The plan that cannot be carried out, for one reason. -/
def unsupportedPlan (reason : PlanReason) (explanation : String) : ModelExecutionPlan :=
  { reasons := [reason], explanation }

/-- Why the candidates that are not eligible were rejected. -/
def rejections (candidates : List Candidate) : List String :=
  (candidates.filter fun candidate => !candidate.eligible).map Candidate.rejection

/-- The plan that cannot be carried out, with the rejected engines and the size of the model. -/
def failWithRejections (candidates : List Candidate) (modelBytes : UInt64) (reason : PlanReason)
    (explanation : String) : ModelExecutionPlan :=
  let plan := { unsupportedPlan reason explanation with
    estimatedModelMemoryBytes := modelBytes
    rejectedEngines := rejections candidates }
  if plan.rejectedEngines ≠ [] then plan.addReason .engineRejected else plan

/-- The layers for an accelerator: the same share of the layers as of the bytes, rounded down; at
most all but one, and at least one. -/
def partialLayers (req : ModelRequirements) (acceleratorBytes modelBytes : UInt64) : UInt32 :=
  match req.layerCount with
  | none => 0
  | some layerCount =>
    if layerCount = 0 || modelBytes = 0 then 0
    else
      let layers := layerCount.toUInt64 * acceleratorBytes / modelBytes
      let layers := if layers = 0 then 1 else layers
      let layers := if layers ≥ layerCount.toUInt64 then layerCount.toUInt64 - 1 else layers
      let layers := if layers = 0 then 1 else layers
      layers.toUInt32

/-! ## Placements -/

/-- A device the planner looks up. -/
inductive DeviceKind where
  | cpu | vulkan | cuda
  deriving DecidableEq, Repr

/-- The name under which a report lists the devices of a kind. -/
def DeviceKind.backendType : DeviceKind → String
  | .cpu => "CPU"
  | .vulkan => "Vulkan"
  | .cuda => "CUDA"

/-- What a placement is decided on. -/
structure Placement where
  requirements : ModelRequirements
  report : CapabilityReport
  config : PlannerConfig
  candidates : List Candidate

/-- What one of the placements that the planner tries would choose. -/
structure Choice where
  mode : ExecutionMode
  residency : ExecutionStrategy
  device : DeviceKind
  executable : Bool
  confidence : ℤ
  deriving DecidableEq, Repr

namespace Placement

variable (p : Placement)

/-- The memory requirement is known: reported, and positive. -/
def memoryKnown : Bool := p.requirements.estimatedMemoryBytes.any fun bytes => bytes > 0

/-- The memory requirement, and 0 when it is unknown. -/
def modelBytes : UInt64 :=
  if p.memoryKnown then p.requirements.estimatedMemoryBytes.getD 0 else 0

/-- The device of a kind in the report. -/
def device (kind : DeviceKind) : Option DeviceCompatibility := findDevice p.report kind.backendType

/-- The device of a kind is reported, available and supported. -/
def usable (kind : DeviceKind) : Bool := deviceUsable (p.device kind)

/-- `device->memory_capacity`. -/
def capacity (kind : DeviceKind) : UInt64 := ((p.device kind).map (·.memoryCapacity)).getD 0

/-- The whole model fits on the device of a kind. -/
def fits (kind : DeviceKind) : Bool :=
  p.memoryKnown && p.usable kind && p.capacity kind ≥ p.modelBytes

/-- `partial`. -/
def partlyFits (kind : DeviceKind) : Bool :=
  if !p.config.allowPartialResidency || !p.memoryKnown || !p.usable kind then false
  else if p.capacity kind = 0 || p.capacity kind ≥ p.modelBytes then false
  else p.capacity kind * 100 ≥ p.modelBytes * kPartialResidentPercent

/-- The configuration allows the CPU, the model fits there, and some engine runs on it. -/
def cpuFallbackAvailable : Bool :=
  p.config.allowCpuFallback && p.fits .cpu && (selectEngine p.candidates .cpu).isSome

/-- The configuration and the report allow a streaming plan. -/
def streamingPossible : Bool :=
  p.config.allowStreamingPlan && p.report.resources.streamingPotentiallyFeasible

/-- All of the model on one accelerator, with an engine for it. -/
def tryFull (mode : ExecutionMode) (kind : DeviceKind) : Option Choice :=
  if !p.config.allowAccelerator || !p.fits kind then none
  else if (selectEngine p.candidates mode).isNone then none
  else
    some {
      mode
      residency := .fullResident
      device := kind
      executable := true
      confidence := 90 }

/-- A part of the model on one accelerator and the rest on the CPU, with an engine for it. -/
def tryPartial (accelMode : ExecutionMode) (kind : DeviceKind) : Option Choice :=
  if !p.config.allowAccelerator || !p.partlyFits kind then none
  else if (selectEngine p.candidates accelMode).isNone then none
  else
    some {
      mode := .hybrid
      residency := .partialResident
      device := kind
      executable := true
      confidence := 70 }

/-- A streaming plan, which cannot be executed yet: it needs an accelerator and some engine. -/
def tryStreaming : Option Choice :=
  if p.streamingPossible && p.config.allowAccelerator && (p.usable .vulkan || p.usable .cuda) then
    if [ExecutionMode.hybrid, .vulkan, .cuda, .cpu].any fun mode =>
        (selectEngine p.candidates mode).isSome then
      some {
        mode := .hybrid
        residency := .streaming
        device := if p.usable .vulkan then .vulkan else if p.usable .cuda then .cuda else .cpu
        executable := false
        confidence := 40 }
    else none
  else none

/-- The model on the CPU. -/
def tryCpuFallback : Option Choice :=
  if p.cpuFallbackAvailable then
    some {
      mode := .cpu
      residency := .cpuFallback
      device := .cpu
      executable := true
      confidence := 80 }
  else none

/-- The placement, the most ambitious one that is possible. -/
def choose : Option Choice :=
  p.tryFull .cuda .cuda <|> p.tryFull .vulkan .vulkan <|> p.tryPartial .cuda .cuda <|>
    p.tryPartial .vulkan .vulkan <|> p.tryStreaming <|> p.tryCpuFallback

/-- The engine of a placement. -/
def engineFor (choice : Choice) : Option Candidate :=
  let engineMode : ExecutionMode :=
    if choice.residency = .partialResident || choice.residency = .streaming then
      match choice.device with
      | .cuda => .cuda
      | .vulkan => .vulkan
      | .cpu => .cpu
    else choice.mode
  match selectEngine p.candidates engineMode with
  | some engine => some engine
  | none => if choice.mode = .hybrid then selectEngine p.candidates .hybrid else none

/-! ## Plans -/

/-- The plan before a placement is tried. -/
def start : ModelExecutionPlan :=
  let plan : ModelExecutionPlan := { estimatedModelMemoryBytes := p.modelBytes }
  let plan := if p.requirements.quantization = .unknown then
      (plan.addReason .quantizationUnknown).warn
        "Quantization is unknown. The plan does not assume a specific quant format."
    else plan
  if p.report.resources.fullResidencyFeasible &&
    !(p.fits .cpu || p.fits .vulkan || p.fits .cuda) then
    (plan.addReason .contradictoryCapability).warn
      "Capability report says full residency is feasible, but no usable device can hold the model. Device memory is authoritative."
  else plan

/-- The rejected engines are appended to the plan. -/
def noteRejections (plan : ModelExecutionPlan) : ModelExecutionPlan :=
  { plan with rejectedEngines := plan.rejectedEngines ++ rejections p.candidates }

/-- The context limit of the plan: the length of the model, clamped to the ceiling if one is set. -/
def finishContext (plan : ModelExecutionPlan) : ModelExecutionPlan :=
  let plan := match p.requirements.contextLength with
    | some n => { plan with contextLimit := some n }
    | none => plan
  if p.config.contextCeiling > 0 && plan.contextLimit.all fun n => n > p.config.contextCeiling then
    { plan with contextLimit := some p.config.contextCeiling }.warn
      "Context length was clamped to the planner configuration ceiling."
  else plan

/-- The plan when the size of the model is not known. -/
def unknownMemory : ModelExecutionPlan :=
  let plan := { p.start.addReason .unknownMemory with
    explanation := "Model memory requirement is zero or unknown. The planner will not claim accelerator residency or CPU execution without a size." }
  p.finishContext (p.noteRejections (plan.warn "Missing or zero model memory requirement."))

/-- The plan when no placement is possible. -/
def notChosen : ModelExecutionPlan :=
  let plan := p.finishContext (p.noteRejections p.start)
  let plan := if !p.fits .cpu && p.usable .cpu then plan.addReason .insufficientRam else plan
  let plan := if !p.usable .cpu && !p.usable .vulkan && !p.usable .cuda then
      plan.addReason .engineUnavailable
    else plan
  let plan := if plan.reasons.head?.all fun reason =>
        reason = .quantizationUnknown || reason = .contradictoryCapability then
      plan.addReason .engineUnavailable
    else plan
  { plan with explanation :=
    "No registered engine can execute this model on the reported devices." }

/-- Reasons, budgets and texts of a full residency. -/
def describeFull (choice : Choice) (engine : Candidate) (plan : ModelExecutionPlan) :
    ModelExecutionPlan :=
  let plan := if choice.mode = .cuda then plan.addReason .cudaFeasible else plan
  let plan := if choice.mode = .vulkan then plan.addReason .vulkanFeasible else plan
  let plan := plan.addReason .acceleratorMemorySufficient
  { plan with
    gpuLayerBudget := p.requirements.layerCount.or plan.gpuLayerBudget
    fallback := if p.cpuFallbackAvailable then .cpuFallback else plan.fallback
    explanation := choice.mode.toString ++
      " full residency was selected because the model fits in the reported accelerator memory and engine '" ++
      engine.key ++ "' advertises that backend." }

/-- Reasons, budgets and texts of a partial residency. -/
def describePartial (choice : Choice) (engine : Candidate) (plan : ModelExecutionPlan) :
    ModelExecutionPlan :=
  let plan := (plan.addReason .acceleratorMemoryInsufficient).addReason .partialResidency
  let plan := if choice.device = .cuda then plan.addReason .cudaFeasible else plan
  let plan := if choice.device = .vulkan then plan.addReason .vulkanFeasible else plan
  let layers := partialLayers p.requirements plan.memoryBudgetBytes p.modelBytes
  { plan with
    gpuLayerBudget := if layers > 0 then some layers else plan.gpuLayerBudget
    fallback := if p.cpuFallbackAvailable then .cpuFallback else plan.fallback
    explanation :=
      "Partial residency was selected because the model exceeds accelerator memory but at least " ++
      toString kPartialResidentPercent ++ "% of it fits. Engine '" ++ engine.key ++
      "' can offload a layer budget. This is existing layer offload, not Phase 14 tensor streaming." }

/-- Reasons and texts of a streaming plan. -/
def describeStreaming (plan : ModelExecutionPlan) : ModelExecutionPlan :=
  let plan :=
    ((plan.addReason .acceleratorMemoryInsufficient).addReason .streamingRequired).addReason
      .futureCapability
  { plan with
    executable := false
    fallback := if p.cpuFallbackAvailable then .cpuFallback else plan.fallback
    explanation := "Streaming plan requires Phase 14 execution support. The model does not fit a resident or partial accelerator placement, and the capability report says streaming may eventually be feasible. This plan is not executable." }.warn
      "STREAMING is a plan only. Tensor streaming is not implemented."

/-- Reasons, budgets and texts of a plan for the CPU. -/
def describeCpuFallback (engine : Candidate) (plan : ModelExecutionPlan) : ModelExecutionPlan :=
  let plan := { plan.addReason .cpuFallback with gpuLayerBudget := some 0 }
  let plan := if !p.usable .vulkan then
      plan.warn "Vulkan is not a usable device in the capability report."
    else plan
  let plan := if !p.usable .cuda then
      plan.warn "CUDA is not a usable device in the capability report."
    else plan
  { plan with
    explanation :=
      "CPU fallback was selected because no accelerator placement is currently possible and engine '" ++
      engine.key ++ "' can execute on the reported CPU memory." }

/-- The plan of a placement with its engine. -/
def complete (choice : Choice) (engine : Candidate) : ModelExecutionPlan :=
  let plan := { p.finishContext (p.noteRejections p.start) with
    viable := true
    executable := choice.executable
    engineKey := engine.key
    mode := choice.mode
    residency := choice.residency
    confidence := choice.confidence
    memoryBudgetBytes := p.capacity choice.device
    streamingRequired := choice.residency = .streaming }
  let plan := match choice.residency with
    | .fullResident => p.describeFull choice engine plan
    | .partialResident => p.describePartial choice engine plan
    | .streaming => p.describeStreaming plan
    | .cpuFallback => p.describeCpuFallback engine plan
    | _ => plan
  if !p.usable .cuda && engine.caps.has .backendCuda then
    plan.warn
      "The selected engine advertises CUDA, but CUDA was not selected because the capability report says it is unavailable."
  else plan

end Placement

/-- What the placement for a request is decided on. -/
def placementOf (requirements : ModelRequirements) (report : CapabilityReport)
    (registry : ExecutionEngineRegistry) (config : PlannerConfig) : Placement :=
  { requirements, report, config, candidates := candidatesOf requirements report registry }

/-- `ExecutionPlanner::plan`: the placements are tried in order, and the first one that is possible
makes the plan. -/
def plan (requirements : ModelRequirements) (report : CapabilityReport)
    (registry : ExecutionEngineRegistry) (config : PlannerConfig) : ModelExecutionPlan :=
  let p := placementOf requirements report registry config
  if !config.allowAccelerator && !config.allowPartialResidency && !config.allowStreamingPlan &&
      !config.allowCpuFallback then
    unsupportedPlan .invalidConfiguration "Planner configuration disables every execution strategy."
  else if requirements.format = .unknown then
    (unsupportedPlan .unsupportedModel
      "Model format is missing or unsupported, so no engine can be selected.").warn
        "Missing model metadata: format is UNKNOWN."
  else if registry.keys = [] then
    { unsupportedPlan .noRegisteredEngines "No execution engines are registered." with
      estimatedModelMemoryBytes := p.modelBytes }
  else if !p.candidates.any Candidate.eligible then
    failWithRejections p.candidates p.modelBytes .engineUnavailable
      "Every registered engine was rejected for this workload."
  else if !p.memoryKnown then p.unknownMemory
  else
    match p.choose with
    | none => p.notChosen
    | some choice =>
      match p.engineFor choice with
      | none =>
        failWithRejections p.candidates p.modelBytes .engineUnavailable
          "A placement was possible from device memory, but no eligible engine advertised that backend."
      | some engine => p.complete choice engine

/-! ## What a viable plan rests on -/

/-- The mode of a placement that is wholly on one device. -/
def DeviceKind.mode : DeviceKind → ExecutionMode
  | .cpu => .cpu
  | .vulkan => .vulkan
  | .cuda => .cuda

namespace Placement

variable {p : Placement}

/-- The placements there are, with everything that was checked for each. -/
inductive Chosen (p : Placement) : Choice → Prop
  | full {kind : DeviceKind} (haccel : kind ≠ .cpu) (hallowed : p.config.allowAccelerator = true)
      (hfits : p.fits kind = true) (hengine : (selectEngine p.candidates kind.mode).isSome = true) :
      Chosen p {
        mode := kind.mode
        residency := .fullResident
        device := kind
        executable := true
        confidence := 90 }
  | partlyResident {kind : DeviceKind} (haccel : kind ≠ .cpu)
      (hallowed : p.config.allowAccelerator = true) (hfits : p.partlyFits kind = true)
      (hengine : (selectEngine p.candidates kind.mode).isSome = true) :
      Chosen p {
        mode := .hybrid
        residency := .partialResident
        device := kind
        executable := true
        confidence := 70 }
  | streaming {kind : DeviceKind} (haccel : kind ≠ .cpu)
      (hallowed : p.config.allowAccelerator = true) (hpossible : p.streamingPossible = true)
      (husable : p.usable kind = true) :
      Chosen p {
        mode := .hybrid
        residency := .streaming
        device := kind
        executable := false
        confidence := 40 }
  | cpuFallback (havailable : p.cpuFallbackAvailable = true) :
      Chosen p {
        mode := .cpu
        residency := .cpuFallback
        device := .cpu
        executable := true
        confidence := 80 }

/-- What `tryFull` offers is a sound choice. -/
theorem chosen_of_tryFull (kind : DeviceKind) {choice : Choice} (haccel : kind ≠ .cpu)
    (h : p.tryFull kind.mode kind = some choice) : p.Chosen choice := by
  unfold tryFull at h
  split at h
  next => cases h
  next hfits =>
    simp only [Bool.or_eq_true, Bool.not_eq_true', not_or, Bool.not_eq_false] at hfits
    split at h
    next => cases h
    next hengine =>
      cases h
      exact .full haccel hfits.1 hfits.2 (by simpa [Option.isSome_iff_ne_none] using hengine)

/-- What `tryPartial` offers is a sound choice. -/
theorem chosen_of_tryPartial (kind : DeviceKind) {choice : Choice} (haccel : kind ≠ .cpu)
    (h : p.tryPartial kind.mode kind = some choice) : p.Chosen choice := by
  unfold tryPartial at h
  split at h
  next => cases h
  next hfits =>
    simp only [Bool.or_eq_true, Bool.not_eq_true', not_or, Bool.not_eq_false] at hfits
    split at h
    next => cases h
    next hengine =>
      cases h
      exact .partlyResident haccel hfits.1 hfits.2
        (by simpa [Option.isSome_iff_ne_none] using hengine)

/-- What `tryStreaming` offers is a sound choice. -/
theorem chosen_of_tryStreaming {choice : Choice} (h : p.tryStreaming = some choice) :
    p.Chosen choice := by
  unfold tryStreaming at h
  split at h
  next hpossible =>
    simp only [Bool.and_eq_true, Bool.or_eq_true] at hpossible
    obtain ⟨⟨hpossible, hallowed⟩, husable⟩ := hpossible
    split at h
    next =>
      cases h
      by_cases hvulkan : p.usable .vulkan = true
      · rw [if_pos hvulkan]
        exact .streaming (by decide) hallowed hpossible hvulkan
      · have hcuda : p.usable .cuda = true := husable.resolve_left hvulkan
        rw [if_neg hvulkan, if_pos hcuda]
        exact .streaming (by decide) hallowed hpossible hcuda
    next => cases h
  next => cases h

/-- What `tryCpuFallback` offers is a sound choice. -/
theorem chosen_of_tryCpuFallback {choice : Choice} (h : p.tryCpuFallback = some choice) :
    p.Chosen choice := by
  unfold tryCpuFallback at h
  split at h
  next havailable =>
    cases h
    exact .cpuFallback havailable
  next => cases h

/-- What is chosen has been checked. -/
theorem chosen_of_choose {choice : Choice} (h : p.choose = some choice) : p.Chosen choice := by
  simp only [choose, Option.orElse_eq_orElse, Option.orElse_eq_or, Option.or_eq_some_iff] at h
  rcases h with h | ⟨-, h | ⟨-, h | ⟨-, h | ⟨-, h | ⟨-, h⟩⟩⟩⟩⟩
  · exact chosen_of_tryFull .cuda (by decide) h
  · exact chosen_of_tryFull .vulkan (by decide) h
  · exact chosen_of_tryPartial .cuda (by decide) h
  · exact chosen_of_tryPartial .vulkan (by decide) h
  · exact chosen_of_tryStreaming h
  · exact chosen_of_tryCpuFallback h

/-! Reasons, budgets of layers and texts do not touch the decision. -/

section Decision

open ModelExecutionPlan (decision)

variable (choice : Choice) (engine : Candidate) (plan : ModelExecutionPlan)

theorem decision_noteRejections : (p.noteRejections plan).decision = plan.decision := rfl

/-- The context limit is no part of the decision. -/
theorem decision_finishContext : (p.finishContext plan).decision = plan.decision := by
  unfold finishContext
  split <;> (dsimp only; split <;> rfl)

theorem decision_start : p.start.decision = decision {} := by
  show decision (ite _ _ _) = _
  simp only [ModelExecutionPlan.decision_warn, ModelExecutionPlan.decision_addReason,
    apply_ite decision, ite_self]
  rfl

/-- Nothing is decided before a placement is chosen. -/
theorem decision_prepared :
    (p.finishContext (p.noteRejections p.start)).decision = decision {} := by
  rw [decision_finishContext, decision_noteRejections, decision_start]

/-- With unknown memory nothing is decided. -/
theorem decision_unknownMemory : p.unknownMemory.decision = decision {} := by
  unfold unknownMemory
  rw [decision_finishContext, decision_noteRejections, ModelExecutionPlan.decision_warn,
    ← decision_start (p := p)]
  exact ModelExecutionPlan.decision_addReason _ _

/-- Without a choice nothing is decided. -/
theorem decision_notChosen : p.notChosen.decision = decision {} := by
  show decision (ite _ _ _) = _
  simp only [ModelExecutionPlan.decision_addReason, apply_ite decision, ite_self,
    decision_prepared]

/-- The texts of a full residency are no part of the decision. -/
theorem decision_describeFull : (p.describeFull choice engine plan).decision = plan.decision := by
  show decision (ModelExecutionPlan.addReason (ite _ _ _) _) = _
  simp only [ModelExecutionPlan.decision_addReason, apply_ite decision, ite_self]

/-- The texts of a partial residency are no part of the decision. -/
theorem decision_describePartial :
    (p.describePartial choice engine plan).decision = plan.decision := by
  show decision (ite _ _ _) = _
  simp only [ModelExecutionPlan.decision_addReason, apply_ite decision, ite_self]

/-- The texts of a streaming plan are no part of the decision. -/
theorem decision_describeStreaming : (p.describeStreaming plan).decision = plan.decision := by
  show decision (ModelExecutionPlan.addReason _ _) = _
  simp only [ModelExecutionPlan.decision_addReason]

/-- The texts of a CPU fallback are no part of the decision. -/
theorem decision_describeCpuFallback :
    (p.describeCpuFallback engine plan).decision = plan.decision := by
  have hstart : decision { plan.addReason .cpuFallback with gpuLayerBudget := some 0 } =
      plan.decision := ModelExecutionPlan.decision_addReason plan _
  show decision (ite _ _ _) = _
  simp only [ModelExecutionPlan.decision_warn, apply_ite decision, ite_self, hstart]

/-- A completed plan decides on the placement and its engine. -/
theorem decision_complete :
    (p.complete choice engine).decision = {
      viable := true
      engineKey := engine.key
      mode := choice.mode
      residency := choice.residency
      memoryBudgetBytes := p.capacity choice.device } := by
  unfold complete
  dsimp only
  rw [apply_ite decision, ModelExecutionPlan.decision_warn, ite_self]
  split
  next => rw [decision_describeFull]; rfl
  next => rw [decision_describePartial]; rfl
  next => rw [decision_describeStreaming]; rfl
  next => rw [decision_describeCpuFallback]; rfl
  next => rfl

end Decision

end Placement

/-- A plan that gives up decides nothing. -/
theorem decision_failWithRejections (candidates : List Candidate) (modelBytes : UInt64)
    (reason : PlanReason) (explanation : String) :
    (failWithRejections candidates modelBytes reason explanation).decision =
      ModelExecutionPlan.decision {} := by
  show ModelExecutionPlan.decision (ite _ _ _) = _
  rw [apply_ite ModelExecutionPlan.decision, ModelExecutionPlan.decision_addReason, ite_self]
  rfl

section Plan

variable {requirements : ModelRequirements} {report : CapabilityReport}
  {registry : ExecutionEngineRegistry} {config : PlannerConfig}

/-- A plan decides nothing, or it completes the placement that was chosen with the engine that was
found for it. -/
theorem plan_cases (requirements : ModelRequirements) (report : CapabilityReport)
    (registry : ExecutionEngineRegistry) (config : PlannerConfig) :
    (plan requirements report registry config).decision = ModelExecutionPlan.decision {} ∨
      ∃ choice engine, (placementOf requirements report registry config).choose = some choice ∧
        (placementOf requirements report registry config).engineFor choice = some engine ∧
        plan requirements report registry config =
          (placementOf requirements report registry config).complete choice engine := by
  -- each way out before the choice of the engine says that the model is unsupported
  unfold plan
  dsimp only
  split
  next => exact .inl rfl
  next =>
    split
    next => exact .inl rfl
    next =>
      split
      next => exact .inl rfl
      next =>
        split
        next => exact .inl (decision_failWithRejections ..)
        next =>
          split
          next => exact .inl Placement.decision_unknownMemory
          next =>
            split
            next => exact .inl Placement.decision_notChosen
            next choice hchoose =>
              split
              next => exact .inl (decision_failWithRejections ..)
              next engine hengine => exact .inr ⟨choice, engine, hchoose, hengine, rfl⟩

/-- A viable plan completes the placement that was chosen. -/
theorem plan_of_viable (h : (plan requirements report registry config).viable = true) :
    ∃ choice engine, (placementOf requirements report registry config).choose = some choice ∧
      (placementOf requirements report registry config).engineFor choice = some engine ∧
      plan requirements report registry config =
        (placementOf requirements report registry config).complete choice engine := by
  rcases plan_cases requirements report registry config with hdecision | hplan
  · have hviable := congrArg ModelExecutionPlan.Decision.viable hdecision
    dsimp only [ModelExecutionPlan.decision] at hviable
    rw [h] at hviable
    cases hviable
  · exact hplan

/-- What a viable plan decides. -/
theorem decision_of_viable (h : (plan requirements report registry config).viable = true) :
    ∃ choice engine, (placementOf requirements report registry config).Chosen choice ∧
      (placementOf requirements report registry config).engineFor choice = some engine ∧
      (plan requirements report registry config).decision = {
        viable := true
        engineKey := engine.key
        mode := choice.mode
        residency := choice.residency
        memoryBudgetBytes :=
          (placementOf requirements report registry config).capacity choice.device } := by
  obtain ⟨choice, engine, hchoose, hengine, hplan⟩ := plan_of_viable h
  exact ⟨choice, engine, Placement.chosen_of_choose hchoose, hengine,
    by rw [hplan, Placement.decision_complete]⟩

/-- A viable plan of partial residency is always of the mode `HYBRID`, whatever the accelerator, and
its budget is not empty. -/
theorem hybrid_of_partialResident
    (h : (plan requirements report registry config).viable = true)
    (hpart : (plan requirements report registry config).residency = .partialResident) :
    (plan requirements report registry config).mode = .hybrid ∧
      0 < (plan requirements report registry config).memoryBudgetBytes := by
  obtain ⟨choice, engine, hchosen, -, hdecision⟩ := decision_of_viable h
  have hresidency := congrArg ModelExecutionPlan.Decision.residency hdecision
  have hmode := congrArg ModelExecutionPlan.Decision.mode hdecision
  have hbudget := congrArg ModelExecutionPlan.Decision.memoryBudgetBytes hdecision
  dsimp only [ModelExecutionPlan.decision] at hresidency hmode hbudget
  rw [hpart] at hresidency
  rw [hmode, hbudget]
  cases hchosen with
  | full => cases hresidency
  | streaming => cases hresidency
  | cpuFallback => cases hresidency
  | @partlyResident kind haccel hallowed hfits hengine =>
    refine ⟨rfl, ?_⟩
    -- the device is only considered when it reports memory
    show 0 < (placementOf requirements report registry config).capacity kind
    unfold Placement.partlyFits at hfits
    split at hfits
    next => cases hfits
    next =>
      split at hfits
      next => cases hfits
      next hcapacity =>
        simp only [Bool.or_eq_true, decide_eq_true_eq, not_or] at hcapacity
        exact UInt64.pos_iff_ne_zero.mpr hcapacity.1

end Plan

end HeteroAccel.Planner
