import HeteroAccel.Lib.Transition
import HeteroAccel.Orchestration.RequestFrame

/-!
# The readiness of an adapter

`is_ready` of either adapter over any sequence of initializations, requests and shutdowns. The flag
should say whether the next request is let through, and that is whether the adapter holds what one
successful initialization has built. The CPU adapter does not clear the flag when an initialization
fails behind the point where the old model is gone; the Vulkan adapter does, unless `load` throws.

## Main definitions

* `EngineAdapter`, `AdapterCall`, `Served`: either adapter, the calls, and what successful
  initializations have built so far;
* `Truthful`, `TruthfulCall`: the property of a state and of a call;
* `Restores`: the initializations that do not fail where the flag is not cleared.

## Main results

* `truthful_iff`: a sequence of calls is truthful exactly when each of its initializations restores
  an adapter that is ready;
* `not_truthful`: an initialization that fails behind one that succeeds.
-/

namespace HeteroAccel

open Bytes (ofString)
open TransitionSystem (Along)

variable {α δ : Type} {ops : TensorOps α δ}

/-! ## A load that does not finish -/

namespace HydroXLModel

variable {threads : Threads}

/-- A part of a load that does not touch the flag. -/
def KeepsFlag (f : Loading α → LoadStatus × Loading α) : Prop :=
  ∀ s, (f s).2.model.loaded = s.model.loaded

/-- Two parts of a load that keep the flag do so one behind the other. -/
theorem KeepsFlag.andThen {f g : Loading α → LoadStatus × Loading α} (hf : KeepsFlag f)
    (hg : KeepsFlag g) : KeepsFlag fun s => HydroXLModel.andThen (f s) g := by
  intro s
  have hfs := hf s
  dsimp only
  generalize f s = r at hfs ⊢
  obtain ⟨status, s'⟩ := r
  cases status with
  | loaded => exact (hg s').trans hfs
  | failed => exact hfs
  | thrown => exact hfs

/-- A tensor that is stored does not change the flag. -/
theorem loaded_setTensor (m : HydroXLModel α) (v : List α) (slot : Slot) :
    (m.setTensor v slot).loaded = m.loaded := by
  cases slot <;> rfl

variable (ops threads)

/-- The load of a tensor keeps the flag. -/
theorem keepsFlag_loadTensor (slot : Slot) : KeepsFlag (loadTensor ops threads slot) := by
  intro s
  unfold loadTensor
  dsimp only
  cases s.gguf.findTensor slot.name with
  | none => rfl
  | some desc =>
    dsimp only
    cases checkDesc ops slot.name (slot.expected s.model.hparams) desc with
    | error msg => rfl
    | ok nElems =>
      dsimp only
      by_cases hmax : nElems > maxElems
      · rw [if_pos hmax]
      · rw [if_neg hmax]
        -- the flag is the old one in the model with the resized tensor, whatever has been read
        have hresized := loaded_setTensor s.model
          (resize ops.zero (s.model.tensor slot) nElems.toNat) slot
        generalize s.gguf.readTensorData desc _ desc.nBytes = r
        obtain ⟨read, rawBuf, gguf⟩ := r
        cases read with
        | false => exact hresized
        | true =>
          dsimp only
          generalize decodeTensor ops threads slot.name desc.type nElems rawBuf _ = r
          cases r with
          | error msg => exact hresized
          | ok out => exact (loaded_setTensor _ _ _).trans hresized

theorem keepsFlag_attempt (slot : Slot) : KeepsFlag (attempt ops threads slot) := by
  intro s
  have hload := keepsFlag_loadTensor ops threads slot s
  unfold attempt
  generalize loadTensor ops threads slot s = r at hload ⊢
  obtain ⟨status, s'⟩ := r
  cases status <;> exact hload

/-- The load of the head keeps the flag. -/
theorem keepsFlag_loadLmHead : KeepsFlag (loadLmHead ops threads) := by
  intro s
  have hload := keepsFlag_loadTensor ops threads .lmHead s
  unfold loadLmHead
  generalize loadTensor ops threads .lmHead s = r at hload ⊢
  obtain ⟨status, s'⟩ := r
  cases status <;> exact hload

theorem keepsFlag_loadLayerTensors (l : ℕ) (ts : List LayerTensor) :
    KeepsFlag (loadLayerTensors ops threads l ts) := by
  induction ts with
  | nil => exact fun s => rfl
  | cons t ts ih =>
    refine KeepsFlag.andThen (fun s => ?_) ih
    split_ifs
    · exact keepsFlag_attempt ops threads _ s
    · exact keepsFlag_loadTensor ops threads _ s

/-- The load of the layers keeps the flag. -/
theorem keepsFlag_loadLayers (left l : ℕ) : KeepsFlag (loadLayers ops threads left l) := by
  induction left generalizing l with
  | zero => exact fun s => rfl
  | succ left ih =>
    refine KeepsFlag.andThen
      (KeepsFlag.andThen (keepsFlag_loadLayerTensors ops threads l _) ?_) (ih _)
    intro s
    dsimp only
    split_ifs <;> rfl

/-- The load of all tensors keeps the flag; only `load` itself sets it. -/
theorem keepsFlag_loadTensors : KeepsFlag (loadTensors ops threads) := by
  refine (keepsFlag_loadTensor ops threads .tokEmbd).andThen ?_
  refine (keepsFlag_loadTensor ops threads .outputNorm).andThen ?_
  refine (keepsFlag_loadLmHead ops threads).andThen fun s => ?_
  exact keepsFlag_loadLayers ops threads _ _ _

variable {ops threads}

/-- A load that is left by an exception leaves a model that is not loaded. -/
theorem loaded_of_thrown {path : Bytes} {entry : DirEntry} {m₀ m : HydroXLModel α}
    (h : load ops threads path entry m₀ = (.thrown, m)) : m.loaded = false := by
  unfold load at h
  dsimp only at h
  split at h
  · cases h
  · cases h
  · rename_i gguf _
    cases hhparams : loadHParams ops gguf { m₀ with path, loaded := false, memoryBytes := 0 } with
    | mk done m₁ =>
      rw [hhparams] at h
      -- the flag is cleared at the start, and nothing sets it before the end
      have hflag : m₁.loaded = false := by
        have hm₁ := congrArg (fun r => r.2.loaded) hhparams
        dsimp only at hm₁
        rw [← hm₁]
        unfold loadHParams
        dsimp only
        split_ifs <;> rfl
      cases done with
      | false => cases h
      | true =>
        have hkeeps := keepsFlag_loadTensors ops threads { gguf, model := m₁ }
        dsimp only at h
        generalize loadTensors ops threads _ = r at h hkeeps
        obtain ⟨status, s⟩ := r
        cases status with
        | loaded => cases h
        | failed => cases h
        | thrown =>
          cases h
          exact hkeeps.trans hflag

end HydroXLModel

namespace Orchestration

/-! ## Adapters and calls -/

/-- Either adapter. -/
inductive EngineAdapter (α : Type) where
  | cpu (a : HydroXLCpuEngineAdapter α)
  | vulkan (a : HydroXLVulkanEngineAdapter α)

/-- The kinds of adapters. -/
inductive AdapterKind where
  | cpu
  | vulkan
  deriving DecidableEq, Repr

/-- What a request is served with; the cache is as its reset leaves it. -/
structure Components (α : Type) where
  model : HydroXLModel α
  tokenizer : HydroXLTokenizer
  kvCache : HydroXLKVCache α

/-- What a successful initialization leaves: the model is loaded and the cache allocated. -/
def Components.Complete (b : Components α) : Prop :=
  b.model.loaded = true ∧ b.kvCache.allocated = true

/-- A call of an adapter, with what its surroundings answer. -/
inductive AdapterCall (α : Type) where
  | initializeFrom (threads : Threads) (outcome : AssignOutcome α) (device : VulkanDevice α)
    (path : Bytes) (entry : DirEntry)
  | run (kernels : UInt32 → VulkanKernels α) (r : Request α)
  | shutdown

namespace EngineAdapter

/-- An adapter that was just constructed. -/
def constructed : AdapterKind → EngineAdapter α
  | .cpu => .cpu {}
  | .vulkan => .vulkan {}

/-- `is_ready`. -/
def isReady : EngineAdapter α → Bool
  | .cpu a => a.isReady
  | .vulkan a => a.isReady

variable (ops)

/-- The model, the tokenizer and the cache that are attached. -/
def components : EngineAdapter α → Option (Components α)
  | .cpu a =>
    a.forwardPass.bind fun p => p.model.bind fun model => p.kvCache.map fun kvCache =>
      { model, tokenizer := a.tokenizer, kvCache := kvCache.reset ops.zero }
  | .vulkan a =>
    a.model.bind fun model => a.tokenizer.bind fun tokenizer => a.kvCache.map fun kvCache =>
      { model, tokenizer, kvCache := kvCache.reset ops.zero }

/-- `initialize`. -/
def initializeFrom (threads : Threads) (outcome : AssignOutcome α) (device : VulkanDevice α)
    (path : Bytes) (entry : DirEntry) : EngineAdapter α → LoadStatus × EngineAdapter α
  | .cpu a =>
    let i := a.initializeFrom ops threads outcome path entry
    (i.status, .cpu i.adapter)
  | .vulkan a =>
    let i := a.initializeFrom ops threads outcome device path entry
    (i.status, .vulkan i.adapter)

/-- `run` and `run_stream`. -/
def serve (kernels : UInt32 → VulkanKernels α) (r : Request α) :
    EngineAdapter α → Option (StreamRun (EngineAdapter α))
  | .cpu a => (a.serve ops r).map fun run => { run with state := .cpu run.state }
  | .vulkan a => (a.serve ops kernels r).map fun run => { run with state := .vulkan run.state }

/-- `shutdown`. -/
def shutdown : EngineAdapter α → EngineAdapter α
  | .cpu a => .cpu a.shutdown
  | .vulkan a => .vulkan a.shutdown

/-- A request is rejected as one to an adapter that is not ready. -/
def Rejects (kernels : UInt32 → VulkanKernels α) (r : Request α) (e : EngineAdapter α) : Prop :=
  ∃ run, e.serve ops kernels r = some run ∧ run.result.error = notReady

end EngineAdapter

/-- An adapter, and what its successful initializations have built. -/
structure Served (α : Type) where
  adapter : EngineAdapter α
  built : List (Components α) := []

variable (ops)

/-- An initialization has ended. -/
def Served.initialized (s : Served α) (i : LoadStatus × EngineAdapter α) : Served α where
  adapter := i.2
  built := if i.1 = .loaded then s.built ++ (i.2.components ops).toList else s.built

/-- A call, unless its behaviour is undefined. -/
def Served.call (s : Served α) : AdapterCall α → Option (Served α)
  | .initializeFrom threads outcome device path entry =>
    some (s.initialized ops (s.adapter.initializeFrom ops threads outcome device path entry))
  | .run kernels r => (s.adapter.serve ops kernels r).map fun run => { s with adapter := run.state }
  | .shutdown => some { s with adapter := s.adapter.shutdown }

/-- The next call of a sequence whose behaviour has been defined so far. -/
def nextCall (s : Option (Served α)) (c : AdapterCall α) : Option (Served α) :=
  s.bind fun s => s.call ops c

/-! ## The property -/

/-- The flag says whether the next request is let through, and whether the adapter has what one
successful initialization has built. -/
structure Truthful (s : Served α) : Prop where
  accepts : ∀ kernels r, s.adapter.isReady = true ↔ ¬s.adapter.Rejects ops kernels r
  attached : s.adapter.isReady = true ↔ ∃ b ∈ s.built, s.adapter.components ops = some b

/-- The initialization replaces the model and fails, by its result or by an exception. -/
def Fails (s : Served α) : AdapterCall α → Prop
  | .initializeFrom threads outcome device path entry =>
    path ≠ [] ∧ (s.adapter.initializeFrom ops threads outcome device path entry).1 ≠ .loaded
  | _ => False

/-- A call that leads to a truthful flag, which is not set when an initialization has failed. -/
def TruthfulCall (s : Option (Served α)) (c : AdapterCall α) : Prop :=
  ∀ s₀ ∈ s, ∀ s₁ ∈ s₀.call ops c,
    Truthful ops s₁ ∧ (Fails ops s₀ c → s₁.adapter.isReady = false)

/-- The model is loaded from the file, and the cache for it is allocated. -/
def CanInitialize (threads : Threads) (outcome : AssignOutcome α) (path : Bytes)
    (entry : DirEntry) :
    Prop :=
  ∃ m, (HydroXLModel.fresh ops).load ops threads path entry = (.loaded, m) ∧
    (HydroXLKVCache.callAllocate ops.zero outcome {}
      (HydroXLCpuEngineAdapter.cacheDims m.hparams)).1 = some true

/-- No exception is thrown: neither by the load nor by the allocation of the cache for the model. -/
def ThrowsNothing (threads : Threads) (outcome : AssignOutcome α) (path : Bytes)
    (entry : DirEntry) : Prop :=
  ((HydroXLModel.fresh ops).load ops threads path entry).1 ≠ .thrown ∧
    ∀ m, (HydroXLModel.fresh ops).load ops threads path entry = (.loaded, m) →
      (HydroXLKVCache.callAllocate ops.zero outcome {}
        (HydroXLCpuEngineAdapter.cacheDims m.hparams)).1 ≠ none

/-- The flag of an adapter that is ready survives no failure of the initialization: on the CPU
adapter there is none, on the Vulkan adapter nothing is thrown. -/
def Restores (s : Option (Served α)) : AdapterCall α → Prop
  | .initializeFrom threads outcome _ path entry =>
    ∀ s₀ ∈ s, s₀.adapter.isReady = true → path ≠ [] →
      match s₀.adapter with
      | .cpu _ => CanInitialize ops threads outcome path entry
      | .vulkan _ => ThrowsNothing ops threads outcome path entry
  | _ => True

variable {ops}

/-! ## Rejected requests -/

section Rejected

variable {kernels : UInt32 → VulkanKernels α} {r : Request α}

/-- The CPU adapter answers that it is not ready exactly when it is not. -/
theorem HydroXLCpuEngineAdapter.error_serve {a : HydroXLCpuEngineAdapter α}
    {run : StreamRun (HydroXLCpuEngineAdapter α)} (h : a.serve ops r = some run) :
    run.result.error = notReady ↔ a.ready = none := by
  unfold serve at h
  cases hready : a.ready with
  | none =>
    rw [hready] at h
    cases h
    exact iff_of_true rfl rfl
  | some attached =>
    rw [hready] at h
    obtain ⟨q, -, rfl⟩ := Option.map_eq_some_iff.mp h
    exact iff_of_false (error_runStream_ne _ _ _ _ _ _) (Option.some_ne_none _)

/-- The Vulkan adapter answers that it is not ready exactly when it is not. -/
theorem HydroXLVulkanEngineAdapter.error_serve {a : HydroXLVulkanEngineAdapter α}
    {run : StreamRun (HydroXLVulkanEngineAdapter α)} (h : a.serve ops kernels r = some run) :
    run.result.error = notReady ↔ a.ready = none := by
  unfold serve at h
  obtain ⟨q, -, rfl⟩ := Option.map_eq_some_iff.mp h
  cases a.ready with
  | none => exact iff_of_true rfl rfl
  | some attached => exact iff_of_false (error_runStream_ne _ _ _ _ _ _) (Option.some_ne_none _)

/-- The CPU adapter rejects a request exactly when it is not ready. -/
theorem HydroXLCpuEngineAdapter.rejects_iff {a : HydroXLCpuEngineAdapter α} :
    (EngineAdapter.cpu a).Rejects ops kernels r ↔ a.ready = none := by
  constructor
  · rintro ⟨run, hrun, herror⟩
    obtain ⟨run₁, hrun₁, rfl⟩ := Option.map_eq_some_iff.mp hrun
    exact (error_serve hrun₁).mp herror
  · intro hnone
    have hserve : ∃ run, a.serve ops r = some run := by
      unfold serve
      rw [hnone]
      exact ⟨_, rfl⟩
    obtain ⟨run, hrun⟩ := hserve
    exact ⟨_, Option.map_eq_some_iff.mpr ⟨run, hrun, rfl⟩, (error_serve hrun).mpr hnone⟩

/-- The Vulkan adapter rejects a request exactly when it is not ready. -/
theorem HydroXLVulkanEngineAdapter.rejects_iff {a : HydroXLVulkanEngineAdapter α} :
    (EngineAdapter.vulkan a).Rejects ops kernels r ↔ a.ready = none := by
  constructor
  · rintro ⟨run, hrun, herror⟩
    obtain ⟨run₁, hrun₁, rfl⟩ := Option.map_eq_some_iff.mp hrun
    exact (error_serve hrun₁).mp herror
  · intro hnone
    have hserve : ∃ run, a.serve ops kernels r = some run := by
      unfold serve
      rw [hnone]
      exact ⟨_, rfl⟩
    obtain ⟨run, hrun⟩ := hserve
    exact ⟨_, Option.map_eq_some_iff.mpr ⟨run, hrun, rfl⟩, (error_serve hrun).mpr hnone⟩

/-- The device of an adapter, if it needs one, is ready. -/
def EngineAdapter.deviceReady : EngineAdapter α → Bool
  | .cpu _ => true
  | .vulkan a => a.vkOps.ready

/-- What an adapter needs so as not to reject. -/
theorem EngineAdapter.not_rejects {e : EngineAdapter α} {b : Components α}
    (hready : e.isReady = true) (hdevice : e.deviceReady = true)
    (hcomponents : e.components ops = some b) (halloc : b.kvCache.allocated = true) :
    ¬e.Rejects ops kernels r := by
  cases e with
  | cpu a =>
    obtain ⟨p, hp, hcomponents⟩ := Option.bind_eq_some_iff.mp hcomponents
    obtain ⟨m, hm, hcomponents⟩ := Option.bind_eq_some_iff.mp hcomponents
    obtain ⟨c, hc, rfl⟩ := Option.map_eq_some_iff.mp hcomponents
    have hallocated : c.allocated = true := halloc
    -- the forward pass is ready through the same model and cache
    have hattached : p.isReady = true := by
      simp [HydroXLForwardPass.isReady, hm, hc, hallocated]
    have hsome : a.ready = some (p, c) := by
      have hflag : a.isReady = true := hready
      simp [HydroXLCpuEngineAdapter.ready, hflag, hp, hattached, hc]
    rw [HydroXLCpuEngineAdapter.rejects_iff, hsome]
    exact Option.some_ne_none _
  | vulkan a =>
    obtain ⟨m, hm, hcomponents⟩ := Option.bind_eq_some_iff.mp hcomponents
    obtain ⟨t, ht, hcomponents⟩ := Option.bind_eq_some_iff.mp hcomponents
    obtain ⟨c, hc, rfl⟩ := Option.map_eq_some_iff.mp hcomponents
    have hsome : a.ready = some (t, c) := by
      have hflag : a.isReady = true := hready
      have hops : a.vkOps.ready = true := hdevice
      simp [HydroXLVulkanEngineAdapter.ready, hflag, hops, hm, ht, hc]
    rw [HydroXLVulkanEngineAdapter.rejects_iff, hsome]
    exact Option.some_ne_none _

/-- Without the flag every request is rejected. -/
theorem EngineAdapter.rejects_of_not_isReady {e : EngineAdapter α} (h : e.isReady = false) :
    e.Rejects ops kernels r := by
  cases e with
  | cpu a =>
    have hflag : a.isReady = false := h
    rw [HydroXLCpuEngineAdapter.rejects_iff]
    simp [HydroXLCpuEngineAdapter.ready, hflag]
  | vulkan a =>
    have hflag : a.isReady = false := h
    rw [HydroXLVulkanEngineAdapter.rejects_iff]
    simp [HydroXLVulkanEngineAdapter.ready, hflag]

end Rejected

/-! ## The invariant -/

variable (ops) in
/-- A flag that is set stands for components that were built, and complete components for the
flag. -/
structure Served.Valid (s : Served α) : Prop where
  device : s.adapter.isReady = true → s.adapter.deviceReady = true
  attached : s.adapter.isReady = true → ∃ b ∈ s.built, s.adapter.components ops = some b
  flagged : ∀ b, s.adapter.components ops = some b → b.Complete → s.adapter.isReady = true
  complete : ∀ b ∈ s.built, b.Complete

/-- An adapter in a valid state tells the truth about its readiness. -/
theorem Served.Valid.truthful {s : Served α} (h : s.Valid ops) : Truthful ops s where
  accepts kernels r := by
    constructor
    · intro hready
      obtain ⟨b, hb, hcomponents⟩ := h.attached hready
      exact EngineAdapter.not_rejects hready (h.device hready) hcomponents (h.complete b hb).2
    · intro haccepts
      by_contra hready
      exact haccepts (EngineAdapter.rejects_of_not_isReady (Bool.eq_false_of_not_eq_true hready))
  attached := by
    refine ⟨h.attached, ?_⟩
    rintro ⟨b, hb, hcomponents⟩
    exact h.flagged b hcomponents (h.complete b hb)

/-- An adapter that keeps its flag, its device and its components. -/
theorem Served.Valid.congr {s : Served α} {e : EngineAdapter α} (h : s.Valid ops)
    (hready : e.isReady = s.adapter.isReady) (hdevice : e.deviceReady = s.adapter.deviceReady)
    (hcomponents : e.components ops = s.adapter.components ops) :
    ({ s with adapter := e } : Served α).Valid ops where
  device := by
    dsimp only
    rw [hready, hdevice]
    exact h.device
  attached := by
    dsimp only
    rw [hready, hcomponents]
    exact h.attached
  flagged := by
    dsimp only
    rw [hready, hcomponents]
    exact h.flagged
  complete := h.complete

/-- An adapter that is not ready, and has not all components. -/
theorem Served.Valid.of_not_isReady {s : Served α} {e : EngineAdapter α} (h : s.Valid ops)
    (hready : e.isReady = false)
    (hcomponents : ∀ b, e.components ops = some b → ¬b.Complete) :
    ({ s with adapter := e } : Served α).Valid ops where
  device hflag := absurd hflag (by simp [hready])
  attached hflag := absurd hflag (by simp [hready])
  flagged b hb hcomplete := absurd hcomplete (hcomponents b hb)
  complete := h.complete

/-- An adapter with new components. -/
theorem Served.Valid.of_built {s : Served α} {e : EngineAdapter α} {b : Components α}
    (h : s.Valid ops) (hready : e.isReady = true) (hdevice : e.deviceReady = true)
    (hcomponents : e.components ops = some b) (hcomplete : b.Complete) :
    ({ adapter := e, built := s.built ++ (e.components ops).toList } : Served α).Valid ops := by
  rw [hcomponents]
  refine ⟨fun _ => hdevice, fun _ => ⟨b, by simp, hcomponents⟩, fun _ _ _ => hready, ?_⟩
  intro b' hb'
  obtain hb' | hb' := List.mem_append.mp hb'
  · exact h.complete b' hb'
  · cases List.mem_singleton.mp hb'
    exact hcomplete

/-! ## One initialization -/

section Initialization

variable {threads : Threads} {outcome : AssignOutcome α} {device : VulkanDevice α} {path : Bytes}
  {entry : DirEntry}

/-- An allocation that succeeds leaves an allocated cache. -/
theorem allocated_of_callAllocate {d : KVDims} {c c' : HydroXLKVCache α}
    (h : HydroXLKVCache.callAllocate ops.zero outcome c d = (some true, c')) :
    c'.allocated = true := by
  obtain ⟨-, -, -, -, rfl⟩ :=
    HydroXLKVCache.allocate_eq_true (HydroXLKVCache.callAllocate_eq_true h)
  rfl

/-- An allocation that throws leaves the flag of the cache. -/
theorem allocated_of_callAllocate_eq_none {d : KVDims} {c c' : HydroXLKVCache α}
    (h : HydroXLKVCache.callAllocate ops.zero outcome c d = (none, c')) :
    c'.allocated = c.allocated := by
  unfold HydroXLKVCache.callAllocate at h
  split at h
  · cases h
    rfl
  · cases h

variable (ops threads outcome device path entry) in
/-- What `initialize` of either adapter can do. -/
inductive InitializeCase (e : EngineAdapter α) : LoadStatus × EngineAdapter α → Prop
  /-- There is no path. -/
  | kept (hpath : path = []) : InitializeCase e (.failed, e)
  /-- The device is not there, so that the adapter was not ready. -/
  | refused {e' : EngineAdapter α} (hdevice : e.deviceReady = false) (hready : e'.isReady = false)
      (hcomponents : e'.components ops = e.components ops) : InitializeCase e (.failed, e')
  /-- The components are gone, and the flag is cleared. -/
  | cleared {e' : EngineAdapter α} (hready : e'.isReady = false)
      (hcomponents : e'.components ops = none)
      (hrestores : ∀ s : Served α, s.adapter = e →
        Restores ops (some s) (.initializeFrom threads outcome device path entry)) :
      InitializeCase e (.failed, e')
  /-- The components are gone, and the flag is as it was. -/
  | abandoned {status : LoadStatus} {e' : EngineAdapter α} (hpath : path ≠ [])
      (hstatus : status ≠ .loaded) (hready : e'.isReady = e.isReady)
      (hcomponents : ∀ b, e'.components ops = some b → ¬b.Complete)
      (hfails : ∀ s : Served α, s.adapter = e → e.isReady = true →
        ¬Restores ops (some s) (.initializeFrom threads outcome device path entry)) :
      InitializeCase e (status, e')
  | built {e' : EngineAdapter α} {b : Components α} (hready : e'.isReady = true)
      (hdevice : e'.deviceReady = true) (hcomponents : e'.components ops = some b)
      (hcomplete : b.Complete)
      (hrestores : ∀ s : Served α, s.adapter = e →
        Restores ops (some s) (.initializeFrom threads outcome device path entry)) :
      InitializeCase e (.loaded, e')

/-- How an initialization of the CPU adapter ends. -/
theorem initializeCase_cpu (a : HydroXLCpuEngineAdapter α) :
    InitializeCase ops threads outcome device path entry (.cpu a)
      ((EngineAdapter.cpu a).initializeFrom ops threads outcome device path entry) := by
  show InitializeCase _ _ _ _ _ _ _
    ((a.initializeFrom ops threads outcome path entry).status,
      EngineAdapter.cpu (a.initializeFrom ops threads outcome path entry).adapter)
  unfold HydroXLCpuEngineAdapter.initializeFrom
  by_cases hpath : path = []
  · rw [if_pos hpath]
    exact .kept hpath
  rw [if_neg hpath]
  -- the adapter is ready as before, but it has lost its components
  have habandoned (hfails : ¬CanInitialize ops threads outcome path entry) (s : Served α)
      (hs : s.adapter = .cpu a) (hready : (EngineAdapter.cpu a).isReady = true) :
      ¬Restores ops (some s) (.initializeFrom threads outcome device path entry) := by
    intro hrestores
    have hcan := hrestores s rfl (hs ▸ hready) hpath
    rw [hs] at hcan
    exact hfails hcan
  cases hload : (HydroXLModel.fresh ops).load ops threads path entry with
  | mk status m =>
    cases status with
    | thrown =>
      refine .abandoned hpath (show LoadStatus.thrown ≠ .loaded by decide) rfl
        (fun b hb => by cases hb) (habandoned ?_)
      rintro ⟨m', hload', -⟩
      cases hload.symm.trans hload'
    | failed =>
      refine .abandoned hpath (show LoadStatus.failed ≠ .loaded by decide) rfl
        (fun b hb => by cases hb) (habandoned ?_)
      rintro ⟨m', hload', -⟩
      cases hload.symm.trans hload'
    | loaded =>
      dsimp only
      have hrefused (halloc : (HydroXLKVCache.callAllocate ops.zero outcome {}
          (HydroXLCpuEngineAdapter.cacheDims m.hparams)).1 ≠ some true) :
          ¬CanInitialize ops threads outcome path entry := by
        rintro ⟨m', hload', halloc'⟩
        cases hload.symm.trans hload'
        exact halloc halloc'
      cases halloc : HydroXLKVCache.callAllocate ops.zero outcome {}
          (HydroXLCpuEngineAdapter.cacheDims m.hparams) with
      | mk granted kvCache =>
        rw [halloc] at hrefused
        rcases granted with - | (- | -)
        · refine .abandoned hpath (show LoadStatus.thrown ≠ .loaded by decide) rfl
            (fun b hb => by cases hb) (habandoned (hrefused nofun))
        · refine .abandoned hpath (show LoadStatus.failed ≠ .loaded by decide) rfl
            (fun b hb => by cases hb) (habandoned (hrefused nofun))
        · have hallocated := allocated_of_callAllocate halloc
          refine .built (b := ⟨m, HydroXLCpuEngineAdapter.loadTokenizer path entry,
            kvCache.reset ops.zero⟩) rfl rfl rfl
            ⟨HydroXLModel.loaded_of_load hload, hallocated⟩ fun s hs s₀ hs₀ _ _ => ?_
          cases hs₀
          rw [hs]
          exact ⟨m, hload, congrArg Prod.fst halloc⟩

variable (device) in
/-- Uploads do not change whether the device is ready. -/
theorem HydroXLVulkanEngineAdapter.ready_uploadAll (ts : List (Bytes × List α))
    (v : VulkanTensorOps) : (uploadAll device ts v).2.ready = v.ready := by
  induction ts generalizing v with
  | nil => rfl
  | cons t ts ih =>
    obtain ⟨name, data⟩ := t
    have hupload := v.ready_uploadTensor device name data (.ofNat data.length)
    unfold uploadAll
    generalize v.uploadTensor device name data (.ofNat data.length) = r at hupload ⊢
    obtain ⟨result, v'⟩ := r
    cases result with
    | error e => exact hupload
    | ok u => exact (ih v').trans hupload

/-- How an initialization of the Vulkan adapter ends. -/
theorem initializeCase_vulkan (a : HydroXLVulkanEngineAdapter α) :
    InitializeCase ops threads outcome device path entry (.vulkan a)
      ((EngineAdapter.vulkan a).initializeFrom ops threads outcome device path entry) := by
  show InitializeCase _ _ _ _ _ _ _
    ((a.initializeFrom ops threads outcome device path entry).status,
      EngineAdapter.vulkan (a.initializeFrom ops threads outcome device path entry).adapter)
  unfold HydroXLVulkanEngineAdapter.initializeFrom
  by_cases hpath : path = []
  · rw [if_pos hpath]
    exact .kept hpath
  rw [if_neg hpath]
  have hinit := a.vkOps.ready_initializeFrom device
  -- a call that throws nothing restores what the adapter says
  have hrestores (hnothing : ThrowsNothing ops threads outcome path entry)
      (s : Served α) (hs : s.adapter = .vulkan a) :
      Restores ops (some s) (.initializeFrom threads outcome device path entry) := by
    rintro s₀ ⟨⟩ - -
    rw [hs]
    exact hnothing
  -- and one that throws leaves the flag of an adapter that was ready
  have hlost (hthrows : ¬ThrowsNothing ops threads outcome path entry) (s : Served α)
      (hs : s.adapter = .vulkan a) (hready : (EngineAdapter.vulkan a).isReady = true) :
      ¬Restores ops (some s) (.initializeFrom threads outcome device path entry) := by
    intro hrestores
    have hnothing := hrestores s rfl (hs ▸ hready) hpath
    rw [hs] at hnothing
    exact hthrows hnothing
  cases hops : a.vkOps.initializeFrom device with
  | mk result vkOps =>
    rw [hops] at hinit
    cases result with
    | error e =>
      refine .refused ?_ rfl rfl
      by_contra hdevice
      have hready : a.vkOps.ready = true := Bool.eq_true_of_not_eq_false hdevice
      cases hops.symm.trans (VulkanTensorOps.initializeFrom_of_ready device hready)
    | ok u =>
      have hdevice : vkOps.ready = true := hinit.mpr rfl
      dsimp only
      cases hload : (HydroXLModel.fresh ops).load ops threads path entry with
      | mk status m =>
        cases status with
        | thrown =>
          refine .abandoned hpath (show LoadStatus.thrown ≠ .loaded by decide) rfl (fun b hb => ?_)
            (hlost fun h => h.1 (by rw [hload]))
          cases hb
          rintro ⟨hloaded, -⟩
          cases hloaded.symm.trans (HydroXLModel.loaded_of_thrown hload)
        | failed =>
          refine .cleared rfl rfl (hrestores ⟨by simp [hload], fun m' hload' => ?_⟩)
          cases hload.symm.trans hload'
        | loaded =>
          dsimp only
          cases halloc : HydroXLKVCache.callAllocate ops.zero outcome {}
              (HydroXLCpuEngineAdapter.cacheDims m.hparams) with
          | mk granted kvCache =>
            have hnothing (hgranted : granted ≠ none) :
                ThrowsNothing ops threads outcome path entry := by
              refine ⟨by simp [hload], fun m' hload' => ?_⟩
              cases hload.symm.trans hload'
              rw [halloc]
              exact hgranted
            rcases granted with - | (- | -)
            · -- the model is loaded, but there is no cache for it
              refine .abandoned hpath (show LoadStatus.thrown ≠ .loaded by decide) rfl
                (fun b hb => ?_) (hlost fun h => h.2 m hload (congrArg Prod.fst halloc))
              cases hb
              rintro ⟨-, hallocated⟩
              have hflag : kvCache.allocated = true := hallocated
              rw [allocated_of_callAllocate_eq_none halloc] at hflag
              cases hflag
            · exact .cleared rfl rfl (hrestores (hnothing nofun))
            · dsimp only
              have hstill := HydroXLVulkanEngineAdapter.ready_uploadAll device
                (HydroXLVulkanEngineAdapter.uploads m) vkOps
              cases hupload : HydroXLVulkanEngineAdapter.uploadAll device
                  (HydroXLVulkanEngineAdapter.uploads m) vkOps with
              | mk result vkOps' =>
                rw [hupload] at hstill
                cases result with
                | error e => exact .cleared rfl rfl (hrestores (hnothing nofun))
                | ok u =>
                  have hallocated := allocated_of_callAllocate halloc
                  exact .built (b := ⟨m, HydroXLCpuEngineAdapter.loadTokenizer path entry,
                    kvCache.reset ops.zero⟩) rfl (hstill.trans hdevice) rfl
                    ⟨HydroXLModel.loaded_of_load hload, hallocated⟩
                    (hrestores (hnothing nofun))

variable (ops threads outcome device path entry) in
/-- How an initialization of either adapter ends. -/
theorem initializeCase (e : EngineAdapter α) :
    InitializeCase ops threads outcome device path entry e
      (e.initializeFrom ops threads outcome device path entry) := by
  cases e with
  | cpu a => exact initializeCase_cpu a
  | vulkan a => exact initializeCase_vulkan a

/-- An adapter that is not ready has nothing to restore. -/
theorem restores_of_not_isReady {s : Served α} (h : s.adapter.isReady = false) (c : AdapterCall α) :
    Restores ops (some s) c := by
  cases c with
  | initializeFrom threads outcome device path entry =>
    rintro s₀ ⟨⟩ hready
    exact absurd hready (by simp [h])
  | run kernels r => trivial
  | shutdown => trivial

variable (threads outcome device path entry) in
/-- From a valid state an initialization leads to a valid state when it restores, and only then a
flag that says the truth. -/
theorem Served.Valid.initializeFrom {s : Served α} (hs : s.Valid ops) :
    (Restores ops (some s) (.initializeFrom threads outcome device path entry) →
        (s.initialized ops
          (s.adapter.initializeFrom ops threads outcome device path entry)).Valid ops) ∧
      ((Fails ops s (.initializeFrom threads outcome device path entry) →
          (s.adapter.initializeFrom ops threads outcome device path entry).2.isReady = false) ↔
        Restores ops (some s) (.initializeFrom threads outcome device path entry)) := by
  have hcase := initializeCase ops threads outcome device path entry s.adapter
  simp only [Fails, Served.initialized]
  generalize s.adapter.initializeFrom ops threads outcome device path entry = i at hcase ⊢
  cases hcase with
  | kept hpath =>
    refine ⟨fun _ => hs, iff_of_true (fun h => absurd hpath h.1) ?_⟩
    exact fun s₀ _ _ hne => absurd hpath hne
  | refused hdevice hready hcomponents =>
    -- an adapter that was ready has its device
    have hnot : s.adapter.isReady = false := by
      by_contra hflag
      exact absurd (hs.device (Bool.eq_true_of_not_eq_false hflag)) (by simp [hdevice])
    refine ⟨fun _ => hs.of_not_isReady hready fun b hb hcomplete => ?_,
      iff_of_true (fun _ => hready) (restores_of_not_isReady hnot _)⟩
    have hflag := hs.flagged b (hcomponents ▸ hb) hcomplete
    exact absurd hflag (by simp [hnot])
  | cleared hready hcomponents hrestores =>
    refine ⟨fun _ => hs.of_not_isReady hready fun b hb => ?_,
      iff_of_true (fun _ => hready) (hrestores s rfl)⟩
    rw [hcomponents] at hb
    cases hb
  | abandoned hpath hstatus hready hcomponents hnot =>
    rw [if_neg hstatus]
    by_cases hflag : s.adapter.isReady = true
    · have hlost := hnot s rfl hflag
      refine ⟨fun h => absurd h hlost, iff_of_false (fun h => ?_) hlost⟩
      exact absurd (h ⟨hpath, hstatus⟩) (by simp [hready, hflag])
    · have hoff : s.adapter.isReady = false := Bool.eq_false_of_not_eq_true hflag
      exact ⟨fun _ => hs.of_not_isReady (hready.trans hoff) hcomponents,
        iff_of_true (fun _ => hready.trans hoff) (restores_of_not_isReady hoff _)⟩
  | built hready hdevice hcomponents hcomplete hrestores =>
    rw [if_pos rfl]
    exact ⟨fun _ => hs.of_built hready hdevice hcomponents hcomplete,
      iff_of_true (fun h => absurd rfl h.2) (hrestores s rfl)⟩

end Initialization

/-! ## The other calls -/

/-- What the CPU adapter generates with, in terms of its fields. -/
theorem EngineAdapter.components_cpu (a : HydroXLCpuEngineAdapter α) :
    (EngineAdapter.cpu a).components ops =
      (a.forwardPass.map (HydroXLForwardPass.found ops)).bind fun attached =>
        attached.1.bind fun model => attached.2.map fun kvCache =>
          { model, tokenizer := a.tokenizer, kvCache } := by
  obtain ⟨tokenizer, forwardPass, isReady, modelPath⟩ := a
  cases forwardPass with
  | none => rfl
  | some p =>
    obtain ⟨model, kvCache, lastError, buffers⟩ := p
    cases model <;> cases kvCache <;> rfl

/-- What the Vulkan adapter generates with, in terms of its fields. -/
theorem EngineAdapter.components_vulkan (a : HydroXLVulkanEngineAdapter α) :
    (EngineAdapter.vulkan a).components ops =
      a.model.bind fun model => a.tokenizer.bind fun tokenizer =>
        (a.kvCache.map (HydroXLKVCache.reset ops.zero)).map fun kvCache =>
          { model, tokenizer, kvCache } := by
  unfold components
  simp only [Option.map_map, Function.comp_def]

/-- A request leaves the flag, the device and the components. -/
theorem EngineAdapter.serve_keeps {e : EngineAdapter α} {kernels : UInt32 → VulkanKernels α}
    {r : Request α} {run : StreamRun (EngineAdapter α)} (h : e.serve ops kernels r = some run) :
    run.state.isReady = e.isReady ∧ run.state.deviceReady = e.deviceReady ∧
      run.state.components ops = e.components ops := by
  cases e with
  | cpu a =>
    obtain ⟨run, hrun, rfl⟩ := Option.map_eq_some_iff.mp h
    obtain ⟨hready, htokenizer, hfound⟩ := HydroXLCpuEngineAdapter.serve_keeps hrun
    refine ⟨hready, rfl, ?_⟩
    rw [components_cpu, components_cpu, hfound, htokenizer]
  | vulkan a =>
    obtain ⟨run, hrun, rfl⟩ := Option.map_eq_some_iff.mp h
    have hkeeps := HydroXLVulkanEngineAdapter.serve_keeps hrun
    refine ⟨hkeeps.isReady, congrArg VulkanTensorOps.ready hkeeps.vkOps, ?_⟩
    rw [components_vulkan, components_vulkan, hkeeps.model, hkeeps.tokenizer, hkeeps.kvCache]

theorem Served.Valid.serve {s : Served α} (hs : s.Valid ops) {kernels : UInt32 → VulkanKernels α}
    {r : Request α} {run : StreamRun (EngineAdapter α)}
    (h : s.adapter.serve ops kernels r = some run) :
    ({ s with adapter := run.state } : Served α).Valid ops := by
  obtain ⟨hready, hdevice, hcomponents⟩ := EngineAdapter.serve_keeps h
  exact hs.congr hready hdevice hcomponents

theorem Served.Valid.shutdown {s : Served α} (hs : s.Valid ops) :
    ({ s with adapter := s.adapter.shutdown } : Served α).Valid ops := by
  refine hs.of_not_isReady ?_ fun b hb => ?_
  · cases s.adapter <;> rfl
  · cases hadapter : s.adapter <;> rw [hadapter] at hb <;> cases hb

/-! ## Sequences of calls -/

variable (ops) in
theorem valid_constructed (kind : AdapterKind) :
    ({ adapter := .constructed kind } : Served α).Valid ops where
  device h := by cases kind <;> cases h
  attached h := by cases kind <;> cases h
  flagged b hb := by cases kind <;> cases hb
  complete b hb := absurd hb List.not_mem_nil

/-- From a valid state a call is truthful exactly when it restores. Then it leaves a valid state. -/
theorem truthfulCall_iff {s : Option (Served α)} (hs : ∀ s₀ ∈ s, s₀.Valid ops) (c : AdapterCall α) :
    (TruthfulCall ops s c ↔ Restores ops s c) ∧
      (Restores ops s c → ∀ s₁ ∈ nextCall ops s c, s₁.Valid ops) := by
  cases s with
  | none =>
    refine ⟨iff_of_true (fun s₀ hs₀ => by cases hs₀) ?_, fun _ s₁ hs₁ => by cases hs₁⟩
    cases c with
    | initializeFrom threads outcome device path entry => exact fun s₀ hs₀ => by cases hs₀
    | run kernels r => trivial
    | shutdown => trivial
  | some s =>
    have hvalid := hs s rfl
    cases c with
    | initializeFrom threads outcome device path entry =>
      obtain ⟨hnext, hfails⟩ := hvalid.initializeFrom threads outcome device path entry
      refine ⟨⟨fun h => ?_, ?_⟩, ?_⟩
      · exact hfails.mp (h s rfl _ rfl).2
      · rintro h s₀ ⟨⟩ s₁ ⟨⟩
        exact ⟨(hnext h).truthful, hfails.mpr h⟩
      · rintro h s₁ ⟨⟩
        exact hnext h
    | run kernels r =>
      have hnext : ∀ s₁ ∈ s.call ops (.run kernels r), s₁.Valid ops := by
        intro s₁ hs₁
        obtain ⟨run, hrun, rfl⟩ := Option.map_eq_some_iff.mp hs₁
        exact hvalid.serve hrun
      refine ⟨iff_of_true ?_ trivial, fun _ => hnext⟩
      rintro s₀ ⟨⟩ s₁ hs₁
      exact ⟨(hnext s₁ hs₁).truthful, False.elim⟩
    | shutdown =>
      refine ⟨iff_of_true ?_ trivial, ?_⟩
      · rintro s₀ ⟨⟩ s₁ ⟨⟩
        exact ⟨hvalid.shutdown.truthful, False.elim⟩
      · rintro - s₁ ⟨⟩
        exact hvalid.shutdown

variable (ops) in
/-- **Readiness.** After any sequence of initializations, requests and shutdowns of either adapter
`is_ready` says the truth, and is `false` behind an initialization that failed, exactly when each
initialization of an adapter that is ready restores it. -/
theorem truthful_iff (kind : AdapterKind) (calls : List (AdapterCall α)) :
    (Truthful ops { adapter := .constructed kind } ∧
        Along (TruthfulCall ops) (nextCall ops) (some { adapter := .constructed kind }) calls) ↔
      Along (Restores ops) (nextCall ops) (some { adapter := .constructed kind }) calls := by
  have hstart := valid_constructed ops kind
  rw [and_iff_right hstart.truthful]
  refine TransitionSystem.along_congr_of_invariant (I := fun s => ∀ s₀ ∈ s, s₀.Valid ops)
    (fun s hs c _ htruthful => ?_) (fun s hs c _ => (truthfulCall_iff hs c).1) ?_
  · exact (truthfulCall_iff hs c).2 ((truthfulCall_iff hs c).1.mp htruthful)
  · rintro s ⟨⟩
    exact hstart

/-! ### A failure behind a success -/

/-- A device that is not used. -/
def noDevice : VulkanDevice ℚ where
  start := .error []
  handles := false
  descriptorPool := false
  loadPipeline _ := .error []
  createBuffer _ := false
  upload _ _ := false

/-- A model is loaded, and then another one from a path that names no file. -/
def failedReload : List (AdapterCall ℚ) :=
  [.initializeFrom {} .granted noDevice (ofString "a") (.file HydroXLModel.withoutBias),
    .initializeFrom {} .granted noDevice (ofString "b") .missing]

/-- The CPU adapter says that it is ready. -/
theorem not_truthful : ¬∀ (kind : AdapterKind) (calls : List (AdapterCall ℚ)),
    Along (TruthfulCall rationalOps) (nextCall rationalOps)
      (some { adapter := .constructed kind }) calls := by
  intro h
  obtain ⟨-, hsecond, -⟩ := h .cpu failedReload
  have hoff := (hsecond _ rfl _ rfl).2 ⟨by decide, by decide +kernel⟩
  have hon : ((nextCall rationalOps (some { adapter := .constructed .cpu }) failedReload[0]).bind
      fun s => nextCall rationalOps (some s) failedReload[1]).map (fun s => s.adapter.isReady) =
        some true := by
    decide +kernel
  cases hon.symm.trans (congrArg some hoff)

end Orchestration

end HeteroAccel
