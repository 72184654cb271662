import HeteroAccel.HydroXL.ForwardPass
import HeteroAccel.Lib.KeyedMap
import HeteroAccel.Lib.OneRun

/-!
# Tensor operations on a Vulkan device

`VulkanTensorOps` keeps named tensors in the memory of a device and runs kernels on them. The device
and its driver are not part of the source: how their calls end, and what the kernels compute, are
arguments. An operation that is given nothing fails without a text of its own; the text that an
earlier failure left in `last_error_` is an argument, too.

Every call of a kernel is kept in `ForwardState.calls`.

There are tensors only while the object is ready, so that `shutdown` clears them in every case.

## Main definitions

* `VulkanDevice`, `VulkanKernels`, `VulkanKernels.answer`: what the device answers;
* `VulkanTensorOps.initializeFrom`, `VulkanTensorOps.uploadTensor`, `VulkanTensorOps.shutdown`;
* `ForwardM.deviceRmsNorm`, `ForwardM.deviceMatvec`, `ForwardM.deviceElemwise`: `rmsnorm`,
  `matvecHost` and `elemwise` on the buffers of a forward pass.
-/

namespace HeteroAccel

open Bytes (ofString)
open TwoRuns (Prog)

/-- How the calls end that prepare a device and copy tensors to it. -/
structure VulkanDevice (α : Type) where
  /-- `initialize` of the backend, with its last error. -/
  start : Except Bytes Unit
  /-- The backend has a device, a queue and a command pool. -/
  handles : Bool
  descriptorPool : Bool
  /-- `loadPipeline`, with the text that it leaves. -/
  loadPipeline : String → Except Bytes Unit
  createBuffer : Bytes → Bool
  upload : Bytes → List α → Bool
  /-- What an earlier failure left in `last_error_`. -/
  lastError : Bytes := []

/-- What the kernels compute for named tensors, or the text of their failure. -/
structure VulkanKernels (α : Type) where
  rmsnorm : List α → Bytes → UInt32 → α → Except Bytes (List α)
  matvecHost : Bytes → List α → UInt32 → UInt32 → Except Bytes (List α)
  elemwise : List α → Option (List α) → UInt32 → UInt32 → Except Bytes (List α)
  /-- What an earlier failure left in `last_error_`. -/
  lastError : Bytes := []

/-- How a call ends. -/
def VulkanKernels.answer {α : Type} (kernels : VulkanKernels α) :
    DeviceCall α → Except Bytes (List α)
  | .rmsnorm x weight n eps => kernels.rmsnorm x weight n eps
  | .matvecHost a x mRows kCols => kernels.matvecHost a x mRows kCols
  | .elemwise a b n opType => kernels.elemwise a b n opType

/-- The object, with the number of elements of each tensor. -/
structure VulkanTensorOps where
  ready : Bool := false
  tensors : KeyedMap Bytes UInt32 := ∅

namespace VulkanTensorOps

variable {α : Type} (device : VulkanDevice α)

/-- `shutdown`. -/
def shutdown (_ : VulkanTensorOps) : VulkanTensorOps := {}

/-- The shaders, in the order in which their pipelines are loaded. -/
def shaders : List String :=
  ["hydroxl_matvec", "hydroxl_rmsnorm", "hydroxl_elemwise", "hydroxl_softmax"]

/-- The pipeline of a shader. -/
def loadShader (shader : String) : Except Bytes Unit :=
  match device.loadPipeline (shader ++ ".comp.spv") with
  | .ok () => .ok ()
  | .error e =>
    .error (ofString "Failed to load " ++ ofString shader ++ ofString " pipeline: " ++ e)

/-- `initialize`, with the text in `error_out`. -/
def initializeFrom (v : VulkanTensorOps) : Except Bytes Unit × VulkanTensorOps :=
  if v.ready then (.ok (), v)
  else
    match device.start with
    | .error e =>
      (.error (ofString "VulkanBackend::initialize failed: " ++ e), { v with ready := false })
    | .ok () =>
      if !device.handles then
        (.error (ofString "Invalid Vulkan handles from VulkanBackend"), { v with ready := false })
      else if !device.descriptorPool then
        (.error (ofString "Failed to create VkDescriptorPool"), { v with ready := false })
      else
        match shaders.forM (loadShader device) with
        | .error e => (.error e, v.shutdown)
        | .ok _ => (.ok (), { v with ready := true })

/-- `uploadTensor`, with the last error when it fails. A buffer of the same size is used again. -/
def uploadTensor (name : Bytes) (data : List α) (nElements : UInt32) (v : VulkanTensorOps) :
    Except Bytes Unit × VulkanTensorOps :=
  if !v.ready || data.isEmpty || nElements = 0 then (.error device.lastError, v)
  else if v.tensors.lookup name = some nElements then
    (if device.upload name data then .ok () else .error device.lastError, v)
  else
    let v := { v with tensors := v.tensors.erase name }
    if !device.createBuffer name then
      (.error (ofString "Failed to create buffer for tensor: " ++ name), v)
    else if !device.upload name data then
      (.error (ofString "Failed to upload data for tensor: " ++ name), v)
    else (.ok (), { v with tensors := v.tensors.insert name nElements })

/-- An attempt to initialize ends as it says. -/
theorem ready_initializeFrom (v : VulkanTensorOps) :
    (v.initializeFrom device).2.ready = true ↔ (v.initializeFrom device).1 = .ok () := by
  unfold initializeFrom
  split
  next hready => simp [hready]
  next =>
    split
    next => simp
    next =>
      split_ifs
      · simp
      · simp
      · split
        next => simp [shutdown]
        next => simp

/-- What is ready stays so. -/
theorem initializeFrom_of_ready {v : VulkanTensorOps} (h : v.ready = true) :
    v.initializeFrom device = (.ok (), v) := by
  rw [initializeFrom, if_pos h]

theorem ready_uploadTensor (name : Bytes) (data : List α) (nElements : UInt32)
    (v : VulkanTensorOps) : (v.uploadTensor device name data nElements).2.ready = v.ready := by
  unfold uploadTensor
  split_ifs <;> rfl

end VulkanTensorOps

/-! ## Kernels on the buffers of a forward pass -/

namespace ForwardM

variable {α : Type} (kernels : VulkanKernels α)

/-- A call whose answer is downloaded to the first `n` elements of a buffer, or whose failure is a
failure with its text behind `text`. Without anything to give there is no call. -/
def deviceOp (out : ForwardBuffer) (n : UInt32) (text : Bytes)
    (call : ForwardState α → Option (Option (DeviceCall α))) : ForwardM α Unit := do
  let done ← Prog.action fun s => do
    match ← call s with
    | none => some (some kernels.lastError, s)
    | some c =>
      match kernels.answer c with
      | .error e => some (some e, s.log c)
      | .ok v => some (none, (s.log c).put out (← Buffer.memcpy (s.buffers out) 0 v n.toNat))
  match done with
  | none => pure ()
  | some e => throw (text ++ e)

/-- The first `n` elements of a buffer, which are copied to the device. -/
def uploaded (v : List α) (n : UInt32) : Option (List α) :=
  if v.length < n.toNat then none else some (v.take n.toNat)

/-- `rmsnorm`. -/
def deviceRmsNorm (x : ForwardBuffer) (weight : Bytes) (out : ForwardBuffer) (n : UInt32) (eps : α)
    (text : Bytes) : ForwardM α Unit :=
  deviceOp kernels out n text fun s =>
    if s.buffers x = [] ∨ s.buffers out = [] ∨ n = 0 then some none
    else do some (some (.rmsnorm (← uploaded (s.buffers x) n) weight n eps))

/-- `matvecHost`. -/
def deviceMatvec (a : Bytes) (x out : ForwardBuffer) (mRows kCols : UInt32) (text : Bytes) :
    ForwardM α Unit :=
  deviceOp kernels out mRows text fun s =>
    if s.buffers x = [] ∨ s.buffers out = [] ∨ mRows = 0 ∨ kCols = 0 then some none
    else do some (some (.matvecHost a (← uploaded (s.buffers x) kCols) mRows kCols))

/-- `elemwise`; a second operand that is a null pointer is not copied. -/
def deviceElemwise (a b out : ForwardBuffer) (n opType : UInt32) (text : Bytes) : ForwardM α Unit :=
  deviceOp kernels out n text fun s =>
    if s.buffers a = [] ∨ s.buffers out = [] ∨ n = 0 then some none
    else do
      let x ← uploaded (s.buffers a) n
      match pointer (s.buffers b) with
      | none => some (some (.elemwise x none n opType))
      | some w => some (some (.elemwise x (← uploaded w n) n opType))

end ForwardM

end HeteroAccel
