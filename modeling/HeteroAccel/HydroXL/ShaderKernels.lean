import HeteroAccel.HydroXL.ShaderArithmetic
import HeteroAccel.HydroXL.VulkanTensorOps

/-!
# A device that runs the shaders

`rmsnorm`, `matvecHost` and `elemwise` of `VulkanTensorOps` upload what a shader reads, dispatch it
and download its output. A call may fail at any time. When it does not, it answers with the output
of some schedule of the shader; the buffers may be longer than what is uploaded to them, and hold
anything behind it.

## Main definitions

* `ShaderCall.Downloaded`: what may be downloaded behind a dispatch;
* `VulkanKernels.RunShaders`: a device that runs the shaders;
* `shaderKernels`: such a device.

## Main results

* `rmsNorm_of_downloaded`, `matvec_of_downloaded`, `residualAdd_of_downloaded`,
  `swiglu_of_downloaded`: without rounding, the operators of the CPU give what is downloaded;
* `runShaders_shaderKernels`.
-/

namespace HeteroAccel

open Bytes (ofString)

variable {α δ : Type}

/-- What is downloaded behind some schedule of a dispatch with the inputs in the first buffers. -/
def ShaderCall.Downloaded (gpu : ShaderOps α) (call : ShaderCall α) (inputs : List (List α))
    (out : List α) : Prop :=
  ∃ K m₀ s, call.kernel gpu = some K ∧ K.Reaches { memory := m₀ } s ∧ K.Finished s ∧
    (∀ b i v, (inputs.getD b [])[i]? = some v → m₀ (.buffer b i) = v) ∧
    out = (List.range (call.bufferSize call.output)).map fun i =>
      s.memory (.buffer call.output i)

namespace VulkanKernels

/-- Every call that succeeds has run its shader, on the tensors of the device. -/
structure RunShaders (gpu : ShaderOps α) (tensors : List (Bytes × List α))
    (kernels : VulkanKernels α) : Prop where
  rmsnorm : ∀ x name n eps out, kernels.rmsnorm x name n eps = .ok out →
    ∃ weight, (name, weight) ∈ tensors ∧
      (ShaderCall.rmsnorm n eps).Downloaded gpu [x, weight] out
  matvecHost : ∀ name x mRows kCols out, kernels.matvecHost name x mRows kCols = .ok out →
    ∃ a, (name, a) ∈ tensors ∧ (ShaderCall.matvec mRows kCols).Downloaded gpu [a, x] out
  elemwise : ∀ a b n opType out, kernels.elemwise a b n opType = .ok out →
    (ShaderCall.elemwise n opType).Downloaded gpu (a :: b.toList) out

end VulkanKernels

/-! ## What is downloaded -/

/-- It is the values of the dispatch. -/
theorem ShaderCall.Downloaded.exists_value {gpu : ShaderOps α} {call : ShaderCall α}
    {inputs : List (List α)} {out : List α} (h : call.Downloaded gpu inputs out)
    (hrange : call.InRange) : ∃ buf : ℕ → ℕ → α,
      (∀ b i v, (inputs.getD b [])[i]? = some v → buf b i = v) ∧
      out = (List.range (call.bufferSize call.output)).map (call.value gpu buf) := by
  obtain ⟨K, m₀, s, hkernel, hreaches, hfinished, hinputs, rfl⟩ := h
  obtain ⟨K', L, limits, hruns⟩ := ShaderCall.exists_runs gpu call hrange
  obtain rfl : K' = K := Option.some.inj (hruns.kernel.symm.trans hkernel)
  have hmemory := (hruns.ends gpu m₀).memory s hreaches hfinished
  refine ⟨fun b i => m₀ (.buffer b i), hinputs, List.map_congr_left fun i hi => ?_⟩
  rw [hmemory, if_pos ⟨rfl, List.mem_range.mp hi⟩]

section Exact

variable [Field α] [LinearOrder α] {ops : TensorOps α δ} {gpu : ShaderOps α} {x out buf : List α}
  {n : UInt32}

omit [Field α] [LinearOrder α] in
/-- The elements of an input that is long enough, where it is bound. -/
theorem getElem?_of_bound {f : ℕ → α} {m : ℕ} (hm : m ≤ x.length)
    (h : ∀ i v, x[i]? = some v → f i = v) : ∀ i < m, x[i]? = some (f i) := by
  intro i hi
  have hget : x[i]? = some x[i] := List.getElem?_eq_getElem (hi.trans_le hm)
  rw [hget, h i x[i] hget]

/-- What is downloaded of `rmsnorm` is what the CPU computes. -/
theorem rmsNorm_of_downloaded (hops : ops.IsExact) (hdoubles : ops.ExactDoubles)
    (hgpu : gpu.IsExact ops) {weight : List α} {eps : α}
    (hrange : (ShaderCall.rmsnorm n eps).InRange) (hn : n ≠ 0) (hx : n.toNat ≤ x.length)
    (hweight : n.toNat ≤ weight.length) (hbuf : buf.length = n.toNat)
    (h : (ShaderCall.rmsnorm n eps).Downloaded gpu [x, weight] out) :
    rmsNorm ops x weight buf n eps = some (true, out) ∧ out.length = n.toNat := by
  obtain ⟨f, hf, rfl⟩ := h.exists_value hrange
  refine ⟨?_, (List.length_map _).trans List.length_range⟩
  rw [rmsNorm_eq hops hdoubles eps hn (getElem?_of_bound hx (hf 0))
    (getElem?_of_bound hweight (hf 1)) hbuf]
  exact congrArg (fun v => some (true, v))
    (List.map_congr_left fun i _ => (ShaderCall.value_rmsnorm hgpu).symm)

/-- What is downloaded of `matvec` is what the CPU computes. -/
theorem matvec_of_downloaded (hops : ops.IsExact) (hgpu : gpu.IsExact ops) {a : List α}
    {mRows kCols : UInt32} (hrange : (ShaderCall.matvec mRows kCols : ShaderCall α).InRange)
    (hrows : mRows ≠ 0) (hcols : kCols ≠ 0) (ha : mRows.toNat * kCols.toNat ≤ a.length)
    (hx : kCols.toNat ≤ x.length) (hbuf : buf.length = mRows.toNat)
    (h : (ShaderCall.matvec mRows kCols).Downloaded gpu [a, x] out) :
    matvec ops a x buf mRows kCols = some (true, out) ∧ out.length = mRows.toNat := by
  obtain ⟨f, hf, rfl⟩ := h.exists_value hrange
  refine ⟨?_, (List.length_map _).trans List.length_range⟩
  rw [matvec_eq hops hrows hcols (hrange.1.trans_lt (by decide))
    (getElem?_of_bound ha (hf 0)) (getElem?_of_bound hx (hf 1)) hbuf]
  exact congrArg (fun v => some (true, v))
    (List.map_congr_left fun i _ => (ShaderCall.value_matvec hgpu).symm)

/-- What is downloaded of the residual operator is what the CPU computes. -/
theorem residualAdd_of_downloaded (hops : ops.IsExact) (hgpu : gpu.IsExact ops) {y : List α}
    (hrange : (ShaderCall.elemwise n 0 : ShaderCall α).InRange) (hx : x.length = n.toNat)
    (hy : n.toNat ≤ y.length)
    (h : (ShaderCall.elemwise n 0).Downloaded gpu [x, y] out) :
    residualAdd ops x y n = some out ∧ out.length = n.toNat := by
  obtain ⟨f, hf, rfl⟩ := h.exists_value hrange
  refine ⟨?_, (List.length_map _).trans List.length_range⟩
  rw [residualAdd_eq hops (getElem?_of_bound hx.ge (hf 0))
    (getElem?_of_bound hy (hf 1)) hx]
  exact congrArg some (List.map_congr_left fun i _ => (ShaderCall.value_residual hgpu).symm)

/-- What is downloaded of `swiglu` is what the CPU computes. -/
theorem swiglu_of_downloaded (hops : ops.IsExact) (hgpu : gpu.IsExact ops) {y : List α}
    (hrange : (ShaderCall.elemwise n 2 : ShaderCall α).InRange) (hx : n.toNat ≤ x.length)
    (hy : n.toNat ≤ y.length) (hbuf : buf.length = n.toNat)
    (h : (ShaderCall.elemwise n 2).Downloaded gpu [x, y] out) :
    swiglu ops x y buf n = some out ∧ out.length = n.toNat := by
  obtain ⟨f, hf, rfl⟩ := h.exists_value hrange
  refine ⟨?_, (List.length_map _).trans List.length_range⟩
  rw [swiglu_eq hops (getElem?_of_bound hx (hf 0))
    (getElem?_of_bound hy (hf 1)) hbuf]
  exact congrArg some (List.map_congr_left fun i _ => (ShaderCall.value_swiglu hgpu).symm)

end Exact

/-! ## A device that does not fail -/

instance : DecidablePred (ShaderCall.InRange : ShaderCall α → Prop)
  | .matvec mRows kCols => inferInstanceAs
      (Decidable (kCols.toNat ≤ 2 ^ 32 - 256 ∧ mRows.toNat * kCols.toNat ≤ 2 ^ 32))
  | .rmsnorm n _ => inferInstanceAs (Decidable (n.toNat ≤ 2 ^ 32 - 256))
  | .elemwise n _ => inferInstanceAs (Decidable (n.toNat ≤ 2 ^ 32 - 256))
  | .softmax n => inferInstanceAs (Decidable (n.toNat ≤ 2 ^ 32 - 256))

/-- The download behind a dispatch in range, over buffers that hold zeros behind the inputs. -/
def ShaderCall.run (gpu : ShaderOps α) (inputs : List (List α)) (call : ShaderCall α) :
    Except Bytes (List α) :=
  if call.InRange then
    .ok ((List.range (call.bufferSize call.output)).map
      (call.value gpu fun b i => ((inputs.getD b [])[i]?).getD (gpu.lit 0)))
  else .error []

/-- A device that fails for tensors that it does not have, and for sizes out of range only. -/
def shaderKernels (gpu : ShaderOps α) (tensors : List (Bytes × List α)) : VulkanKernels α where
  rmsnorm x name n eps :=
    match tensors.lookup name with
    | none => .error (ofString "Weight tensor not found: " ++ name)
    | some weight => (ShaderCall.rmsnorm n eps).run gpu [x, weight]
  matvecHost name x mRows kCols :=
    match tensors.lookup name with
    | none => .error (ofString "Matrix tensor not found: " ++ name)
    | some a => (ShaderCall.matvec mRows kCols).run gpu [a, x]
  elemwise a b n opType := (ShaderCall.elemwise n opType).run gpu (a :: b.toList)

/-- Some schedule has the values. -/
theorem ShaderCall.downloaded_run {gpu : ShaderOps α} {inputs : List (List α)}
    {call : ShaderCall α} {out : List α} (h : call.run gpu inputs = .ok out) :
    call.Downloaded gpu inputs out := by
  unfold ShaderCall.run at h
  split at h
  next hrange =>
    cases h
    obtain ⟨K, L, limits, hruns⟩ := ShaderCall.exists_runs gpu call hrange
    -- the buffers, and anything in the shared memory and in the variables
    obtain ⟨m₀, hm₀⟩ : ∃ m₀ : ShaderLoc → α, ∀ b i,
        m₀ (.buffer b i) = ((inputs.getD b [])[i]?).getD (gpu.lit 0) := by
      refine ⟨fun l => ?_, fun b i => ?_⟩
      · exact ShaderLoc.casesOn l (fun b i => ((inputs.getD b [])[i]?).getD (gpu.lit 0))
          (fun _ _ => gpu.lit 0) fun _ _ _ => gpu.lit 0
      · rfl
    obtain ⟨s, hreaches, hfinished, hmemory⟩ := (hruns.ends gpu m₀).exists_finished
    refine ⟨K, m₀, s, hruns.kernel, hreaches, hfinished, fun b i v hv => ?_, ?_⟩
    · rw [hm₀, hv, Option.getD_some]
    · refine List.map_congr_left fun i hi => ?_
      rw [hmemory, if_pos ⟨rfl, List.mem_range.mp hi⟩]
      congr 1
      funext b i
      exact (hm₀ b i).symm
  next => cases h

theorem mem_of_lookup {tensors : List (Bytes × List α)} {name : Bytes} {v : List α}
    (h : tensors.lookup name = some v) : (name, v) ∈ tensors := by
  obtain ⟨before, after, rfl, -⟩ := List.lookup_eq_some_iff.mp h
  simp

theorem runShaders_shaderKernels (gpu : ShaderOps α) (tensors : List (Bytes × List α)) :
    (shaderKernels gpu tensors).RunShaders gpu tensors where
  rmsnorm x name n eps out h := by
    unfold shaderKernels at h
    dsimp only at h
    split at h
    next => cases h
    next weight hweight => exact ⟨weight, mem_of_lookup hweight, ShaderCall.downloaded_run h⟩
  matvecHost name x mRows kCols out h := by
    unfold shaderKernels at h
    dsimp only at h
    split at h
    next => cases h
    next a ha => exact ⟨a, mem_of_lookup ha, ShaderCall.downloaded_run h⟩
  elemwise a b n opType out h := ShaderCall.downloaded_run h

end HeteroAccel
