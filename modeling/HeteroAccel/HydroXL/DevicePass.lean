import HeteroAccel.HydroXL.PassFrame
import HeteroAccel.HydroXL.ShaderKernels
import HeteroAccel.Lib.CallLog
import HeteroAccel.Lib.TwoPrograms

/-!
# A forward pass on a device and one on the CPU

Two passes from states that agree on the known buffers, of which the first runs its operators on a
device and the second on the CPU. Without rounding they stay in agreement until a call of the device
fails, which ends the first one and is the last call in its log.

## Main definitions

* `AgreeBehind`, `LeftOff`: the states in agreement, and those behind a failure;
* `Tracks`: what a part of the pass on the device does beside its counterpart.

## Main results

* `Tracks.rmsNorm`, `Tracks.matvec`, `Tracks.residualAdd`, `Tracks.swiglu`: one rule for each
  operator of the device;
* `Tracks.of_reads`: what runs on the CPU in both.
-/

namespace HeteroAccel

open CallLog (Answered FailedWith)
open TwoPrograms (Follows)
open TwoRuns (Prog)

variable {α δ : Type}

/-- What a pass leaves that has given up with the text `e`: its last call of the device has failed,
and `e` ends in the text of this call. -/
structure LeftOff (ops : TensorOps α δ) (size : ForwardBuffer → UInt32)
    (cleared : HydroXLKVCache α) (kernels : VulkanKernels α) (e : Bytes) (s : ForwardState α) :
    Prop where
  failed : ∃ e', FailedWith kernels.answer s.calls e' ∧ e' <:+ e
  clears : s.kvCache.reset ops.zero = cleared
  sized : ∀ b, (s.buffers b).length = (size b).toNat

/-- States of the two passes that agree on the buffers `known`, all calls of the device having been
answered. -/
def AgreeBehind (ops : TensorOps α δ) (size : ForwardBuffer → UInt32) (cleared : HydroXLKVCache α)
    (kernels : VulkanKernels α) (known : List ForwardBuffer) (s t : ForwardState α) : Prop :=
  Agree ops size cleared known s t ∧ Answered kernels.answer s.calls

/-- A part of a pass on a device gives up or does what its counterpart does, from states that agree
on the buffers `known` to states that agree on `known'`. -/
def Tracks (ops : TensorOps α δ) (size : ForwardBuffer → UInt32) (cleared : HydroXLKVCache α)
    (kernels : VulkanKernels α) (known : List ForwardBuffer) {β γ : Type} (x : ForwardM α β)
    (y : ForwardM α γ) (known' : List ForwardBuffer) : Prop :=
  Follows (LeftOff ops size cleared kernels) (AgreeBehind ops size cleared kernels known) x y
    (fun _ _ => AgreeBehind ops size cleared kernels known')
    (AgreeBehind ops size cleared kernels [])

namespace ForwardM

variable {out : ForwardBuffer} {n : UInt32} {text : Bytes} {kernels : VulkanKernels α}
  {call : ForwardState α → Option (Option (DeviceCall α))} {c : DeviceCall α} {s : ForwardState α}

/-- A call that fails. -/
theorem runFrom_deviceOp_error {e : Bytes} (hcall : call s = some (some c))
    (h : kernels.answer c = .error e) :
    (deviceOp kernels out n text call).runFrom s = some (.error (text ++ e), s.log c) := by
  rw [deviceOp, Prog.runFrom_bind, Prog.runFrom_action, hcall, Option.bind_eq_bind,
    Option.bind_some]
  dsimp only
  rw [h]
  rfl

/-- A download that fills the buffer. -/
theorem runFrom_deviceOp_ok {v : List α} (hcall : call s = some (some c))
    (h : kernels.answer c = .ok v) (hv : v.length = n.toNat)
    (hout : (s.buffers out).length = n.toNat) :
    (deviceOp kernels out n text call).runFrom s = some (.ok (), (s.log c).put out v) := by
  have hcopy : Buffer.memcpy (s.buffers out) 0 v n.toNat = some v := by
    rw [Buffer.memcpy_eq_blit hv (by omega), Buffer.blit_zero_of_length_eq (hv.trans hout.symm)]
  rw [deviceOp, Prog.runFrom_bind, Prog.runFrom_action, hcall, Option.bind_eq_bind,
    Option.bind_some]
  dsimp only
  rw [h]
  dsimp only
  rw [hcopy]
  rfl

/-- The calls of the device are answered. -/
theorem ignoresBuffers_answered (kernels : VulkanKernels α) :
    IgnoresBuffers fun s => Answered kernels.answer s.calls where
  put _ _ _ hs := hs
  report _ _ hs := hs

end ForwardM

/-- A vector of the expected length is uploaded whole. -/
theorem uploaded_of_length {v : List α} {n : UInt32} (h : v.length = n.toNat) :
    ForwardM.uploaded v n = some v := by
  rw [ForwardM.uploaded, if_neg (by omega), List.take_of_length_le h.le]

namespace Tracks

variable {ops : TensorOps α δ} {size : ForwardBuffer → UInt32} {cleared : HydroXLKVCache α}
  {kernels : VulkanKernels α} {known known' known'' : List ForwardBuffer} {b c x : ForwardBuffer}
  {β γ β' γ' : Type} {p : ForwardM α β} {q : ForwardM α γ}

theorem mono (h : Tracks ops size cleared kernels known p q known') (hle : known'' ⊆ known') :
    Tracks ops size cleared kernels known p q known'' :=
  Follows.weaken h fun _ _ _ _ hs => ⟨hs.1.mono hle, hs.2⟩

theorem bind {f : β → ForwardM α β'} {g : γ → ForwardM α γ'}
    (h : Tracks ops size cleared kernels known p q known')
    (hfg : ∀ v w, Tracks ops size cleared kernels known' (f v) (g w) known'') :
    Tracks ops size cleared kernels known (p >>= f) (q >>= g) known'' :=
  Follows.bind h hfg

/-- What is done on the CPU in both, which calls no device. -/
theorem of_reads (h : Reads ops size cleared known p known')
    (hkeeps : ForwardM.Keeps (fun s => Answered kernels.answer s.calls) p) :
    Tracks ops size cleared kernels known p p known' :=
  Follows.and_left (Follows.of_coupled h) fun _ _ _ hs hrun => hkeeps.runFrom hs hrun

/-- A call that fails, or downloads what its counterpart leaves in the same buffer. -/
theorem device {n : UInt32} {text : Bytes}
    {call : ForwardState α → Option (Option (DeviceCall α))} (hsize : size b = n)
    (h : ∀ s t, Agree ops size cleared known s t → ∃ c, call s = some (some c) ∧
      ∀ v, kernels.answer c = .ok v → v.length = n.toNat ∧
        ∃ w oks, q.runFrom t = some (.ok w, { t.put b v with reports := oks })) :
    Tracks ops size cleared kernels known (ForwardM.deviceOp kernels b n text call) q
      (b :: known) := by
  rintro s t ⟨hst, hanswered⟩
  obtain ⟨c, hcall, hdone⟩ := h s t hst
  cases hanswer : kernels.answer c with
  | error e =>
    refine .inl ⟨_, _, ForwardM.runFrom_deviceOp_error hcall hanswer, ?_, hst.clears, hst.sized⟩
    exact ⟨e, hanswered.failedWith hanswer, List.suffix_append _ _⟩
  | ok v =>
    obtain ⟨hv, w, oks, hq⟩ := hdone v hanswer
    have hout : (s.buffers b).length = n.toNat := hsize ▸ hst.sized b
    rw [ForwardM.runFrom_deviceOp_ok hcall hanswer hv hout, hq]
    have hput := hst.put_same (b := b) (hsize ▸ hv)
    refine .inr (.some (.ok ⟨?_, hanswered.concat hanswer⟩))
    exact ⟨hput.kvCache, hput.clears, hput.sized, hput.sized', hput.known⟩

/-! ### The operators -/

section Operators

variable [Field α] [LinearOrder α] {gpu : ShaderOps α} {tensors : List (Bytes × List α)}
  {n : UInt32} {name text : Bytes}

/-- `rmsnorm`. -/
theorem rmsNorm (hops : ops.IsExact) (hdoubles : ops.ExactDoubles) (hgpu : gpu.IsExact ops)
    (hkernels : kernels.RunShaders gpu tensors) {weight : List α} {eps : α} {e : Bytes}
    (htensor : ∀ v, (name, v) ∈ tensors → v = weight) (hweight : n.toNat ≤ weight.length)
    (hn : n ≠ 0) (hrange : n.toNat ≤ 2 ^ 32 - 256) (hx : x ∈ known) (hsizex : size x = n)
    (hsize : size b = n) :
    Tracks ops size cleared kernels known (ForwardM.deviceRmsNorm kernels x name b n eps text)
      ((ForwardM.rmsNorm ops x weight b n eps).orFail e) (b :: known) := by
  refine device hsize fun s t hst => ?_
  have hlength : (s.buffers x).length = n.toNat := hsizex ▸ hst.sized x
  have hne : ¬(s.buffers x = [] ∨ s.buffers b = [] ∨ n = 0) := by
    simp only [not_or]
    exact ⟨Reads.ne_nil_of_size (hst.sized x) (hsizex ▸ hn),
      Reads.ne_nil_of_size (hst.sized b) (hsize ▸ hn), hn⟩
  refine ⟨.rmsnorm (s.buffers x) name n eps, ?_, fun v hv => ?_⟩
  · rw [if_neg hne, uploaded_of_length hlength]
    rfl
  · obtain ⟨weight', hmem, hdownloaded⟩ := hkernels.rmsnorm _ _ _ _ _ hv
    obtain rfl := htensor weight' hmem
    obtain ⟨hhost, hv⟩ := rmsNorm_of_downloaded hops hdoubles hgpu hrange hn hlength.ge hweight
      (hsize ▸ hst.sized' b) hdownloaded
    rw [hst.known x hx] at hhost
    refine ⟨hv, (), t.reports ++ [true], ?_⟩
    rw [Prog.orFail, Prog.runFrom_bind, ForwardM.rmsNorm, ForwardM.operate, Prog.runFrom_action,
      hhost]
    rfl

/-- `matvecHost`. -/
theorem matvec (hops : ops.IsExact) (hgpu : gpu.IsExact ops)
    (hkernels : kernels.RunShaders gpu tensors) {a : List α} {mRows kCols : UInt32}
    (htensor : ∀ v, (name, v) ∈ tensors → v = a) (ha : mRows.toNat * kCols.toNat ≤ a.length)
    (hrows : mRows ≠ 0) (hcols : kCols ≠ 0)
    (hrange : (ShaderCall.matvec mRows kCols : ShaderCall α).InRange) (hx : x ∈ known)
    (hsizex : size x = kCols) (hsize : size b = mRows) :
    Tracks ops size cleared kernels known
      (ForwardM.deviceMatvec kernels name x b mRows kCols text)
      (ForwardM.matvec ops a x b mRows kCols) (b :: known) := by
  refine device hsize fun s t hst => ?_
  have hlength : (s.buffers x).length = kCols.toNat := hsizex ▸ hst.sized x
  -- no argument is missing, so the device is asked
  have hne : ¬(s.buffers x = [] ∨ s.buffers b = [] ∨ mRows = 0 ∨ kCols = 0) := by
    simp only [not_or]
    exact ⟨Reads.ne_nil_of_size (hst.sized x) (hsizex ▸ hcols),
      Reads.ne_nil_of_size (hst.sized b) (hsize ▸ hrows), hrows, hcols⟩
  refine ⟨.matvecHost name (s.buffers x) mRows kCols, ?_, fun v hv => ?_⟩
  · rw [if_neg hne, uploaded_of_length hlength]
    rfl
  · obtain ⟨a', hmem, hdownloaded⟩ := hkernels.matvecHost _ _ _ _ _ hv
    obtain rfl := htensor a' hmem
    obtain ⟨hhost, hv⟩ := matvec_of_downloaded hops hgpu hrange hrows hcols ha hlength.ge
      (hsize ▸ hst.sized' b) hdownloaded
    rw [hst.known x hx] at hhost
    refine ⟨hv, true, t.reports ++ [true], ?_⟩
    rw [ForwardM.matvec, ForwardM.operate, Prog.runFrom_action, hhost]
    rfl

omit [Field α] [LinearOrder α] in
/-- `elemwise` of two buffers of the same size. -/
theorem elemwise (hn : n ≠ 0) {opType : UInt32} (hkernels : kernels.RunShaders gpu tensors)
    (hsizeb : size b = n) (hsizex : size x = n) (hsize : size c = n)
    (h : ∀ s t v, Agree ops size cleared known s t →
      (ShaderCall.elemwise n opType).Downloaded gpu [s.buffers b, s.buffers x] v →
        v.length = n.toNat ∧
          ∃ w oks, q.runFrom t = some (.ok w, { t.put c v with reports := oks })) :
    Tracks ops size cleared kernels known
      (ForwardM.deviceElemwise kernels b x c n opType text) q (c :: known) := by
  refine device hsize fun s t hst => ?_
  have hx : s.buffers x ≠ [] := Reads.ne_nil_of_size (hst.sized x) (hsizex ▸ hn)
  have hne : ¬(s.buffers b = [] ∨ s.buffers c = [] ∨ n = 0) := by
    simp only [not_or]
    exact ⟨Reads.ne_nil_of_size (hst.sized b) (hsizeb ▸ hn),
      Reads.ne_nil_of_size (hst.sized c) (hsize ▸ hn), hn⟩
  refine ⟨.elemwise (s.buffers b) (some (s.buffers x)) n opType, ?_,
    fun v hv => h s t v hst (hkernels.elemwise _ _ _ _ _ hv)⟩
  rw [if_neg hne, uploaded_of_length (hsizeb ▸ hst.sized b), pointer, if_neg hx,
    Option.bind_eq_bind, Option.bind_some]
  dsimp only
  rw [uploaded_of_length (hsizex ▸ hst.sized x)]
  rfl

/-- `elemwise` that adds. -/
theorem residualAdd (hops : ops.IsExact) (hgpu : gpu.IsExact ops)
    (hkernels : kernels.RunShaders gpu tensors) (hn : n ≠ 0) (hrange : n.toNat ≤ 2 ^ 32 - 256)
    (hb : b ∈ known) (hx : x ∈ known) (hsizeb : size b = n) (hsizex : size x = n) :
    Tracks ops size cleared kernels known (ForwardM.deviceElemwise kernels b x b n 0 text)
      (ForwardM.residualAdd ops b x n) (b :: known) := by
  refine elemwise hn hkernels hsizeb hsizex hsizeb fun s t v hst hdownloaded => ?_
  obtain ⟨hhost, hv⟩ := residualAdd_of_downloaded hops hgpu hrange (hsizeb ▸ hst.sized b)
    (hsizex ▸ hst.sized x).ge hdownloaded
  rw [hst.known b hb, hst.known x hx] at hhost
  refine ⟨hv, (), t.reports, ?_⟩
  rw [ForwardM.residualAdd, ForwardM.overwrite, Prog.runFrom_action, hhost]
  rfl

/-- `elemwise` with the activation. -/
theorem swiglu (hops : ops.IsExact) (hgpu : gpu.IsExact ops)
    (hkernels : kernels.RunShaders gpu tensors) (hn : n ≠ 0) (hrange : n.toNat ≤ 2 ^ 32 - 256)
    (hb : b ∈ known) (hx : x ∈ known) (hsizeb : size b = n) (hsizex : size x = n)
    (hsize : size c = n) :
    Tracks ops size cleared kernels known (ForwardM.deviceElemwise kernels b x c n 2 text)
      (ForwardM.swiglu ops b x c n) (c :: known) := by
  refine elemwise hn hkernels hsizeb hsizex hsize fun s t v hst hdownloaded => ?_
  obtain ⟨hhost, hv⟩ := swiglu_of_downloaded hops hgpu hrange (hsizeb ▸ hst.sized b).ge
    (hsizex ▸ hst.sized x).ge (hsize ▸ hst.sized' c) hdownloaded
  rw [hst.known b hb, hst.known x hx] at hhost
  refine ⟨hv, (), t.reports, ?_⟩
  rw [ForwardM.swiglu, ForwardM.overwrite, Prog.runFrom_action, hhost]
  rfl

end Operators

end Tracks

end HeteroAccel
