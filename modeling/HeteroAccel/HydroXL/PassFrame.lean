import HeteroAccel.HydroXL.PassIndependence
import HeteroAccel.HydroXL.VulkanTensorOps

/-!
# What the parts of a pass leave alone

The operators of a forward pass write buffers and report, `writeKV` writes into the cache, and a
call of a device is logged. A property of a state that does not speak of the buffers and the reports
is kept by all that runs on the CPU, apart from `writeKV`.

## Main definitions

* `ForwardM.Keeps`: a program keeps a property of its state, however it ends;
* `ForwardM.IgnoresBuffers`: a property that does not speak of buffers and reports.

## Main results

* `keeps_operate`, `keeps_operate₂`, `keeps_overwrite`, `keeps_addBias`, `keeps_writeKV`,
  `keeps_deviceOp`: one rule for each kind of operator.
-/

namespace HeteroAccel.ForwardM

open OneRun

variable {α δ β γ : Type} {ops : TensorOps α δ} {I : ForwardState α → Prop}

/-- The property `I` is kept, however the program ends. -/
def Keeps (I : ForwardState α → Prop) (p : ForwardM α β) : Prop :=
  Meets True I p (fun _ => I) I

/-- The property `I` does not speak of the buffers and the reports. -/
structure IgnoresBuffers (I : ForwardState α → Prop) : Prop where
  put : ∀ s b v, I s → I (s.put b v)
  report : ∀ s ok, I s → I (s.report ok)

/-- What is kept is kept by two programs, one behind the other. -/
theorem Keeps.bind {p : ForwardM α β} {f : β → ForwardM α γ} (hp : Keeps I p)
    (hf : ∀ v, Keeps I (f v)) : Keeps I (p >>= f) :=
  Meets.bind hp hf

/-- A test adds nothing to what is kept. -/
theorem Keeps.orFail {p : ForwardM α Bool} (hp : Keeps I p) (e : Bytes) : Keeps I (p.orFail e) := by
  refine Meets.orFail (hp.weaken fun ok s hs => ?_)
  rw [ite_self]
  exact hs

/-- A run that has ended has kept what is kept. -/
theorem Keeps.runFrom {p : ForwardM α β} (hp : Keeps I p) {s t : ForwardState α}
    {r : Except Bytes β} (hs : I s) (h : p.runFrom s = some (r, t)) : I t := by
  have hends := hp s hs
  rw [h] at hends
  cases hends with
  | ok ht => exact ht
  | error ht => exact ht

/-- Nothing is done. -/
theorem keeps_pure (v : β) : Keeps I (pure v) := Meets.pure v fun _ hs => hs

/-- A step that keeps `I` from each state in which it is defined. -/
theorem keeps_action {f : ForwardState α → Option (β × ForwardState α)}
    (h : ∀ s v t, I s → f s = some (v, t) → I t) : Keeps I (TwoRuns.Prog.action f) :=
  Meets.action (fun _ _ _ => trivial) h

section Operators

variable (hI : IgnoresBuffers I)

include hI

/-- An operator on one buffer. -/
theorem keeps_operate (b : ForwardBuffer)
    (op : ForwardState α → List α → Option (Bool × List α)) : Keeps I (operate b op) := by
  refine keeps_action fun s ok t hs ht => ?_
  obtain ⟨r, -, ht⟩ := Option.bind_eq_some_iff.mp ht
  cases ht
  exact hI.report _ _ (hI.put _ _ _ hs)

/-- An operator on two buffers. -/
theorem keeps_operate₂ (b c : ForwardBuffer)
    (op : ForwardState α → List α → List α → Option (Bool × List α × List α)) :
    Keeps I (operate₂ b c op) := by
  refine keeps_action fun s ok t hs ht => ?_
  obtain ⟨r, -, ht⟩ := Option.bind_eq_some_iff.mp ht
  cases ht
  exact hI.report _ _ (hI.put _ _ _ (hI.put _ _ _ hs))

/-- An operator without a result. -/
theorem keeps_overwrite (b : ForwardBuffer) (op : ForwardState α → List α → Option (List α)) :
    Keeps I (overwrite b op) := by
  refine keeps_action fun s v t hs ht => ?_
  obtain ⟨r, -, ht⟩ := Option.bind_eq_some_iff.mp ht
  cases ht
  exact hI.put _ _ _ hs

/-- A bias, whether there is one or not. -/
theorem keeps_addBias (bias : List α) (a : ForwardBuffer) (n : UInt32) :
    Keeps I (addBias ops bias a n) := by
  unfold addBias
  split_ifs
  · exact keeps_overwrite hI _ _
  · exact keeps_pure _

/-- A write into the cache, given that `I` is kept by the cache that is written. -/
theorem keeps_writeKV {layer pos : UInt32} {k v : ForwardBuffer}
    (hwrite : ∀ (s : ForwardState α) ok kvCache,
      s.kvCache.writeKV layer pos (pointer (s.buffers k)) (pointer (s.buffers v)) =
        some (ok, kvCache) → I s → I { s with kvCache }) :
    Keeps I (writeKV layer pos k v) := by
  refine keeps_action fun s ok t hs ht => ?_
  obtain ⟨⟨ok', kvCache⟩, hr, ht⟩ := Option.bind_eq_some_iff.mp ht
  cases ht
  exact hI.report _ _ (hwrite s _ _ hr hs)

/-- A call of a device, given that `I` is kept by its log. -/
theorem keeps_deviceOp (hlog : ∀ s c, I s → I (s.log c)) (kernels : VulkanKernels α)
    (out : ForwardBuffer) (n : UInt32) (text : Bytes)
    (call : ForwardState α → Option (Option (DeviceCall α))) :
    Keeps I (deviceOp kernels out n text call) := by
  refine (keeps_action fun s done t hs ht => ?_).bind fun done => ?_
  · obtain ⟨made, -, ht⟩ := Option.bind_eq_some_iff.mp ht
    cases made with
    | none =>
      cases ht
      exact hs
    | some c =>
      dsimp only at ht
      cases hanswer : kernels.answer c with
      | error e =>
        rw [hanswer] at ht
        cases ht
        exact hlog s c hs
      | ok v =>
        rw [hanswer] at ht
        obtain ⟨w, -, ht⟩ := Option.bind_eq_some_iff.mp ht
        cases ht
        exact hI.put _ _ _ (hlog s c hs)
  · cases done with
    | none => exact keeps_pure _
    | some e => exact fun s hs => .error hs

end Operators

end HeteroAccel.ForwardM
