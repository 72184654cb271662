import Mathlib.Data.List.Basic

/-!
# Logs of calls

A log of calls to something that answers or fails, oldest call first. Whoever stops at the first
failure leaves a log in which at most the last call has failed.

## Main definitions

* `Answered`: every call has been answered;
* `FailedWith`: the last call has failed, and every call before it has been answered.

## Main results

* `FailedWith.not_answered`: the two exclude each other;
* `Answered.append`, `FailedWith.prepend`: one log behind another;
* `answered_map`, `FailedWith.map`: a log whose calls are renamed.
-/

namespace CallLog

variable {κ ι β ε : Type*} {answer : κ → Except ε β} {calls before : List κ} {e : ε}

/-- Every call of the log has been answered. -/
def Answered (answer : κ → Except ε β) (calls : List κ) : Prop :=
  ∀ c ∈ calls, ∃ v, answer c = .ok v

/-- The last call of the log has failed with `e`, and every call before it has been answered. -/
def FailedWith (answer : κ → Except ε β) (calls : List κ) (e : ε) : Prop :=
  ∃ before c, calls = before ++ [c] ∧ Answered answer before ∧ answer c = .error e

/-- No call has been made yet. -/
theorem answered_nil : Answered answer [] := fun _ h => nomatch h

/-- Two logs of answered calls, one behind the other. -/
theorem Answered.append (h : Answered answer before) (h' : Answered answer calls) :
    Answered answer (before ++ calls) := by
  intro c hc
  rcases List.mem_append.mp hc with hc | hc
  · exact h c hc
  · exact h' c hc

/-- One more call that is answered. -/
theorem Answered.concat {c : κ} {v : β} (h : Answered answer calls) (hc : answer c = .ok v) :
    Answered answer (calls ++ [c]) := by
  refine h.append fun c' hc' => ⟨v, ?_⟩
  rw [List.mem_singleton.mp hc', hc]

/-- One more call, which fails. -/
theorem Answered.failedWith {c : κ} (h : Answered answer calls) (hc : answer c = .error e) :
    FailedWith answer (calls ++ [c]) e :=
  ⟨calls, c, rfl, h, hc⟩

/-- A call that has failed has not been answered. -/
theorem FailedWith.not_answered (h : FailedWith answer calls e) : ¬Answered answer calls := by
  obtain ⟨before, c, rfl, -, hc⟩ := h
  intro hanswered
  obtain ⟨v, hv⟩ := hanswered c (List.mem_append_right _ (List.mem_singleton_self c))
  rw [hc] at hv
  cases hv

/-- A log that ends with a failure, behind one of answered calls. -/
theorem FailedWith.prepend (h : Answered answer before) (h' : FailedWith answer calls e) :
    FailedWith answer (before ++ calls) e := by
  obtain ⟨calls, c, rfl, hcalls, hc⟩ := h'
  rw [← List.append_assoc]
  exact (h.append hcalls).failedWith hc

/-- The calls under other names. -/
theorem answered_map {f : ι → κ} {calls : List ι} :
    Answered answer (calls.map f) ↔ Answered (fun i => answer (f i)) calls :=
  List.forall_mem_map

/-- A failure under another name. -/
theorem FailedWith.map {f : ι → κ} {calls : List ι}
    (h : FailedWith (fun i => answer (f i)) calls e) : FailedWith answer (calls.map f) e := by
  obtain ⟨before, c, rfl, hbefore, hc⟩ := h
  rw [List.map_append]
  exact (answered_map.mpr hbefore).failedWith hc

end CallLog
