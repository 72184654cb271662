import HeteroAccel.Lib.Transition
import Mathlib.Data.Nat.Init
import Mathlib.Order.Nat

/-!
# Infinite runs and fairness

What a system does in the end, when nothing that is possible all the time is put off for ever.

* `TransitionSystem.InfiniteRun`: a run that goes on for ever, with all its states and calls;
* `InfiniteRun.WeaklyFair`: a kind of calls is made when it stays possible;
* `Ahead`: a process on its own comes to a state with a property;
* `InfiniteRun.eventually_of_ahead`: so does a run that is fair to the process, when the calls of
  the others do not disturb it;
* `InfiniteRun.eventually_of_stays`: what stays until a kind of calls ends it is ended;
* `InfiniteRun.eventually_of_rank`: a rank that keeps falling leads to a state with a property.
-/

namespace TransitionSystem

variable {S L : Type*} {T : TransitionSystem S L} {guard : S → L → Prop}

/-- A run that goes on for ever, all of whose calls meet the guard. -/
structure InfiniteRun (T : TransitionSystem S L) (guard : S → L → Prop) where
  state : ℕ → S
  call : ℕ → L
  init : T.Init (state 0)
  guarded : ∀ i, guard (state i) (call i)
  step : ∀ i, T.Step (state i) (call i) (state (i + 1))

/-- Steps of a process lead from a state to one with the property `P`. -/
inductive Ahead (next : S → Option S) (P : S → Prop) : S → Prop where
  | here {s : S} (h : P s) : Ahead next P s
  | step {s s' : S} (hnext : next s = some s') (h : Ahead next P s') : Ahead next P s

namespace InfiniteRun

variable (run : T.InfiniteRun guard)

theorem reachable (i : ℕ) : T.Reachable guard (run.state i) := by
  induction i with
  | zero => exact .init run.init
  | succ i ih => exact ih.step (run.guarded i) (run.step i)

/-- A call of a kind that stays possible from some time on is made. -/
def WeaklyFair (own : L → Prop) : Prop :=
  ∀ i, (∀ j, i ≤ j → ∃ l s', own l ∧ T.Step (run.state j) l s') → ∃ j, i ≤ j ∧ own (run.call j)

/-- At some time from `i` on the property `P` holds. -/
def Eventually (P : S → Prop) (i : ℕ) : Prop := ∃ j, i ≤ j ∧ P (run.state j)

/-- What every call keeps, holds from some time on. -/
theorem of_le {P : S → Prop} (hstep : ∀ i, P (run.state i) → P (run.state (i + 1))) {i j : ℕ}
    (hle : i ≤ j) (hi : P (run.state i)) : P (run.state j) := by
  induction j, hle using Nat.le_induction with
  | base => exact hi
  | succ j _ ih => exact hstep j ih

/-- What each call keeps or turns into `Q` holds as long as `Q` has not been reached. -/
theorem holds_or_eventually {P Q : S → Prop} {i j : ℕ} (hle : i ≤ j) (hP : P (run.state i))
    (hstep : ∀ k, i ≤ k → P (run.state k) → P (run.state (k + 1)) ∨ Q (run.state (k + 1))) :
    P (run.state j) ∨ run.Eventually Q i := by
  induction j, hle using Nat.le_induction with
  | base => exact .inl hP
  | succ j hj ih =>
    rcases ih with hP | hQ
    · exact (hstep j hj hP).imp_right fun hQ => ⟨j + 1, by omega, hQ⟩
    · exact .inr hQ

/-- What each call keeps or turns into `Q`, and what makes calls of a kind possible that turn it
into `Q`, becomes `Q` in a run that is fair to them. -/
theorem eventually_of_stays {own : L → Prop} {P Q : S → Prop} {i : ℕ} (hfair : run.WeaklyFair own)
    (hP : P (run.state i))
    (hstep : ∀ k, i ≤ k → P (run.state k) → P (run.state (k + 1)) ∨ Q (run.state (k + 1)))
    (hown : ∀ k, i ≤ k → P (run.state k) → own (run.call k) → Q (run.state (k + 1)))
    (henabled : ∀ k, i ≤ k → P (run.state k) → ∃ l s', own l ∧ T.Step (run.state k) l s') :
    run.Eventually Q i := by
  by_contra hnever
  have hstays : ∀ k, i ≤ k → P (run.state k) :=
    fun k hk => (run.holds_or_eventually hk hP hstep).resolve_right hnever
  obtain ⟨k, hk, hcall⟩ := hfair i fun k hk => henabled k hk (hstays k hk)
  exact hnever ⟨k + 1, by omega, hown k hk (hstays k hk) hcall⟩

/-- In a run that is fair to a process, the process comes to a state with the property `P` as it
does on its own, when the others leave the state as it is until then. -/
theorem eventually_of_ahead {own : L → Prop} {next : S → Option S} {P : S → Prop}
    (hown : ∀ {s l s'}, own l → T.Step s l s' → next s = some s')
    (henabled : ∀ {s s'}, next s = some s' → ∃ l, own l ∧ T.Step s l s')
    (hfair : run.WeaklyFair own) {i : ℕ}
    (hothers : ∀ j, i ≤ j → ¬ own (run.call j) → ¬ run.Eventually P i →
      run.state (j + 1) = run.state j) (h : Ahead next P (run.state i)) : run.Eventually P i := by
  generalize hs : run.state i = s at h
  induction h generalizing i with
  | here hP => exact ⟨i, le_rfl, hs ▸ hP⟩
  | @step s s' hnext _ ih =>
    by_contra hnever
    have hfixed : ∀ j, i ≤ j → ¬ own (run.call j) → run.state (j + 1) = run.state j :=
      fun j hj hl => hothers j hj hl hnever
    have hown : ∀ k, run.state k = s → own (run.call k) → run.state (k + 1) = s' := by
      intro k hk hl
      have hstep := hown hl (run.step k)
      rw [hk, hnext] at hstep
      exact (Option.some.inj hstep).symm
    -- the process takes a step, as otherwise the state would allow it for ever
    have hnext : run.Eventually (fun t => t = s') i := by
      refine run.eventually_of_stays (P := fun t => t = s) hfair hs (fun k hk hks => ?_)
        (fun k _ => hown k) fun k _ hks => ?_
      · by_cases hl : own (run.call k)
        · exact .inr (hown k hks hl)
        · exact .inl ((hfixed k hk hl).trans hks)
      · obtain ⟨l, hl, hstep⟩ := henabled hnext
        exact ⟨l, s', hl, hks ▸ hstep⟩
    -- and goes on from the next state
    obtain ⟨j, hj, hs'⟩ := hnext
    obtain ⟨k, hk, hP⟩ := ih (fun k hk hl _ => hfixed k (by omega) hl) hs'
    exact hnever ⟨k, by omega, hP⟩

/-- A rank that falls again and again, as long as the property `P` does not hold, leads to a state
with this property. -/
theorem eventually_of_rank {P : S → Prop} (rank : S → ℕ) {i : ℕ}
    (h : ∀ j, i ≤ j → run.Eventually (fun s => P s ∨ rank s < rank (run.state j)) j) :
    run.Eventually P i := by
  have hfrom : ∀ n j, i ≤ j → rank (run.state j) = n → run.Eventually P i := by
    intro n
    induction n using Nat.strong_induction_on with
    | _ n ih =>
      rintro j hj rfl
      obtain ⟨k, hk, hP | hlt⟩ := h j hj
      · exact ⟨k, by omega, hP⟩
      · exact ih _ hlt k (by omega) rfl
  exact hfrom _ i le_rfl rfl

end InfiniteRun

end TransitionSystem
