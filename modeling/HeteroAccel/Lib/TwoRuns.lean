import Mathlib.Data.Option.Basic

/-!
# Two runs of a program

A relational logic for programs over a state that return a value, fail with an error, or have no
defined behaviour. A statement is about two runs of one program, from states that are related: both
are undefined, or both end with the same value or the same error, in states that are related again.

## Main definitions

* `Prog`, `Prog.action`, `Prog.undefined`, `Prog.orFail`: programs;
* `Coupled P x Q E`: runs of `x` from states related by `P` end alike, in states related by `Q` when
  they return and by `E` when they fail.

## Main results

* `Coupled.action`, `Coupled.bind`, `Coupled.orFail`, `Coupled.forM`: one rule for each construct;
* `Coupled.self`: two runs from the same state, which are one run.
-/

namespace TwoRuns

/-! ## Related options -/

section Rel

variable {α α' β β' : Type*} {R : α → α' → Prop} {R' : β → β' → Prop} {x : Option α}
  {x' : Option α'}

theorem rel_bind {f : α → Option β} {f' : α' → Option β'} (h : Option.Rel R x x')
    (hf : ∀ a a', R a a' → Option.Rel R' (f a) (f' a')) :
    Option.Rel R' (x.bind f) (x'.bind f') := by
  cases h with
  | some h => exact hf _ _ h
  | none => exact .none

theorem rel_map {f : α → β} {f' : α' → β'} (h : Option.Rel R x x')
    (hf : ∀ a a', R a a' → R' (f a) (f' a')) : Option.Rel R' (x.map f) (x'.map f') := by
  cases h with
  | some h => exact .some (hf _ _ h)
  | none => exact .none

/-- What is read off related values. -/
theorem map_eq_of_rel {f : α → β} {f' : α' → β} (h : Option.Rel R x x')
    (hf : ∀ a a', R a a' → f a = f' a') : x.map f = x'.map f' := by
  cases h with
  | some h => exact congrArg some (hf _ _ h)
  | none => rfl

theorem rel_mono {S : α → α' → Prop} (h : Option.Rel R x x') (hle : ∀ a a', R a a' → S a a') :
    Option.Rel S x x' := by
  cases h with
  | some h => exact .some (hle _ _ h)
  | none => exact .none

/-- The same option twice. -/
theorem rel_of_eq {R : α → α → Prop} {x x' : Option α} (h : x = x')
    (hself : ∀ a, x = some a → R a a) : Option.Rel R x x' := by
  subst h
  cases x with
  | none => exact .none
  | some a => exact .some (hself a rfl)

end Rel

/-! ## Programs -/

/-- A program over the state `σ`, with errors `ε`; `none` is a run without defined behaviour. -/
abbrev Prog (ε σ : Type) := ExceptT ε (StateT σ Option)

variable {ε σ α β : Type}

namespace Prog

/-- A step that does not fail. -/
def action (f : σ → Option (α × σ)) : Prog ε σ α := fun s => (f s).map fun r => (.ok r.1, r.2)

/-- The program whose behaviour is undefined. -/
def undefined : Prog ε σ α := fun _ => none

/-- A test whose failure is an error. -/
def orFail (x : Prog ε σ Bool) (e : ε) : Prog ε σ Unit := do
  if ← x then pure () else throw e

/-- The run from a state. -/
def runFrom (x : Prog ε σ α) (s : σ) : Option (Except ε α × σ) := x s

@[simp]
theorem runFrom_pure (v : α) (s : σ) : (pure v : Prog ε σ α).runFrom s = some (.ok v, s) := rfl

@[simp]
theorem runFrom_throw (e : ε) (s : σ) : (throw e : Prog ε σ α).runFrom s = some (.error e, s) := rfl

@[simp]
theorem runFrom_action (f : σ → Option (α × σ)) (s : σ) :
    (action f : Prog ε σ α).runFrom s = (f s).map fun r => (.ok r.1, r.2) := rfl

@[simp]
theorem runFrom_undefined (s : σ) : (undefined : Prog ε σ α).runFrom s = none := rfl

/-- One program behind another: an exception of the first ends both. -/
theorem runFrom_bind (x : Prog ε σ α) (f : α → Prog ε σ β) (s : σ) :
    (x >>= f).runFrom s = (x.runFrom s).bind fun r =>
      match r.1 with
      | .ok v => (f v).runFrom r.2
      | .error e => some (.error e, r.2) := by
  refine congrArg (Option.bind (x.runFrom s)) (funext fun r => ?_)
  obtain ⟨result, t⟩ := r
  cases result <;> rfl

end Prog

/-! ## Coupled runs -/

/-- Two ends of runs: the same value or the same error, in related states. -/
inductive Matches (Q : α → σ → σ → Prop) (E : σ → σ → Prop) :
    Except ε α × σ → Except ε α × σ → Prop
  | ok {v : α} {t t' : σ} (h : Q v t t') : Matches Q E (.ok v, t) (.ok v, t')
  | error {e : ε} {t t' : σ} (h : E t t') : Matches Q E (.error e, t) (.error e, t')

/-- Runs of `x` from states related by `P` end alike, in states related by `Q` or `E`. -/
def Coupled (P : σ → σ → Prop) (x : Prog ε σ α) (Q : α → σ → σ → Prop) (E : σ → σ → Prop) : Prop :=
  ∀ s s', P s s' → Option.Rel (Matches Q E) (x.runFrom s) (x.runFrom s')

namespace Coupled

variable {P P' E E' : σ → σ → Prop} {Q Q' : α → σ → σ → Prop} {R : β → σ → σ → Prop}
  {x : Prog ε σ α} {f : α → Prog ε σ β}

/-- A weaker statement. -/
theorem mono (h : Coupled P x Q E) (hP : ∀ s s', P' s s' → P s s')
    (hQ : ∀ v s s', Q v s s' → Q' v s s') (hE : ∀ s s', E s s' → E' s s') :
    Coupled P' x Q' E' := by
  intro s s' hs
  refine rel_mono (h s s' (hP s s' hs)) fun r r' hr => ?_
  cases hr with
  | ok hr => exact .ok (hQ _ _ _ hr)
  | error hr => exact .error (hE _ _ hr)

theorem pure (v : α) : Coupled P (Pure.pure v : Prog ε σ α) (fun _ => P) E :=
  fun _ _ hs => .some (.ok hs)

theorem undefined : Coupled P (Prog.undefined : Prog ε σ α) Q E :=
  fun _ _ _ => .none

/-- A step that gives the same value and related states. -/
theorem action {f : σ → Option (α × σ)}
    (h : ∀ s s', P s s' → Option.Rel (fun r r' => r.1 = r'.1 ∧ Q r.1 r.2 r'.2) (f s) (f s')) :
    Coupled P (Prog.action f : Prog ε σ α) Q E := by
  intro s s' hs
  rw [Prog.runFrom_action, Prog.runFrom_action]
  refine rel_map (h s s' hs) fun r r' hr => ?_
  obtain ⟨v, t⟩ := r
  obtain ⟨v', t'⟩ := r'
  obtain ⟨rfl, hQ⟩ := hr
  exact .ok hQ

/-- One program behind another. -/
theorem bind (h : Coupled P x Q E) (hf : ∀ v, Coupled (Q v) (f v) R E) :
    Coupled P (x >>= f) R E := by
  intro s s' hs
  rw [Prog.runFrom_bind, Prog.runFrom_bind]
  refine rel_bind (h s s' hs) fun r r' hr => ?_
  cases hr with
  | ok hr => exact hf _ _ _ hr
  | error hr => exact .some (.error hr)

/-- A test, with what holds when it fails. -/
theorem orFail {x : Prog ε σ Bool} {e : ε} (h : Coupled P x (fun ok => if ok then P' else E) E) :
    Coupled P (x.orFail e) (fun _ => P') E := by
  refine h.bind fun ok => ?_
  cases ok with
  | true => exact pure ()
  | false => exact fun _ _ hs => .some (.error hs)

/-- A loop, with what every round preserves. -/
theorem forM {ι : Type} {l : List ι} {f : ι → Prog ε σ PUnit}
    (h : ∀ i ∈ l, Coupled P (f i) (fun _ => P) E) : Coupled P (l.forM f) (fun _ => P) E := by
  induction l with
  | nil => exact pure _
  | cons i l ih =>
    exact (h i List.mem_cons_self).bind fun _ => ih fun j hj => h j (List.mem_cons_of_mem _ hj)

/-- What a run from a state that is related to itself ends in. -/
theorem self (h : Coupled P x Q E) {s t : σ} {r : Except ε α} (hs : P s s)
    (hrun : x.runFrom s = some (r, t)) :
    (∃ v, r = .ok v ∧ Q v t t) ∨ ∃ e, r = .error e ∧ E t t := by
  have hself := h s s hs
  rw [hrun] at hself
  cases hself with
  | some hr =>
    cases hr with
    | ok hr => exact .inl ⟨_, rfl, hr⟩
    | error hr => exact .inr ⟨_, rfl, hr⟩

end Coupled

end TwoRuns
