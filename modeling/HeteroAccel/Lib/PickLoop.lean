import Mathlib.Logic.Relation

/-!
# Loops that pick

A loop takes steps `R` until none is possible, and `pick` says what a step is about to work on. When
each state has at most one step, what the loop picked on its way is settled at its start:

* `Picks R pick s k`: from `s`, the loop comes to pick `k`;
* `eq_of_not_picks`: what only the picks of `k` change is the same at the end;
* `of_picks`: what a pick of `k` brings about, and no step undoes, holds at the end.
-/

namespace PickLoop

variable {S K : Type*} {R : S → S → Prop} {pick : S → K} {k : K} {s e : S}

/-- The loop picks `k` in one of its steps. -/
def Picks (R : S → S → Prop) (pick : S → K) (s : S) (k : K) : Prop :=
  ∃ s₁ s₂, Relation.ReflTransGen R s s₁ ∧ R s₁ s₂ ∧ pick s₁ = k

/-- What no step changes unless it picks `k` is as before, if `k` is not picked. -/
theorem eq_of_not_picks {V : Type*} {f : S → V} (hstep : ∀ s s', R s s' → pick s ≠ k → f s' = f s)
    (hrun : Relation.ReflTransGen R s e) (hk : ¬ Picks R pick s k) : f e = f s := by
  induction hrun with
  | refl => rfl
  | tail hrun hlast ih =>
    rw [hstep _ _ hlast, ih]
    exact fun heq => hk ⟨_, _, hrun, hlast, heq⟩

/-- A step taken on the way is followed by the rest of the loop. -/
theorem run_of_step (hR : Relator.RightUnique R) (hrun : Relation.ReflTransGen R s e)
    (hend : ∀ e', ¬ R e e') {s₁ s₂ : S} (h₁ : Relation.ReflTransGen R s s₁) (h₂ : R s₁ s₂) :
    Relation.ReflTransGen R s₂ e := by
  rcases Relation.ReflTransGen.total_of_right_unique hR (h₁.tail h₂) hrun with h | h
  · exact h
  · rcases h.cases_head with rfl | ⟨e', he, -⟩
    · exact .refl
    · exact absurd he (hend e')

/-- What the pick of `k` brings about, and no step undoes, holds when the loop ends. -/
theorem of_picks {P : S → Prop} (hR : Relator.RightUnique R)
    (hpick : ∀ s s', R s s' → pick s = k → P s') (hkeep : ∀ s s', P s → R s s' → P s')
    (hrun : Relation.ReflTransGen R s e) (hend : ∀ e', ¬ R e e') (hk : Picks R pick s k) : P e := by
  obtain ⟨s₁, s₂, h₁, h₂, heq⟩ := hk
  have hrest : Relation.ReflTransGen R s₂ e := run_of_step hR hrun hend h₁ h₂
  have hs₂ : P s₂ := hpick s₁ s₂ h₂ heq
  clear hrun hend
  induction hrest with
  | refl => exact hs₂
  | tail _ hlast ih => exact hkeep _ _ ih hlast

end PickLoop
