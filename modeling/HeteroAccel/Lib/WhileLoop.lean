import Mathlib.Data.Nat.Notation
import Mathlib.Logic.Relation

/-!
# Loops by their bodies

A loop is given by its body, which from a state either stops with a result or goes on from another
state. How often the body runs is bounded by fuel.

* `WhileLoop.run`: the result, if the body stops within so many runs;
* `WhileLoop.Passes`: the states that the loop comes through;
* `WhileLoop.EndsBy`: the loop ends, since its body lowers a measure;
* `WhileLoop.endsBy`: it does when the body lowers the measure under an invariant that it keeps.
-/

namespace WhileLoop

variable {S R : Type*} {body : S → R ⊕ S} {s s' : S}

/-- The result of at most `fuel` runs of the body; `none` when it has not stopped. -/
def run (body : S → R ⊕ S) : ℕ → S → Option R
  | 0, _ => none
  | fuel + 1, s =>
    match body s with
    | .inl result => some result
    | .inr s' => run body fuel s'

/-- From the first state, the loop comes to the second. -/
def Passes (body : S → R ⊕ S) : S → S → Prop :=
  Relation.ReflTransGen fun s s' => body s = .inr s'

/-- What the body keeps holds in all states that the loop comes through. -/
theorem Passes.preserves {P : S → Prop} (hkeep : ∀ s s', P s → body s = .inr s' → P s')
    (h : Passes body s s') (hs : P s) : P s' := by
  induction h with
  | refl => exact hs
  | tail _ hlast ih => exact hkeep _ _ ih hlast

/-- A loop that ends because each run of its body that goes on lowers a measure. -/
structure EndsBy (body : S → R ⊕ S) (measure : S → ℕ) (s : S) (result : R) : Prop where
  lowers : ∀ s₁ s₂, Passes body s s₁ → body s₁ = .inr s₂ → measure s₂ < measure s₁
  stops : run body (measure s + 1) s = some result

/-- The result is that of any function which the body unfolds. -/
theorem run_eq {P : S → Prop} {measure : S → ℕ} {f : S → R}
    (hkeep : ∀ s s', P s → body s = .inr s' → P s')
    (hlower : ∀ s s', P s → body s = .inr s' → measure s' < measure s)
    (hf : ∀ s, P s → f s = (body s).elim id f) (hs : P s) {fuel : ℕ} (hfuel : measure s < fuel) :
    run body fuel s = some (f s) := by
  induction fuel generalizing s with
  | zero => exact absurd hfuel (Nat.not_lt_zero _)
  | succ fuel ih =>
    rw [run, hf s hs]
    split
    next result hbody =>
      rw [hbody]
      rfl
    next s' hbody =>
      rw [hbody]
      exact ih (hkeep s s' hs hbody)
        (Nat.lt_of_lt_of_le (hlower s s' hs hbody) (Nat.lt_succ_iff.mp hfuel))

/-- A loop ends when its body keeps an invariant under which it lowers a measure. -/
theorem endsBy {P : S → Prop} {measure : S → ℕ} {f : S → R}
    (hkeep : ∀ s s', P s → body s = .inr s' → P s')
    (hlower : ∀ s s', P s → body s = .inr s' → measure s' < measure s)
    (hf : ∀ s, P s → f s = (body s).elim id f) (hs : P s) : EndsBy body measure s (f s) where
  lowers s₁ s₂ hpass hbody := hlower s₁ s₂ (hpass.preserves hkeep hs) hbody
  stops := run_eq hkeep hlower hf hs (Nat.lt_succ_self _)

end WhileLoop
