import Mathlib.Data.Nat.Notation
import Mathlib.Data.List.Basic

/-!
# The first element with the least key

A loop goes over a list and keeps the element with the least key so far, the first of several. Some
elements have no key, and a key counts only below a bound. `search_eq_some` and `search_eq_none` say
what it leaves.
-/

namespace FirstLeast

variable {α : Type*} (key : α → Option ℕ)

/-- One round, with the least key so far and its element. -/
def consider (best : ℕ × Option α) (a : α) : ℕ × Option α :=
  match key a with
  | some k => if k < best.1 then (k, some a) else best
  | none => best

/-- The first element with the least key below `bound`. -/
def search (bound : ℕ) (l : List α) : Option α := (l.foldl (consider key) (bound, none)).2

variable {key} {bound : ℕ} {l : List α}

/-- What is kept after the elements `seen`. -/
structure Kept (key : α → Option ℕ) (bound : ℕ) (seen : List α) (best : ℕ × Option α) : Prop where
  le : best.1 ≤ bound
  least : ∀ b ∈ seen, ∀ k, key b = some k → best.1 ≤ k
  found : ∀ a, best.2 = some a → a ∈ seen ∧ key a = some best.1
  none : best.2 = none → best.1 = bound

theorem Kept.consider {seen : List α} {best : ℕ × Option α} (h : Kept key bound seen best) (a : α) :
    Kept key bound (seen ++ [a]) (consider key best a) := by
  unfold FirstLeast.consider
  cases ha : key a with
  | none =>
    refine ⟨h.le, fun b hb k hk => ?_, fun b hb => ?_, h.none⟩
    · obtain hb | hb := List.mem_append.mp hb
      · exact h.least b hb k hk
      · rw [List.mem_singleton.mp hb, ha] at hk
        cases hk
    · exact ⟨List.mem_append_left _ (h.found b hb).1, (h.found b hb).2⟩
  | some k =>
    dsimp only
    -- only a lesser key takes the place
    by_cases hlt : k < best.1
    · rw [if_pos hlt]
      refine ⟨Nat.le_trans (Nat.le_of_lt hlt) h.le, fun b hb k' hk' => ?_, fun b hb => ?_,
        fun hno => by cases hno⟩
      · obtain hb | hb := List.mem_append.mp hb
        · exact Nat.le_trans (Nat.le_of_lt hlt) (h.least b hb k' hk')
        · rw [List.mem_singleton.mp hb, ha] at hk'
          exact Nat.le_of_eq (Option.some.inj hk')
      · obtain rfl := Option.some.inj hb
        exact ⟨List.mem_append_right _ (List.mem_singleton_self _), ha⟩
    · rw [if_neg hlt]
      refine ⟨h.le, fun b hb k' hk' => ?_, fun b hb => ?_, h.none⟩
      · obtain hb | hb := List.mem_append.mp hb
        · exact h.least b hb k' hk'
        · rw [List.mem_singleton.mp hb, ha] at hk'
          exact Option.some.inj hk' ▸ Nat.le_of_not_lt hlt
      · exact ⟨List.mem_append_left _ (h.found b hb).1, (h.found b hb).2⟩

theorem kept_foldl {seen : List α} {best : ℕ × Option α} (h : Kept key bound seen best) :
    Kept key bound (seen ++ l) (l.foldl (consider key) best) := by
  induction l generalizing seen best with
  | nil => simpa using h
  | cons a l ih => simpa using ih (h.consider a)

theorem kept_search : Kept key bound l (l.foldl (consider key) (bound, none)) := by
  have hstart : Kept key bound [] (bound, none) :=
    ⟨Nat.le_refl _, fun _ hb => absurd hb List.not_mem_nil, fun _ ha => (by cases ha),
      fun _ => rfl⟩
  simpa using kept_foldl hstart

/-- The element that is found has the least key. -/
theorem search_eq_some {a : α} (h : search key bound l = some a) :
    a ∈ l ∧ ∃ k, key a = some k ∧ ∀ b ∈ l, ∀ k', key b = some k' → k ≤ k' := by
  have hkept : Kept key bound l _ := kept_search
  obtain ⟨hmem, hkey⟩ := hkept.found a h
  exact ⟨hmem, _, hkey, hkept.least⟩

/-- If none is found, no key is below the bound. -/
theorem search_eq_none (h : search key bound l = none) :
    ∀ b ∈ l, ∀ k, key b = some k → bound ≤ k := by
  have hkept : Kept key bound l _ := kept_search
  intro b hb k hk
  exact hkept.none h ▸ hkept.least b hb k hk

end FirstLeast
