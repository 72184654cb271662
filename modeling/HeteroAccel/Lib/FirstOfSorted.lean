import Mathlib.Data.List.Pairwise
import Mathlib.Order.Lattice

/-!
# The first elements of a sorted list

The first `n` elements of a list that is sorted by a score: none of them has a higher score than an
element behind them. Whether an element is among them is a matter of counting: less than `n`
elements have a lower score than an element in front (`countP_lt_of_mem_take`), and more than `n`
elements have at most the score of an element behind (`lt_countP_of_mem_drop`).
-/

namespace List

variable {α β : Type*} {n : ℕ}

section Scores

variable [LinearOrder β] {score : α → β} {l : List α}

/-- Sorting by a score, where elements of equal scores may stand in either order. -/
theorem pairwise_mergeSort_score (score : α → β) (l : List α) :
    (l.mergeSort fun a b => !(score b < score a : Bool)).Pairwise fun a b => score a ≤ score b := by
  have h := @List.pairwise_mergeSort α (fun a b => !(score b < score a : Bool)) ?_ ?_ l
  · refine h.imp fun {a b} hab => ?_
    simpa using hab
  · intro a b c hab hbc
    simp only [Bool.not_eq_eq_eq_not, Bool.not_true, decide_eq_false_iff_not, not_lt] at hab hbc ⊢
    exact hab.trans hbc
  · intro a b
    simp only [Bool.or_eq_true, Bool.not_eq_eq_eq_not, Bool.not_true, decide_eq_false_iff_not,
      not_lt]
    exact le_total _ _

theorem le_of_mem_take_of_mem_drop (h : l.Pairwise fun a b => score a ≤ score b) {a b : α}
    (ha : a ∈ l.take n) (hb : b ∈ l.drop n) : score a ≤ score b := by
  rw [← List.take_append_drop n l, List.pairwise_append] at h
  exact h.2.2 a ha b hb

/-- Elements with a lower score than an element in front are in front, too. -/
theorem countP_lt_of_mem_take (h : l.Pairwise fun a b => score a ≤ score b) {a : α}
    (ha : a ∈ l.take n) {p : α → Bool} (hp : ∀ b ∈ l, p b → score b < score a) :
    l.countP p < n := by
  have hback : (l.drop n).countP p = 0 := by
    rw [List.countP_eq_zero]
    intro b hb hpb
    exact absurd (hp b (List.mem_of_mem_drop hb) hpb) (le_of_mem_take_of_mem_drop h ha hb).not_gt
  -- the element itself does not count
  have hfront : (l.take n).countP p < (l.take n).length := by
    refine Nat.lt_of_le_of_ne List.countP_le_length fun heq => ?_
    have hpa := List.countP_eq_length.mp heq a ha
    exact lt_irrefl _ (hp a (List.mem_of_mem_take ha) hpa)
  have hsplit : l.countP p = (l.take n).countP p + (l.drop n).countP p := by
    rw [← List.countP_append, List.take_append_drop]
  have hlength : (l.take n).length ≤ n := List.length_take_le ..
  omega

/-- Elements in front have at most the score of an element behind. -/
theorem lt_countP_of_mem_drop (h : l.Pairwise fun a b => score a ≤ score b) {a : α}
    (ha : a ∈ l.drop n) {p : α → Bool} (hp : ∀ b ∈ l, score b ≤ score a → p b) :
    n < l.countP p := by
  have hlong : n < l.length := by
    by_contra hshort
    rw [List.drop_eq_nil_of_le (Nat.le_of_not_lt hshort)] at ha
    cases ha
  have hfront : (l.take n).countP p = (l.take n).length := by
    refine List.countP_eq_length.mpr fun b hb => ?_
    exact hp b (List.mem_of_mem_take hb) (le_of_mem_take_of_mem_drop h hb ha)
  have hback : 0 < (l.drop n).countP p :=
    List.countP_pos_iff.mpr ⟨a, ha, hp a (List.mem_of_mem_drop ha) le_rfl⟩
  have hsplit : l.countP p = (l.take n).countP p + (l.drop n).countP p := by
    rw [← List.countP_append, List.take_append_drop]
  rw [List.length_take_of_le (Nat.le_of_lt hlong)] at hfront
  omega

end Scores

end List
