import Mathlib.Algebra.Order.Group.Defs
import Mathlib.Algebra.Order.BigOperators.Group.List

/-!
# Walks over cumulative weights

A walk adds up the weights of a list and stops at the first element at which the sum reaches a
threshold: this is how a number is turned into a choice. With weights that are not negative it stops
at an element exactly when the threshold lies behind the sum of those before it and not behind the
sum with it (`walk_eq_some_iff`).
-/

namespace CumulativeWalk

variable {α β : Type*} [AddCommGroup α]

/-- The sum of the weights. -/
def total (l : List (α × β)) : α := (l.map (·.1)).sum

@[simp]
theorem total_nil : total ([] : List (α × β)) = 0 := rfl

@[simp]
theorem total_cons (c : α × β) (l : List (α × β)) : total (c :: l) = c.1 + total l := by
  simp [total]

@[simp]
theorem total_append (l l' : List (α × β)) : total (l ++ l') = total l + total l' := by
  simp [total]

variable [LinearOrder α]

/-- The first element at which the sum, from `running` on, reaches `r`. -/
def walk (r : α) : (running : α) → List (α × β) → Option β
  | _, [] => none
  | running, c :: rest => if r ≤ running + c.1 then some c.2 else walk r (running + c.1) rest

variable {r running : α} {before behind rest : List (α × β)}

/-- What the walk stops at is one of the elements. -/
theorem mem_of_walk {l : List (α × β)} {b : β} (h : walk r running l = some b) :
    ∃ c ∈ l, c.2 = b := by
  induction l generalizing running with
  | nil => cases h
  | cons c l ih =>
    rw [walk] at h
    split_ifs at h
    · exact ⟨c, List.mem_cons_self, Option.some.inj h⟩
    · obtain ⟨c', hc', heq⟩ := ih h
      exact ⟨c', List.mem_cons_of_mem _ hc', heq⟩

/-- Elements whose sum reaches the threshold are not passed. -/
theorem walk_append_of_le (hne : before ≠ []) (h : r ≤ running + total before) :
    ∃ c ∈ before, walk r running (before ++ rest) = some c.2 := by
  induction before generalizing running with
  | nil => exact absurd rfl hne
  | cons c before ih =>
    rw [List.cons_append, walk]
    by_cases hc : r ≤ running + c.1
    · exact ⟨c, List.mem_cons_self, if_pos hc⟩
    · rw [if_neg hc]
      rw [total_cons, ← add_assoc] at h
      have hne : before ≠ [] := by
        rintro rfl
        rw [total_nil, add_zero] at h
        exact hc h
      obtain ⟨c', hc', heq⟩ := ih hne h
      exact ⟨c', List.mem_cons_of_mem _ hc', heq⟩

variable [IsOrderedAddMonoid α]

theorem total_nonneg {l : List (α × β)} (h : ∀ c ∈ l, 0 ≤ c.1) : 0 ≤ total l :=
  List.sum_nonneg fun w hw => by
    obtain ⟨c, hc, rfl⟩ := List.mem_map.mp hw
    exact h c hc

/-- Elements whose sum does not reach the threshold are passed. -/
theorem walk_append_of_lt (hpos : ∀ c ∈ before, 0 ≤ c.1) (h : running + total before < r) :
    walk r running (before ++ rest) = walk r (running + total before) rest := by
  induction before generalizing running with
  | nil => simp
  | cons c before ih =>
    obtain ⟨-, hbefore⟩ := List.forall_mem_cons.mp hpos
    rw [total_cons, ← add_assoc] at h ⊢
    have hle : running + c.1 ≤ running + c.1 + total before :=
      le_add_of_nonneg_right (total_nonneg hbefore)
    rw [List.cons_append, walk, if_neg (hle.trans_lt h).not_ge, ih hbefore h]

/-- When the walk stops at an element, of elements that are told apart. -/
theorem walk_eq_some_iff {w : α} {b : β} (hpos : ∀ c ∈ before, 0 ≤ c.1)
    (hnodup : ((before ++ (w, b) :: behind).map (·.2)).Nodup) :
    walk r running (before ++ (w, b) :: behind) = some b ↔
      (before = [] ∨ running + total before < r) ∧ r ≤ running + total before + w := by
  rw [List.map_append, List.map_cons, List.nodup_append] at hnodup
  obtain ⟨-, hbehind, hother⟩ := hnodup
  have hnot : ∀ c ∈ before, c.2 ≠ b := fun c hc heq =>
    hother c.2 (List.mem_map_of_mem hc) b List.mem_cons_self heq
  by_cases hstart : before = [] ∨ running + total before < r
  · -- the candidates in front are passed
    have hpass : walk r running (before ++ (w, b) :: behind) =
        walk r (running + total before) ((w, b) :: behind) := by
      obtain rfl | hlt := hstart
      · simp
      · exact walk_append_of_lt hpos hlt
    rw [hpass, walk, iff_true_intro hstart, true_and]
    by_cases hr : r ≤ running + total before + w
    · simp [hr]
    · simp only [hr, if_false, iff_false]
      intro hwalk
      obtain ⟨c, hc, heq⟩ := mem_of_walk hwalk
      exact (List.nodup_cons.mp hbehind).1 (List.mem_map.mpr ⟨c, hc, heq⟩)
  · rw [iff_false_intro hstart, false_and, iff_false]
    rw [not_or, not_lt] at hstart
    obtain ⟨c, hc, heq⟩ : ∃ c ∈ before,
        walk r running (before ++ (w, b) :: behind) = some c.2 :=
          walk_append_of_le hstart.1 hstart.2
    rw [heq]
    exact fun h => hnot c hc (Option.some.inj h)

end CumulativeWalk
