import Mathlib.Algebra.Group.Embedding
import Mathlib.Algebra.Order.Group.Nat
import Mathlib.Data.Finset.Fold
import Mathlib.Data.Finset.Union
import Mathlib.Data.List.Basic
import Mathlib.Tactic.Ring.RingNF

/-!
# Reductions by halves

A list of numbers is combined by several threads. Each thread first combines every `width`-th
number, from its own on; then the results are combined by halves, in a tree. For an operation that
is associative and commutative, the result is that of the numbers one after the other.
Floating-point addition is not associative, so that its result is that of the tree.

* `step`, `reduce`: the tree;
* `stride`: the numbers of a thread;
* `op_reduce`, `fold_stride`: the tree, and the threads, for an operation that allows any order.
-/

namespace TreeReduction

variable {α : Type*} (op : α → α → α)

/-- Each of the first `s` values is combined with the one `s` places behind it. -/
def step (p : ℕ → α) (s : ℕ) : ℕ → α := fun i => if i < s then op (p i) (p (i + s)) else p i

/-- `2 ^ (k - 1)`, …, `2`, `1`. -/
def halves : ℕ → List ℕ
  | 0 => []
  | k + 1 => 2 ^ k :: halves k

/-- The first `2 ^ k` values, combined in a tree. -/
def reduce (k : ℕ) (p : ℕ → α) : α := (halves k).foldl (step op) p 0

/-- The tree looks at no further values. -/
theorem reduce_congr {k : ℕ} {p p' : ℕ → α} (h : ∀ i < 2 ^ k, p i = p' i) :
    reduce op k p = reduce op k p' := by
  induction k generalizing p p' with
  | zero => exact h 0 Nat.one_pos
  | succ k ih =>
    refine ih fun i hi => ?_
    have hpow : 2 ^ (k + 1) = 2 ^ k + 2 ^ k := by rw [pow_succ, Nat.mul_two]
    simp only [step, if_pos hi]
    rw [h i (by omega), h (i + 2 ^ k) (by omega)]

/-- The tree does not fall below its first value. -/
theorem le_reduce [Preorder α] (hle : ∀ x y, x ≤ op x y) (k : ℕ) (p : ℕ → α) :
    p 0 ≤ reduce op k p := by
  induction k generalizing p with
  | zero => exact le_refl (p 0)
  | succ k ih =>
    refine le_trans ?_ (ih (step op p (2 ^ k)))
    rw [step, if_pos (Nat.two_pow_pos k)]
    exact hle _ _

/-- Every `width`-th number below `n`, from `t` on. -/
def stride (width n t : ℕ) : List ℕ :=
  (List.range ((n + (width - 1) - t) / width)).map fun j => t + width * j

/-- The indices of a thread are those that are congruent to it. -/
theorem mem_stride {width n t i : ℕ} (ht : t < width) :
    i ∈ stride width n t ↔ i < n ∧ i % width = t := by
  have hwidth : 0 < width := Nat.zero_lt_of_lt ht
  simp only [stride, List.mem_map, List.mem_range, Nat.lt_div_iff_mul_lt hwidth]
  constructor
  · rintro ⟨j, hj, rfl⟩
    refine ⟨?_, by rw [Nat.add_mul_mod_self_left, Nat.mod_eq_of_lt ht]⟩
    rw [Nat.mul_comm]
    omega
  · rintro ⟨hi, rfl⟩
    refine ⟨i / width, ?_, Nat.mod_add_div i width⟩
    have hdiv := Nat.mod_add_div i width
    rw [Nat.mul_comm] at hdiv
    omega

/-- A thread behind the end has no index. -/
theorem stride_of_le {width n t : ℕ} (hwidth : 0 < width) (h : n ≤ t) : stride width n t = [] := by
  rw [stride, Nat.div_eq_of_lt (by omega)]
  rfl

theorem stride_of_lt {width n t : ℕ} (hwidth : 0 < width) (h : t < n) :
    stride width n t = t :: stride width n (t + width) := by
  have hcount : (n + (width - 1) - t) / width = (n + (width - 1) - (t + width)) / width + 1 := by
    rw [Nat.div_eq_sub_div hwidth (by omega), Nat.sub_sub]
  rw [stride, hcount, List.range_succ_eq_map, List.map_cons, List.map_map, stride]
  congr 1
  refine List.map_congr_left fun j _ => ?_
  rw [Function.comp_apply, Nat.mul_succ]
  omega

theorem nodup_stride {width n t : ℕ} (hwidth : 0 < width) : (stride width n t).Nodup :=
  List.nodup_range.map fun _ _ h => Nat.eq_of_mul_eq_mul_left hwidth (Nat.add_left_cancel h)

section

variable [Std.Commutative op] [Std.Associative op] {b : α}

/-- A round of the tree, with twice as many values. -/
theorem fold_step (hb : op b b = b) (p : ℕ → α) (s : ℕ) :
    (Finset.range s).fold op b (step op p s) = (Finset.range (2 * s)).fold op b p := by
  have hdisjoint : Disjoint (Finset.range s) ((Finset.range s).map (addRightEmbedding s)) := by
    refine Finset.disjoint_left.mpr fun i hi hi' => ?_
    obtain ⟨j, -, rfl⟩ := Finset.mem_map.mp hi'
    exact absurd (Finset.mem_range.mp hi) (not_lt.mpr (Nat.le_add_left s j))
  have hsplit : (Finset.range s).disjUnion _ hdisjoint = Finset.range (2 * s) := by
    ext i
    simp only [Finset.mem_range, Finset.mem_disjUnion, Finset.mem_map, addRightEmbedding_apply]
    constructor
    · rintro (hi | ⟨j, hj, rfl⟩) <;> omega
    · intro hi
      by_cases hlt : i < s
      · exact .inl hlt
      · exact .inr ⟨i - s, by omega, by omega⟩
  have hfold : ((Finset.range s).disjUnion _ hdisjoint).fold op (op b b) p =
      op ((Finset.range s).fold op b p)
        (((Finset.range s).map (addRightEmbedding s)).fold op b p) :=
    Finset.fold_disjUnion hdisjoint
  have hpairs : (Finset.range s).fold op (op b b) (fun i => op (p i) (p (i + s))) =
      op ((Finset.range s).fold op b p) ((Finset.range s).fold op b (p ∘ addRightEmbedding s)) :=
    Finset.fold_op_distrib
  rw [hb, hsplit, Finset.fold_map] at hfold
  rw [hb] at hpairs
  rw [hfold, ← hpairs]
  exact Finset.fold_congr fun i hi => if_pos (Finset.mem_range.mp hi)

/-- The tree combines all values. -/
theorem op_reduce (hb : op b b = b) (k : ℕ) (p : ℕ → α) :
    op (reduce op k p) b = (Finset.range (2 ^ k)).fold op b p := by
  induction k generalizing p with
  | zero =>
    rw [pow_zero, Finset.range_one, Finset.fold_singleton]
    rfl
  | succ k ih =>
    rw [pow_succ', ← fold_step op hb]
    exact ih (step op p (2 ^ k))

/-- The threads combine all numbers. -/
theorem fold_stride (hb : op b b = b) {width : ℕ} (hwidth : 0 < width) (n : ℕ) (f : ℕ → α) :
    (Finset.range width).fold op b
        (fun t => (stride width n t).foldl (fun acc i => op acc (f i)) b) =
      (Finset.range n).fold op b f := by
  have hdisjoint : ((Finset.range width : Finset ℕ) : Set ℕ).PairwiseDisjoint
      fun t => (stride width n t).toFinset := by
    intro t ht t' ht' hne
    refine Finset.disjoint_left.mpr fun i hi hi' => hne ?_
    rw [List.mem_toFinset, mem_stride (Finset.mem_range.mp ht)] at hi
    rw [List.mem_toFinset, mem_stride (Finset.mem_range.mp ht')] at hi'
    exact hi.2.symm.trans hi'.2
  have hunion : (Finset.range width).disjiUnion (fun t => (stride width n t).toFinset) hdisjoint =
      Finset.range n := by
    ext i
    simp only [Finset.mem_disjiUnion, List.mem_toFinset, Finset.mem_range]
    constructor
    · rintro ⟨t, ht, hi⟩
      exact ((mem_stride ht).mp hi).1
    · intro hi
      have ht := Nat.mod_lt i hwidth
      exact ⟨i % width, ht, (mem_stride ht).mpr ⟨hi, rfl⟩⟩
  have hconst : (Finset.range width).fold op b (fun _ => b) = b :=
    (Finset.fold_const b (by rw [hb, hb])).trans (by rw [hb, ite_self])
  have hfold : ((Finset.range width).disjiUnion (fun t => (stride width n t).toFinset)
        hdisjoint).fold op ((Finset.range width).fold op b fun _ => b) f =
      (Finset.range width).fold op b fun t => (stride width n t).toFinset.fold op b f :=
    Finset.fold_disjiUnion hdisjoint
  rw [hconst, hunion] at hfold
  rw [hfold]
  refine Finset.fold_congr fun t _ => ?_
  -- the numbers of one thread
  rw [Finset.fold, List.toFinset_val, (nodup_stride hwidth).dedup, Multiset.map_coe,
    Multiset.coe_fold_l, List.foldl_map]

end

end TreeReduction
