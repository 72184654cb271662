import Mathlib.Algebra.Order.BigOperators.Group.List
import Mathlib.Algebra.Order.Ring.Nat

/-!
# Cutting a list into chunks

A `Chunker` reads off the front of a list how many elements belong to the first chunk. Cutting a
list with it loses nothing, and undoes the concatenation of words whose lengths it recognises: this
is how a code of variable length is decoded.

The last part compares a concatenation with that of longer pieces.
-/

/-- A rule for the size of the first chunk of a list. -/
structure Chunker (β : Type*) where
  /-- The number of elements of the first chunk. -/
  size : List β → ℕ
  /-- The first chunk is not empty. -/
  size_pos : ∀ s, s ≠ [] → 0 < size s

namespace Chunker

variable {β : Type*} (c : Chunker β)

/-- The successive chunks of a list. -/
def chunks (s : List β) : List (List β) :=
  if s = [] then [] else s.take (c.size s) :: chunks (s.drop (c.size s))
termination_by s.length
decreasing_by
  rename_i hs
  have := c.size_pos s hs
  have := List.length_pos_iff.mpr hs
  rw [List.length_drop]
  omega

@[simp]
theorem chunks_nil : c.chunks [] = [] := by
  rw [chunks, if_pos rfl]

/-- A chunk, and the chunks of the rest. -/
theorem chunks_of_ne_nil {s : List β} (hs : s ≠ []) :
    c.chunks s = s.take (c.size s) :: c.chunks (s.drop (c.size s)) := by
  rw [chunks, if_neg hs]

/-- Cutting loses nothing. -/
theorem flatten_chunks (s : List β) : (c.chunks s).flatten = s := by
  induction s using chunks.induct c with
  | case1 => rw [chunks_nil, List.flatten_nil]
  | case2 s hs ih => rw [c.chunks_of_ne_nil hs, List.flatten_cons, ih, List.take_append_drop]

/-- No chunk is empty. -/
theorem ne_nil_of_mem_chunks {s chunk : List β} (h : chunk ∈ c.chunks s) : chunk ≠ [] := by
  induction s using chunks.induct c with
  | case1 =>
    rw [chunks_nil] at h
    cases h
  | case2 s hs ih =>
    rw [c.chunks_of_ne_nil hs] at h
    rcases List.mem_cons.mp h with rfl | h
    · have := Nat.pos_iff_ne_zero.mp (c.size_pos s hs)
      simp [hs, this]
    · exact ih h

/-- Words whose lengths are recognised in front of anything are the chunks of their
concatenation. -/
theorem chunks_flatten {words : List (List β)} (hne : ∀ w ∈ words, w ≠ [])
    (hsize : ∀ w ∈ words, ∀ rest, c.size (w ++ rest) = w.length) :
    c.chunks words.flatten = words := by
  induction words with
  | nil => exact c.chunks_nil
  | cons w words ih =>
    have hw := hsize w List.mem_cons_self
    have hnil : w ++ words.flatten ≠ [] := by
      simp [hne w List.mem_cons_self]
    rw [List.flatten_cons, c.chunks_of_ne_nil hnil, hw, List.take_left, List.drop_left, ih]
    · exact fun w' hw' => hne w' (List.mem_cons_of_mem _ hw')
    · exact fun w' hw' => hsize w' (List.mem_cons_of_mem _ hw')

end Chunker

namespace List

variable {α β : Type*}

/-- A code whose words are not empty does not shorten a message. -/
theorem length_le_length_flatMap {word : α → List β} (hpos : ∀ a, word a ≠ []) (l : List α) :
    l.length ≤ (l.flatMap word).length := by
  induction l with
  | nil => exact Nat.le_refl _
  | cons a l ih =>
    have := List.length_pos_iff.mpr (hpos a)
    rw [List.flatMap_cons, List.length_append, List.length_cons]
    omega

/-- Pieces of which all have the lengths of their images keep their concatenation only if each of
them is kept. -/
theorem map_eq_of_flatten_map_eq {f : List β → List β} {pieces : List (List β)}
    (hlength : ∀ x ∈ pieces, (f x).length = x.length)
    (h : (pieces.map f).flatten = pieces.flatten) : ∀ x ∈ pieces, f x = x := by
  induction pieces with
  | nil => exact fun x hx => by cases hx
  | cons x pieces ih =>
    rw [List.map_cons, List.flatten_cons, List.flatten_cons] at h
    obtain ⟨hhead, htail⟩ := List.append_inj h (hlength x List.mem_cons_self)
    intro y hy
    rcases List.mem_cons.mp hy with rfl | hy
    · exact hhead
    · exact ih (fun z hz => hlength z (List.mem_cons_of_mem _ hz)) htail y hy

/-- Terms of which none exceeds its bound have the same sum only if each is its bound. -/
theorem map_eq_of_sum_map_eq {ι : Type*} {f g : ι → ℕ} {l : List ι} (hle : ∀ x ∈ l, f x ≤ g x)
    (h : (l.map f).sum = (l.map g).sum) : ∀ x ∈ l, f x = g x := by
  induction l with
  | nil => exact fun x hx => by cases hx
  | cons x l ih =>
    have hx := hle x List.mem_cons_self
    have hl : ∀ y ∈ l, f y ≤ g y := fun y hy => hle y (List.mem_cons_of_mem _ hy)
    have htotal := List.sum_le_sum hl
    simp only [List.map_cons, List.sum_cons] at h
    intro y hy
    rcases List.mem_cons.mp hy with rfl | hy
    · omega
    · exact ih hl (by omega) y hy

/-- Pieces that do not get shorter keep their concatenation only if each of them is kept. -/
theorem flatten_map_eq_flatten_iff {f : List β → List β} {pieces : List (List β)}
    (hle : ∀ x ∈ pieces, x.length ≤ (f x).length) :
    (pieces.map f).flatten = pieces.flatten ↔ ∀ x ∈ pieces, f x = x := by
  constructor
  · intro h
    have hsum := congrArg List.length h
    rw [List.length_flatten, List.length_flatten, List.map_map] at hsum
    exact map_eq_of_flatten_map_eq
      (fun x hx => (map_eq_of_sum_map_eq hle hsum.symm x hx).symm) h
  · intro hkept
    rw [List.map_congr_left hkept, List.map_id']

/-- Pieces that do not get longer keep their concatenation only if each of them is kept. -/
theorem flatten_map_eq_flatten_iff_of_length_le {f : List β → List β} {pieces : List (List β)}
    (hle : ∀ x ∈ pieces, (f x).length ≤ x.length) :
    (pieces.map f).flatten = pieces.flatten ↔ ∀ x ∈ pieces, f x = x := by
  constructor
  · intro h
    have hsum := congrArg List.length h
    rw [List.length_flatten, List.length_flatten, List.map_map] at hsum
    exact map_eq_of_flatten_map_eq (map_eq_of_sum_map_eq hle hsum) h
  · intro hkept
    rw [List.map_congr_left hkept, List.map_id']

end List
