import Mathlib.Data.List.Basic

/-!
# Patterns with backtracking

Patterns over the symbols of an alphabet, with the meaning that a backtracking engine gives them:
`ends` lists what a pattern can leave of a text, in the order in which the engine tries. The first
of these decides a match (*leftmost-first*), and `findAll` cuts the successive matches out of a
text. Repetition is of the symbols of a class, as many as possible first.

## Main definitions

* `Pattern`, `Pattern.ends`, `Pattern.first`: what is left of a text behind a match;
* `Pattern.findAll`: the successive matches.

## Main results

* `first_alt`, `first_one_seq`, `first_many_seq`, …: the first match of each construct;
* `Consuming.exists_findAll`: the matches of a text that begins with one;
* `Consuming.flatten_findAll`: the matches cover the text where one begins everywhere.
-/

namespace Backtracking

variable {α : Type*}

/-- A pattern over the symbols `α`. -/
inductive Pattern (α : Type*)
  /-- A symbol of a class. -/
  | one (p : α → Bool)
  /-- Any number of symbols of a class. -/
  | many (p : α → Bool)
  /-- Nothing, in front of no symbol of a class. -/
  | notAhead (p : α → Bool)
  | done
  | seq (x y : Pattern α)
  /-- One of two patterns, the first one if possible. -/
  | alt (x y : Pattern α)

namespace Pattern

/-- A pattern that can be left out. -/
def opt (x : Pattern α) : Pattern α := alt x done

/-- Symbols of a class, at least one. -/
def plus (p : α → Bool) : Pattern α := seq (one p) (many p)

/-- Symbols of a class, at most `n`, as many as possible first. -/
def upTo (p : α → Bool) : (n : ℕ) → Pattern α
  | 0 => done
  | n + 1 => opt (seq (one p) (upTo p n))

/-- What is left behind symbols of a class, the shortest rest first. -/
def manyEnds (p : α → Bool) : List α → List (List α)
  | [] => [[]]
  | a :: s => if p a then manyEnds p s ++ [a :: s] else [a :: s]

/-- What the pattern can leave of a text, in the order of preference. -/
def ends : Pattern α → List α → List (List α)
  | one _, [] => []
  | one p, a :: s => if p a then [s] else []
  | many p, s => manyEnds p s
  | notAhead p, s => if s.head?.any p then [] else [s]
  | done, s => [s]
  | seq x y, s => (ends x s).flatMap (ends y)
  | alt x y, s => ends x s ++ ends y s

section Equations

variable {x y : Pattern α} {p : α → Bool} {a : α} {s : List α}

@[simp]
theorem manyEnds_nil : manyEnds p [] = [[]] := rfl

theorem manyEnds_cons :
    manyEnds p (a :: s) = if p a then manyEnds p s ++ [a :: s] else [a :: s] := rfl

@[simp]
theorem ends_one_nil : ends (one p) [] = [] := rfl

@[simp]
theorem ends_one_cons : ends (one p) (a :: s) = if p a then [s] else [] := rfl

@[simp]
theorem ends_many : ends (many p) s = manyEnds p s := rfl

/-- A look-ahead leaves everything or nothing. -/
@[simp]
theorem ends_notAhead : ends (notAhead p) s = if s.head?.any p then [] else [s] := rfl

@[simp]
theorem ends_done : ends done s = [s] := rfl

/-- A sequence continues behind each end of its first part. -/
@[simp]
theorem ends_seq : ends (seq x y) s = (ends x s).flatMap (ends y) := rfl

/-- The second alternative is tried after the first one. -/
@[simp]
theorem ends_alt : ends (alt x y) s = ends x s ++ ends y s := rfl

end Equations

/-- What the match at the front of a text leaves of it. -/
def first (x : Pattern α) (s : List α) : Option (List α) := (ends x s).head?

/-- The successive matches in a text that are not empty. Where none begins a symbol is skipped. -/
def findAll (x : Pattern α) : List α → List (List α)
  | [] => []
  | a :: s =>
    match first x (a :: s) with
    | some rest =>
      if rest.length ≤ s.length then
        (a :: s).take (s.length + 1 - rest.length) :: findAll x rest
      else findAll x s
    | none => findAll x s
termination_by s => s.length
decreasing_by all_goals simp_wf <;> omega

/-! ## The first match -/

variable {x y : Pattern α} {p : α → Bool} {a : α} {s rest : List α}

@[simp]
theorem first_done : first done s = some s := rfl

@[simp]
theorem first_one_nil : first (one p) [] = none := rfl

@[simp]
theorem first_one_cons : first (one p) (a :: s) = if p a then some s else none := by
  rw [first, ends_one_cons]
  split <;> rfl

/-- A negative look-ahead consumes nothing. -/
theorem first_notAhead : first (notAhead p) s = if s.head?.any p then none else some s := by
  rw [first, ends_notAhead]
  split <;> rfl

/-- The first alternative is preferred. -/
theorem first_alt : first (alt x y) s = (first x s).or (first y s) := List.head?_append ..

/-- A sequence tries the ends of its first part in order. -/
theorem first_seq : first (seq x y) s = (ends x s).findSome? (first y) := List.head?_flatMap

@[simp]
theorem first_one_seq_nil : first (seq (one p) y) [] = none := rfl

/-- A sequence that begins with one element. -/
@[simp]
theorem first_one_seq : first (seq (one p) y) (a :: s) = if p a then first y s else none := by
  rw [first_seq, ends_one_cons]
  split <;> simp

/-- What can be left out is tried first. -/
theorem first_opt_seq : first (seq (opt x) y) s = (first (seq x y) s).or (first y s) := by
  rw [first_seq, first_seq, opt, ends_alt, ends_done, List.findSome?_append,
    List.findSome?_singleton]

@[simp]
theorem first_many_seq_nil : first (seq (many p) y) [] = first y [] := by
  rw [first_seq, ends_many, manyEnds_nil, List.findSome?_singleton]

/-- As many symbols as possible are tried first. -/
theorem first_many_seq : first (seq (many p) y) (a :: s) =
    if p a then (first (seq (many p) y) s).or (first y (a :: s)) else first y (a :: s) := by
  rw [first_seq, first_seq, ends_many, ends_many, manyEnds_cons]
  split
  · rw [List.findSome?_append, List.findSome?_singleton]
  · rw [List.findSome?_singleton]

/-- Alone, a repetition takes all there is. -/
theorem first_many : first (many p) s = some (s.dropWhile p) := by
  induction s with
  | nil => rfl
  | cons a s ih =>
    rw [first, ends_many] at ih ⊢
    rw [manyEnds_cons, List.dropWhile_cons]
    split
    · rw [List.head?_append, ih, Option.some_or]
    · rfl

theorem first_plus_nil : first (plus p) [] = none := rfl

/-- One or more elements are matched as far as they go. -/
theorem first_plus : first (plus p) (a :: s) = if p a then some (s.dropWhile p) else none := by
  rw [plus, first_one_seq, first_many]

/-- An optional part that does not match is left out. -/
theorem first_opt : first (opt x) s = (first x s).or (some s) := first_alt

theorem first_upTo_nil {n : ℕ} : first (upTo p n) [] = some [] := by
  cases n with
  | zero => rfl
  | succ n => rw [upTo, first_opt, first_one_seq_nil, Option.none_or]

/-- A bounded repetition takes what it can. -/
theorem first_upTo_succ {n : ℕ} : first (upTo p (n + 1)) (a :: s) =
    if p a then (first (upTo p n) s).or (some (a :: s)) else some (a :: s) := by
  rw [upTo, first_opt, first_one_seq]
  split <;> simp

/-- One pattern behind another whose first match can be continued. -/
theorem first_seq_of_first (hx : first x s = some rest) {rest' : List α}
    (hy : first y rest = some rest') : first (seq x y) s = some rest' := by
  rw [first_seq]
  obtain ⟨others, hends⟩ := List.head?_eq_some_iff.mp hx
  rw [hends, List.findSome?_cons, hy]

/-- Three patterns in a row. -/
theorem first_seq_assoc {z : Pattern α} :
    first (seq (seq x y) z) s = first (seq x (seq y z)) s := by
  rw [first, first, ends_seq, ends_seq, ends_seq, List.flatMap_assoc]
  rfl

/-- A sequence fails where its first part does. -/
theorem first_seq_of_none (hx : first x s = none) : first (seq x y) s = none := by
  rw [first_seq, List.head?_eq_none_iff.mp hx, List.findSome?_nil]

/-! ## All matches -/

/-- A repetition ends in a rest of the input. -/
theorem suffix_of_mem_manyEnds (h : rest ∈ manyEnds p s) : rest <:+ s := by
  induction s with
  | nil =>
    obtain rfl := List.mem_singleton.mp h
    exact List.suffix_refl _
  | cons a s ih =>
    rw [manyEnds_cons] at h
    split at h
    · obtain h | h := List.mem_append.mp h
      · exact (ih h).trans (List.suffix_cons a s)
      · obtain rfl := List.mem_singleton.mp h
        exact List.suffix_refl _
    · obtain rfl := List.mem_singleton.mp h
      exact List.suffix_refl _

/-- What is left is the end of the text. -/
theorem suffix_of_mem_ends (h : rest ∈ ends x s) : rest <:+ s := by
  -- every match ends behind its start
  induction x generalizing s rest with
  | one p =>
    cases s with
    | nil => cases h
    | cons a s =>
      rw [ends_one_cons] at h
      split at h
      · obtain rfl := List.mem_singleton.mp h
        exact List.suffix_cons a _
      · cases h
  | many p => exact suffix_of_mem_manyEnds h
  | notAhead p =>
    rw [ends_notAhead] at h
    split at h
    · cases h
    · obtain rfl := List.mem_singleton.mp h
      exact List.suffix_refl _
  | done =>
    obtain rfl := List.mem_singleton.mp h
    exact List.suffix_refl _
  | seq x y ihx ihy =>
    obtain ⟨mid, hmid, hrest⟩ := List.mem_flatMap.mp h
    exact (ihy hrest).trans (ihx hmid)
  | alt x y ihx ihy =>
    obtain h | h := List.mem_append.mp h
    · exact ihx h
    · exact ihy h

/-- A match ends in a rest of the input. -/
theorem suffix_of_first (h : first x s = some rest) : rest <:+ s :=
  suffix_of_mem_ends (List.mem_of_head? h)

@[simp]
theorem findAll_nil : findAll x [] = [] := by
  rw [findAll]

/-- A text that begins with a match. -/
theorem findAll_of_first {piece : List α} (hpiece : piece ≠ [])
    (h : first x (piece ++ rest) = some rest) :
    findAll x (piece ++ rest) = piece :: findAll x rest := by
  cases piece with
  | nil => exact absurd rfl hpiece
  | cons a piece =>
    rw [List.cons_append] at h ⊢
    rw [findAll, h]
    dsimp only
    have hle : rest.length ≤ (piece ++ rest).length := by simp
    have htake : (piece ++ rest).length + 1 - rest.length = (a :: piece).length := by
      rw [List.length_append, List.length_cons]
      omega
    rw [htake, ← List.cons_append, List.take_left]
    exact if_pos hle

/-! ## Patterns that match no empty text -/

/-- Every match takes a symbol. -/
def Consuming (x : Pattern α) : Prop := ∀ s, ∀ rest ∈ ends x s, rest.length < s.length

theorem consuming_one : Consuming (one p) := by
  intro s rest h
  cases s with
  | nil => cases h
  | cons a s =>
    rw [ends_one_cons] at h
    split at h
    · obtain rfl := List.mem_singleton.mp h
      exact Nat.lt_succ_self _
    · cases h

/-- A sequence consumes something if its first part does. -/
theorem Consuming.seq_left (hx : Consuming x) : Consuming (seq x y) := by
  intro s rest h
  obtain ⟨mid, hmid, hrest⟩ := List.mem_flatMap.mp h
  exact Nat.lt_of_le_of_lt (suffix_of_mem_ends hrest).length_le (hx s mid hmid)

/-- A sequence consumes something if its second part does. -/
theorem Consuming.seq_right (hy : Consuming y) : Consuming (seq x y) := by
  intro s rest h
  obtain ⟨mid, hmid, hrest⟩ := List.mem_flatMap.mp h
  exact Nat.lt_of_lt_of_le (hy mid rest hrest) (suffix_of_mem_ends hmid).length_le

/-- An alternative consumes something if both branches do. -/
theorem Consuming.alt (hx : Consuming x) (hy : Consuming y) : Consuming (alt x y) := by
  intro s rest h
  obtain h | h := List.mem_append.mp h
  · exact hx s rest h
  · exact hy s rest h

theorem consuming_plus : Consuming (plus p) := consuming_one.seq_left

/-- A pattern that consumes something leaves a shorter rest. -/
theorem Consuming.length_lt (hx : Consuming x) (h : first x s = some rest) :
    rest.length < s.length :=
  hx s rest (List.mem_of_head? h)

/-- The first match of a text is the first of its matches. -/
theorem Consuming.exists_findAll (hx : Consuming x) (h : first x s = some rest) :
    ∃ piece, s = piece ++ rest ∧ piece ≠ [] ∧ findAll x s = piece :: findAll x rest := by
  obtain ⟨piece, rfl⟩ := suffix_of_first h
  have hpiece : piece ≠ [] := by
    rintro rfl
    exact Nat.lt_irrefl _ (hx.length_lt h)
  exact ⟨piece, rfl, hpiece, findAll_of_first hpiece h⟩

/-- Where a match begins everywhere, the matches cover the text. -/
theorem Consuming.flatten_findAll (hx : Consuming x)
    (htotal : ∀ s, s ≠ [] → ∃ rest, first x s = some rest) (s : List α) :
    (findAll x s).flatten = s := by
  induction hn : s.length using Nat.strongRecOn generalizing s with
  | ind n ih =>
    by_cases hs : s = []
    · rw [hs, findAll_nil, List.flatten_nil]
    · obtain ⟨rest, hfirst⟩ := htotal s hs
      obtain ⟨piece, hpiece, -, hall⟩ := hx.exists_findAll hfirst
      have hrest : (findAll x rest).flatten = rest :=
        ih rest.length (hn ▸ hx.length_lt hfirst) rest rfl
      rw [hall, List.flatten_cons, hrest, ← hpiece]

end Pattern

end Backtracking
