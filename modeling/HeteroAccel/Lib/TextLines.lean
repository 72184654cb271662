import Mathlib.Data.List.Infix
import Mathlib.Data.List.TakeWhile

/-!
# Lines and quoted words

Texts as lists of characters of any type, with one character that ends a line and another one that
quotes a word.

* `lines`: the lines of a text, as `getline` reads them; `lines_append`: the first of them;
  `lines_flatMap`: lines that are written are read back;
* `quoted`: a word between two quotes; `quoted_infix_iff`, `quoted_prefix_iff`: where it occurs in a
  text that is given from quote to quote;
* `after`: what follows the first quote.
-/

namespace TextLines

variable {α : Type*}

/-- The lines that end with the character `sep`, or with the text. -/
def lines [DecidableEq α] (sep : α) : List α → List (List α)
  | [] => []
  | c :: text =>
    if c = sep then [] :: lines sep text
    else
      match lines sep text with
      | [] => [[c]]
      | line :: rest => (c :: line) :: rest

/-- The first line of a text. -/
theorem lines_append [DecidableEq α] {sep : α} {line : List α} (h : sep ∉ line) (rest : List α) :
    lines sep (line ++ sep :: rest) = line :: lines sep rest := by
  induction line with
  | nil => simp [lines]
  | cons c line ih =>
    obtain ⟨hc, hline⟩ := not_or.mp (mt List.mem_cons.mpr h)
    rw [List.cons_append, lines, if_neg (Ne.symm hc), ih hline]

/-- Lines that each end with the character are read back. -/
theorem lines_flatMap [DecidableEq α] {sep : α} {ls : List (List α)} (h : ∀ line ∈ ls, sep ∉ line)
    (rest : List α) : lines sep (ls.flatMap (· ++ [sep]) ++ rest) = ls ++ lines sep rest := by
  induction ls with
  | nil => rfl
  | cons line ls ih =>
    obtain ⟨hline, hls⟩ := List.forall_mem_cons.mp h
    have hfirst := lines_append hline (ls.flatMap (· ++ [sep]) ++ rest)
    rw [ih hls] at hfirst
    simpa using hfirst

/-! ## Words in a text -/

variable {q : α} {a p s u rest : List α}

/-- A prefix without the character `q` ends in front of it. -/
theorem prefix_of_notMem (hp : q ∉ p) (h : p <+: u ++ q :: rest) : p <+: u := by
  induction u generalizing p with
  | nil =>
    cases p with
    | nil => exact List.nil_prefix
    | cons c p =>
      obtain ⟨rfl, -⟩ := List.cons_prefix_cons.mp h
      exact absurd List.mem_cons_self hp
  | cons c u ih =>
    cases p with
    | nil => exact List.nil_prefix
    | cons d p =>
      obtain ⟨hd, htail⟩ := List.cons_prefix_cons.mp h
      have hp' : q ∉ p := fun hmem => hp (List.mem_cons_of_mem _ hmem)
      exact List.cons_prefix_cons.mpr ⟨hd, ih hp' htail⟩

/-- A word without the character `q` is on one side of it. -/
theorem infix_append_cons_iff (hp : q ∉ p) :
    p <:+: u ++ q :: rest ↔ p <:+: u ∨ p <:+: rest := by
  constructor
  · intro h
    induction u with
    | nil =>
      obtain hprefix | hinfix := List.infix_cons_iff.mp h
      · exact .inl (prefix_of_notMem (u := []) hp hprefix).isInfix
      · exact .inr hinfix
    | cons c u ih =>
      obtain hprefix | hinfix := List.infix_cons_iff.mp h
      · exact .inl (prefix_of_notMem (u := c :: u) hp hprefix).isInfix
      · exact (ih hinfix).imp_left fun h => List.infix_cons_iff.mpr (.inr h)
  · rintro (h | h)
    · exact h.trans (List.prefix_append _ _).isInfix
    · exact h.trans ((List.suffix_cons q rest).trans (List.suffix_append _ _)).isInfix

/-- A word between two quotes. -/
def quoted (q : α) (a : List α) : List α := q :: (a ++ [q])

/-- No quoted word is in a text without quotes. -/
theorem not_quoted_infix (hu : q ∉ u) : ¬quoted q a <:+: u :=
  fun h => hu (h.subset List.mem_cons_self)

/-- The first quote of a text begins a quoted word, or the word is behind it. -/
theorem quoted_infix_iff (hu : q ∉ u) :
    quoted q a <:+: u ++ q :: rest ↔ a ++ [q] <+: rest ∨ quoted q a <:+: rest := by
  induction u with
  | nil => rw [List.nil_append, quoted, List.infix_cons_iff, List.cons_prefix_cons,
      and_iff_right rfl]
  | cons c u ih =>
    obtain ⟨hc, hu⟩ := not_or.mp (mt List.mem_cons.mpr hu)
    rw [List.cons_append, List.infix_cons_iff, ih hu, quoted, List.cons_prefix_cons]
    exact or_iff_right fun h => hc h.1

/-- The word between two quotes. -/
theorem quoted_prefix_iff (ha : q ∉ a) (hs : q ∉ s) : a ++ [q] <+: s ++ q :: rest ↔ a = s := by
  induction a generalizing s with
  | nil =>
    cases s with
    | nil => simp
    | cons c s =>
      obtain ⟨hc, -⟩ := not_or.mp (mt List.mem_cons.mpr hs)
      simp [hc]
  | cons c a ih =>
    obtain ⟨hc, ha⟩ := not_or.mp (mt List.mem_cons.mpr ha)
    cases s with
    | nil => simp [Ne.symm hc]
    | cons d s =>
      obtain ⟨-, hs⟩ := not_or.mp (mt List.mem_cons.mpr hs)
      rw [List.cons_append, List.cons_append, List.cons_prefix_cons, ih ha hs, List.cons.injEq]

/-! ## From quote to quote -/

variable [DecidableEq α]

/-- What follows the first character `q`. -/
def after (q : α) (text : List α) : Option (List α) := (text.dropWhile (· ≠ q)).tail?

theorem after_append (hu : q ∉ u) (rest : List α) : after q (u ++ q :: rest) = some rest := by
  have hdrop : (u ++ q :: rest).dropWhile (· ≠ q) = q :: rest := by
    rw [List.dropWhile_append_of_pos fun c hc => by
      simpa using fun heq : c = q => hu (heq ▸ hc)]
    simp
  rw [after, hdrop]
  rfl

/-- What stands in front of the first mark. -/
theorem takeWhile_append (hu : q ∉ u) (rest : List α) :
    (u ++ q :: rest).takeWhile (· ≠ q) = u := by
  rw [List.takeWhile_append_of_pos fun c hc => by
    simpa using fun heq : c = q => hu (heq ▸ hc)]
  simp

end TextLines
