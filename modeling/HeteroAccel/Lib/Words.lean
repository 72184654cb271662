import Mathlib.Data.List.Basic

/-!
# Words between spaces

The words of a text, as the extraction of strings from a stream reads them, where the spaces are the
characters of which a predicate holds.

* `words`: the words; `words_flatMap`: words that each end with a space are read back.
-/

namespace Words

variable {α : Type*} {isSpace : α → Bool}

/-- The maximal runs of characters that are not spaces. -/
def words (isSpace : α → Bool) (text : List α) : List (List α) :=
  (text.splitOnP isSpace).filter (!·.isEmpty)

/-- A word: it is not empty, and has no space. -/
structure IsWord (isSpace : α → Bool) (w : List α) : Prop where
  ne_nil : w ≠ []
  plain : ∀ c ∈ w, isSpace c = false

theorem words_of_isWord {w : List α} (h : IsWord isSpace w) : words isSpace w = [w] := by
  simp [words, List.splitOnP_eq_singleton h.plain, h.ne_nil]

/-- A word in front of a space comes first. -/
theorem words_append {w : List α} (h : IsWord isSpace w) {space : α} (hspace : isSpace space = true)
    (rest : List α) : words isSpace (w ++ space :: rest) = w :: words isSpace rest := by
  unfold words
  rw [List.splitOnP_append_cons_of_forall_mem h.plain space hspace, List.filter_cons_of_pos]
  simpa using h.ne_nil

/-- Words that each end with a space are read back. -/
theorem words_flatMap {space : α} (hspace : isSpace space = true) {ws : List (List α)}
    (h : ∀ w ∈ ws, IsWord isSpace w) (rest : List α) :
    words isSpace (ws.flatMap (· ++ [space]) ++ rest) = ws ++ words isSpace rest := by
  induction ws with
  | nil => rfl
  | cons w ws ih =>
    obtain ⟨hw, hws⟩ := List.forall_mem_cons.mp h
    have hfirst := words_append hw hspace (ws.flatMap (· ++ [space]) ++ rest)
    rw [ih hws] at hfirst
    simpa using hfirst

end Words
