import HeteroAccel.HydroXL.SplitRules

/-!
# Does pre-tokenization follow the split rules?

Where the code of every rule agrees with its pattern, the next piece is the first match
(`nextPiece_iff`). `Misread` says where a slip of the code changes a piece, and `followsRules_iff`
that `preTokenize` returns the matches of a text if and only if none of them begins there.
-/

namespace HeteroAccel

open Backtracking Pattern

namespace SplitRules

variable {c c₁ c₂ : Char} {s rest : List Char}

/-! ## One piece -/

/-- The characters that are neither letter nor digit nor white space are the others. -/
theorem class_cases (c : Char) : letter c ∨ digit c ∨ other c ∨ white c := by
  unfold other
  cases letter c <;> cases digit c <;> cases white c <;> simp

/-- A match begins everywhere. -/
theorem exists_first_laterRules (hs : s ≠ []) : ∃ rest, first laterRules s = some rest := by
  obtain ⟨c, s, rfl⟩ := List.exists_cons_of_ne_nil hs
  rw [← Option.isSome_iff_exists, laterRules]
  simp only [first_alt, Option.isSome_or, Bool.or_eq_true]
  obtain h | h | h | h := class_cases c
  · left
    rw [first_letters, if_pos (.inl h)]
    rfl
  · right; left
    obtain ⟨rest, hfirst, -⟩ := scanDigits_utf8 (fun _ => cpIsDigit_val) s 2
    rw [digits, first_one_seq, if_pos h, hfirst]
    rfl
  · right; right; left
    rw [others, first_opt_seq, Option.isSome_or, first_others_run, List.head?_cons, Option.any_some,
      if_pos h, Option.isSome_some, Bool.or_true]
  · right; right; right; right; right
    rw [first_plus, if_pos h]
    rfl

theorem consuming_laterRules : Consuming laterRules :=
  consuming_plus.seq_right.alt (consuming_one.seq_left.alt (consuming_plus.seq_left.seq_right.alt
    (consuming_plus.seq_right.alt (consuming_plus.seq_left.alt consuming_plus))))

theorem consuming_rules : Consuming rules := consuming_one.seq_left.alt consuming_laterRules

/-- The later rules, with any rule before them, match every text that is not empty. -/
theorem exists_first_alt_laterRules {x : Pattern Char} (hs : s ≠ []) :
    ∃ rest, first (alt x laterRules) s = some rest := by
  obtain ⟨rest, hfirst⟩ := exists_first_laterRules hs
  rw [first_alt, hfirst]
  cases first x s with
  | none => exact ⟨rest, rfl⟩
  | some taken => exact ⟨taken, rfl⟩

/-- Where the code departs from the rules: in front of what is a contraction by its low bytes alone
and goes on with a letter, and of a space with U+0000 behind it. -/
def Misread (s : List Char) : Prop :=
  (first contractions s = none ∧
    (first (contractionsBy lowByteOf) s).any (fun rest => rest.head?.any letter)) ∨
  [' ', '\x00'] <+: s

instance : DecidablePred Misread := fun s =>
  inferInstanceAs (Decidable ((first contractions s = none ∧
    (first (contractionsBy lowByteOf) s).any (fun rest => rest.head?.any letter)) ∨
      [' ', '\x00'] <+: s))

/-- The rules with rule 1 as the code reads it. -/
def readRules : Pattern Char := alt (contractionsBy lowByteOf) laterRules

/-- The piece of the code, unless U+0000 is behind a space. -/
theorem nextPiece_utf8 (h : ¬[' ', '\x00'] <+: c :: s) (hfirst :
    first readRules (c :: s) = some rest) :
    nextPiece (utf8 (c :: s)) = bytesTo (c :: s) rest := by
  unfold nextPiece
  dsimp only
  rw [contraction_utf8, letterRun_utf8, digitGroup_utf8, punctuation_utf8 h, whitespace_utf8]
  simp only [← Option.map_or, ← first_alt]
  rw [← laterRules, ← readRules, hfirst]
  rfl

/-- Rests of a text are told apart by their bytes. -/
theorem bytesTo_inj {rest' : List Char} (h : rest <:+ s) (h' : rest' <:+ s)
    (heq : bytesTo s rest = bytesTo s rest') : rest = rest' := by
  have hle := length_utf8_le h
  have hle' := length_utf8_le h'
  have hlength : (utf8 rest).length = (utf8 rest').length := by
    unfold bytesTo at heq
    omega
  obtain ⟨t, rfl⟩ | ⟨t, rfl⟩ := List.suffix_or_suffix_of_suffix h h'
  all_goals
    rw [utf8_append, List.length_append] at hlength
    have ht : t = [] := by
      by_contra hne
      have hpos := length_utf8_pos hne
      omega
    rw [ht, List.nil_append]

/-- No rule before the fourth matches a space with U+0000 behind it. -/
theorem first_space_nul (read : Char → Char) (s : List Char) :
    first (contractionsBy read) (' ' :: '\x00' :: s) = none ∧
      first letters (' ' :: '\x00' :: s) = none ∧ first digits (' ' :: '\x00' :: s) = none := by
  refine ⟨by rw [contractionsBy, first_one_seq]; rfl, ?_, by rw [digits, first_one_seq]; rfl⟩
  have hspace : letter ' ' = false ∧ letter '\x00' = false := by decide
  rw [first_letters, List.head?_cons, Option.any_some, hspace.1, hspace.2, if_neg (by simp)]

/-- With U+0000 behind a space, the code leaves the space alone. -/
theorem nextPiece_space_nul :
    nextPiece (utf8 (' ' :: '\x00' :: s)) = bytesTo (' ' :: '\x00' :: s) ('\x00' :: s) := by
  obtain ⟨hcontractions, hletters, hdigits⟩ := first_space_nul lowByteOf s
  have hnewlines : first newlines (' ' :: '\x00' :: s) = none := by
    rw [first_newlines_cons, first_newlines_cons]
    rfl
  have htrailing : first trailing (' ' :: '\x00' :: s) = none := by
    rw [first_trailing, trailingRest, first_many_seq, first_notAhead]
    rfl
  unfold nextPiece
  dsimp only
  rw [contraction_utf8, letterRun_utf8, digitGroup_utf8, punctuation_nul, whitespace_utf8,
    first_alt, first_alt, hcontractions, hletters, hdigits, hnewlines, htrailing, first_plus]
  rfl

/-- The rules take U+0000 with the space in front of it. -/
theorem first_rules_space_nul :
    first rules (' ' :: '\x00' :: s) = some ((s.dropWhile other).dropWhile newline) := by
  obtain ⟨hcontractions, hletters, hdigits⟩ := first_space_nul Char.toLower s
  have hothers : first others (' ' :: '\x00' :: s) =
      some ((s.dropWhile other).dropWhile newline) := by
    rw [others, first_opt_seq, first_one_seq, first_others_run]
    rfl
  rw [rules, laterRules, first_alt, first_alt, first_alt, first_alt, contractions, hcontractions,
    hletters, hdigits, hothers]
  rfl

/-- A space and the character 0 are split otherwise than the rules say. -/
theorem nextPiece_space_nul_ne (hfirst : first rules (' ' :: '\x00' :: s) = some rest) :
    nextPiece (utf8 (' ' :: '\x00' :: s)) ≠ bytesTo (' ' :: '\x00' :: s) rest := by
  rw [nextPiece_space_nul]
  intro heq
  obtain rfl := bytesTo_inj (List.suffix_cons ..) (suffix_of_first hfirst) heq
  rw [first_rules_space_nul] at hfirst
  have hlength := congrArg List.length (Option.some.inj hfirst)
  have hnewline := (List.dropWhile_suffix (p := newline) (l := s.dropWhile other)).length_le
  have hother := (List.dropWhile_suffix (p := other) (l := s)).length_le
  rw [List.length_cons] at hlength
  omega

/-- A piece is no longer than the text. -/
theorem nextPiece_le (hs : s ≠ []) : nextPiece (utf8 s) ≤ (utf8 s).length := by
  obtain ⟨c, s, rfl⟩ := List.exists_cons_of_ne_nil hs
  by_cases hnul : [' ', '\x00'] <+: c :: s
  · obtain ⟨t, ht⟩ := hnul
    rw [← ht]
    exact nextPiece_space_nul.trans_le (Nat.sub_le ..)
  · obtain ⟨taken, hread⟩ := exists_first_alt_laterRules hs
    exact (nextPiece_utf8 hnul hread).trans_le (Nat.sub_le ..)

/-- A character that reads like a letter of ASCII is a letter. -/
theorem letter_of_lowByteOf {a : Char} (h : lowByteOf c = a) (ha : 'a' ≤ a ∧ a ≤ 'z') :
    letter c := by
  unfold letter
  simp only [Bool.or_eq_true, Bool.and_eq_true, decide_eq_true_eq]
  by_cases hascii : c.val < 0x80
  · left
    by_cases hc : Upper c
    · exact .inr hc
    · rw [lowByteOf_of_ascii hascii, toLower_of_not_upper hc] at h
      exact .inl (h ▸ ha)
  · exact .inr (UInt32.not_lt.mp hascii)

/-- The contractions of one letter are letters. -/
theorem letter_of_isShort (h : isShort (lowByteOf c)) : letter c := by
  obtain h | h | h | h := isShort_iff.mp h <;> exact letter_of_lowByteOf h (by decide)

/-- The contractions of two letters are letters. -/
theorem letter_of_isLong (h : isLong (lowByteOf c) (lowByteOf c₁)) : letter c ∧ letter c₁ := by
  obtain ⟨h, h₁⟩ | ⟨h, h₁⟩ | ⟨h, h₁⟩ := isLong_iff.mp h <;>
    exact ⟨letter_of_lowByteOf h (by decide), letter_of_lowByteOf h₁ (by decide)⟩

/-- What ends a contraction by its low bytes are letters. -/
theorem letters_of_endings (h : first (endings lowByteOf) s = some rest) :
    s.head?.any letter ∧ s.dropWhile letter = rest.dropWhile letter := by
  obtain _ | ⟨c, _ | ⟨c₁, s⟩⟩ := s
  · cases h
  · rw [first_endings_one] at h
    split_ifs at h with hshort
    obtain rfl := Option.some.inj h
    have hletter := letter_of_isShort hshort
    exact ⟨hletter, List.dropWhile_cons_of_pos hletter⟩
  · rw [first_endings] at h
    split_ifs at h with hshort hlong
    · obtain rfl := Option.some.inj h
      have hletter := letter_of_isShort hshort
      exact ⟨hletter, List.dropWhile_cons_of_pos hletter⟩
    · obtain rfl := Option.some.inj h
      obtain ⟨hletter, hletter₁⟩ := letter_of_isLong hlong
      refine ⟨hletter, ?_⟩
      rw [List.dropWhile_cons_of_pos hletter, List.dropWhile_cons_of_pos hletter₁]

/-- Behind what reads like a contraction, the letters of rule 2 go on. -/
theorem first_letters_of_lowByteOf (h : first (contractionsBy lowByteOf) s = some rest) :
    first letters s = some (rest.dropWhile letter) := by
  cases s with
  | nil => cases h
  | cons c s =>
    rw [contractionsBy, first_one_seq] at h
    split at h
    next hquote =>
      have hprefixable : prefixable c := by
        rw [of_decide_eq_true hquote]
        rfl
      obtain ⟨hhead, hdrop⟩ := letters_of_endings h
      rw [first_letters, if_pos (.inr ⟨hprefixable, hhead⟩), hdrop]
    · cases h

/-- A letter of ASCII reads as itself. -/
theorem lowByteOf_of_toLower {a : Char} (h : c.toLower = a) (ha : a.val < 0x80) :
    lowByteOf c = a := by
  rw [lowByteOf_of_ascii (ascii_of_toLower (h ▸ ha)), h]

/-- The source accepts every contraction of one letter that the rules have. -/
theorem isShort_of_toLower (h : isShort c.toLower) : isShort (lowByteOf c) := by
  obtain h | h | h | h := isShort_iff.mp h <;> rw [lowByteOf_of_toLower h (by decide)] <;> decide

/-- The source accepts every contraction of two letters that the rules have. -/
theorem isLong_of_toLower (h : isLong c.toLower c₁.toLower) :
    ¬isShort (lowByteOf c) ∧ isLong (lowByteOf c) (lowByteOf c₁) := by
  obtain ⟨h, h₁⟩ | ⟨h, h₁⟩ | ⟨h, h₁⟩ := isLong_iff.mp h <;>
    rw [lowByteOf_of_toLower h (by decide), lowByteOf_of_toLower h₁ (by decide)] <;> decide

/-- A contraction is one by its low bytes. -/
theorem first_lowByteOf_of_contraction (h : first contractions s = some rest) :
    first (contractionsBy lowByteOf) s = some rest := by
  rw [contractions] at h
  obtain _ | ⟨c, _ | ⟨c₁, _ | ⟨c₂, s⟩⟩⟩ := s
  · cases h
  · rw [contractionsBy, first_one_seq, first_endings_nil, ite_self] at h
    cases h
  · rw [contractionsBy, first_one_seq, first_endings_one] at h ⊢
    split_ifs at h with hquote hshort
    rw [if_pos hquote, if_pos (isShort_of_toLower hshort), h]
  · rw [contractionsBy, first_one_seq, first_endings] at h ⊢
    split_ifs at h with hquote hshort hlong
    · rw [if_pos hquote, if_pos (isShort_of_toLower hshort), h]
    · obtain ⟨hlow, hlong⟩ := isLong_of_toLower hlong
      rw [if_pos hquote, if_neg hlow, if_pos hlong, h]

theorem dropWhile_letter_eq_self_iff : s.dropWhile letter = s ↔ ¬s.head?.any letter := by
  cases s with
  | nil => simp
  | cons c s =>
    rw [List.head?_cons, Option.any_some, List.dropWhile_cons]
    split
    next hletter =>
      refine iff_of_false (fun heq => ?_) (not_not_intro hletter)
      have hle := (List.dropWhile_suffix (p := letter) (l := s)).length_le
      rw [heq, List.length_cons] at hle
      omega
    next hletter => exact iff_of_true rfl hletter

/-- The code reads rule 1 as it is, unless a letter follows what is none of the contractions. -/
theorem first_readRules_eq_iff {taken : List Char} (hfirst : first rules s = some rest)
    (hread : first readRules s = some taken) :
    taken = rest ↔ ¬(first contractions s = none ∧
      (first (contractionsBy lowByteOf) s).any fun rest => rest.head?.any letter) := by
  rw [rules, first_alt] at hfirst
  rw [readRules, first_alt] at hread
  cases hcontraction : first contractions s with
  | some rest' =>
    rw [hcontraction, Option.some_or] at hfirst
    rw [first_lowByteOf_of_contraction hcontraction, Option.some_or, hfirst] at hread
    exact iff_of_true (Option.some.inj hread).symm (by simp)
  | none =>
    rw [hcontraction, Option.none_or] at hfirst
    cases hlow : first (contractionsBy lowByteOf) s with
    | none =>
      rw [hlow, Option.none_or, hfirst] at hread
      exact iff_of_true (Option.some.inj hread).symm (by simp)
    | some rest' =>
      -- rule 2 takes the letters that the code leaves
      rw [hlow, Option.some_or] at hread
      rw [laterRules, first_alt, first_letters_of_lowByteOf hlow, Option.some_or] at hfirst
      obtain rfl := Option.some.inj hread
      obtain rfl := Option.some.inj hfirst
      rw [Option.any_some, eq_self, true_and, ← dropWhile_letter_eq_self_iff]
      exact eq_comm

/-- **One piece** of the code is that of the rules, unless the code misreads the text. -/
theorem nextPiece_iff (hfirst : first rules s = some rest) :
    nextPiece (utf8 s) = bytesTo s rest ↔ ¬Misread s := by
  have hlength := consuming_rules.length_lt hfirst
  have hs : s ≠ [] := List.ne_nil_of_length_pos (Nat.zero_lt_of_lt hlength)
  obtain ⟨c, s, rfl⟩ := List.exists_cons_of_ne_nil hs
  by_cases hnul : [' ', '\x00'] <+: c :: s
  · refine iff_of_false ?_ (not_not_intro (.inr hnul))
    obtain ⟨t, ht⟩ := hnul
    rw [← ht] at hfirst ⊢
    exact nextPiece_space_nul_ne hfirst
  · obtain ⟨taken, hread⟩ := exists_first_alt_laterRules hs
    rw [nextPiece_utf8 hnul hread, Misread, or_iff_left hnul, ← first_readRules_eq_iff hfirst hread]
    refine ⟨fun heq => ?_, fun heq => by rw [heq]⟩
    exact bytesTo_inj (suffix_of_first hread) (suffix_of_first hfirst) heq

/-! ## The text -/

/-- The matches of the rules cover a text. -/
theorem flatten_findAll_rules (s : List Char) : (findAll rules s).flatten = s :=
  consuming_rules.flatten_findAll (fun _ => exists_first_alt_laterRules) s

/-- The first match of the rules in a text, and the first piece of the code. -/
theorem exists_pieces (hs : s ≠ []) : ∃ piece rest, s = piece ++ rest ∧ piece ≠ [] ∧
    findAll rules s = piece :: findAll rules rest ∧
    (nextPiece (utf8 s) = (utf8 piece).length ↔ ¬Misread s) := by
  obtain ⟨rest, hfirst⟩ : ∃ rest, first rules s = some rest := exists_first_alt_laterRules hs
  obtain ⟨piece, hpiece, hne, hall⟩ := consuming_rules.exists_findAll hfirst
  refine ⟨piece, rest, hpiece, hne, hall, ?_⟩
  have hbytes : bytesTo s rest = (utf8 piece).length := by
    rw [bytesTo, hpiece, utf8_append, List.length_append]
    omega
  rw [← hbytes]
  exact nextPiece_iff hfirst

/-- Pre-tokenization does not follow the rules on a text that it misreads at once. -/
theorem preTokenize_ne_of_misread {text : List Char} (hmisread : Misread text) :
    preTokenize (utf8 text) ≠ (findAll rules text).map utf8 := by
  have htext : text ≠ [] := by
    rintro rfl
    revert hmisread
    decide
  obtain ⟨piece, rest, -, -, hall, hpiece⟩ := exists_pieces htext
  have hbytes : utf8 text ≠ [] := List.ne_nil_of_length_pos (length_utf8_pos htext)
  rw [preTokenize, pieces.chunks_of_ne_nil hbytes, hall, List.map_cons]
  intro heq
  have htake : ((utf8 text).take (nextPiece (utf8 text))).length = (utf8 piece).length :=
    congrArg List.length (List.cons_eq_cons.mp heq).1
  rw [List.length_take, Nat.min_eq_left (nextPiece_le htext)] at htake
  exact hpiece.mp htake hmisread

/-- **Pre-tokenization follows the split rules** on a text if and only if it misreads it nowhere
where a match of the rules begins. -/
theorem followsRules_iff (text : List Char) :
    preTokenize (utf8 text) = (findAll rules text).map utf8 ↔
      ∀ i, ¬Misread ((findAll rules text).drop i).flatten := by
  induction hn : text.length using Nat.strongRecOn generalizing text with
  | ind n ih =>
    have hcovers := flatten_findAll_rules text
    by_cases hmisread : Misread text
    · refine iff_of_false (preTokenize_ne_of_misread hmisread) fun h => h 0 ?_
      rwa [List.drop_zero, hcovers]
    by_cases htext : text = []
    · subst htext
      refine iff_of_true (by rw [findAll_nil]; exact pieces.chunks_nil) fun i => ?_
      rw [findAll_nil, List.drop_nil]
      exact hmisread
    · obtain ⟨piece, rest, rfl, hne, hall, hpiece⟩ := exists_pieces htext
      have hrest : rest.length < n := by
        have hpos := List.length_pos_of_ne_nil hne
        rw [← hn, List.length_append]
        omega
      have hbytes : utf8 (piece ++ rest) ≠ [] := List.ne_nil_of_length_pos (length_utf8_pos htext)
      -- the first piece is the first match, and the others are by induction
      have hlater := ih rest.length hrest rest rfl
      rw [preTokenize] at hlater
      have hfirst : preTokenize (utf8 (piece ++ rest)) =
          utf8 piece :: pieces.chunks (utf8 rest) := by
        have hsize : pieces.size (utf8 (piece ++ rest)) = (utf8 piece).length := hpiece.mpr hmisread
        rw [preTokenize, pieces.chunks_of_ne_nil hbytes, hsize, utf8_append, List.take_left,
          List.drop_left]
      rw [hfirst, hall, List.map_cons, List.cons_eq_cons, hlater]
      refine ⟨fun h i => ?_, fun h => ⟨rfl, fun i => h (i + 1)⟩⟩
      cases i with
      | zero => rwa [List.drop_zero, ← hall, hcovers]
      | succ i => exact h.2 i

/-- The low byte of U+0173 is that of `s`, so that it is split from the letter behind it. -/
theorem not_followsRules :
    ¬∀ text : List Char, preTokenize (utf8 text) = (findAll rules text).map utf8 := by
  intro h
  have hmisread : Misread ['\'', 'ų', 'a'] := by decide
  exact preTokenize_ne_of_misread hmisread (h _)

end SplitRules

end HeteroAccel
