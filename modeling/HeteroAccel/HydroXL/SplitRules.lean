import HeteroAccel.HydroXL.Utf8Text

/-!
# The split rules, and the code of each

The seven Qwen2 rules as patterns (`rules`), of which a backtracking engine takes the successive
leftmost-first matches. `preTokenize` has a piece of code for each rule instead, which looks at two
code points ahead and scans. Each of them is compared with its pattern: `contraction_utf8`,
`letterRun_utf8`, `digitGroup_utf8`, `punctuation_utf8`, `whitespace_utf8`.

Two of them differ from the pattern. Rule 1 narrows a code point to its low byte, so that U+0173 is
read as the `s` of a contraction (`contractionsBy lowByteOf`); and 0 stands for a code point that is
not there, so that rule 4 does not see U+0000 behind a space (`punctuation_nul`).
-/

namespace HeteroAccel

open Backtracking Pattern

/-! ## The rules -/

namespace SplitRules

/-- The characters that count as white space, line breaks included. -/
def white (c : Char) : Bool :=
  c = ' ' || c = '\t' || c = '\n' || c = '\x0B' || c = '\x0C' || c = '\r'

/-- The line breaks. -/
def newline (c : Char) : Bool := c = '\r' || c = '\n'

/-- The ASCII digits. -/
def digit (c : Char) : Bool := '0' ≤ c && c ≤ '9'

/-- The letters of ASCII, and every character from U+0080 on. -/
def letter (c : Char) : Bool := ('a' ≤ c && c ≤ 'z') || ('A' ≤ c && c ≤ 'Z') || '\x80' ≤ c

/-- No white space, no digit and no letter. -/
def other (c : Char) : Bool := !white c && !digit c && !letter c

/-- What may stand in front of letters. -/
def prefixable (c : Char) : Bool := !newline c && !digit c && !letter c

/-- What follows the quotation mark of a contraction, with a reading of its letters. -/
def endings (read : Char → Char) : Pattern Char :=
  let is (l : Char) : Pattern Char := one fun c => read c = l
  alt (is 's') (alt (is 't') (alt (seq (is 'r') (is 'e')) (alt (seq (is 'v') (is 'e'))
    (alt (is 'm') (alt (seq (is 'l') (is 'l')) (is 'd'))))))

/-- `'s`, `'t`, `'re`, `'ve`, `'m`, `'ll`, `'d`, with a reading of their letters. -/
def contractionsBy (read : Char → Char) : Pattern Char :=
  seq (one fun c => c = '\'') (endings read)

/-- The contractions in either case. -/
def contractions : Pattern Char := contractionsBy Char.toLower

/-- Letters, behind one character that is no letter, no digit and no newline if there is one. -/
def letters : Pattern Char := seq (opt (one prefixable)) (plus letter)

/-- One to three digits. -/
def digits : Pattern Char := seq (one digit) (upTo digit 2)

/-- Other characters, behind a space if there is one, and the newlines behind them. -/
def others : Pattern Char :=
  seq (opt (one fun c => c = ' ')) (seq (plus other) (many newline))

/-- White space up to a newline. -/
def newlines : Pattern Char := seq (many white) (plus newline)

/-- White space, in front of nothing but white space. -/
def trailing : Pattern Char := seq (plus white) (notAhead fun c => !white c)

/-- Rule 6 behind its first character. -/
def trailingRest : Pattern Char := seq (many white) (notAhead fun c => !white c)

/-- The rules 2 to 7. -/
def laterRules : Pattern Char :=
  alt letters (alt digits (alt others (alt newlines (alt trailing (plus white)))))

/-- The split rules. -/
def rules : Pattern Char := alt contractions laterRules

/-! ## The classes of the code -/

section Classes

variable {c : Char}

/-- On the code point of a character, the source's test for white space is the rules' own. -/
theorem cpIsSpace_val : cpIsSpace c.val = white c := by
  simp only [cpIsSpace, white, Char.ext_iff]
  rfl

/-- The source's test for line breaks is the rules' own. -/
theorem cpIsNewline_val : cpIsNewline c.val = newline c := by
  simp only [cpIsNewline, newline, Char.ext_iff]
  rfl

/-- The source's test for digits is the rules' own. -/
theorem cpIsDigit_val : cpIsDigit c.val = digit c := rfl

/-- The source's test for letters is the rules' own. -/
theorem cpIsLetter_val : cpIsLetter c.val = letter c := rfl

/-- The source's test for the other characters is the rules' own. -/
theorem cpIsOther_val : cpIsOther c.val = other c := by
  rw [cpIsOther, cpIsSpace_val, cpIsDigit_val, cpIsLetter_val, other]

/-- The source's test for what may stand before a word is the rules' own. -/
theorem cpIsPrefixable_val : cpIsPrefixable c.val = prefixable c := by
  rw [cpIsPrefixable, cpIsNewline_val, cpIsDigit_val, cpIsLetter_val, prefixable]

theorem white_of_newline (h : newline c) : white c := by
  unfold newline at h
  unfold white
  grind

/-- A white-space character takes one byte. -/
theorem utf8Size_of_white (h : white c) : c.utf8Size = 1 := by
  rw [← cpIsSpace_val] at h
  rw [Char.utf8Size_eq_one_iff]
  unfold cpIsSpace at h
  grind

/-- The newlines are among the white space, which rule 4 leaves out already. -/
theorem cpIsOther_and_not_newline : (cpIsOther c.val && !cpIsNewline c.val) = other c := by
  rw [cpIsOther_val, cpIsNewline_val]
  cases hnewline : newline c with
  | false => simp
  | true => simp [other, white_of_newline hnewline]

/-- The low byte of a character in lower case: what rule 1 of the code compares. -/
def lowByteOf (c : Char) : Char := Char.ofUInt8 (asciiLower c.val.toUInt8)

theorem val_lowByteOf : (lowByteOf c).val = (asciiLower c.val.toUInt8).toUInt32 := rfl

/-- The source compares the low byte of a code point in lower case. -/
theorem lowByteOf_eq_iff {l : UInt8} :
    lowByteOf c = Char.ofUInt8 l ↔ asciiLower c.val.toUInt8 = l :=
  Char.ext_iff.trans UInt8.toUInt32_inj

/-- The capital letters of ASCII. -/
def Upper (c : Char) : Prop := c.val ≥ 'A'.val ∧ c.val ≤ 'Z'.val

theorem val_toLower_of_upper (h : Upper c) : c.toLower.val = c.val + ('a'.val - 'A'.val) :=
  congrArg Char.val (dif_pos h)

/-- Characters that are not upper case stay as they are. -/
theorem toLower_of_not_upper (h : ¬Upper c) : c.toLower = c := dif_neg h

/-- A character of ASCII is its low byte. -/
theorem lowByteOf_of_ascii (h : c.val < 0x80) : lowByteOf c = c.toLower := by
  have hv : c.val.toNat < 128 := UInt32.lt_iff_toNat_lt.mp h
  have hlow : c.val.toUInt8.toNat = c.val.toNat := by
    rw [UInt32.toNat_toUInt8]
    omega
  have hupper : (0x41 ≤ c.val.toUInt8 ∧ c.val.toUInt8 ≤ 0x5A) ↔ Upper c := by
    rw [UInt8.le_iff_toNat_le, UInt8.le_iff_toNat_le, hlow, Upper, ge_iff_le,
      UInt32.le_iff_toNat_le, UInt32.le_iff_toNat_le]
    rfl
  apply Char.ext
  apply UInt32.toNat_inj.mp
  rw [val_lowByteOf, asciiLower, UInt8.toNat_toUInt32]
  by_cases hc : Upper c
  · rw [if_pos (hupper.mpr hc), val_toLower_of_upper hc]
    have hlo : 65 ≤ c.val.toNat := UInt32.le_iff_toNat_le.mp hc.1
    have hhi : c.val.toNat ≤ 90 := UInt32.le_iff_toNat_le.mp hc.2
    have hA : (0x41 : UInt8).toNat = 65 := rfl
    have ha : (0x61 : UInt8).toNat = 97 := rfl
    have hshift : ('a'.val - 'A'.val).toNat = 32 := rfl
    rw [UInt8.toNat_add, UInt8.toNat_sub, hlow, UInt32.toNat_add, hA, ha, hshift]
    omega
  · rw [if_neg (mt hupper.mp hc), toLower_of_not_upper hc, hlow]

/-- A character whose lower case is of ASCII is of ASCII. -/
theorem ascii_of_toLower (h : c.toLower.val < 0x80) : c.val < 0x80 := by
  by_cases hc : Upper c
  · exact UInt32.lt_of_le_of_lt hc.2 (by decide)
  · rwa [toLower_of_not_upper hc] at h

end Classes

/-! ## The rules one by one -/

variable {c c₁ c₂ : Char} {s rest : List Char}

/-- The bytes of a text in front of its end `rest`. -/
def bytesTo (s rest : List Char) : ℕ := (utf8 s).length - (utf8 rest).length

/-- The look-ahead sees the first character of a text. -/
@[simp]
theorem lookAhead_c0 : (lookAhead (utf8 (c :: s))).c0 = c.val := by
  rw [lookAhead, decodeUtf8_cons]

/-- The look-ahead knows how many bytes the first character has. -/
@[simp]
theorem lookAhead_l0 : (lookAhead (utf8 (c :: s))).l0 = c.utf8Size := by
  rw [lookAhead, decodeUtf8_cons]

/-- Behind the last character the look-ahead sees 0. -/
@[simp]
theorem lookAhead_c1_nil : (lookAhead (utf8 [c])).c1 = 0 := by
  rw [lookAhead, decodeUtf8_cons]
  dsimp only
  rw [drop_utf8_cons]
  rfl

/-- The look-ahead sees the second character. -/
@[simp]
theorem lookAhead_c1 : (lookAhead (utf8 (c :: c₁ :: s))).c1 = c₁.val := by
  rw [lookAhead, decodeUtf8_cons]
  dsimp only
  rw [drop_utf8_cons, if_neg utf8_ne_nil, decodeUtf8_cons]

@[simp]
theorem lookAhead_l1 : (lookAhead (utf8 (c :: c₁ :: s))).l1 = c₁.utf8Size := by
  rw [lookAhead, decodeUtf8_cons]
  dsimp only
  rw [drop_utf8_cons, if_neg utf8_ne_nil, decodeUtf8_cons]

/-- Behind two characters the look-ahead sees 0, unless the second one is 0 itself. -/
theorem lookAhead_c2_nil (h : c₁.val ≠ 0) : (lookAhead (utf8 [c, c₁])).c2 = 0 := by
  rw [lookAhead, decodeUtf8_cons]
  dsimp only
  rw [drop_utf8_cons, if_neg utf8_ne_nil, decodeUtf8_cons]
  dsimp only
  rw [if_pos h, drop_utf8_cons]
  rfl

/-- The look-ahead sees the third character, unless the second one is 0. -/
theorem lookAhead_c2 (h : c₁.val ≠ 0) :
    (lookAhead (utf8 (c :: c₁ :: c₂ :: s))).c2 = c₂.val ∧
      (lookAhead (utf8 (c :: c₁ :: c₂ :: s))).l2 = c₂.utf8Size := by
  rw [lookAhead, decodeUtf8_cons]
  dsimp only
  rw [drop_utf8_cons, if_neg utf8_ne_nil, decodeUtf8_cons]
  dsimp only
  rw [if_pos h, drop_utf8_cons, if_neg utf8_ne_nil, decodeUtf8_cons]
  exact ⟨rfl, rfl⟩

/-- The bytes up to a rest are counted character by character. -/
theorem bytesTo_cons (h : rest <:+ s) : bytesTo (c :: s) rest = c.utf8Size + bytesTo s rest := by
  have hle := length_utf8_le h
  rw [bytesTo, bytesTo, length_utf8_cons]
  omega

theorem bytesTo_self : bytesTo s s = 0 := Nat.sub_self _

theorem bytesTo_one : bytesTo (c :: s) s = c.utf8Size := by
  rw [bytesTo_cons (List.suffix_refl s), bytesTo_self, Nat.add_zero]

theorem bytesTo_two : bytesTo (c :: c₁ :: s) s = c.utf8Size + c₁.utf8Size := by
  rw [bytesTo_cons (List.suffix_cons c₁ s), bytesTo_one]

theorem bytesTo_three :
    bytesTo (c :: c₁ :: c₂ :: s) s = c.utf8Size + c₁.utf8Size + c₂.utf8Size := by
  rw [bytesTo_cons ((List.suffix_cons c₂ s).trans (List.suffix_cons c₁ _)), bytesTo_two,
    Nat.add_assoc]

/-! ### Contractions -/

section Contractions

variable {read : Char → Char}

/-- The endings of one letter. -/
def isShort (a : Char) : Bool := a = 's' || a = 't' || a = 'm' || a = 'd'

/-- The endings of two letters. -/
def isLong (a b : Char) : Bool :=
  (a = 'r' && b = 'e') || (a = 'v' && b = 'e') || (a = 'l' && b = 'l')

theorem isShort_iff {a : Char} : isShort a ↔ a = 's' ∨ a = 't' ∨ a = 'm' ∨ a = 'd' := by
  simp [isShort, or_assoc]

theorem isLong_iff {a b : Char} : isLong a b ↔
    (a = 'r' ∧ b = 'e') ∨ (a = 'v' ∧ b = 'e') ∨ (a = 'l' ∧ b = 'l') := by
  simp [isLong, or_assoc]

theorem first_endings_nil : first (endings read) [] = none := rfl

theorem first_endings_one : first (endings read) [c] =
    if isShort (read c) then some [] else none := by
  simp only [endings, first_alt, first_one_cons, first_one_seq, first_one_nil, ite_self,
    Option.none_or, decide_eq_true_eq]
  -- a character has one reading
  generalize read c = a
  by_cases hshort : isShort a
  · rw [if_pos hshort]
    obtain rfl | rfl | rfl | rfl := isShort_iff.mp hshort <;> simp
  · rw [if_neg hshort]
    simp only [isShort_iff, not_or] at hshort
    simp [hshort]

/-- The ending of a contraction: one letter is tried before two. -/
theorem first_endings : first (endings read) (c :: c₁ :: s) =
    if isShort (read c) then some (c₁ :: s)
    else if isLong (read c) (read c₁) then some s
    else none := by
  simp only [endings, first_alt, first_one_cons, first_one_seq, decide_eq_true_eq]
  generalize read c = a, read c₁ = b
  by_cases hshort : isShort a
  · rw [if_pos hshort]
    obtain rfl | rfl | rfl | rfl := isShort_iff.mp hshort <;> simp
  · rw [if_neg hshort]
    simp only [isShort_iff, not_or] at hshort
    obtain ⟨hs, ht, hm, hd⟩ := hshort
    simp only [hs, ht, hm, hd, if_false, Option.none_or, Option.or_none]
    by_cases hlong : isLong a b
    · rw [if_pos hlong]
      obtain ⟨rfl, rfl⟩ | ⟨rfl, rfl⟩ | ⟨rfl, rfl⟩ := isLong_iff.mp hlong <;> simp
    · rw [if_neg hlong]
      simp only [isLong_iff, not_or] at hlong
      obtain ⟨hr, hv, hl⟩ := hlong
      simp only [← ite_and, hr, hv, hl, if_false, Option.none_or]

/-- The source's test for the contractions of one letter, on the low byte. -/
theorem isShort_lowByteOf : isShort (lowByteOf c) ↔
    (let a := asciiLower c.val.toUInt8; a = 0x73 ∨ a = 0x74 ∨ a = 0x6D ∨ a = 0x64) := by
  simp only [isShort_iff, ← lowByteOf_eq_iff]
  rfl

/-- The source's test for the contractions of two letters, on the low bytes. -/
theorem isLong_lowByteOf : isLong (lowByteOf c) (lowByteOf c₁) ↔
    (let a := asciiLower c.val.toUInt8; let b2 := asciiLower c₁.val.toUInt8
      (a = 0x72 ∧ b2 = 0x65) ∨ (a = 0x76 ∧ b2 = 0x65) ∨ (a = 0x6C ∧ b2 = 0x6C)) := by
  simp only [isLong_iff, ← lowByteOf_eq_iff]
  rfl

end Contractions

/-- Rule 1 reads the low byte of every character. -/
theorem contraction_utf8 : contraction (lookAhead (utf8 (c :: s))) =
    (first (contractionsBy lowByteOf) (c :: s)).map (bytesTo (c :: s)) := by
  rw [contraction, lookAhead_c0, lookAhead_l0, contractionsBy, first_one_seq]
  by_cases hquote : c = '\''
  · rw [if_pos (decide_eq_true hquote)]
    cases s with
    | nil => simp [first_endings_nil]
    | cons c₁ s =>
      rw [lookAhead_c1, lookAhead_l1]
      by_cases hnul : c₁.val = 0
      · -- U+0000 begins no ending
        obtain rfl : c₁ = '\x00' := Char.ext hnul
        rw [if_neg (fun h => h.2 rfl)]
        cases s with
        | nil => rw [first_endings_one]; rfl
        | cons c₂ s => rw [first_endings]; rfl
      · rw [if_pos ⟨Char.ext_iff.mp hquote, hnul⟩]
        dsimp only
        cases s with
        | nil =>
          rw [first_endings_one, lookAhead_c2_nil hnul]
          simp only [isShort_lowByteOf]
          split
          · rw [Option.map_some, bytesTo_two]
          · rfl
        | cons c₂ s =>
          rw [first_endings, (lookAhead_c2 hnul).1, (lookAhead_c2 hnul).2]
          simp only [isShort_lowByteOf, isLong_lowByteOf]
          split
          · rw [Option.map_some, bytesTo_two]
          · split
            · split
              · rw [Option.map_some, bytesTo_three]
              · rfl
            next hnul₂ =>
              -- U+0000 ends no contraction
              have hlow : asciiLower c₂.val.toUInt8 = 0 := by
                rw [not_not.mp hnul₂]
                rfl
              rw [hlow, if_neg (by simp), Option.map_none]
  · have hval : c.val ≠ 0x27 := fun h => hquote (Char.ext h)
    rw [if_neg (fun h => hval h.1), if_neg (by simpa using hquote), Option.map_none]

/-! ### Letters and digits -/

/-- What may stand before a word is no letter. -/
theorem not_letter_of_prefixable (h : prefixable c) : letter c = false := by
  unfold prefixable at h
  exact Bool.not_eq_eq_eq_not.mp (Bool.and_eq_true_iff.mp h).2

/-- A word: letters, or letters behind one other character. -/
theorem first_letters : first letters (c :: s) =
    if letter c ∨ (prefixable c ∧ s.head?.any letter) then some (s.dropWhile letter) else none := by
  rw [letters, first_opt_seq, first_one_seq, first_plus]
  cases hprefix : prefixable c with
  | true =>
    rw [not_letter_of_prefixable hprefix]
    cases s with
    | nil => simp [first_plus_nil]
    | cons c₁ s =>
      rw [first_plus]
      cases hletter : letter c₁ <;> simp [hletter]
  | false => simp

/-- U+0000 is no letter, so that rule 2 sees what is not there. -/
theorem lookAhead_letter : ((lookAhead (utf8 (c :: s))).c1 ≠ 0 ∧
    cpIsLetter (lookAhead (utf8 (c :: s))).c1) ↔ s.head?.any letter := by
  cases s with
  | nil => simp
  | cons c₁ s =>
    rw [lookAhead_c1, List.head?_cons, Option.any_some, cpIsLetter_val]
    refine ⟨fun h => h.2, fun h => ⟨?_, h⟩⟩
    intro hzero
    rw [← cpIsLetter_val, hzero] at h
    cases h

/-- Rule 2. -/
theorem letterRun_utf8 : letterRun (utf8 (c :: s)) (lookAhead (utf8 (c :: s))) =
    (first letters (c :: s)).map (bytesTo (c :: s)) := by
  have hlength : c.utf8Size + scan cpIsLetter (utf8 s) = bytesTo (c :: s) (s.dropWhile letter) := by
    have hscan := scan_utf8 (fun _ => cpIsLetter_val) s
    rw [bytesTo, length_utf8_cons]
    omega
  rw [letterRun, first_letters, lookAhead_l0, drop_utf8_cons, hlength, lookAhead_c0]
  simp only [lookAhead_letter, cpIsLetter_val, cpIsPrefixable_val]
  split <;> rfl

/-- Rule 3. -/
theorem digitGroup_utf8 : digitGroup (utf8 (c :: s)) (lookAhead (utf8 (c :: s))) =
    (first digits (c :: s)).map (bytesTo (c :: s)) := by
  obtain ⟨rest, hfirst, hscan⟩ := scanDigits_utf8 (fun _ => cpIsDigit_val) s 2
  rw [digitGroup, digits, first_one_seq, hfirst, lookAhead_l0, drop_utf8_cons, lookAhead_c0,
    cpIsDigit_val]
  split
  · rw [Option.map_some, bytesTo, length_utf8_cons]
    exact congrArg some (by omega)
  · rfl

/-! ### Other characters -/

/-- A run of other characters takes the line breaks behind it along. -/
theorem first_others_run : first (seq (plus other) (many newline)) s =
    if s.head?.any other then some ((s.dropWhile other).dropWhile newline) else none := by
  cases s with
  | nil => rfl
  | cons c s =>
    rw [List.head?_cons, Option.any_some, List.dropWhile_cons]
    cases hother : other c with
    | true =>
      rw [if_pos rfl, if_pos rfl]
      exact first_seq_of_first (by rw [first_plus, if_pos hother]) first_many
    | false =>
      rw [if_neg Bool.false_ne_true]
      exact first_seq_of_none (by rw [first_plus, if_neg (by simp [hother])])

/-- The scans of rule 4 from a position on. -/
theorem scan_others (s : List Char) :
    let k := scan (fun c => cpIsOther c && !cpIsNewline c) (utf8 s)
    (if 0 < k then some (k + scan cpIsNewline ((utf8 s).drop k)) else none) =
      (first (seq (plus other) (many newline)) s).map (bytesTo s) := by
  have hclass : ∀ c : Char, (cpIsOther c.val && !cpIsNewline c.val) = other c :=
    fun _ => cpIsOther_and_not_newline
  have hscan := scan_utf8 (p := fun c => cpIsOther c && !cpIsNewline c) hclass s
  have hnewlines := scan_utf8 (fun _ => cpIsNewline_val) (s.dropWhile other)
  dsimp only
  rw [drop_scan_utf8 (p := fun c => cpIsOther c && !cpIsNewline c) hclass, first_others_run]
  cases s with
  | nil => simp [scan]
  | cons c s =>
    rw [List.head?_cons, Option.any_some]
    cases hother : other c with
    | true =>
      rw [List.dropWhile_cons, if_pos hother] at hscan hnewlines
      rw [List.dropWhile_cons, if_pos hother, if_pos rfl, Option.map_some, bytesTo]
      have hsuffix := length_utf8_le (List.dropWhile_suffix (p := other) (l := s))
      have hpos := Char.utf8Size_pos c
      rw [length_utf8_cons] at hscan ⊢
      rw [if_pos (by omega)]
      exact congrArg some (by omega)
    | false =>
      rw [List.dropWhile_cons, if_neg (by simp [hother])] at hscan
      rw [if_neg Bool.false_ne_true, Option.map_none, if_neg (by omega)]

/-- What rule 4 takes from the position `j` on. -/
theorem punctuation_from {text : Bytes} {j : ℕ} (hdrop : text.drop j = utf8 s) :
    let k := j + scan (fun c => cpIsOther c && !cpIsNewline c) (text.drop j)
    (if j < k then some (k + scan cpIsNewline (text.drop k)) else none) =
      ((first (seq (plus other) (many newline)) s).map (bytesTo s)).map (j + ·) := by
  dsimp only
  rw [← scan_others, ← List.drop_drop, hdrop]
  generalize scan (fun c => cpIsOther c && !cpIsNewline c) (utf8 s) = k
  by_cases hk : 0 < k
  · rw [if_pos hk, if_pos (by omega), Option.map_some, Nat.add_assoc]
  · rw [if_neg hk, if_neg (by omega), Option.map_none]

/-- A space is not taken as one of the other characters. -/
theorem first_others_run_space : first (seq (plus other) (many newline)) (' ' :: s) = none := by
  have hother : other ' ' = false := rfl
  rw [first_others_run, List.head?_cons, Option.any_some, hother, if_neg Bool.false_ne_true]

/-- The look-ahead of rule 4 behind a space. -/
theorem lookAhead_other (h : ∀ c₁ ∈ s.head?, c₁ ≠ '\x00') :
    ((lookAhead (utf8 (c :: s))).c1 ≠ 0 ∧ cpIsOther (lookAhead (utf8 (c :: s))).c1 ∧
      ¬cpIsNewline (lookAhead (utf8 (c :: s))).c1) ↔ s.head?.any other := by
  cases s with
  | nil => simp
  | cons c₁ s =>
    have hne : c₁.val ≠ 0 := fun hzero => h c₁ rfl (Char.ext hzero)
    rw [lookAhead_c1, List.head?_cons, Option.any_some, ← cpIsOther_and_not_newline]
    simp [hne]

/-- Rule 4, unless U+0000 is behind a space. -/
theorem punctuation_utf8 (h : ¬[' ', '\x00'] <+: c :: s) :
    punctuation (utf8 (c :: s)) (lookAhead (utf8 (c :: s))) =
      (first others (c :: s)).map (bytesTo (c :: s)) := by
  rw [others, first_opt_seq, first_one_seq, punctuation, lookAhead_c0, lookAhead_l0]
  by_cases hspace : c = ' '
  · subst hspace
    have hnul : ∀ c₁ ∈ s.head?, c₁ ≠ '\x00' := by
      rintro c₁ hc₁ rfl
      obtain ⟨t, rfl⟩ := List.head?_eq_some_iff.mp hc₁
      exact h ⟨t, rfl⟩
    rw [first_others_run_space, Option.or_none, if_pos (decide_eq_true rfl)]
    simp only [lookAhead_other hnul, Char.reduceVal, true_and]
    split
    · rw [punctuation_from drop_utf8_cons, Option.map_map]
      refine Option.map_congr fun rest hrest => ?_
      exact (bytesTo_cons (suffix_of_first hrest)).symm
    next hother =>
      rw [punctuation_from (List.drop_zero ..), first_others_run_space, first_others_run,
        if_neg hother]
      rfl
  · have hval : c.val ≠ 0x20 := fun h => hspace (Char.ext h)
    simp only [hval, hspace, false_and, if_false, decide_false, Bool.false_eq_true, Option.none_or]
    rw [punctuation_from (List.drop_zero ..), Option.map_map]
    exact Option.map_congr fun rest _ => Nat.zero_add _

/-- Rule 4 with U+0000 behind a space. -/
theorem punctuation_nul :
    punctuation (utf8 (' ' :: '\x00' :: s)) (lookAhead (utf8 (' ' :: '\x00' :: s))) = none := by
  rw [punctuation, lookAhead_c0, lookAhead_c1]
  simp only [Char.reduceVal, ne_eq, not_true_eq_false, false_and, and_false, if_false]
  rw [punctuation_from (List.drop_zero ..), first_others_run_space]
  rfl

/-! ### White space -/

/-- Where rule 5 matches, one character of the white space after the other. -/
theorem first_newlines_cons : first newlines (c :: s) =
    if white c then (first newlines s).or (if newline c then some s else none) else none := by
  rw [newlines, first_many_seq, first_plus]
  cases hnewline : newline c with
  | false => simp
  | true =>
    have hwhite := white_of_newline hnewline
    rw [if_pos hwhite, if_pos hwhite, if_pos rfl, if_pos rfl]
    cases hfirst : first (seq (many white) (plus newline)) s with
    | some rest => rfl
    | none =>
      rw [Option.none_or, Option.none_or]
      cases s with
      | nil => rfl
      | cons c₁ s =>
        have hother : ¬newline c₁ := by
          -- rule 5 would match from there on
          intro hc₁
          rw [first_many_seq, first_plus, if_pos (white_of_newline hc₁), if_pos hc₁,
            Option.or_eq_none_iff] at hfirst
          cases hfirst.2
        rw [List.dropWhile_cons_of_neg hother]

/-- The loop of rule 5 ends behind the white space, and at the last newline it has the match of
rule 5. -/
theorem scanSpaces_utf8 (s : List Char) (j : ℕ) (lastNl : Option ℕ) :
    scanSpaces (utf8 s) j lastNl = (j + bytesTo s (s.dropWhile white),
      ((first newlines s).map fun rest => j + bytesTo s rest).or lastNl) := by
  induction s generalizing j lastNl with
  | nil => simp [scanSpaces, bytesTo, newlines, first_plus_nil]
  | cons c s ih =>
    rw [scanSpaces, if_neg utf8_ne_nil, decodeUtf8_cons, first_newlines_cons, List.dropWhile_cons]
    dsimp only
    rw [cpIsSpace_val, cpIsNewline_val]
    cases hwhite : white c with
    | false => simp [bytesTo_self]
    | true =>
      have hend : (first newlines s).map (fun rest => j + c.utf8Size + bytesTo s rest) =
          (first newlines s).map fun rest => j + bytesTo (c :: s) rest :=
        Option.map_congr fun rest hrest => by
          rw [bytesTo_cons (suffix_of_first hrest), Nat.add_assoc]
      rw [if_pos rfl, if_pos rfl, if_pos rfl, drop_utf8_cons, ih, hend,
        bytesTo_cons (List.dropWhile_suffix _), Nat.add_assoc, Option.map_or, Option.or_assoc]
      congr 2
      split
      · rw [Option.map_some, Option.some_or, bytesTo_cons (List.suffix_refl s), bytesTo_self,
          Nat.add_zero]
      · rfl

/-- What rule 6 leaves behind the first character of white space: nothing at the end of the text,
else the last character of the white space. -/
theorem first_trailing_rest (s : List Char) :
    (s.dropWhile white = [] ∧ first trailingRest s = some []) ∨
    (s ≠ [] ∧ s.dropWhile white = s ∧ first trailingRest s = none) ∨
    ∃ c, white c ∧ (c :: s.dropWhile white) <:+ s ∧ s.dropWhile white ≠ [] ∧
      first trailingRest s = some (c :: s.dropWhile white) := by
  induction s with
  | nil => exact .inl ⟨rfl, rfl⟩
  | cons c s ih =>
    rw [trailingRest, first_many_seq, first_notAhead, List.head?_cons, Option.any_some,
      List.dropWhile_cons]
    cases hwhite : white c with
    | false => exact .inr (.inl ⟨List.cons_ne_nil c s, rfl, rfl⟩)
    | true =>
      rw [if_pos rfl, if_pos rfl]
      obtain ⟨hnil, hfirst⟩ | ⟨hs, hself, hfirst⟩ | ⟨c₁, hc₁, hsuffix, hne, hfirst⟩ := ih
      · exact .inl ⟨hnil, by rw [← trailingRest, hfirst, Option.some_or]⟩
      · rw [hself]
        exact .inr (.inr ⟨c, hwhite, List.suffix_refl _, hs, by rw [← trailingRest, hfirst]; rfl⟩)
      · exact .inr (.inr ⟨c₁, hc₁, hsuffix.trans (List.suffix_cons ..), hne, by
          rw [← trailingRest, hfirst, Option.some_or]⟩)

/-- The last rules match only where there is white space. -/
theorem first_trailing : first trailing (c :: s) =
    if white c then first trailingRest s else none := by
  rw [trailing, plus, first_seq_assoc, first_one_seq, trailingRest]

/-- The last character of white space takes the last byte in front of the rest, and is not the first
one. -/
theorem bytesTo_white (hc : white c) (hc₁ : white c₁) (h : c₁ :: rest <:+ s) :
    bytesTo (c :: s) rest = bytesTo (c :: s) (c₁ :: rest) + 1 ∧ 2 ≤ bytesTo (c :: s) rest := by
  have hle := length_utf8_le h
  rw [length_utf8_cons, utf8Size_of_white hc₁] at hle
  rw [bytesTo, bytesTo, length_utf8_cons, length_utf8_cons, utf8Size_of_white hc,
    utf8Size_of_white hc₁]
  omega

/-- A match that leaves something is shorter than the text. -/
theorem bytesTo_lt_length (h : rest <:+ s) (hne : rest ≠ []) :
    bytesTo s rest < (utf8 s).length := by
  have hle := length_utf8_le h
  have hpos := length_utf8_pos hne
  unfold bytesTo
  omega

/-- Rules 5, 6 and 7. -/
theorem whitespace_utf8 : whitespace (utf8 (c :: s)) (lookAhead (utf8 (c :: s))) =
    (first (alt newlines (alt trailing (plus white))) (c :: s)).map (bytesTo (c :: s)) := by
  rw [whitespace, lookAhead_c0, scanSpaces_utf8, first_alt, first_alt, first_trailing, first_plus,
    List.dropWhile_cons, cpIsSpace_val]
  cases hwhite : white c with
  | false =>
    rw [first_newlines_cons, hwhite]
    rfl
  | true =>
    simp only [Nat.zero_add, Option.or_none, if_true]
    rw [Option.map_or]
    cases hfirst : first newlines (c :: s) with
    | some rest => rfl
    | none =>
      rw [Option.map_none, Option.none_or]
      dsimp only
      obtain ⟨hnil, hrest⟩ | ⟨hs, hself, hrest⟩ | ⟨c₁, hc₁, hsuffix, hne, hrest⟩ :=
        first_trailing_rest s
      · -- white space up to the end
        rw [hnil, hrest, if_neg (fun h => h.1 (Nat.sub_zero _))]
        rfl
      · -- one character of white space
        have hone : bytesTo (c :: s) s = 1 := bytesTo_one.trans (utf8Size_of_white hwhite)
        rw [hself, hrest, hone, if_neg (by simp), Option.none_or, Option.map_some, hone]
      · -- the last character of the white space is left
        have hlt : bytesTo (c :: s) (s.dropWhile white) < (utf8 (c :: s)).length :=
          bytesTo_lt_length ((List.dropWhile_suffix _).trans (List.suffix_cons ..)) hne
        obtain ⟨hlast, hlength⟩ := bytesTo_white hwhite hc₁ hsuffix
        rw [hrest, if_pos ⟨Nat.ne_of_lt hlt, hlength⟩, hlast]
        rfl

end SplitRules

end HeteroAccel
