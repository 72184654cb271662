import HeteroAccel.HydroXL.ByteTables

/-!
# Pre-tokenization

`preTokenize` splits a text with the Qwen2 rules. `nextPiece` is one round of its loop: the number
of bytes that the first rule to match takes off the front. Every round takes at least one, so
`preTokenize` is the chunking with `nextPiece` and loses nothing.
-/

namespace HeteroAccel

/-! ## Character classes -/

/-- The code points that count as white space. -/
def cpIsSpace (cp : UInt32) : Bool :=
  cp = 0x20 || cp = 0x09 || cp = 0x0A || cp = 0x0B || cp = 0x0C || cp = 0x0D

/-- The line breaks. -/
def cpIsNewline (cp : UInt32) : Bool := cp = 0x0D || cp = 0x0A

/-- The ASCII digits. -/
def cpIsDigit (cp : UInt32) : Bool := 0x30 ≤ cp && cp ≤ 0x39

/-- Every code point from U+0080 on counts as a letter. -/
def cpIsLetter (cp : UInt32) : Bool :=
  (0x61 ≤ cp && cp ≤ 0x7A) || (0x41 ≤ cp && cp ≤ 0x5A) || 0x80 ≤ cp

/-- Neither white space, nor a digit, nor a letter. -/
def cpIsOther (cp : UInt32) : Bool := !cpIsSpace cp && !cpIsDigit cp && !cpIsLetter cp

/-- What may stand in front of a letter run; unlike `cpIsOther` this includes spaces and tabs. -/
def cpIsPrefixable (cp : UInt32) : Bool := !cpIsNewline cp && !cpIsDigit cp && !cpIsLetter cp

/-- The lower case of an ASCII letter; any other byte stays. -/
def asciiLower (c : UInt8) : UInt8 := if 0x41 ≤ c ∧ c ≤ 0x5A then c - 0x41 + 0x61 else c

/-! ## Scanning -/

/-- The bytes of the code points in front of `s` that satisfy `p`. -/
def scan (p : UInt32 → Bool) (s : Bytes) : ℕ :=
  if s = [] then 0
  else
    let cl := (decodeUtf8 s).2
    if p (decodeUtf8 s).1 then cl + scan p (s.drop cl) else 0
termination_by s.length
decreasing_by
  have : 0 < cl := decodeUtf8_length_pos s
  have := List.length_pos_iff.mpr ‹¬s = []›
  rw [List.length_drop]
  omega

/-- The bytes of at most `left` code points in front of `s` that are digits. -/
def scanDigits (s : Bytes) : (left : ℕ) → ℕ
  | 0 => 0
  | left + 1 =>
    if s = [] then 0
    else
      let cl := (decodeUtf8 s).2
      if cpIsDigit (decodeUtf8 s).1 then cl + scanDigits (s.drop cl) left else 0

/-- The loop of rule 5 over a white-space run from `j` on: where the run ends, and where its last
newline does. -/
def scanSpaces (s : Bytes) (j : ℕ) (lastNl : Option ℕ) : ℕ × Option ℕ :=
  if s = [] then (j, lastNl)
  else
    let c := (decodeUtf8 s).1
    let cl := (decodeUtf8 s).2
    if cpIsSpace c then
      scanSpaces (s.drop cl) (j + cl) (if cpIsNewline c then some (j + cl) else lastNl)
    else (j, lastNl)
termination_by s.length
decreasing_by
  have : 0 < cl := decodeUtf8_length_pos s
  have := List.length_pos_iff.mpr ‹¬s = []›
  rw [List.length_drop]
  omega

/-! ## The rules -/

/-- The first code point of a text and the two after it, each with its length. -/
structure LookAhead where
  c0 : UInt32
  l0 : ℕ
  c1 : UInt32
  l1 : ℕ
  c2 : UInt32
  l2 : ℕ

/-- The look-ahead at the front of `s`; 0 stands for a code point that is not there. -/
def lookAhead (s : Bytes) : LookAhead :=
  let (c0, l0) := decodeUtf8 s
  let s1 := s.drop l0
  let (c1, l1) := if s1 = [] then (0, 1) else decodeUtf8 s1
  let s2 := s1.drop (if c1 ≠ 0 then l1 else 0)
  let (c2, l2) := if s2 = [] then (0, 1) else decodeUtf8 s2
  { c0, l0, c1, l1, c2, l2 }

/-- Rule 1: a contraction in either case. Only the low byte of a code point is looked at. -/
def contraction (la : LookAhead) : Option ℕ :=
  if la.c0 = 0x27 ∧ la.c1 ≠ 0 then
    let a := asciiLower la.c1.toUInt8
    if a = 0x73 ∨ a = 0x74 ∨ a = 0x6D ∨ a = 0x64 then some (la.l0 + la.l1)
    else if la.c2 ≠ 0 then
      let b2 := asciiLower la.c2.toUInt8
      if (a = 0x72 ∧ b2 = 0x65) ∨ (a = 0x76 ∧ b2 = 0x65) ∨ (a = 0x6C ∧ b2 = 0x6C) then
        some (la.l0 + la.l1 + la.l2)
      else none
    else none
  else none

/-- Rule 2: a letter run, with what may stand in front of it. -/
def letterRun (s : Bytes) (la : LookAhead) : Option ℕ :=
  if cpIsLetter la.c0 ∨ (cpIsPrefixable la.c0 ∧ la.c1 ≠ 0 ∧ cpIsLetter la.c1) then
    some (la.l0 + scan cpIsLetter (s.drop la.l0))
  else none

/-- Rule 3: up to three digits. -/
def digitGroup (s : Bytes) (la : LookAhead) : Option ℕ :=
  if cpIsDigit la.c0 then some (la.l0 + scanDigits (s.drop la.l0) 2) else none

/-- Rule 4: a punctuation run with a space in front and newlines behind. -/
def punctuation (s : Bytes) (la : LookAhead) : Option ℕ :=
  let j := if la.c0 = 0x20 ∧ la.c1 ≠ 0 ∧ cpIsOther la.c1 ∧ ¬cpIsNewline la.c1 then la.l0 else 0
  let k := j + scan (fun c => cpIsOther c && !cpIsNewline c) (s.drop j)
  if j < k then some (k + scan cpIsNewline (s.drop k)) else none

/-- Rules 5 and 6: a white-space run up to its last newline; without one, the whole run at the end
of the text, else all of it but the last byte, which is left to the next piece. -/
def whitespace (s : Bytes) (la : LookAhead) : Option ℕ :=
  if cpIsSpace la.c0 then
    let (j, lastNl) := scanSpaces s 0 none
    match lastNl with
    | some e => some e
    | none => if j ≠ s.length ∧ 2 ≤ j then some (j - 1) else some j
  else none

/-- The length of the piece in front of `s`. -/
def nextPiece (s : Bytes) : ℕ :=
  let la := lookAhead s
  ((contraction la).or ((letterRun s la).or ((digitGroup s la).or ((punctuation s la).or
    (whitespace s la))))).getD la.l0

/-! ## Every piece takes a byte -/

theorem lookAhead_l0_pos (s : Bytes) : 0 < (lookAhead s).l0 := decodeUtf8_length_pos s

theorem contraction_pos {s : Bytes} {n : ℕ} (h : contraction (lookAhead s) = some n) : 0 < n := by
  have hl0 := lookAhead_l0_pos s
  unfold contraction at h
  dsimp only at h
  split_ifs at h
  all_goals
    have hlength := Option.some.inj h
    omega

theorem letterRun_pos {s : Bytes} {n : ℕ} (h : letterRun s (lookAhead s) = some n) : 0 < n := by
  have hl0 := lookAhead_l0_pos s
  unfold letterRun at h
  split_ifs at h
  have := Option.some.inj h
  omega

theorem digitGroup_pos {s : Bytes} {n : ℕ} (h : digitGroup s (lookAhead s) = some n) : 0 < n := by
  have hl0 := lookAhead_l0_pos s
  unfold digitGroup at h
  split_ifs at h
  have := Option.some.inj h
  omega

theorem punctuation_pos {s : Bytes} {n : ℕ} (h : punctuation s (lookAhead s) = some n) :
    0 < n := by
  unfold punctuation at h
  dsimp only at h
  split_ifs at h with hpre hk hk
  all_goals
    have hlength := Option.some.inj h
    omega

/-- The loop of rule 5 does not go back, and ends a newline behind where it was. -/
theorem scanSpaces_spec (s : Bytes) (j : ℕ) (lastNl : Option ℕ) :
    j ≤ (scanSpaces s j lastNl).1 ∧
      ∀ e, (scanSpaces s j lastNl).2 = some e → lastNl = some e ∨ j < e := by
  induction s, j, lastNl using scanSpaces.induct with
  | case1 j lastNl =>
    rw [scanSpaces, if_pos rfl]
    exact ⟨Nat.le_refl _, fun e he => .inl he⟩
  | case2 s j lastNl hs c cl hspace ih =>
    have hcl : 0 < cl := decodeUtf8_length_pos s
    rw [scanSpaces, if_neg hs, if_pos hspace]
    refine ⟨Nat.le_trans (Nat.le_add_right _ _) ih.1, fun e he => ?_⟩
    rcases ih.2 e he with h | h
    · split_ifs at h
      · right
        have := Option.some.inj h
        omega
      · exact .inl h
    · right
      omega
  | case3 s j lastNl hs c hspace =>
    rw [scanSpaces, if_neg hs, if_neg hspace]
    exact ⟨Nat.le_refl _, fun e he => .inl he⟩

theorem whitespace_pos {s : Bytes} (hs : s ≠ []) {n : ℕ}
    (h : whitespace s (lookAhead s) = some n) : 0 < n := by
  unfold whitespace at h
  split_ifs at h with hspace
  -- the run has at least the space it starts with
  have hrun : 0 < (scanSpaces s 0 none).1 := by
    rw [scanSpaces, if_neg hs, if_pos (show cpIsSpace (decodeUtf8 s).1 from hspace), Nat.zero_add]
    exact Nat.lt_of_lt_of_le (decodeUtf8_length_pos s) (scanSpaces_spec ..).1
  have hnl := (scanSpaces_spec s 0 none).2
  generalize scanSpaces s 0 none = run at h hrun hnl
  obtain ⟨j, lastNl⟩ := run
  cases lastNl with
  | some e =>
    have := Option.some.inj h
    rcases hnl e rfl with hno | hpos
    · cases hno
    · omega
  | none =>
    dsimp only at h hrun
    split_ifs at h
    all_goals
      have hlength := Option.some.inj h
      omega

/-- Every piece has a byte, so the loop ends. -/
theorem nextPiece_pos (s : Bytes) (hs : s ≠ []) : 0 < nextPiece s := by
  unfold nextPiece
  dsimp only
  cases hmatch : (contraction (lookAhead s)).or ((letterRun s (lookAhead s)).or
    ((digitGroup s (lookAhead s)).or ((punctuation s (lookAhead s)).or
      (whitespace s (lookAhead s))))) with
  | none => exact lookAhead_l0_pos s
  | some n =>
    simp only [Option.or_eq_some_iff] at hmatch
    rcases hmatch with h | ⟨-, h | ⟨-, h | ⟨-, h | ⟨-, h⟩⟩⟩⟩
    · exact contraction_pos h
    · exact letterRun_pos h
    · exact digitGroup_pos h
    · exact punctuation_pos h
    · exact whitespace_pos hs h

/-- The split of a text into pieces. -/
def pieces : Chunker UInt8 where
  size := nextPiece
  size_pos := nextPiece_pos

/-- `preTokenize`. -/
def preTokenize (text : Bytes) : List Bytes := pieces.chunks text

/-- Pre-tokenization loses nothing. -/
theorem flatten_preTokenize (text : Bytes) : (preTokenize text).flatten = text :=
  pieces.flatten_chunks text

/-! ## The loop -/

/-- The loop of `preTokenize` from the index `i` on, with the pieces that it has cut off; `none`
where `fuel` rounds do not end it. -/
def preTokenizeLoop (text : Bytes) : (fuel i : ℕ) → (cut : List Bytes) → Option (List Bytes)
  | 0, i, cut => if i < text.length then none else some cut
  | fuel + 1, i, cut =>
    if i < text.length then
      let rest := text.drop i
      preTokenizeLoop text fuel (i + nextPiece rest) (cut ++ [rest.take (nextPiece rest)])
    else some cut

/-- With enough fuel, the loop cuts the text into its pieces. -/
theorem preTokenizeLoop_eq (text : Bytes) {fuel i : ℕ} (hfuel : text.length ≤ i + fuel)
    (cut : List Bytes) :
    preTokenizeLoop text fuel i cut = some (cut ++ pieces.chunks (text.drop i)) := by
  induction fuel generalizing i cut with
  | zero =>
    have hdrop : text.drop i = [] := List.drop_eq_nil_of_le hfuel
    rw [preTokenizeLoop, if_neg (by omega), hdrop, pieces.chunks_nil, List.append_nil]
  | succ fuel ih =>
    rw [preTokenizeLoop]
    by_cases hi : i < text.length
    · have hrest : text.drop i ≠ [] := by simpa using hi
      -- the round takes a byte, so that the fuel suffices for the others
      have hpos := nextPiece_pos (text.drop i) hrest
      rw [if_pos hi, ih (by omega), pieces.chunks_of_ne_nil hrest, List.append_assoc,
        List.singleton_append, List.drop_drop]
      rfl
    · have hdrop : text.drop i = [] := List.drop_eq_nil_of_le (by omega)
      rw [if_neg hi, hdrop, pieces.chunks_nil, List.append_nil]

/-- **Pre-tokenization** ends after as many rounds as the text has bytes at most, cuts off no empty
piece and loses nothing. -/
theorem preTokenize_lossless (text : Bytes) :
    preTokenizeLoop text text.length 0 [] = some (preTokenize text) ∧
      (∀ piece ∈ preTokenize text, piece ≠ []) ∧ (preTokenize text).flatten = text := by
  refine ⟨preTokenizeLoop_eq text (by omega) [], ?_, flatten_preTokenize text⟩
  intro piece hpiece
  exact pieces.ne_nil_of_mem_chunks hpiece

end HeteroAccel
