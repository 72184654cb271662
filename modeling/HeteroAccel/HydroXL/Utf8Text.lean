import HeteroAccel.HydroXL.PreTokenize
import HeteroAccel.Lib.Backtracking

/-!
# Texts and their UTF-8 bytes

The tokenizer reads a text byte by byte. `decodeUtf8_utf8` says that it decodes what is valid: the
bytes of a character are read as this character, whatever follows them. So the loops of
`preTokenize` over bytes (`scan`, `scanDigits`) are loops over characters.
-/

namespace HeteroAccel

open Backtracking Pattern

/-! ## Texts -/

/-- The UTF-8 bytes of a text. -/
def utf8 (text : List Char) : Bytes := text.flatMap String.utf8EncodeChar

@[simp]
theorem utf8_nil : utf8 [] = [] := rfl

theorem utf8_cons (c : Char) (s : List Char) :
    utf8 (c :: s) = String.utf8EncodeChar c ++ utf8 s := rfl

/-- Texts are encoded one behind the other. -/
@[simp]
theorem utf8_append (s t : List Char) : utf8 (s ++ t) = utf8 s ++ utf8 t := List.flatMap_append

/-! ## Decoding -/

/-- The first of two bytes is recognized, and gives the upper bits. -/
theorem lead₂ : ∀ x < 32, ¬(UInt8.ofNat (x + 0xC0)).toUInt32 < 0x80 ∧
    (UInt8.ofNat (x + 0xC0)).toUInt32 &&& 0xE0 = 0xC0 ∧
    (UInt8.ofNat (x + 0xC0)).toUInt32 &&& 0x1F = .ofNat x := by decide

/-- The first of three bytes is recognized, and gives the upper bits. -/
theorem lead₃ : ∀ x < 16, ¬(UInt8.ofNat (x + 0xE0)).toUInt32 < 0x80 ∧
    (UInt8.ofNat (x + 0xE0)).toUInt32 &&& 0xE0 ≠ 0xC0 ∧
    (UInt8.ofNat (x + 0xE0)).toUInt32 &&& 0xF0 = 0xE0 ∧
    (UInt8.ofNat (x + 0xE0)).toUInt32 &&& 0x0F = .ofNat x := by decide

/-- The first of four bytes is recognized, and gives the upper bits. -/
theorem lead₄ : ∀ x < 8, ¬(UInt8.ofNat (x + 0xF0)).toUInt32 < 0x80 ∧
    (UInt8.ofNat (x + 0xF0)).toUInt32 &&& 0xE0 ≠ 0xC0 ∧
    (UInt8.ofNat (x + 0xF0)).toUInt32 &&& 0xF0 ≠ 0xE0 ∧
    (UInt8.ofNat (x + 0xF0)).toUInt32 &&& 0xF8 = 0xF0 ∧
    (UInt8.ofNat (x + 0xF0)).toUInt32 &&& 0x07 = .ofNat x := by decide

theorem continuation : ∀ x < 64, (UInt8.ofNat (x + 0x80)).toUInt32 &&& 0x3F = .ofNat x := by decide

section Fields

variable {k x y q a b c d : ℕ} {hi lo n shift n₀ n₁ n₂ n₃ : UInt32}

/-- A field that is moved up. -/
theorem toNat_shiftLeft_field (hn : n.toNat = x) (hshift : shift.toNat = k) (hk : k < 32)
    (hfits : 2 ^ k * x < 2 ^ 32) : (n <<< shift).toNat = 2 ^ k * x := by
  rw [UInt32.toNat_shiftLeft, hn, hshift, Nat.mod_eq_of_lt hk, Nat.shiftLeft_eq, Nat.mul_comm]
  exact Nat.mod_eq_of_lt hfits

/-- A field behind others. -/
theorem toNat_or_field (k : ℕ) (hhi : hi.toNat = 2 ^ k * q) (hlo : lo.toNat = y) (hy : y < 2 ^ k) :
    (hi ||| lo).toNat = 2 ^ k * q + y := by
  rw [UInt32.toNat_or, hhi, hlo, Nat.two_pow_add_eq_or_of_lt hy]

/-- Two fields of six bits, put together. -/
theorem toNat_fields₂ (h₀ : n₀.toNat = a) (h₁ : n₁.toNat = b) (ha : a < 64) (hb : b < 64) :
    (n₀ <<< 6 ||| n₁).toNat = 64 * a + b :=
  toNat_or_field 6 (toNat_shiftLeft_field h₀ rfl (by decide) (by omega)) h₁ hb

/-- Three fields of six bits, put together. -/
theorem toNat_fields₃ (h₀ : n₀.toNat = a) (h₁ : n₁.toNat = b) (h₂ : n₂.toNat = c) (ha : a < 64)
    (hb : b < 64) (hc : c < 64) :
    (n₀ <<< 12 ||| n₁ <<< 6 ||| n₂).toNat = 64 * (64 * a + b) + c := by
  have hhead : (n₀ <<< 12 ||| n₁ <<< 6).toNat = 2 ^ 12 * a + 2 ^ 6 * b :=
    toNat_or_field 12 (toNat_shiftLeft_field h₀ rfl (by decide) (by omega))
      (toNat_shiftLeft_field h₁ rfl (by decide) (by omega)) (by omega)
  exact toNat_or_field 6 (hhead.trans (by omega)) h₂ hc

/-- Four fields of six bits, put together. -/
theorem toNat_fields₄ (h₀ : n₀.toNat = a) (h₁ : n₁.toNat = b) (h₂ : n₂.toNat = c)
    (h₃ : n₃.toNat = d) (ha : a < 64) (hb : b < 64) (hc : c < 64) (hd : d < 64) :
    (n₀ <<< 18 ||| n₁ <<< 12 ||| n₂ <<< 6 ||| n₃).toNat = 64 * (64 * (64 * a + b) + c) + d := by
  have hhead : (n₀ <<< 18 ||| n₁ <<< 12).toNat = 2 ^ 18 * a + 2 ^ 12 * b :=
    toNat_or_field 18 (toNat_shiftLeft_field h₀ rfl (by decide) (by omega))
      (toNat_shiftLeft_field h₁ rfl (by decide) (by omega)) (by omega)
  have hmiddle : (n₀ <<< 18 ||| n₁ <<< 12 ||| n₂ <<< 6).toNat = 2 ^ 12 * (64 * a + b) + 2 ^ 6 * c :=
    toNat_or_field 12 (hhead.trans (by omega))
      (toNat_shiftLeft_field h₂ rfl (by decide) (by omega)) (by omega)
  exact toNat_or_field 6 (hmiddle.trans (by omega)) h₃ hd

end Fields

/-- `decodeUtf8` reads a character whole, whatever follows it. -/
theorem decodeUtf8_utf8 (c : Char) (rest : Bytes) :
    decodeUtf8 (String.utf8EncodeChar c ++ rest) = (c.val, c.utf8Size) := by
  have hmax : c.val.toNat < 0x110000 := by
    have h := c.valid
    rcases h with h | h <;> omega
  have hof : ∀ {x : ℕ}, x < 64 → (UInt32.ofNat x).toNat = x := by
    intro x hx
    rw [UInt32.toNat_ofNat']
    exact Nat.mod_eq_of_lt (by omega)
  have hpair : ∀ {n : UInt32} {l : ℕ}, n.toNat = c.val.toNat → c.utf8Size = l →
      (n, l) = (c.val, c.utf8Size) := by
    rintro n l hn rfl
    rw [UInt32.toNat_inj.mp hn]
  unfold String.utf8EncodeChar
  set v := c.val.toNat with hv
  dsimp only
  have hv1 : ((v / 64 % 64) : ℕ) < 64 := by omega
  have hv0 : ((v % 64) : ℕ) < 64 := by omega
  have hv2 : ((v / 4096 % 64) : ℕ) < 64 := by omega
  -- by the number of bytes; the fields of six bits are put together again
  split
  next h1 =>
    have hbyte : (UInt8.ofNat v).toUInt32.toNat = v := by
      rw [UInt8.toNat_toUInt32, UInt8.toNat_ofNat']
      exact Nat.mod_eq_of_lt (by omega)
    have hascii : (UInt8.ofNat v).toUInt32 < 0x80 := by
      rw [UInt32.lt_iff_toNat_lt, hbyte]
      exact Nat.lt_succ_of_le h1
    rw [List.singleton_append, decodeUtf8_of_ascii hascii]
    exact hpair hbyte (Char.utf8Size_eq_one_iff.mpr (UInt32.le_iff_toNat_le.mpr h1))
  next h1 =>
    split
    next h2 =>
      obtain ⟨hascii, hmark, hbits⟩ := lead₂ (v / 64 % 32) (by omega)
      rw [List.cons_append, List.cons_append, decodeUtf8_of_twoBytes hascii hmark, hbits,
        continuation _ hv0]
      refine hpair ?_ (Char.utf8Size_eq_two_iff.mpr ⟨?_, UInt32.le_iff_toNat_le.mpr h2⟩)
      · rw [toNat_fields₂ (hof (by omega)) (hof hv0) (by omega) hv0]
        omega
      · exact UInt32.lt_iff_toNat_lt.mpr (Nat.not_le.mp h1)
    next h2 =>
      split
      next h3 =>
        obtain ⟨hascii, hmark₂, hmark, hbits⟩ := lead₃ (v / 4096 % 16) (by omega)
        rw [List.cons_append, List.cons_append, List.cons_append,
          decodeUtf8_of_threeBytes hascii hmark₂ hmark, hbits, continuation _ hv1,
          continuation _ hv0]
        refine hpair ?_ (Char.utf8Size_eq_three_iff.mpr ⟨?_, UInt32.le_iff_toNat_le.mpr h3⟩)
        · rw [toNat_fields₃ (hof (by omega)) (hof hv1) (hof hv0) (by omega) hv1 hv0]
          omega
        · exact UInt32.lt_iff_toNat_lt.mpr (Nat.not_le.mp h2)
      next h3 =>
        obtain ⟨hascii, hmark₂, hmark₃, hmark, hbits⟩ := lead₄ (v / 262144 % 8) (by omega)
        rw [List.cons_append, List.cons_append, List.cons_append, List.cons_append,
          decodeUtf8_of_fourBytes hascii hmark₂ hmark₃ hmark, hbits, continuation _ hv2,
          continuation _ hv1, continuation _ hv0]
        refine hpair ?_ (Char.utf8Size_eq_four_iff.mpr ?_)
        · rw [toNat_fields₄ (hof (by omega)) (hof hv2) (hof hv1) (hof hv0) (by omega) hv2 hv1 hv0]
          omega
        · exact UInt32.lt_iff_toNat_lt.mpr (Nat.not_le.mp h3)

/-! ## Scanning -/

section Scanning

variable {c : Char} {s rest : List Char}

theorem utf8_ne_nil : utf8 (c :: s) ≠ [] := by
  rw [utf8_cons]
  exact List.append_ne_nil_of_left_ne_nil String.utf8EncodeChar_ne_nil _

/-- The length of an encoding, character by character. -/
theorem length_utf8_cons : (utf8 (c :: s)).length = c.utf8Size + (utf8 s).length := by
  rw [utf8_cons, List.length_append, String.length_utf8EncodeChar]

theorem length_utf8_pos (h : s ≠ []) : 0 < (utf8 s).length := by
  obtain ⟨c, s, rfl⟩ := List.exists_cons_of_ne_nil h
  exact List.length_pos_of_ne_nil utf8_ne_nil

/-- The first character is read back, with its length. -/
theorem decodeUtf8_cons : decodeUtf8 (utf8 (c :: s)) = (c.val, c.utf8Size) := decodeUtf8_utf8 c _

/-- Behind the first character stands the rest. -/
theorem drop_utf8_cons : (utf8 (c :: s)).drop c.utf8Size = utf8 s := by
  rw [utf8_cons]
  exact List.drop_left' (String.length_utf8EncodeChar c)

theorem length_utf8_le (h : rest <:+ s) : (utf8 rest).length ≤ (utf8 s).length := by
  obtain ⟨taken, rfl⟩ := h
  rw [utf8_append, List.length_append]
  exact Nat.le_add_left ..

variable {p : UInt32 → Bool} {q : Char → Bool}

/-- `scan` takes the characters in front that are of a class. -/
theorem scan_utf8 (h : ∀ c : Char, p c.val = q c) (s : List Char) :
    scan p (utf8 s) + (utf8 (s.dropWhile q)).length = (utf8 s).length := by
  induction s with
  | nil => simp [scan]
  | cons c s ih =>
    rw [scan, if_neg utf8_ne_nil, decodeUtf8_cons, List.dropWhile_cons]
    dsimp only
    rw [h]
    split
    · rw [drop_utf8_cons, length_utf8_cons]
      omega
    · exact Nat.zero_add _

/-- What is left behind a scan. -/
theorem drop_scan_utf8 (h : ∀ c : Char, p c.val = q c) (s : List Char) :
    (utf8 s).drop (scan p (utf8 s)) = utf8 (s.dropWhile q) := by
  have hscan := scan_utf8 h s
  have htext : utf8 s = utf8 (s.takeWhile q) ++ utf8 (s.dropWhile q) := by
    rw [← utf8_append, List.takeWhile_append_dropWhile]
  have hlength := congrArg List.length htext
  rw [List.length_append] at hlength
  rw [htext]
  refine List.drop_left' ?_
  rw [← htext]
  omega

/-- `scanDigits` takes the digits in front, a given number at most. -/
theorem scanDigits_utf8 (h : ∀ c : Char, cpIsDigit c.val = q c) (s : List Char) (left : ℕ) :
    ∃ rest, first (upTo q left) s = some rest ∧
      scanDigits (utf8 s) left + (utf8 rest).length = (utf8 s).length := by
  induction left generalizing s with
  | zero => exact ⟨s, rfl, Nat.zero_add _⟩
  | succ left ih =>
    cases s with
    | nil => exact ⟨[], first_upTo_nil, by simp [scanDigits]⟩
    | cons c s =>
      rw [scanDigits, if_neg utf8_ne_nil, decodeUtf8_cons, first_upTo_succ]
      dsimp only
      rw [h]
      split
      · obtain ⟨rest, hfirst, hlength⟩ := ih s
        refine ⟨rest, by rw [hfirst, Option.some_or], ?_⟩
        rw [drop_utf8_cons, length_utf8_cons]
        omega
      · exact ⟨c :: s, rfl, Nat.zero_add _⟩

end Scanning

end HeteroAccel
