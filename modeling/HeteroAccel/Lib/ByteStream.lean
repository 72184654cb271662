import Mathlib.Data.Nat.Log
import Mathlib.Tactic.Ring

/-!
# Bytes, little-endian numbers and input file streams

* `Bytes`: byte strings; `Bytes.ofString` is the UTF-8 text of a literal.
* `Bytes.ofNat` and `Bytes.toNat`: numbers of a fixed width, least significant byte first.
* `FileContent`: the content of a file, short enough for its positions to be signed 64-bit offsets.
* `InputStream`: an input file stream with its position and its error bits. A read past the end
  sets them, and every later operation but `open` fails; a seek past the end does not.
-/

/-- A byte string. -/
abbrev Bytes := List UInt8

namespace Bytes

/-- The UTF-8 bytes of a literal. -/
def ofString (s : String) : Bytes := s.toUTF8.data.toList

/-- Different texts have different bytes. -/
theorem ofString_inj {s t : String} : ofString s = ofString t ↔ s = t := by
  refine ⟨fun h => ?_, fun h => h ▸ rfl⟩
  have hdata : s.toByteArray.data = t.toByteArray.data := Array.toList_inj.mp h
  exact String.toByteArray_inj.mp (ByteArray.ext hdata)

/-- The decimal digits of a number. -/
def ofDecimal (n : ℕ) : Bytes := ofString (toString n)

/-- The decimal digits of a number, as bytes. -/
theorem ofDecimal_eq_map (n : ℕ) :
    ofDecimal n = (Nat.toDigits 10 n).map fun c => UInt8.ofNat c.toNat := by
  have hrepr : toString n = String.ofList (Nat.toDigits 10 n) := rfl
  -- a digit is one byte
  have hbyte : ∀ c ∈ Nat.toDigits 10 n, String.utf8EncodeChar c = [UInt8.ofNat c.toNat] := by
    intro c hc
    have hdigit : c.isDigit := Nat.isDigit_of_mem_toDigits (by decide) (by decide) hc
    have hrange : 48 ≤ c.val.toNat ∧ c.val.toNat ≤ 57 := by
      simpa [Char.isDigit, UInt32.le_iff_toNat_le] using hdigit
    unfold String.utf8EncodeChar
    dsimp only
    rw [if_pos (hrange.2.trans (by decide))]
    rfl
  unfold ofDecimal ofString
  rw [hrepr, String.toUTF8_eq_toByteArray, String.toByteArray_ofList, List.utf8Encode,
    List.data_toByteArray, List.map_eq_flatMap, List.flatMap_def, List.flatMap_def,
    List.map_congr_left hbyte]

/-- The bytes of a decimal number are digits. -/
theorem mem_ofDecimal {n : ℕ} {b : UInt8} (h : b ∈ ofDecimal n) : 48 ≤ b.toNat ∧ b.toNat ≤ 57 := by
  rw [ofDecimal_eq_map] at h
  obtain ⟨c, hc, rfl⟩ := List.mem_map.mp h
  have hdigit : c.isDigit := Nat.isDigit_of_mem_toDigits (by decide) (by decide) hc
  have hrange : 48 ≤ c.toNat ∧ c.toNat ≤ 57 := by
    simpa [Char.isDigit, UInt32.le_iff_toNat_le] using hdigit
  rw [UInt8.toNat_ofNat', Nat.mod_eq_of_lt (by omega)]
  exact hrange

/-- The number at the beginning of a text, if there is one. -/
def readDecimal (text : Bytes) : Option ℕ :=
  let digits := text.takeWhile fun b => 48 ≤ b.toNat ∧ b.toNat ≤ 57
  if digits = [] then none else some (digits.foldl (fun n b => 10 * n + (b.toNat - 48)) 0)

/-- A decimal number is read back up to a byte that is no digit. -/
theorem readDecimal_ofDecimal (n : ℕ) {b : UInt8} (hb : ¬(48 ≤ b.toNat ∧ b.toNat ≤ 57))
    (rest : Bytes) : readDecimal (ofDecimal n ++ b :: rest) = some n := by
  have hdigits : (ofDecimal n ++ b :: rest).takeWhile
      (fun b => decide (48 ≤ b.toNat ∧ b.toNat ≤ 57)) = ofDecimal n := by
    rw [List.takeWhile_append_of_pos fun b hb => decide_eq_true (mem_ofDecimal hb),
      List.takeWhile_cons_of_neg (by simpa using hb), List.append_nil]
  have hne : ofDecimal n ≠ [] := by
    rw [ofDecimal_eq_map]
    simp
  unfold readDecimal
  dsimp only
  rw [hdigits, if_neg hne]
  -- the bytes have the values of the digits
  have hfold : ∀ (l : List Char), (∀ c ∈ l, c.isDigit) → ∀ m,
      (l.map fun c => UInt8.ofNat c.toNat).foldl (fun n b => 10 * n + (b.toNat - 48)) m =
        Nat.ofDigitChars 10 l m := by
    intro l hl
    induction l with
    | nil => exact fun m => Nat.ofDigitChars_nil.symm
    | cons c l ih =>
      obtain ⟨hc, hl⟩ := List.forall_mem_cons.mp hl
      have hrange : 48 ≤ c.toNat ∧ c.toNat ≤ 57 := by
        simpa [Char.isDigit, UInt32.le_iff_toNat_le] using hc
      intro m
      rw [List.map_cons, List.foldl_cons, Nat.ofDigitChars_cons, ih hl, UInt8.toNat_ofNat',
        Nat.mod_eq_of_lt (by omega)]
      rfl
  rw [ofDecimal_eq_map,
    hfold _ (fun c hc => Nat.isDigit_of_mem_toDigits (by decide) (by decide) hc),
    Nat.ofDigitChars_ten_toDigits]

/-- The decimal digits of an integer, behind a sign if it is negative. -/
def ofInt : ℤ → Bytes
  | .ofNat n => ofDecimal n
  | .negSucc n => 45 :: ofDecimal (n + 1)

/-- The integer at the beginning of a text, if there is one. -/
def readInt : Bytes → Option ℤ
  | [] => none
  | b :: text =>
    if b = 45 then (readDecimal text).map fun n => -(n : ℤ)
    else (readDecimal (b :: text)).map fun n => (n : ℤ)

/-- An integer is read back up to a byte that is no digit. -/
theorem readInt_ofInt (n : ℤ) {b : UInt8} (hb : ¬(48 ≤ b.toNat ∧ b.toNat ≤ 57)) (rest : Bytes) :
    readInt (ofInt n ++ b :: rest) = some n := by
  cases n with
  | ofNat n =>
    have hread := readDecimal_ofDecimal n hb rest
    cases htext : ofDecimal n with
    | nil =>
      rw [ofDecimal_eq_map, List.map_eq_nil_iff] at htext
      exact absurd htext Nat.toDigits_ne_nil
    | cons c text =>
      have hc := mem_ofDecimal (htext ▸ List.mem_cons_self : c ∈ ofDecimal n)
      rw [htext] at hread
      rw [ofInt, htext, List.cons_append, readInt, if_neg (by rintro rfl; revert hc; decide),
        ← List.cons_append, hread]
      rfl
  | negSucc n =>
    rw [ofInt, List.cons_append, readInt, if_pos rfl, readDecimal_ofDecimal (n + 1) hb rest]
    rfl

/-! ## Little-endian numbers -/

/-- The number that little-endian bytes stand for. -/
def toNat : Bytes → ℕ
  | [] => 0
  | b :: bs => b.toNat + 256 * toNat bs

/-- The `width` little-endian bytes of a number. -/
def ofNat : ℕ → ℕ → Bytes
  | 0, _ => []
  | width + 1, n => .ofNat n :: ofNat width (n / 256)

/-- A number is written in as many bytes as it is asked for. -/
@[simp]
theorem length_ofNat (width n : ℕ) : (ofNat width n).length = width := by
  induction width generalizing n with
  | zero => rfl
  | succ width ih => rw [ofNat, List.length_cons, ih]

/-- A number is read back modulo what the bytes hold. -/
theorem toNat_ofNat (width n : ℕ) : toNat (ofNat width n) = n % 256 ^ width := by
  induction width generalizing n with
  | zero => rw [ofNat, toNat, pow_zero, Nat.mod_one]
  | succ width ih =>
    have hhead : (UInt8.ofNat n).toNat = n % 256 := UInt8.toNat_ofNat'
    rw [ofNat, toNat, ih, hhead, pow_succ', Nat.mod_mul]

/-- A number that the bytes hold is read back. -/
theorem toNat_ofNat_of_lt {width n : ℕ} (h : n < 256 ^ width) : toNat (ofNat width n) = n := by
  rw [toNat_ofNat, Nat.mod_eq_of_lt h]

/-- So many bytes hold numbers below a power of 256. -/
theorem toNat_lt (bs : Bytes) : toNat bs < 256 ^ bs.length := by
  induction bs with
  | nil => exact Nat.one_pos
  | cons b bs ih =>
    have := b.toNat_lt
    rw [toNat, List.length_cons, pow_succ']
    omega

/-- The bytes of a number are the ones it was read from. -/
theorem ofNat_toNat (bs : Bytes) : ofNat bs.length (toNat bs) = bs := by
  induction bs with
  | nil => rfl
  | cons b bs ih =>
    have hb := b.toNat_lt
    have hhead : UInt8.ofNat (b.toNat + 256 * toNat bs) = b := by
      apply UInt8.toNat_inj.mp
      rw [UInt8.toNat_ofNat']
      omega
    have htail : (b.toNat + 256 * toNat bs) / 256 = toNat bs := by omega
    rw [List.length_cons, toNat, ofNat, hhead, htail, ih]

end Bytes

/-! ## Input file streams -/

/-- The content of a file. Offsets in it are signed 64-bit numbers. -/
structure FileContent where
  bytes : Bytes
  length_lt : bytes.length < 2 ^ 63

/-- An input file stream. -/
structure InputStream where
  /-- The content of the file that is open, if any. -/
  content : Option FileContent := none
  pos : ℕ := 0
  eof : Bool := false
  fail : Bool := false

namespace InputStream

variable (s : InputStream)

/-- A file is open. -/
def isOpen : Bool := s.content.isSome

/-- No bit of failure is set. -/
def good : Bool := !s.eof && !s.fail

/-- The bytes of the open file. -/
def bytes : Bytes :=
  match s.content with
  | some content => content.bytes
  | none => []

/-- The bytes from the position on. -/
def rest : Bytes := s.bytes.drop s.pos

/-- Opening a file; `none` when there is none. A stream that is open stays as it is and fails. -/
def «open» (file : Option FileContent) : InputStream :=
  if s.isOpen then { s with fail := true }
  else
    match file with
    | some content => { content := some content }
    | none => { s with fail := true }

/-- Reading `n` bytes, all of them or none. -/
def read (n : ℕ) : Option Bytes × InputStream :=
  if s.good then
    let got := s.rest.take n
    let s := { s with pos := s.pos + got.length }
    if got.length = n then (some got, s) else (none, { s with eof := true, fail := true })
  else (none, { s with fail := true })

/-- The position, `-1` on a stream that has failed. -/
def tellg : UInt64 := if s.fail then -1 else .ofNat s.pos

/-- Seeking to a position. Only the offset is checked, not that the file is that long. -/
def seekg (offset : UInt64) : InputStream :=
  let s := { s with eof := false }
  if s.fail then s
  else if offset.toNat < 2 ^ 63 then { s with pos := offset.toNat }
  else { s with fail := true }

/-- Seeking to the end. -/
def seekEnd : InputStream :=
  let s := { s with eof := false }
  if s.fail then s else { s with pos := s.bytes.length }

@[simp]
theorem content_read (n : ℕ) : (s.read n).2.content = s.content := by
  unfold read
  dsimp only
  split_ifs <;> rfl

@[simp]
theorem content_seekg (offset : UInt64) : (s.seekg offset).content = s.content := by
  unfold seekg
  dsimp only
  split_ifs <;> rfl

/-! ### A good stream -/

/-- The stream `n` bytes further on. -/
def advance (n : ℕ) : InputStream := { s with pos := s.pos + n }

variable {s}

@[simp]
theorem advance_zero : s.advance 0 = s := rfl

@[simp]
theorem advance_advance (m n : ℕ) : (s.advance m).advance n = s.advance (m + n) := by
  simp only [advance, Nat.add_assoc]

@[simp]
theorem good_advance (n : ℕ) : (s.advance n).good = s.good := rfl

@[simp]
theorem bytes_advance (n : ℕ) : (s.advance n).bytes = s.bytes := rfl

@[simp]
theorem rest_advance (n : ℕ) : (s.advance n).rest = s.rest.drop n := by
  rw [rest, rest, List.drop_drop]
  rfl

theorem length_bytes_lt (s : InputStream) : s.bytes.length < 2 ^ 63 := by
  unfold bytes
  split
  next content _ => exact content.length_lt
  next => decide

/-- A read within the file. -/
theorem read_of_le (h : s.good) {n : ℕ} (hn : n ≤ s.rest.length) :
    s.read n = (some (s.rest.take n), s.advance n) := by
  have hlength : (s.rest.take n).length = n := List.length_take_of_le hn
  simp only [read, h, if_true, hlength, advance]

/-- A read past the end fails. -/
theorem read_of_lt (h : s.good) {n : ℕ} (hn : s.rest.length < n) : (s.read n).1 = none := by
  have hlength : (s.rest.take n).length ≠ n := by
    rw [List.length_take]
    omega
  simp only [read, h, if_true, if_neg hlength]

/-- A seek in a good stream: an offset of 2^63 or more is negative, and fails. -/
theorem seekg_of_good (h : s.good) (offset : UInt64) :
    s.seekg offset =
      if offset.toNat < 2 ^ 63 then { s with pos := offset.toNat }
        else { s with fail := true } := by
  obtain ⟨content, pos, eof, fail⟩ := s
  obtain ⟨rfl, rfl⟩ : eof = false ∧ fail = false := by
    simpa [good] using h
  rfl

theorem tellg_of_good (h : s.good) : s.tellg = .ofNat s.pos := by
  have hfail : s.fail = false := by
    simp only [good, Bool.and_eq_true, Bool.not_eq_true'] at h
    exact h.2
  rw [tellg, hfail]
  rfl

end InputStream
