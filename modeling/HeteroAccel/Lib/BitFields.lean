import HeteroAccel.Lib.ByteStream
import Mathlib.Data.Nat.Bitwise
import Mathlib.Data.UInt

/-!
# Fields of bits in bytes and words

A field of `k` bits is a number below `2 ^ k`; fields lie one behind the other in a byte or a word,
the first one lowest. The shifts, masks and disjoint "or"s with which they are read and joined are
divisions, remainders and sums.

* `UInt8.toNat_and_mask`, `UInt8.toNat_shiftRight_field`, `UInt8.toNat_join`: the operations on a
  byte;
* `Bytes.testBit_toNat`, `Bytes.testBit_getD_ofNat`: the bits of a little-endian number are those of
  its bytes;
* `Bytes.byteOf`, `Bytes.byteOf_joinNibbles`: the bytes of a number, and words that are joined out
  of four nibbles of one word and four pairs of bits of another.
-/

namespace UInt8

variable {k : ℕ}

/-- The lowest field. -/
theorem toNat_and_mask (x : UInt8) {mask : UInt8} (h : mask.toNat = 2 ^ k - 1) :
    (x &&& mask).toNat = x.toNat % 2 ^ k := by
  rw [UInt8.toNat_and, h, Nat.and_two_pow_sub_one_eq_mod]

/-- The fields from the bit `k` on. -/
theorem toNat_shiftRight_field (x : UInt8) {s : UInt8} (h : s.toNat = k) (hk : k < 8) :
    (x >>> s).toNat = x.toNat / 2 ^ k := by
  rw [UInt8.toNat_shiftRight, h, Nat.mod_eq_of_lt hk, Nat.shiftRight_eq_div_pow]

/-- A field in front of others. -/
theorem toNat_or_field {lo hi : UInt8} {q : ℕ} (hlo : lo.toNat < 2 ^ k)
    (hhi : hi.toNat = 2 ^ k * q) : (lo ||| hi).toNat = lo.toNat + 2 ^ k * q := by
  rw [UInt8.toNat_or, hhi, Nat.or_comm, ← Nat.two_pow_add_eq_or_of_lt hlo, Nat.add_comm]

/-- A field in front of another that is moved there. -/
theorem toNat_join {lo hi : UInt8} {s : UInt8} (h : s.toNat = k) (hk : k < 8)
    (hlo : lo.toNat < 2 ^ k) (hhi : 2 ^ k * hi.toNat < 256) :
    (lo ||| hi <<< s).toNat = lo.toNat + 2 ^ k * hi.toNat := by
  apply toNat_or_field hlo
  rw [UInt8.toNat_shiftLeft, h, Nat.mod_eq_of_lt hk, Nat.shiftLeft_eq, Nat.mul_comm,
    Nat.mod_eq_of_lt hhi]

/-- Asking for one bit. -/
theorem and_shiftLeft_ne_zero (x : UInt8) {s : UInt8} (h : s.toNat = k) (hk : k < 8) :
    x &&& (1 : UInt8) <<< s ≠ 0 ↔ x.toNat.testBit k := by
  have hmask : ((1 : UInt8) <<< s).toNat = 2 ^ k := by
    have hpow : 2 ^ k < 2 ^ 8 := Nat.pow_lt_pow_right (by decide) hk
    rw [UInt8.toNat_shiftLeft, h, Nat.mod_eq_of_lt hk, Nat.shiftLeft_eq]
    exact (congrArg (· % 2 ^ 8) (Nat.one_mul _)).trans (Nat.mod_eq_of_lt hpow)
  rw [ne_eq, ← UInt8.toNat_inj, UInt8.toNat_and, hmask, Nat.and_two_pow]
  cases x.toNat.testBit k <;> simp

end UInt8

namespace Bytes

/-- The bits of a little-endian number are those of its bytes, one behind the other. -/
theorem testBit_toNat (bs : Bytes) (i : ℕ) :
    (toNat bs).testBit i = (bs.getD (i / 8) 0).toNat.testBit (i % 8) := by
  induction bs generalizing i with
  | nil => simp [toNat]
  | cons b bs ih =>
    have hb : b.toNat < 2 ^ 8 := b.toNat_lt
    have hsum : toNat (b :: bs) = 2 ^ 8 * toNat bs + b.toNat := by
      rw [toNat, Nat.add_comm]
      rfl
    rw [hsum, Nat.testBit_two_pow_mul_add _ hb]
    split_ifs with hi
    · rw [Nat.div_eq_of_lt hi, Nat.mod_eq_of_lt hi, List.getD_cons_zero]
    · obtain ⟨j, rfl⟩ := Nat.exists_eq_add_of_le' (Nat.le_of_not_lt hi)
      rw [Nat.add_sub_cancel, ih, Nat.add_div_right _ (by decide), Nat.add_mod_right,
        List.getD_cons_succ]

/-- The byte number `i` of a number. -/
def byteOf (n i : ℕ) : ℕ := n / 256 ^ i % 256

theorem testBit_byteOf (n i j : ℕ) :
    (byteOf n i).testBit j = (decide (j < 8) && n.testBit (8 * i + j)) := by
  have hpow : 256 ^ i = 2 ^ (8 * i) := by rw [Nat.pow_mul]
  rw [byteOf, hpow, show 256 = 2 ^ 8 from rfl, Nat.testBit_mod_two_pow, Nat.testBit_div_two_pow,
    Nat.add_comm j]

theorem getD_ofNat {width i : ℕ} (n : ℕ) (h : i < width) :
    ((ofNat width n).getD i 0).toNat = byteOf n i := by
  induction width generalizing n i with
  | zero => exact absurd h (Nat.not_lt_zero i)
  | succ width ih =>
    cases i with
    | zero => rw [ofNat, List.getD_cons_zero, UInt8.toNat_ofNat', byteOf, pow_zero, Nat.div_one]
    | succ i =>
      rw [ofNat, List.getD_cons_succ, ih _ (Nat.lt_of_succ_lt_succ h), byteOf, byteOf,
        Nat.div_div_eq_div_mul, pow_succ']

/-- The byte number `i` of a little-endian number is the byte there. -/
theorem byteOf_toNat (bs : Bytes) (i : ℕ) : byteOf (toNat bs) i = (bs.getD i 0).toNat := by
  refine Nat.eq_of_testBit_eq fun j => ?_
  rw [testBit_byteOf]
  by_cases hj : j < 8
  · rw [decide_eq_true hj, Bool.true_and, testBit_toNat, Nat.mul_add_div (by decide),
      Nat.div_eq_of_lt hj, Nat.mul_add_mod, Nat.mod_eq_of_lt hj, Nat.add_zero]
  · have hbyte : (bs.getD i 0).toNat < 2 ^ j :=
      Nat.lt_of_lt_of_le (UInt8.toNat_lt _) (Nat.pow_le_pow_right (by decide) (Nat.le_of_not_lt hj))
    rw [decide_eq_false hj, Bool.false_and, Nat.testBit_lt_two_pow hbyte]

/-- Four fields of four bits, each with two bits of another word behind it. -/
theorem byteOf_joinNibbles (a t : ℕ) {sa st i : ℕ} (hsa : sa ≤ 4) (hst : st ≤ 6) (hi : i < 4) :
    byteOf ((a >>> sa &&& 0x0f0f0f0f) ||| ((t >>> st &&& 0x03030303) <<< 4) % 2 ^ 32) i =
      byteOf a i / 2 ^ sa % 2 ^ 4 + 2 ^ 4 * (byteOf t i / 2 ^ st % 2 ^ 2) := by
  have hmask₂ : ∀ i < 4, ∀ p < 8, (0x0f0f0f0f).testBit (8 * i + p) = decide (p < 4) := by decide
  have hmask₁ : ∀ i < 4, ∀ p < 8, (decide (8 * i + p ≥ 4) && (0x03030303).testBit (8 * i + p - 4)) =
      decide (4 ≤ p ∧ p < 6) := by decide
  refine Nat.eq_of_testBit_eq fun p => ?_
  rw [Nat.add_comm (byteOf a i / 2 ^ sa % 2 ^ 4),
    Nat.testBit_two_pow_mul_add _ (Nat.mod_lt _ (by decide)), testBit_byteOf, Nat.testBit_or,
    Nat.testBit_and, Nat.testBit_shiftRight, Nat.testBit_mod_two_pow, Nat.testBit_shiftLeft,
    Nat.testBit_and, Nat.testBit_shiftRight, Nat.testBit_mod_two_pow, Nat.testBit_mod_two_pow,
    Nat.testBit_div_two_pow, Nat.testBit_div_two_pow, testBit_byteOf, testBit_byteOf]
  by_cases hp : p < 8
  · have hm₁ := hmask₁ i hi p hp
    rw [hmask₂ i hi p hp, Bool.and_left_comm (decide (8 * i + p ≥ 4)), hm₁]
    by_cases hlow : p < 4
    · -- a bit of the nibble
      have hbit : sa + (8 * i + p) = 8 * i + (p + sa) := by omega
      have hin : p + sa < 8 := by omega
      have hnot : ¬(4 ≤ p ∧ p < 6) := by omega
      simp [hp, hlow, hbit, hin, hnot]
    · -- one of the two bits, or none
      have hbit : st + (8 * i + p - 4) = 8 * i + (p - 4 + st) := by omega
      have hword : 8 * i + p < 32 := by omega
      by_cases hmid : p < 6
      · have hin : p - 4 + st < 8 := by omega
        have hfield : p - 4 < 2 := by omega
        simp [hp, hlow, hbit, hword, hin, hfield, hmid, Nat.le_of_not_lt hlow]
      · have hfield : ¬p - 4 < 2 := by omega
        simp [hlow, hmid, hfield]
  · have hfield : ¬p - 4 < 2 := by omega
    have hlow : ¬p < 4 := by omega
    simp [hp, hlow, hfield]

end Bytes
