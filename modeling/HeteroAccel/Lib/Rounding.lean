import Mathlib.Algebra.Order.Field.Power
import Mathlib.Data.Int.Log
import Mathlib.Data.Rat.Floor
import Mathlib.Tactic

/-!
# Rounding to a binary format

A binary format has a number of significant bits and a least exponent; its numbers are the integers
of that many bits, scaled by powers of two. A rational number is rounded to the nearest of them, and
to the one with an even last bit if two are equally near. There is no greatest exponent, and so no
overflow.

## Main definitions

* `nearest`: the nearest integer, ties to even;
* `Format`, `Format.round`: a format and its rounding; `binary64` is the format of the doubles;
* `Format.Representable`: the numbers of a format.

## Main results

* `Format.representable_round`, `Format.round_of_representable`: the rounding gives the numbers of
  the format and keeps them;
* `Format.abs_round_sub_le`: its relative error;
* `Format.le_round_iff`: which numbers are rounded up to a given one.
-/

namespace HeteroAccel.Lib.Rounding

/-! ## Integers -/

/-- The nearest integer; of two that are equally near, the even one. -/
def nearest (q : ℚ) : ℤ :=
  if q - ⌊q⌋ < 1 / 2 then ⌊q⌋
  else if 1 / 2 < q - ⌊q⌋ then ⌊q⌋ + 1
  else if ⌊q⌋ % 2 = 0 then ⌊q⌋
  else ⌊q⌋ + 1

/-- The nearest integer is half a unit away at most. -/
theorem abs_nearest_sub_le (q : ℚ) : |(nearest q : ℚ) - q| ≤ 1 / 2 := by
  have hlow := Int.floor_le q
  have hhigh := Int.lt_floor_add_one q
  rw [nearest, abs_le]
  split_ifs <;> push_cast <;> constructor <;> linarith

/-- The integer that is nearest to an integer. -/
@[simp]
theorem nearest_intCast (n : ℤ) : nearest n = n := by
  simp [nearest]

/-- Rounding does not go below an integer. -/
theorem le_nearest {n : ℤ} {q : ℚ} (h : n ≤ q) : n ≤ nearest q := by
  have herr := (abs_le.mp (abs_nearest_sub_le q)).1
  have hlt : (n : ℚ) < ((nearest q + 1 : ℤ) : ℚ) := by push_cast; linarith
  exact Int.lt_add_one_iff.mp (by exact_mod_cast hlt)

/-- Rounding does not go beyond an integer. -/
theorem nearest_le {n : ℤ} {q : ℚ} (h : q ≤ n) : nearest q ≤ n := by
  have herr := (abs_le.mp (abs_nearest_sub_le q)).2
  have hlt : (nearest q : ℚ) < ((n + 1 : ℤ) : ℚ) := by push_cast; linarith
  exact Int.lt_add_one_iff.mp (by exact_mod_cast hlt)

/-- The numbers from half a unit below an even integer on are rounded up to it. -/
theorem le_nearest_iff {n : ℤ} (hn : Even n) (q : ℚ) : n ≤ nearest q ↔ (n : ℚ) - 1 / 2 ≤ q := by
  constructor
  · intro hle
    have herr := (abs_le.mp (abs_nearest_sub_le q)).2
    have hcast : (n : ℚ) ≤ nearest q := by exact_mod_cast hle
    linarith
  · intro hle
    rcases le_or_gt (n : ℚ) q with hbelow | habove
    · exact le_nearest hbelow
    · -- the integer below is `n - 1`, which is odd, so a remainder of a half goes up
      have hfloor : ⌊q⌋ = n - 1 := by
        rw [Int.floor_eq_iff]
        push_cast
        constructor <;> linarith
      have hodd : ¬(n - 1) % 2 = 0 := by
        obtain ⟨k, rfl⟩ := hn
        omega
      rw [nearest, hfloor, if_neg (by push_cast; linarith), if_neg hodd, ite_self]
      omega

/-! ## Formats -/

/-- A binary format: its number of significant bits and its least exponent. -/
structure Format where
  precision : ℕ
  minExponent : ℤ
  precision_pos : 0 < precision

/-- The format of the doubles. -/
def binary64 : Format where
  precision := 53
  minExponent := -1074
  precision_pos := by decide

namespace Format

variable (f : Format)

/-- The exponent of the last bit of a number. -/
def exponent (q : ℚ) : ℤ := max (Int.log 2 |q| - (f.precision - 1)) f.minExponent

/-- The unit in the last place. -/
def ulp (q : ℚ) : ℚ := 2 ^ f.exponent q

/-- Rounding to the nearest number of the format. -/
def round (q : ℚ) : ℚ := nearest (q / f.ulp q) * f.ulp q

/-- The numbers of the format. -/
def Representable (q : ℚ) : Prop :=
  ∃ m e : ℤ, |m| ≤ 2 ^ f.precision ∧ f.minExponent ≤ e ∧ q = m * 2 ^ e

variable {f} {q : ℚ} {e : ℤ}

/-- A unit in the last place is positive. -/
theorem ulp_pos : 0 < f.ulp q := zpow_pos (by norm_num) _

/-- Zero is kept. -/
@[simp]
theorem round_zero : f.round 0 = 0 := by
  have hnearest : nearest 0 = 0 := nearest_intCast 0
  rw [round, zero_div, hnearest, Int.cast_zero, zero_mul]

/-! ### Exponents -/

/-- A number has no bit above the significant ones. -/
theorem abs_lt_zpow (q : ℚ) : |q| < 2 ^ (f.exponent q + f.precision) := by
  have hlog : |q| < ((2 : ℕ) : ℚ) ^ (Int.log 2 |q| + 1) := Int.lt_zpow_succ_log_self (by decide) _
  have hle : Int.log 2 |q| + 1 ≤ f.exponent q + f.precision := by
    have hmax := le_max_left (Int.log 2 |q| - (f.precision - 1 : ℤ)) f.minExponent
    rw [exponent]
    omega
  exact hlog.trans_le (zpow_le_zpow_right₀ (by norm_num) hle)

/-- A number that has no bit above the significant ones of an exponent has no greater exponent. -/
theorem exponent_le (hzero : q ≠ 0) (hq : |q| < 2 ^ (e + f.precision)) (he : f.minExponent ≤ e) :
    f.exponent q ≤ e := by
  apply max_le _ he
  have hlog : Int.log 2 |q| < e + f.precision := by
    apply (Int.lt_zpow_iff_log_lt (by decide) (abs_pos.mpr hzero)).mp
    rwa [Nat.cast_ofNat]
  omega

/-- A number whose exponent is not the least one has its first significant bit. -/
theorem zpow_le_abs (hzero : q ≠ 0) (h : f.minExponent < f.exponent q) :
    2 ^ (f.exponent q + (f.precision - 1)) ≤ |q| := by
  have hlog : ((2 : ℕ) : ℚ) ^ Int.log 2 |q| ≤ |q| :=
    Int.zpow_log_le_self (by decide) (abs_pos.mpr hzero)
  have hexp : f.exponent q = Int.log 2 |q| - (f.precision - 1) :=
    (max_choice _ _).resolve_right h.ne'
  rwa [hexp, sub_add_cancel, ← Nat.cast_ofNat]

/-- Scaling by a power of two keeps the sign. -/
theorem abs_mul_zpow (q : ℚ) (e : ℤ) : |q * 2 ^ e| = |q| * 2 ^ e := by
  have hpos : (0 : ℚ) < 2 ^ e := zpow_pos two_pos e
  rw [abs_mul, abs_of_pos hpos]

/-- A multiple of a power of two is a whole number of smaller powers. -/
theorem exists_eq_mul_zpow (m : ℤ) {k : ℤ} (hk : k ≤ e) : ∃ n : ℤ, (m * 2 ^ e : ℚ) = n * 2 ^ k := by
  obtain ⟨d, rfl⟩ := Int.le.dest hk
  refine ⟨m * 2 ^ d, ?_⟩
  rw [zpow_add₀ two_ne_zero, zpow_natCast]
  push_cast
  ring

/-! ### The numbers of the format -/

/-- A number in units of its last place has the significant bits. -/
theorem abs_nearest_div_ulp_le (q : ℚ) : |nearest (q / f.ulp q)| ≤ 2 ^ f.precision := by
  have hlt : |q / f.ulp q| < 2 ^ f.precision := by
    rw [abs_div, abs_of_pos ulp_pos, div_lt_iff₀ ulp_pos, ulp, ← zpow_natCast,
      ← zpow_add₀ two_ne_zero, add_comm]
    exact abs_lt_zpow q
  rw [abs_lt] at hlt
  rw [abs_le]
  exact ⟨le_nearest (by push_cast; exact hlt.1.le), nearest_le (by push_cast; exact hlt.2.le)⟩

/-- What the rounding gives is a number of the format. -/
theorem representable_round (q : ℚ) : f.Representable (f.round q) :=
  ⟨nearest (q / f.ulp q), f.exponent q, abs_nearest_div_ulp_le q, le_max_right _ _, rfl⟩

/-- A power of two with one bit more than the significant ones is a number of the next exponent. -/
theorem exists_abs_lt {m : ℤ} (hm : |m| = 2 ^ f.precision) (e : ℤ) :
    ∃ k : ℤ, |k| < 2 ^ f.precision ∧ (m * 2 ^ e : ℚ) = k * 2 ^ (e + 1) := by
  obtain ⟨p, hp⟩ : ∃ p, f.precision = p + 1 :=
    ⟨f.precision - 1, (Nat.sub_add_cancel f.precision_pos).symm⟩
  rw [hp, pow_succ] at hm ⊢
  have hpow : (0 : ℤ) < 2 ^ p := pow_pos two_pos p
  obtain ⟨k, rfl⟩ : ∃ k, m = 2 * k := by
    rcases abs_choice m with habs | habs
    · exact ⟨2 ^ p, by omega⟩
    · exact ⟨-2 ^ p, by omega⟩
  refine ⟨k, ?_, ?_⟩
  · rw [abs_mul, abs_two] at hm
    omega
  · rw [zpow_add_one₀ two_ne_zero]
    push_cast
    ring

/-- The last bit of a number is not above the exponent of the significant ones. -/
theorem exists_eq_mul_ulp {m : ℤ} (hm : |m| < 2 ^ f.precision) (he : f.minExponent ≤ e)
    (hzero : (m * 2 ^ e : ℚ) ≠ 0) : ∃ n : ℤ, (m * 2 ^ e : ℚ) = n * f.ulp (m * 2 ^ e) := by
  have habs : |(m * 2 ^ e : ℚ)| < 2 ^ (e + f.precision) := by
    rw [abs_mul_zpow, add_comm, zpow_add₀ two_ne_zero, zpow_natCast]
    exact mul_lt_mul_of_pos_right (by exact_mod_cast hm) (zpow_pos two_pos e)
  exact exists_eq_mul_zpow m (exponent_le hzero habs he)

/-- A number of the format is kept. -/
theorem round_of_representable (h : f.Representable q) : f.round q = q := by
  rcases eq_or_ne q 0 with rfl | hzero
  · exact round_zero
  obtain ⟨m, e, hm, he, rfl⟩ := h
  obtain ⟨n, hn⟩ : ∃ n : ℤ, (m * 2 ^ e : ℚ) = n * f.ulp (m * 2 ^ e) := by
    rcases hm.lt_or_eq with hlt | heq
    · exact exists_eq_mul_ulp hlt he hzero
    · obtain ⟨k, hk, hmk⟩ := exists_abs_lt heq e
      rw [hmk] at hzero ⊢
      exact exists_eq_mul_ulp hk (by omega) hzero
  have hdiv : (m * 2 ^ e : ℚ) / f.ulp (m * 2 ^ e) = n := by
    rw [div_eq_iff ulp_pos.ne']
    exact hn
  rw [round, hdiv, nearest_intCast, ← hn]

/-- The integers of as many bits as are significant are numbers of the format. -/
theorem representable_natCast {n : ℕ} (hn : n ≤ 2 ^ f.precision) (he : f.minExponent ≤ 0) :
    f.Representable n :=
  ⟨n, 0, by exact_mod_cast hn, he, by simp⟩

/-- Scaling up by a power of two gives another number of the format. -/
theorem Representable.mul_two_pow (h : f.Representable q) (k : ℕ) :
    f.Representable (q * 2 ^ k) := by
  obtain ⟨m, e, hm, he, rfl⟩ := h
  refine ⟨m, e + k, hm, by omega, ?_⟩
  rw [zpow_add₀ two_ne_zero, zpow_natCast, mul_assoc]

/-! ### Bounds -/

/-- The relative error, for numbers with all significant bits. -/
theorem abs_round_sub_le (hq : 2 ^ (f.minExponent + (f.precision - 1)) ≤ q) :
    |f.round q - q| ≤ q / 2 ^ f.precision := by
  have hpos : 0 < q := lt_of_lt_of_le (zpow_pos two_pos _) hq
  have hulp : f.ulp q ≤ 2 * (q / 2 ^ f.precision) := by
    have hlog : ((2 : ℕ) : ℚ) ^ Int.log 2 q ≤ q := Int.zpow_log_le_self (by decide) hpos
    have hmin : f.minExponent + (f.precision - 1) ≤ Int.log 2 q := by
      apply (Int.zpow_le_iff_le_log (by decide) hpos).mp
      rwa [Nat.cast_ofNat]
    have hexp : f.exponent q = Int.log 2 q + 1 - f.precision := by
      rw [exponent, abs_of_pos hpos, max_eq_left (by omega)]
      ring
    rw [ulp, hexp, zpow_sub₀ two_ne_zero, zpow_add_one₀ two_ne_zero, zpow_natCast,
      mul_div_right_comm, mul_comm]
    rw [Nat.cast_ofNat] at hlog
    gcongr
  calc |f.round q - q| = |(nearest (q / f.ulp q) : ℚ) - q / f.ulp q| * f.ulp q := by
        rw [← abs_of_pos (ulp_pos (f := f) (q := q)), ← abs_mul, abs_of_pos ulp_pos, sub_mul,
          div_mul_cancel₀ _ ulp_pos.ne', round]
    _ ≤ 1 / 2 * f.ulp q := mul_le_mul_of_nonneg_right (abs_nearest_sub_le _) ulp_pos.le
    _ ≤ q / 2 ^ f.precision := by linarith

/-- The numbers that are rounded up to one with an even last bit: those from half a unit below it
on. -/
theorem le_round_iff {n : ℤ} (heven : Even n) (hlow : 2 ^ (f.precision - 1) < n)
    (hhigh : n ≤ 2 ^ f.precision) (he : f.minExponent ≤ e) (hq : 0 ≤ q) :
    n * 2 ^ e ≤ f.round q ↔ (n - 1 / 2) * 2 ^ e ≤ q := by
  have hunit : (0 : ℚ) < 2 ^ e := zpow_pos two_pos e
  obtain ⟨p, hp⟩ : ∃ p, f.precision = p + 1 :=
    ⟨f.precision - 1, (Nat.sub_add_cancel f.precision_pos).symm⟩
  rw [hp, Nat.add_sub_cancel] at hlow
  have hlow' : (2 : ℚ) ^ p + 1 ≤ n := by exact_mod_cast hlow
  have hhigh' : (n : ℚ) ≤ 2 ^ p * 2 := by
    rw [hp, pow_succ] at hhigh
    exact_mod_cast hhigh
  -- a number of 0 is on neither side
  rcases hq.eq_or_lt with rfl | hpos
  · have hbits : (1 : ℚ) ≤ 2 ^ p := one_le_pow₀ (by norm_num)
    rw [round_zero]
    refine iff_of_false ?_ ?_
    · exact not_le.mpr (mul_pos (by linarith) hunit)
    · exact not_le.mpr (mul_pos (by linarith) hunit)
  -- by where the number lies, seen from the grid of `n`
  rcases lt_trichotomy (f.exponent q) e with hbelow | heq | habove
  · -- the number is below the binade of `n`, and its rounding at the start of it at most
    have hulp : f.ulp q * 2 ≤ 2 ^ e := by
      rw [ulp, ← zpow_add_one₀ two_ne_zero]
      exact zpow_le_zpow_right₀ one_le_two (by omega)
    have hstart : 2 ^ p * 2 * f.ulp q ≤ 2 ^ p * 2 ^ e := by
      have hscaled := mul_le_mul_of_nonneg_left hulp (pow_nonneg (zero_le_two (α := ℚ)) p)
      linarith
    have hround : f.round q ≤ 2 ^ p * 2 ^ e := by
      have hbits : nearest (q / f.ulp q) ≤ 2 ^ p * 2 := by
        have habs := (abs_le.mp (abs_nearest_div_ulp_le (f := f) q)).2
        rwa [hp, pow_succ] at habs
      have hbits' : (nearest (q / f.ulp q) : ℚ) ≤ 2 ^ p * 2 := by exact_mod_cast hbits
      exact (mul_le_mul_of_nonneg_right hbits' ulp_pos.le).trans hstart
    have hlt : q < 2 ^ p * 2 ^ e := by
      have habs := abs_lt_zpow (f := f) q
      rw [abs_of_pos hpos, zpow_add₀ two_ne_zero, zpow_natCast, hp, pow_succ, mul_comm] at habs
      exact habs.trans_le hstart
    refine iff_of_false (not_le.mpr (hround.trans_lt ?_)) (not_le.mpr (hlt.trans_le ?_))
    · exact mul_lt_mul_of_pos_right (by linarith) hunit
    · exact mul_le_mul_of_nonneg_right (by linarith) hunit.le
  · -- on the same grid
    rw [round, ulp, heq, mul_le_mul_iff_left₀ hunit, Int.cast_le, le_nearest_iff heven,
      le_div_iff₀ hunit]
  · -- the number is above the binade of `n`
    have hulp : 2 ^ e * 2 ≤ f.ulp q := by
      rw [ulp, ← zpow_add_one₀ two_ne_zero]
      exact zpow_le_zpow_right₀ one_le_two (by omega)
    have hstart : 2 ^ p * 2 * 2 ^ e ≤ 2 ^ p * f.ulp q := by
      have hscaled := mul_le_mul_of_nonneg_left hulp (pow_nonneg (zero_le_two (α := ℚ)) p)
      linarith
    have hle : 2 ^ p * f.ulp q ≤ q := by
      have habs := zpow_le_abs hpos.ne' (he.trans_lt habove)
      rwa [abs_of_pos hpos, hp, Nat.cast_add_one, add_sub_cancel_right, zpow_add₀ two_ne_zero,
        zpow_natCast, mul_comm] at habs
    have hround : 2 ^ p * f.ulp q ≤ f.round q := by
      have hbits : (2 ^ p : ℤ) ≤ nearest (q / f.ulp q) :=
        le_nearest (by rw [le_div_iff₀ ulp_pos]; exact_mod_cast hle)
      exact mul_le_mul_of_nonneg_right (by exact_mod_cast hbits) ulp_pos.le
    have hn : (n : ℚ) * 2 ^ e ≤ 2 ^ p * 2 * 2 ^ e := mul_le_mul_of_nonneg_right hhigh' hunit.le
    refine iff_of_true (hn.trans (hstart.trans hround)) (le_trans ?_ (hn.trans (hstart.trans hle)))
    exact mul_le_mul_of_nonneg_right (by linarith) hunit.le

end Format

end HeteroAccel.Lib.Rounding
