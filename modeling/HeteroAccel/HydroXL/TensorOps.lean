import HeteroAccel.Lib.KeyedMap
import Mathlib.Algebra.Order.Ring.Rat
import Mathlib.Data.UInt

/-!
# Floats

The floating-point operations of the transformer and the sampler are a parameter, `TensorOps`. What
the sources compute with them is not: the order of the operations, the comparisons and the loops are
written out.

## Main definitions

* `TensorOps`: the operations, over floats `α` and doubles `δ`;
* `TensorOps.maxElement`, `TensorOps.softmaxInplace`: the loops that the sampler and attention
  share;
* `TensorOps.IsExact`: operations that are those of a field, without rounding;
* `rationalOps`: rational numbers in the place of floats, to evaluate with.
-/

namespace HeteroAccel

/-- The floating-point operations over floats `α` and doubles `δ`. -/
structure TensorOps (α δ : Type) where
  /-- A literal. -/
  lit : ℚ → α
  /-- The float with a bit pattern. -/
  ofBits : UInt32 → α
  /-- `static_cast<float>` of the double with a bit pattern. -/
  ofDoubleBits : UInt64 → α
  ofUInt32 : UInt32 → α
  ofInt : Int32 → α
  add : α → α → α
  sub : α → α → α
  mul : α → α → α
  div : α → α → α
  neg : α → α
  exp : α → α
  sqrt : α → α
  cos : α → α
  sin : α → α
  pow : α → α → α
  lt : α → α → Bool
  le : α → α → Bool
  eq : α → α → Bool
  zeroDouble : δ
  /-- `sum += static_cast<double>(a) * static_cast<double>(b)`. -/
  mulAdd : δ → α → α → δ
  /-- `sum / n`, for a double and an unsigned number. -/
  divCount : δ → UInt32 → δ
  toFloat : δ → α
  /-- How `std::partial_sort` leaves scored indices that it may order either way. -/
  ties : Traversal (α × UInt32)

namespace TensorOps

variable {α δ : Type} (ops : TensorOps α δ)

/-- The literal 0. -/
def zero : α := ops.lit 0

/-- The literal 1. -/
def one : α := ops.lit 1

/-- The sum of a list, from the left. -/
def sum (l : List α) : α := l.foldl ops.add ops.zero

/-- One round of `std::max_element`: the larger element stays, the first of equal ones. -/
def larger (best e : α × ℕ) : α × ℕ := if ops.lt best.1 e.1 then e else best

/-- `std::max_element` of `x₀ :: xs`: the element and its index. -/
def maxElement (x₀ : α) (xs : List α) : α × ℕ := (xs.zipIdx 1).foldl ops.larger (x₀, 0)

/-- `softmax_inplace`. -/
def softmaxInplace : List α → List α
  | [] => []
  | x₀ :: xs =>
    let mx := (ops.maxElement x₀ xs).1
    let exps := (x₀ :: xs).map fun x => ops.exp (ops.sub x mx)
    let sum := ops.sum exps
    if ops.lt ops.zero sum then exps.map fun x => ops.div x sum else exps

@[simp]
theorem length_softmaxInplace (l : List α) : (ops.softmaxInplace l).length = l.length := by
  cases l with
  | nil => rfl
  | cons x₀ xs =>
    simp only [softmaxInplace]
    split <;> simp

end TensorOps

/-- The number that the bits of a finite IEEE number stand for, with `mantissaBits` bits of
mantissa and an exponent of `exponentBits` bits. -/
def ieeeValue (exponentBits mantissaBits bits : ℕ) : ℚ :=
  let mantissa : ℚ := (bits % 2 ^ mantissaBits : ℕ) / (2 ^ mantissaBits : ℕ)
  let exponent := bits / 2 ^ mantissaBits % 2 ^ exponentBits
  let bias : ℤ := 2 ^ (exponentBits - 1) - 1
  let magnitude : ℚ :=
    if exponent = 0 then mantissa * 2 ^ (1 - bias) else (1 + mantissa) * 2 ^ (exponent - bias)
  if bits / 2 ^ (mantissaBits + exponentBits) % 2 = 1 then -magnitude else magnitude

/-- Rational arithmetic. The functions that leave the rational numbers have their true values at
0, and the root at squares. -/
def rationalOps : TensorOps ℚ ℚ where
  lit q := q
  ofBits bits := ieeeValue 8 23 bits.toNat
  ofDoubleBits bits := ieeeValue 11 52 bits.toNat
  ofUInt32 n := n.toNat
  ofInt n := n.toInt
  add := (· + ·)
  sub := (· - ·)
  mul := (· * ·)
  div := (· / ·)
  neg := (- ·)
  exp x := 1 + x + x * x / 2
  sqrt x := Nat.sqrt x.num.toNat / Nat.sqrt x.den
  cos x := 1 - x * x / 2
  sin x := x
  pow _ x := 1 + x
  lt x y := x < y
  le x y := x ≤ y
  eq x y := x = y
  zeroDouble := 0
  mulAdd sum x y := sum + x * y
  divCount sum n := sum / n.toNat
  toFloat x := x
  ties := .stored

example : rationalOps.ofBits 0xC0200000 = -5 / 2 := by decide +kernel

/-- Exact arithmetic: numbers are not rounded. The functions that leave the numbers, and the ways to
read numbers from bits, may be any. -/
structure TensorOps.IsExact {α δ : Type} [Field α] [LinearOrder α]
    (ops : TensorOps α δ) : Prop where
  lit : ∀ q : ℚ, ops.lit q = q
  ofUInt32 : ∀ n, ops.ofUInt32 n = n.toNat
  ofInt : ∀ n, ops.ofInt n = n.toInt
  add : ∀ x y, ops.add x y = x + y
  sub : ∀ x y, ops.sub x y = x - y
  mul : ∀ x y, ops.mul x y = x * y
  div : ∀ x y, ops.div x y = x / y
  lt : ∀ x y, ops.lt x y = decide (x < y)
  le : ∀ x y, ops.le x y = decide (x ≤ y)

theorem isExact_rationalOps : rationalOps.IsExact := by
  constructor <;> intros <;> simp [rationalOps]

end HeteroAccel
