import Mathlib.Data.Int.Basic
import Mathlib.Algebra.GroupWithZero.Nat
import Mathlib.Algebra.Group.Int.Defs

/-! # Saturating arithmetic of wide integers

Rust's `u128` and `i128` have no fixed-width type in Lean. Their values are natural numbers and
integers here, and each saturating operation clamps the exact result into the range of a
`bits`-bit integer, as `saturating_add`, `saturating_mul`, `checked_div` and the conversions
of Rust do. Where the exact result fits, the operation is exact.
-/

namespace Saturating

def unsignedMax (bits : ℕ) : ℕ := 2 ^ bits - 1

/-- `saturating_add` of unsigned integers; `saturating_sub` is the subtraction of `ℕ`. -/
def add (bits a b : ℕ) : ℕ := min (a + b) (unsignedMax bits)

/-- `saturating_mul` of unsigned integers. -/
def mul (bits a b : ℕ) : ℕ := min (a * b) (unsignedMax bits)

/-- `div_ceil` of unsigned integers: the quotient, plus one for a remainder. -/
def divCeil (a b : ℕ) : ℕ := a / b + if a % b = 0 then 0 else 1

def signedMin (bits : ℕ) : ℤ := -2 ^ (bits - 1)

def signedMax (bits : ℕ) : ℤ := 2 ^ (bits - 1) - 1

/-- The exact result clamped into the signed range: every saturating signed operation. -/
def clamp (bits : ℕ) (x : ℤ) : ℤ := max (signedMin bits) (min x (signedMax bits))

/-- `saturating_add` of signed integers. -/
def iadd (bits : ℕ) (a b : ℤ) : ℤ := clamp bits (a + b)

/-- `saturating_sub` of signed integers. -/
def isub (bits : ℕ) (a b : ℤ) : ℤ := clamp bits (a - b)

/-- `saturating_mul` of signed integers. -/
def imul (bits : ℕ) (a b : ℤ) : ℤ := clamp bits (a * b)

/-- `saturating_abs`: only the smallest integer has no absolute value in range. -/
def iabs (bits : ℕ) (a : ℤ) : ℤ := clamp bits a.natAbs

/-- `checked_add` of signed integers. -/
def icheckedAdd (bits : ℕ) (a b : ℤ) : Option ℤ :=
  if signedMin bits ≤ a + b ∧ a + b ≤ signedMax bits then some (a + b) else none

/-- `checked_div` of signed integers: Rust's division truncates toward zero, and fails on a
zero divisor and on the one quotient out of range, the smallest integer by `-1`. -/
def icheckedDiv (bits : ℕ) (a b : ℤ) : Option ℤ :=
  if b = 0 ∨ (a = signedMin bits ∧ b = -1) then none else some (a.tdiv b)

/-- `T::try_from` of a signed integer into an unsigned type of `bits` bits. -/
def toUnsigned? (bits : ℕ) (x : ℤ) : Option ℕ :=
  if 0 ≤ x ∧ x ≤ unsignedMax bits then some x.toNat else none

variable {bits a b : ℕ}

theorem add_of_le (fits : a + b ≤ unsignedMax bits) : add bits a b = a + b :=
  min_eq_left fits

theorem mul_of_le (fits : a * b ≤ unsignedMax bits) : mul bits a b = a * b :=
  min_eq_left fits

theorem add_le_unsignedMax (bits a b : ℕ) : add bits a b ≤ unsignedMax bits :=
  min_le_right _ _

theorem add_min_unsignedMax (bits s a : ℕ) :
    add bits (min s (unsignedMax bits)) a = min (s + a) (unsignedMax bits) := by
  unfold add
  omega

/-! ## Signs of saturating signed results

Clamping moves a result toward zero only as far as the edge of the range, and the range
holds zero, so every saturating signed operation keeps the sign of its exact result.
-/

theorem signedMin_nonpos (bits : ℕ) : signedMin bits ≤ 0 := by
  have positive : (0 : ℤ) < 2 ^ (bits - 1) := Int.pow_pos (by decide)
  unfold signedMin
  omega

theorem signedMax_nonneg (bits : ℕ) : 0 ≤ signedMax bits := by
  have positive : (0 : ℤ) < 2 ^ (bits - 1) := Int.pow_pos (by decide)
  unfold signedMax
  omega

variable {x y : ℤ}

theorem clamp_of_mem (low : signedMin bits ≤ x) (high : x ≤ signedMax bits) :
    clamp bits x = x := by
  unfold clamp
  omega

theorem clamp_nonpos (nonpos : x ≤ 0) : clamp bits x ≤ 0 := by
  have low := signedMin_nonpos bits
  unfold clamp
  omega

theorem clamp_nonneg (nonneg : 0 ≤ x) : 0 ≤ clamp bits x := by
  have high := signedMax_nonneg bits
  unfold clamp
  omega

theorem iabs_nonneg (bits : ℕ) (x : ℤ) : 0 ≤ iabs bits x :=
  clamp_nonneg (Int.natCast_nonneg _)

theorem icheckedDiv_of_pos (positive : 0 < y) : icheckedDiv bits x y = some (x.tdiv y) := by
  unfold icheckedDiv
  rw [if_neg (by omega)]

end Saturating
