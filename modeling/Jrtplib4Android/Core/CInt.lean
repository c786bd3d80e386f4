import Mathlib.Algebra.Group.Int.Defs
import Mathlib.Tactic.Common

/-!
# C integer conversions

Machine integers are mathematical integers together with the conversion a C
expression applies to them. `toInt` is the two's complement wrap of a 32-bit
`int`, `toUnsigned` the cast to `unsigned int`, and `toSize` the cast to a
64-bit `size_t`. An expression that mixes `int` and `size_t` operands is written
with every conversion in place; the lemmas below remove the conversions whose
operand is known to be in range.
-/

namespace CSem

/-- Conversion to a 32-bit `int`. -/
def toInt (x : Int) : Int :=
  if x % 2 ^ 32 < 2 ^ 31 then x % 2 ^ 32 else x % 2 ^ 32 - 2 ^ 32

/-- Conversion to a 32-bit `unsigned int`. -/
def toUnsigned (x : Int) : Int := x % 2 ^ 32

/-- Conversion to a 64-bit `size_t`. -/
def toSize (x : Int) : Int := x % 2 ^ 64

/-- A value in the range of `int` is stored unchanged. -/
theorem toInt_eq {x : Int} (hlo : -2 ^ 31 ≤ x) (hhi : x < 2 ^ 31) : toInt x = x := by
  unfold toInt
  split <;> omega

/-- A nonnegative value in range survives the cast to `unsigned int`. -/
theorem toUnsigned_eq {x : Int} (hlo : 0 ≤ x) (hhi : x < 2 ^ 32) : toUnsigned x = x := by
  unfold toUnsigned
  omega

/-- Wrapping an operand of a `size_t` difference first does not change the difference. -/
@[simp] theorem toSize_toSize_sub (x y : Int) : toSize (toSize x - y) = toSize (x - y) := by
  unfold toSize
  omega

/-- Storing a `size_t` in an `int` forgets the wider wrap. -/
@[simp] theorem toInt_toSize (x : Int) : toInt (toSize x) = toInt x := by
  have h : x % 2 ^ 64 % 2 ^ 32 = x % 2 ^ 32 := by omega
  simp only [toInt, toSize, h]

end CSem
