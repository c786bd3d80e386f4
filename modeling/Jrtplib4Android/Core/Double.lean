import Mathlib.Algebra.Group.Int.Defs
import Mathlib.Algebra.Group.Nat.Even
import Mathlib.Tactic.Common

/-!
# Double bit patterns

A `double` is kept as its 64-bit pattern: a sign, eleven exponent bits biased by 1023
and 52 fraction bits. `ofInt` is the conversion of an `int` and `truncate` the
conversion back.
-/

namespace CSem.Double

/-- The pattern of a natural number below `2 ^ 53`. -/
def ofNat (n : Nat) : UInt64 :=
  if n = 0 then 0 else UInt64.ofNat ((1022 + n.log2) * 2 ^ 52 + n * 2 ^ (52 - n.log2))

/-- The pattern of an `int`. -/
def ofInt (x : Int) : UInt64 :=
  if x < 0 then UInt64.ofNat (2 ^ 63) + ofNat x.natAbs else ofNat x.toNat

/-- The integer part of a finite nonnegative value with the given fields. -/
def magnitude (exponent fraction : Nat) : Nat :=
  if exponent ≤ 1075 then (2 ^ 52 + fraction) / 2 ^ (1075 - exponent)
  else (2 ^ 52 + fraction) * 2 ^ (exponent - 1075)

/-- The conversion to an integer, which rounds towards zero. -/
def truncate (v : UInt64) : Int :=
  let m := if v.toNat / 2 ^ 52 % 2 ^ 11 < 1023 then 0
    else magnitude (v.toNat / 2 ^ 52 % 2 ^ 11) (v.toNat % 2 ^ 52)
  if v.toNat < 2 ^ 63 then m else -m

/-- Comparison with zero, which does not see the sign. -/
def isZero (v : UInt64) : Bool := v.toNat % 2 ^ 63 = 0

/-- The significand of a number below `2 ^ 53` has its leading bit in place. -/
theorem significand_bounds {n : Nat} (hn : n ≠ 0) (h : n < 2 ^ 53) :
    2 ^ 52 ≤ n * 2 ^ (52 - n.log2) ∧ n * 2 ^ (52 - n.log2) < 2 ^ 53 := by
  have hlog : n.log2 < 53 := (Nat.log2_lt hn).mpr h
  have hlow : 2 ^ n.log2 * 2 ^ (52 - n.log2) ≤ n * 2 ^ (52 - n.log2) :=
    Nat.mul_le_mul_right _ (Nat.log2_self_le hn)
  have hhigh : n * 2 ^ (52 - n.log2) < 2 ^ (n.log2 + 1) * 2 ^ (52 - n.log2) :=
    Nat.mul_lt_mul_of_pos_right Nat.lt_log2_self (Nat.two_pow_pos _)
  rw [← Nat.pow_add] at hlow hhigh
  constructor
  · rwa [show n.log2 + (52 - n.log2) = 52 by omega] at hlow
  · rwa [show n.log2 + 1 + (52 - n.log2) = 53 by omega] at hhigh

/-- A pattern is below the sign bit. -/
theorem toNat_ofNat {n : Nat} (hn : n ≠ 0) (h : n < 2 ^ 53) :
    (ofNat n).toNat = (1022 + n.log2) * 2 ^ 52 + n * 2 ^ (52 - n.log2) := by
  obtain ⟨-, hhigh⟩ := significand_bounds hn h
  have hlog : n.log2 < 53 := (Nat.log2_lt hn).mpr h
  rw [ofNat, if_neg hn, UInt64.toNat_ofNat']
  apply Nat.mod_eq_of_lt
  calc (1022 + n.log2) * 2 ^ 52 + n * 2 ^ (52 - n.log2)
      < (1022 + n.log2) * 2 ^ 52 + 2 ^ 53 := by omega
    _ ≤ (1022 + 52) * 2 ^ 52 + 2 ^ 53 := by omega
    _ < 2 ^ 64 := by decide

example : (ofInt 1, ofInt 5, truncate (ofInt (-7))) =
    (0x3ff0000000000000, 0x4014000000000000, -7) := by decide

end CSem.Double
