import Mathlib.Algebra.Group.Int.Defs
import Mathlib.Data.Int.Order.Basic

/-! Sums of signed 64-bit numbers, which wrap. -/

namespace WrappingSum

/-- The wrapped sum is the exact one, or off by 2^64 on the side that overflowed. -/
theorem toInt_add_cases (left right : Int64) :
    (-2 ^ 63 ≤ left.toInt + right.toInt ∧ left.toInt + right.toInt < 2 ^ 63 ∧
        (left + right).toInt = left.toInt + right.toInt) ∨
      (2 ^ 63 ≤ left.toInt + right.toInt ∧ (left + right).toInt = left.toInt + right.toInt - 2 ^ 64) ∨
      (left.toInt + right.toInt < -2 ^ 63 ∧ (left + right).toInt = left.toInt + right.toInt + 2 ^ 64) := by
  have leftHigh := left.toInt_lt
  have leftLow := left.le_toInt
  have rightHigh := right.toInt_lt
  have rightLow := right.le_toInt
  rw [Int64.toInt_add, Int.bmod_def]
  split <;> omega

end WrappingSum
