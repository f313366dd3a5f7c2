import Cellular.Text.Digits
import Mathlib.Algebra.Ring.Nat

/-!
# Powers of ten

A number has at most so many digits if it is less than the power of ten with as many zeros. So
whether it can be written depends on its magnitude only, and powers of ten tell numbers that can
be written from those that cannot.
-/

namespace Cellular

theorem digitCount_le_iff {n : Int} {k : Nat} (positive : 0 < k) :
    digitCount n ≤ k ↔ n.natAbs < 10 ^ k :=
  Nat.length_toDigits_le_iff (by decide) positive

theorem isWritable_iff {n : Int} : isWritable n = true ↔ n.natAbs < 10 ^ greatestDigits := by
  rw [isWritable, decide_eq_true_iff]
  exact digitCount_le_iff (by decide)

/-- What is no larger than a number that can be written can be written. -/
theorem isWritable_of_natAbs_le {m n : Int} (below : n.natAbs ≤ m.natAbs)
    (writable : isWritable m = true) : isWritable n = true :=
  isWritable_iff.mpr (Nat.lt_of_le_of_lt below (isWritable_iff.mp writable))

theorem isWritable_neg (n : Int) : isWritable (-n) = isWritable n := by
  rw [isWritable, digitCount, Int.natAbs_neg]
  rfl

/-- A power of ten has one digit more than its exponent. -/
theorem isWritable_pow_eq_false {k : Nat} (large : greatestDigits ≤ k) :
    isWritable ((10 ^ k : Nat) : Int) = false := by
  rw [Bool.eq_false_iff, ne_eq, isWritable_iff, Int.natAbs_natCast, Nat.not_lt]
  exact Nat.pow_le_pow_right (by decide) large

end Cellular
