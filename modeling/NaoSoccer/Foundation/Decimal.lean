import Mathlib.Algebra.Order.Field.Basic

/-!
# Decimal numbers in an ordered field

The decimal constants of a program, as exact fractions of natural numbers.
-/

namespace ExactDecimal

variable {K : Type*} [Field K]

/-- The fraction `n / d`. -/
def decimal (n d : ℕ) : K := n / d

variable [LinearOrder K] [IsStrictOrderedRing K]

/-- A fraction of positive numbers is positive. -/
lemma decimal_pos {n d : ℕ} (hn : 0 < n) (hd : 0 < d) : (0 : K) < decimal n d :=
  div_pos (Nat.cast_pos.mpr hn) (Nat.cast_pos.mpr hd)

end ExactDecimal
