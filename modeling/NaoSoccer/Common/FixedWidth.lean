import Mathlib.Data.Int.ModEq
import Mathlib.Tactic.NormNum

/-!
# Fixed-width integers

The conversions between the integer types of the program, as functions from the integers.
-/

namespace NaoSoccer

/-- Conversion to `int32_t`. -/
@[irreducible] def toInt32 (n : ℤ) : ℤ := n.bmod (2 ^ 32)

/-- Conversion to `unsigned int`. -/
@[irreducible] def toUInt32 (n : ℤ) : ℕ := (n % 2 ^ 32).toNat

/-- Conversion to `size_t` or `unsigned long`. -/
@[irreducible] def toSizeT (n : ℤ) : ℕ := (n % 2 ^ 64).toNat

/-- A number in the range of `int32_t` is not changed. -/
lemma toInt32_eq {n : ℤ} (hlo : -2 ^ 31 ≤ n) (hhi : n < 2 ^ 31) : toInt32 n = n := by
  unfold toInt32
  exact Int.bmod_eq_of_le (by omega) (by omega)

/-- A natural number below `2 ^ 32` is not changed. -/
lemma toUInt32_eq {n : ℕ} (h : n < 2 ^ 32) : toUInt32 n = n := by
  unfold toUInt32
  omega

/-- A natural number below `2 ^ 64` is not changed. -/
lemma toSizeT_eq {n : ℕ} (h : n < 2 ^ 64) : toSizeT n = n := by
  unfold toSizeT
  omega

/-- A number above the range of `int32_t` becomes a negative one. -/
lemma toInt32_of_ge {n : ℤ} (hlo : 2 ^ 31 ≤ n) (hhi : n < 2 ^ 32) : toInt32 n = n - 2 ^ 32 := by
  unfold toInt32
  rw [← Int.sub_bmod_right n]
  exact Int.bmod_eq_of_le (by push_cast; omega) (by push_cast; omega)

/-- `int32_t` holds no number outside of its range. -/
lemma toInt32_mem (n : ℤ) : -2 ^ 31 ≤ toInt32 n ∧ toInt32 n < 2 ^ 31 := by
  have hlo := Int.le_bmod (x := n) (m := 2 ^ 32) (by norm_num)
  have hhi := Int.bmod_lt (x := n) (m := 2 ^ 32) (by norm_num)
  unfold toInt32
  norm_num at hlo hhi ⊢
  omega

end NaoSoccer
