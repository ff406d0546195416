import Mathlib.Algebra.Order.Ring.Nat
import Mathlib.Tactic.Ring

/-! # A logarithm in fixed point

The binary logarithm with `f` fraction bits, exact at the powers of two and linear in
between, rounded down. -/
namespace FixedLog

def fixedLog2 (f x : ℕ) : ℕ := x.log2 * 2 ^ f + (x - 2 ^ x.log2) * 2 ^ f / 2 ^ x.log2

theorem log2_mono {x y : ℕ} (hx : x ≠ 0) (h : x ≤ y) : x.log2 ≤ y.log2 :=
  (Nat.le_log2 (by omega)).2 ((Nat.log2_self_le hx).trans h)

theorem fraction_lt {f x : ℕ} (hx : x ≠ 0) : (x - 2 ^ x.log2) * 2 ^ f / 2 ^ x.log2 < 2 ^ f := by
  have hlow := Nat.log2_self_le hx
  have hhigh : x < 2 ^ x.log2 * 2 := Nat.lt_log2_self
  rw [Nat.div_lt_iff_lt_mul (Nat.two_pow_pos _), Nat.mul_comm (2 ^ f)]
  exact Nat.mul_lt_mul_of_pos_right (by omega) (Nat.two_pow_pos f)

theorem fixedLog2_lt {f x : ℕ} (hx : x ≠ 0) : fixedLog2 f x < (x.log2 + 1) * 2 ^ f := by
  rw [fixedLog2, Nat.add_mul, Nat.one_mul]
  exact Nat.add_lt_add_left (fraction_lt hx) _

/-- Across a power of two by the bounds of the pieces, inside a piece by its slope. -/
theorem fixedLog2_mono {f x y : ℕ} (hx : x ≠ 0) (h : x ≤ y) : fixedLog2 f x ≤ fixedLog2 f y := by
  rcases Nat.lt_or_eq_of_le (log2_mono hx h) with hlt | heq
  · calc fixedLog2 f x ≤ (x.log2 + 1) * 2 ^ f := (fixedLog2_lt hx).le
      _ ≤ y.log2 * 2 ^ f := Nat.mul_le_mul_right _ hlt
      _ ≤ fixedLog2 f y := Nat.le_add_right _ _
  · rw [fixedLog2, fixedLog2, heq]
    refine Nat.add_le_add_left (Nat.div_le_div_right (Nat.mul_le_mul_right _ ?_)) _
    exact Nat.sub_le_sub_right h _

end FixedLog
