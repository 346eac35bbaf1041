import Mathlib.Algebra.Order.Archimedean.Real.Basic
import Mathlib.Algebra.Order.Floor.Semiring
import Mathlib.Algebra.Order.Round
import Mathlib.Analysis.SpecialFunctions.Log.Basic
import Mathlib.Tactic.NormNum
import MetricWatch.Scalar

namespace MetricWatch

noncomputable instance : Scalar ℝ where
  abs x := |x|
  sqrt := Real.sqrt
  exp := Real.exp
  ln := Real.log
  sin := Real.sin
  wholePart := Nat.floor
  word := Int.toNat
  isFinite _ := true
  sortsBefore a b := decide (a ≤ b)
  decidableLE := inferInstance
  decidableLT := inferInstance
  zero_le_one := by norm_num
  le_self_left _ := le_rfl
  le_self_right _ := le_rfl
  le_of_not_lt _ _ h := le_of_not_gt h

/-- Shows a number as the nearest whole number. -/
@[reducible] noncomputable def nearestWhole : NumberText ℝ where
  fixed _ x := toString (round x)
  signed _ x := toString (round x)
  plain x := toString (round x)

namespace Exact

variable {u x y : ℝ}

theorem word_natCast (n : ℕ) : Scalar.word ℝ n = n := Int.toNat_natCast n

theorem scalar_abs : Scalar.abs x = |x| := rfl

theorem scalar_sqrt : Scalar.sqrt x = Real.sqrt x := rfl

theorem scalar_exp : Scalar.exp x = Real.exp x := rfl

theorem zero_literal : (0.0 : ℝ) = 0 := by norm_num

theorem numEq_iff : Scalar.NumEq x y ↔ x = y := le_antisymm_iff.symm

theorem isZero_iff : Scalar.IsZero x ↔ x = 0 := by rw [Scalar.IsZero, numEq_iff, zero_literal]

theorem zero_scaled (u : ℝ) : u * 0.0 = 0.0 := by rw [zero_literal, mul_zero]

theorem numEq_scaled (hu : u ≠ 0) : Scalar.NumEq (u * x) (u * y) ↔ Scalar.NumEq x y := by
  rw [numEq_iff, numEq_iff, mul_right_inj' hu]

theorem isZero_scaled (hu : u ≠ 0) : Scalar.IsZero (u * x) ↔ Scalar.IsZero x := by
  rw [isZero_iff, isZero_iff, mul_eq_zero, or_iff_right hu]

theorem pos_scaled (hu : 0 < u) : 0.0 < u * x ↔ 0.0 < x := by
  rw [zero_literal, mul_pos_iff_of_pos_left hu]

theorem smaller_eq_min : Scalar.smaller x y = min x y := by
  rw [Scalar.smaller, if_pos le_rfl, min_def']
  split_ifs <;> order

theorem larger_eq_max : Scalar.larger x y = max x y := by
  rw [Scalar.larger, if_pos le_rfl, max_def']
  split_ifs <;> order

theorem clamp_eq {low high : ℝ} (h : low ≤ high) :
    Scalar.clamp low high x = max low (min high x) := by
  unfold Scalar.clamp
  split_ifs with hlow hhigh
  · rw [max_eq_left (min_le_of_right_le hlow.le)]
  · rw [min_eq_left hhigh.le, max_eq_right h]
  · rw [min_eq_right (not_lt.1 hhigh), max_eq_right (not_lt.1 hlow)]

theorem clamp_mono {low high : ℝ} (h : low ≤ high) (hxy : x ≤ y) :
    Scalar.clamp low high x ≤ Scalar.clamp low high y := by
  rw [clamp_eq h, clamp_eq h]
  exact max_le_max_left low (min_le_min_left high hxy)

end Exact

end MetricWatch
