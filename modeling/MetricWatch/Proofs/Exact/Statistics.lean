import Mathlib.Algebra.BigOperators.Ring.List
import Mathlib.Tactic.Ring
import MetricWatch.Proofs.Exact.Arithmetic
import MetricWatch.Stats

namespace MetricWatch.Stats

open Exact

variable {u : ℝ} (values : List ℝ)

theorem sum_eq : sum values = values.sum := by
  rw [sum, List.sum_eq_foldl]
  norm_num

theorem sum_scaled (u : ℝ) : sum (values.map (u * ·)) = u * sum values := by
  rw [sum_eq, sum_eq, List.sum_map_mul_left, List.map_id']

theorem mean_scaled (u : ℝ) : mean (values.map (u * ·)) = u * mean values := by
  simp only [mean, List.isEmpty_map, List.length_map, sum_scaled]
  split
  · exact (zero_scaled u).symm
  · rw [mul_div_assoc]

theorem squaredDeviations_scaled (u : ℝ) :
    squaredDeviations (values.map (u * ·)) = u ^ 2 * squaredDeviations values := by
  have hsquare (x : ℝ) : square (u * x - u * mean values) = u ^ 2 * square (x - mean values) := by
    simp only [square]
    ring
  simp only [squaredDeviations, mean_scaled, List.map_map, Function.comp_def, hsquare]
  rw [← sum_scaled, List.map_map]
  rfl

theorem sqrt_scaled (hu : 0 ≤ u) (x : ℝ) : Scalar.sqrt (u ^ 2 * x) = u * Scalar.sqrt x := by
  rw [scalar_sqrt, Real.sqrt_mul (sq_nonneg u), Real.sqrt_sq hu, scalar_sqrt]

theorem populationVariance_scaled (u : ℝ) :
    populationVariance (values.map (u * ·)) = u ^ 2 * populationVariance values := by
  simp only [populationVariance, List.isEmpty_map, List.length_map, squaredDeviations_scaled]
  split
  · exact (zero_scaled _).symm
  · rw [mul_div_assoc]

theorem populationStdDev_scaled (hu : 0 ≤ u) :
    populationStdDev (values.map (u * ·)) = u * populationStdDev values := by
  simp only [populationStdDev, List.isEmpty_map, populationVariance_scaled, sqrt_scaled hu]
  split
  · exact (zero_scaled u).symm
  · rfl

theorem sampleStdDev_scaled (hu : 0 ≤ u) :
    sampleStdDev (values.map (u * ·)) = u * sampleStdDev values := by
  simp only [sampleStdDev, List.length_map, squaredDeviations_scaled, mul_div_assoc,
    sqrt_scaled hu]
  split
  · exact (zero_scaled u).symm
  · rfl

theorem sorted_scaled (hu : 0 < u) : sorted (values.map (u * ·)) = (sorted values).map (u * ·) := by
  refine (List.map_mergeSort fun a _ b _ ↦ ?_).symm
  exact decide_eq_decide.2 (mul_le_mul_iff_right₀ hu).symm

theorem headD_scaled (u : ℝ) : (values.map (u * ·)).headD 0.0 = u * values.headD 0.0 := by
  cases values with
  | nil => exact (zero_scaled u).symm
  | cons => rfl

theorem getLastD_scaled (u : ℝ) : (values.map (u * ·)).getLastD 0.0 = u * values.getLastD 0.0 := by
  rw [List.getLastD_eq_getLast?, List.getLastD_eq_getLast?, List.getLast?_map]
  cases values.getLast? with
  | none => exact (zero_scaled u).symm
  | some => rfl

theorem percentile_scaled (u p : ℝ) :
    percentile (values.map (u * ·)) p = u * percentile values p := by
  simp only [percentile, List.length_map, List.getElem_map, headD_scaled]
  split
  · rw [← mul_sub, mul_left_comm, ← mul_add]
  · rfl

theorem changePercent_scaled (hu : 0 < u) (base current : ℝ) :
    changePercent (u * base) (u * current) = changePercent base current := by
  simp only [changePercent, isZero_scaled hu.ne', ← mul_sub, scalar_abs, abs_mul, abs_of_pos hu,
    mul_div_mul_left _ _ hu.ne']

end MetricWatch.Stats
