import MetricWatch.Proofs.Exact.Rank
import MetricWatch.Proofs.Exact.Shift
import MetricWatch.Proofs.Exact.Spread

namespace MetricWatch.Stats

open Exact

variable {values : List ℝ} {a b p : ℝ}

noncomputable def rescale (a b x : ℝ) : ℝ := a * x + b

theorem rescale_sub_rescale (a b x y : ℝ) : rescale a b x - rescale a b y = a * (x - y) := by
  rw [rescale, rescale, add_sub_add_right_eq_sub, mul_sub]

theorem rescale_lerp (a b x y f : ℝ) :
    rescale a b x + f * (rescale a b y - rescale a b x) = rescale a b (x + f * (y - x)) := by
  rw [rescale_sub_rescale, rescale, rescale]
  ring

theorem rescale_lt_rescale_of_pos (ha : 0 < a) {x y : ℝ} :
    rescale a b x < rescale a b y ↔ x < y := by
  rw [rescale, rescale, add_lt_add_iff_right, mul_lt_mul_iff_right₀ ha]

theorem rescale_lt_rescale_of_neg (ha : a < 0) {x y : ℝ} :
    rescale a b x < rescale a b y ↔ y < x := by
  rw [rescale, rescale, add_lt_add_iff_right, mul_lt_mul_left_of_neg ha]

theorem map_rescale (values : List ℝ) (a b : ℝ) :
    values.map (rescale a b) = (values.map (a * ·)).map (· + b) := by
  rw [List.map_map]
  rfl

theorem mean_rescale (h : values ≠ []) (a b : ℝ) :
    mean (values.map (rescale a b)) = rescale a b (mean values) := by
  rw [map_rescale, mean_shifted _ b (mt List.map_eq_nil_iff.1 h), mean_scaled, rescale]

theorem populationVariance_rescale (values : List ℝ) (a b : ℝ) :
    populationVariance (values.map (rescale a b)) = a ^ 2 * populationVariance values := by
  rw [← populationVariance_scaled, map_rescale]
  simp only [populationVariance, List.isEmpty_map, List.length_map, squaredDeviations_shifted]

theorem populationStdDev_rescale (values : List ℝ) (a b : ℝ) :
    populationStdDev (values.map (rescale a b)) = |a| * populationStdDev values := by
  rw [populationStdDev_eq, populationStdDev_eq, populationVariance_rescale, ← sq_abs a,
    Real.sqrt_mul (sq_nonneg _), Real.sqrt_sq (abs_nonneg a)]

theorem sorted_rescale_of_pos (ha : 0 < a) (values : List ℝ) (b : ℝ) :
    sorted (values.map (rescale a b)) = (sorted values).map (rescale a b) := by
  apply sorted_eq_of_perm
  · exact ((sorted_perm values).map _).symm
  · refine (sorted_pairwise values).map _ fun x y hxy ↦ ?_
    exact not_lt.1 (mt (rescale_lt_rescale_of_pos ha).1 hxy.not_gt)

theorem sorted_rescale_of_neg (ha : a < 0) (values : List ℝ) (b : ℝ) :
    sorted (values.map (rescale a b)) = ((sorted values).map (rescale a b)).reverse := by
  apply sorted_eq_of_perm
  · exact (((sorted_perm values).map _).symm).trans (List.reverse_perm _).symm
  · rw [List.pairwise_reverse]
    refine (sorted_pairwise values).map _ fun x y hxy ↦ ?_
    exact not_lt.1 (mt (rescale_lt_rescale_of_neg ha).1 hxy.not_gt)

theorem percentile_rescale (h : values ≠ []) (a b p : ℝ) :
    percentile (values.map (rescale a b)) p = rescale a b (percentile values p) := by
  cases values with
  | nil => exact absurd rfl h
  | cons v rest =>
    simp only [percentile, List.length_map, List.getElem_map]
    split
    · exact rescale_lerp a b _ _ _
    · rfl

/-- From the other end the rank is what is left of all ranks, on the same segment as before. -/
theorem percentile_reverse (hsorted : values.Pairwise (· ≤ ·)) (hp : 0 ≤ p) (hp' : p ≤ 100) :
    percentile values.reverse (100 - p) = percentile values p := by
  rcases values with _ | ⟨v, _ | ⟨w, rest⟩⟩
  · rfl
  · rfl
  set values := v :: w :: rest
  have hn : 2 ≤ values.length := Nat.le_add_left 2 rest.length
  obtain ⟨i, f, hi, hf, hf', hrank, hperc⟩ := exists_segment hn hp
  obtain ⟨j, g, hj, hg, hg', hrank', hperc'⟩ := exists_segment hn (sub_nonneg.2 hp')
  obtain ⟨k, hk⟩ : ∃ k, values.length - 1 = j + k + 1 := ⟨values.length - 2 - j, by omega⟩
  have hlength : j + 1 < values.reverse.length := by
    rw [List.length_reverse]
    exact hj
  have hstart : values.reverse[j] = values[k + 1] := by
    rw [List.getElem_reverse]
    congr 1
    omega
  have hend : values.reverse[j + 1] = values[k] := by
    rw [List.getElem_reverse]
    congr 1
    omega
  have hplace : (k : ℝ) + (1 - g) = i + f := by
    have hlast : ((values.length - 1 : ℕ) : ℝ) = j + k + 1 := by exact_mod_cast hk
    have hlast' : (0 : ℝ) ≤ ((values.length - 1 : ℕ) : ℝ) := Nat.cast_nonneg _
    rw [min_eq_left (mul_le_of_le_one_left hlast' (by linarith))] at hrank hrank'
    linarith
  rw [hperc values rfl, hperc' values.reverse List.length_reverse, hstart, hend]
  calc values[k + 1] + g * (values[k] - values[k + 1])
      = values[k] + (1 - g) * (values[k + 1] - values[k]) := by ring
    _ = values[i] + f * (values[i + 1] - values[i]) := by
      apply le_antisymm
      · exact segment_mono hsorted _ hi (by linarith) (by linarith) hf hf' hplace.le
      · exact segment_mono hsorted hi _ hf hf' (by linarith) (by linarith) hplace.ge

theorem percentile_sorted_rescale_of_pos (ha : 0 < a) (h : values ≠ []) (b p : ℝ) :
    percentile (sorted (values.map (rescale a b))) p =
      rescale a b (percentile (sorted values) p) := by
  rw [sorted_rescale_of_pos ha, percentile_rescale (sorted_ne_nil_iff.2 h)]

theorem percentile_sorted_rescale_of_neg (ha : a < 0) (h : values ≠ []) (b : ℝ) (hp : 0 ≤ p)
    (hp' : p ≤ 100) :
    percentile (sorted (values.map (rescale a b))) (100 - p) =
      rescale a b (percentile (sorted values) p) := by
  have hne : (sorted values).reverse ≠ [] := mt List.reverse_eq_nil_iff.1 (sorted_ne_nil_iff.2 h)
  rw [sorted_rescale_of_neg ha, ← List.map_reverse, percentile_rescale hne,
    percentile_reverse (sorted_pairwise values) hp hp']

end MetricWatch.Stats
