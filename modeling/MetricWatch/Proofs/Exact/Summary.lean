import MetricWatch.Proofs.Exact.Rank
import MetricWatch.Proofs.Exact.Spread
import MetricWatch.Proofs.Validation

namespace MetricWatch

/-- What all that judges by a summary takes for granted. -/
structure Baseline.Ordered (b : Baseline ℝ) : Prop where
  minimum_le_p5 : b.minimum ≤ b.p5
  p5_le_p25 : b.p5 ≤ b.p25
  p25_le_median : b.p25 ≤ b.median
  median_le_p75 : b.median ≤ b.p75
  p75_le_p95 : b.p75 ≤ b.p95
  p95_le_p99 : b.p95 ≤ b.p99
  p99_le_maximum : b.p99 ≤ b.maximum
  minimum_le_mean : b.minimum ≤ b.mean
  mean_le_maximum : b.mean ≤ b.maximum
  iqr_nonneg : 0 ≤ b.iqr
  stdDev_nonneg : 0 ≤ b.stdDev
  lowerFence_le_p25 : b.lowerFence ≤ b.p25
  p75_le_upperFence : b.p75 ≤ b.upperFence
  stdDev_le_half_range : b.stdDev ≤ (b.maximum - b.minimum) / 2

namespace Stats

variable {values : List ℝ} {p q : ℝ}

theorem percentile_sorted_mono (hp : 0 ≤ p) (hpq : p ≤ q) :
    percentile (sorted values) p ≤ percentile (sorted values) q :=
  percentile_mono (sorted_pairwise values) hp hpq

theorem percentile_sorted_bounds (hne : values ≠ []) (hp : 0 ≤ p) :
    (sorted values).headD 0.0 ≤ percentile (sorted values) p ∧
      percentile (sorted values) p ≤ (sorted values).getLastD 0.0 := by
  have hne' : sorted values ≠ [] := sorted_ne_nil_iff.2 hne
  rw [List.headD_eq_head?_getD, List.head?_eq_some_head hne', List.getLastD_eq_getLast?,
    List.getLast?_eq_some_getLast hne']
  exact percentile_bounds (sorted_pairwise values) hne' hp

theorem quartiles_ordered (values : List ℝ) :
    percentile (sorted values) 25.0 ≤ median (sorted values) ∧
      median (sorted values) ≤ percentile (sorted values) 75.0 := by
  constructor
  · apply percentile_sorted_mono
    · norm_num
    · norm_num
  · apply percentile_sorted_mono
    · norm_num
    · norm_num

end Stats

open Exact

theorem pos_of_positive {x : ℝ} (h : PositiveThreshold x) : 0 < x := by
  have hpos := not_le.1 h.2
  rwa [zero_literal] at hpos

theorem nonneg_of_positive {x : ℝ} (h : PositiveThreshold x) : 0 ≤ x := (pos_of_positive h).le

theorem Comparator.threshold_pos {c : Comparator ℝ} (hc : c.validate = .ok ()) {t : String × ℝ}
    (ht : t ∈ c.thresholds) : 0 < t.2 := pos_of_positive ((validate_eq_ok_iff.1 hc).1 t ht)

theorem Baseline.stdDev_pos {b : Baseline ℝ} (hb : b.Valid) : 0 < b.stdDev := by
  rw [← zero_literal]
  exact hb.2

theorem Detector.validate_standard : (standard : Detector ℝ).validate = .ok () := by
  rw [validate_eq_ok_iff]
  norm_num [standard, PositiveThreshold, Scalar.isFinite]

theorem Comparator.validate_standard : (standard : Comparator ℝ).validate = .ok () := by
  rw [validate_eq_ok_iff]
  norm_num [standard, thresholds, PositiveThreshold, Scalar.isFinite]

namespace Detector

theorem fences_ordered {d : Detector ℝ} (hd : d.validate = .ok ()) (values : List ℝ) :
    let f := d.fences values
    (f.lower ≤ f.q1 ∧ f.q1 ≤ f.median ∧ f.median ≤ f.q3 ∧ f.q3 ≤ f.upper) ∧ 0 ≤ f.iqr := by
  intro f
  obtain ⟨-, hmultiplier, -⟩ := validate_eq_ok_iff.1 hd
  obtain ⟨hlow, hhigh⟩ := Stats.quartiles_ordered values
  have hiqr : 0 ≤ f.iqr := sub_nonneg.2 (hlow.trans hhigh)
  have hdistance : 0 ≤ d.iqrMultiplier * f.iqr := mul_nonneg (nonneg_of_positive hmultiplier) hiqr
  exact ⟨⟨sub_le_self f.q1 hdistance, hlow, hhigh, le_add_of_nonneg_right hdistance⟩, hiqr⟩

/-- The two fences and both percentiles next to them come from the quartiles of the one sorted copy,
the mean and the deviation from the series itself, whose values are all in the range. -/
theorem baseline_ordered {d : Detector ℝ} (hd : d.validate = .ok ()) (now : Instant)
    {values : List ℝ} (hne : values ≠ []) (metric : String) (periodDays : Nat) :
    (d.baseline now values metric periodDays).Ordered := by
  have hrange : ∀ x ∈ values,
      (Stats.sorted values).headD 0.0 ≤ x ∧ x ≤ (Stats.sorted values).getLastD 0.0 :=
    fun x hx ↦ ⟨Stats.headD_sorted_le hx, Stats.le_getLastD_sorted hx⟩
  obtain ⟨hmean, hmean'⟩ := Stats.mean_bounds hne hrange
  obtain ⟨⟨hlower, hmedian, hmedian', hupper⟩, hiqr⟩ := fences_ordered hd values
  rw [baseline, Baseline.ofSample, if_neg (mt List.isEmpty_iff.1 hne)]
  exact {
    minimum_le_p5 := (Stats.percentile_sorted_bounds hne (by norm_num)).1
    p5_le_p25 := Stats.percentile_sorted_mono (by norm_num) (by norm_num)
    p25_le_median := hmedian
    median_le_p75 := hmedian'
    p75_le_p95 := Stats.percentile_sorted_mono (by norm_num) (by norm_num)
    p95_le_p99 := Stats.percentile_sorted_mono (by norm_num) (by norm_num)
    p99_le_maximum := (Stats.percentile_sorted_bounds hne (by norm_num)).2
    minimum_le_mean := hmean
    mean_le_maximum := hmean'
    iqr_nonneg := hiqr
    stdDev_nonneg := Stats.populationStdDev_nonneg values
    lowerFence_le_p25 := hlower
    p75_le_upperFence := hupper
    stdDev_le_half_range := Stats.populationStdDev_le hne hrange }

theorem baseline_fences (d : Detector ℝ) (now : Instant) (values : List ℝ) (metric : String)
    (periodDays : Nat) :
    let b := d.baseline now values metric periodDays
    0 ≤ b.iqr ∧ b.lowerFence = b.p25 - d.iqrMultiplier * b.iqr ∧
      b.upperFence = b.p75 + d.iqrMultiplier * b.iqr := by
  rcases eq_or_ne values [] with rfl | hne
  · simp [baseline, Baseline.ofSample, Baseline.empty, zero_literal]
  · obtain ⟨hlow, hhigh⟩ := Stats.quartiles_ordered values
    rw [baseline, Baseline.ofSample, if_neg (mt List.isEmpty_iff.1 hne)]
    exact ⟨sub_nonneg.2 (hlow.trans hhigh), rfl, rfl⟩

theorem baseline_ordered_pair :
    let d : Detector ℝ := .standard
    let b := d.baseline .epoch [2, 0] "latency" 7
    (d.validate = .ok () ∧ [2, 0] ≠ ([] : List ℝ)) ∧ b.Ordered ∧
      b.stdDev = (b.maximum - b.minimum) / 2 := by
  intro d b
  have hd : d.validate = .ok () := by
    rw [validate_eq_ok_iff]
    norm_num [d, standard, PositiveThreshold, Scalar.isFinite]
  have hne : [2, 0] ≠ ([] : List ℝ) := List.cons_ne_nil _ _
  have hordered : b.Ordered := baseline_ordered hd .epoch hne "latency" 7
  have hsorted : Stats.sorted ([2, 0] : List ℝ) = [0, 2] :=
    Stats.sorted_eq_of_perm (.swap 0 2 []) (by simp)
  refine ⟨⟨hd, hne⟩, hordered, ?_⟩
  norm_num [b, baseline, Baseline.ofSample, hsorted, Stats.populationStdDev,
    Stats.populationVariance, Stats.squaredDeviations, Stats.mean, Stats.square, Stats.sum_eq,
    scalar_sqrt]

end Detector

end MetricWatch
