import MetricWatch.Proofs.Detection.Points
import MetricWatch.Proofs.Exact.Statistics

namespace MetricWatch

open Exact

variable {u : ℝ}

noncomputable def Baseline.scaled (u : ℝ) (b : Baseline ℝ) : Baseline ℝ :=
  { b with
    mean := u * b.mean
    median := u * b.median
    stdDev := u * b.stdDev
    minimum := u * b.minimum
    maximum := u * b.maximum
    p5 := u * b.p5
    p25 := u * b.p25
    p75 := u * b.p75
    p95 := u * b.p95
    p99 := u * b.p99
    iqr := u * b.iqr
    lowerFence := u * b.lowerFence
    upperFence := u * b.upperFence }

noncomputable def Anomaly.scaled (u : ℝ) (a : Anomaly ℝ) : Anomaly ℝ :=
  { a with
    actual := u * a.actual
    expected := u * a.expected
    deviation := u * a.deviation }

noncomputable def Comparison.scaled (u : ℝ) (c : Comparison ℝ) : Comparison ℝ :=
  { c with
    baseline := c.baseline.scaled u
    mean := u * c.mean
    median := u * c.median
    p99 := u * c.p99
    anomalies := c.anomalies.map (·.scaled u) }

namespace Baseline

variable (b : Baseline ℝ)

theorem empty_scaled (now : Instant) (metric : String) (days : Nat) :
    (empty now metric days).scaled u = empty now metric days := by
  simp only [scaled, empty, zero_scaled]

theorem ofSample_scaled (hu : 0 < u) (now : Instant) (multiplier : ℝ) (values : List ℝ)
    (metric : String) (days : Nat) :
    ofSample now multiplier (values.map (u * ·)) metric days =
      (ofSample now multiplier values metric days).scaled u := by
  simp only [ofSample, List.isEmpty_map]
  split
  · exact (empty_scaled now metric days).symm
  · simp only [scaled, Stats.median, List.length_map, Stats.mean_scaled,
      Stats.populationStdDev_scaled _ hu.le, Stats.sorted_scaled _ hu, Stats.percentile_scaled,
      Stats.headD_scaled, Stats.getLastD_scaled, mul_sub, mul_add, mul_left_comm]

theorem valid_scaled (hu : 0 < u) : (b.scaled u).Valid ↔ b.Valid := by
  simp only [Valid, scaled, pos_scaled hu]

theorem zScore_scaled (hu : 0 < u) (v : ℝ) : (b.scaled u).zScore (u * v) = b.zScore v := by
  simp only [zScore, scaled, pos_scaled hu, ← mul_sub, mul_div_mul_left _ _ hu.ne']

theorem outsideFences_scaled (hu : 0 < u) (v : ℝ) :
    (b.scaled u).OutsideFences (u * v) ↔ b.OutsideFences v := by
  simp only [OutsideFences, scaled, mul_lt_mul_iff_right₀ hu]

theorem flags_scaled (hu : 0 < u) (zThreshold v : ℝ) :
    (b.scaled u).Flags zThreshold (u * v) ↔ b.Flags zThreshold v := by
  rw [Flags, Flags, zScore_scaled b hu, outsideFences_scaled b hu]

theorem kindOf_scaled (hu : 0 < u) (v : ℝ) : (b.scaled u).kindOf (u * v) = b.kindOf v := by
  simp only [kindOf, scaled, mul_lt_mul_iff_right₀ hu]

end Baseline

theorem Anomaly.ofPoint_scaled (hu : 0 < u) (now : Instant) (metric : String) (kind : AnomalyKind)
    (severity : Severity) (actual expected : ℝ) (timestamp : Instant) :
    ofPoint now metric kind severity (u * actual) (u * expected) timestamp =
      (ofPoint now metric kind severity actual expected timestamp).scaled u := by
  simp only [ofPoint, scaled, ← mul_sub, isZero_scaled hu.ne', scalar_abs, abs_mul, abs_of_pos hu,
    mul_div_mul_left _ _ hu.ne']

namespace Comparator

variable [NumberText ℝ] (c : Comparator ℝ) (now : Instant) (b : Baseline ℝ)

theorem point?_scaled (hu : 0 < u) (v : ℝ) (timestamp : Instant) :
    c.point? now (b.scaled u) (u * v) timestamp =
      (c.point? now b v timestamp).map (·.scaled u) := by
  simp only [point?_eq, Baseline.flags_scaled b hu, Baseline.zScore_scaled b hu,
    Baseline.kindOf_scaled b hu]
  split
  · have hmean : (b.scaled u).mean = u * b.mean := rfl
    rw [hmean, Stats.changePercent_scaled hu, Anomaly.ofPoint_scaled hu]
    rfl
  · rfl

theorem anomalies_scaled (hu : 0 < u) (values : List ℝ) (timestamps : Option (List Instant)) :
    c.anomalies now (values.map (u * ·)) (b.scaled u) timestamps =
      (c.anomalies now values b timestamps).map (·.scaled u) := by
  simp only [anomalies, Baseline.valid_scaled b hu]
  split
  · rw [List.length_map, List.zip_map_left, List.filterMap_map, List.map_filterMap]
    refine congrArg (List.filterMap · _) (funext fun point ↦ ?_)
    exact point?_scaled c now b hu point.1 point.2
  · rfl

omit [NumberText ℝ] in
theorem advice_scaled (meanChange p99Change : ℝ) (anomalies : List (Anomaly ℝ)) (status : Status) :
    c.advice meanChange p99Change (anomalies.map (·.scaled u)) status =
      c.advice meanChange p99Change anomalies status := by
  simp only [advice, List.countP_map]
  rfl

theorem compare_scaled (hu : 0 < u) (values : List ℝ) (timestamps : Option (List Instant)) :
    c.compare now (values.map (u * ·)) (b.scaled u) timestamps =
      (c.compare now values b timestamps).scaled u := by
  simp only [compare, List.isEmpty_map]
  split
  · simp only [Comparison.noData, Comparison.scaled, zero_scaled, List.map_nil]
    rfl
  · have hmean : (b.scaled u).mean = u * b.mean := rfl
    have hmedian : (b.scaled u).median = u * b.median := rfl
    have hp99 : (b.scaled u).p99 = u * b.p99 := rfl
    simp only [Stats.median, hmean, hmedian, hp99, Stats.mean_scaled, Stats.sorted_scaled _ hu,
      Stats.percentile_scaled, Stats.changePercent_scaled hu, anomalies_scaled c now b hu,
      advice_scaled, List.length_map]
    rfl

end Comparator

end MetricWatch
