import MetricWatch.Proofs.Exact.Statistics
import MetricWatch.Regression.Gate

namespace MetricWatch

open Exact

variable {u : ℝ}

noncomputable def Sample.scaled (u : ℝ) (s : Sample ℝ) : Sample ℝ :=
  { s with mean := u * s.mean, stdDev := u * s.stdDev }

noncomputable def Regression.scaled (u : ℝ) (r : Regression ℝ) : Regression ℝ :=
  { r with
    beforeMean := u * r.beforeMean
    afterMean := u * r.afterMean
    beforeP99 := u * r.beforeP99
    afterP99 := u * r.afterP99 }

namespace Sample

theorem ofValues_scaled (hu : 0 < u) (values : List ℝ) :
    ofValues (values.map (u * ·)) = (ofValues values).scaled u := by
  simp only [ofValues, scaled, Stats.mean_scaled, Stats.sampleStdDev_scaled _ hu.le,
    List.length_map]

theorem squaredError_scaled (u : ℝ) (s : Sample ℝ) :
    (s.scaled u).squaredError = u ^ 2 * s.squaredError := by
  simp only [squaredError, scaled]
  ring

end Sample

namespace Welch

variable (before after : Sample ℝ)

theorem pooledFreedom_eq {before after : Sample ℝ} (hb : 2 ≤ before.size) :
    pooledFreedom before after = (before.size + after.size - 2 : ℕ) := by
  have hcount : (before.size : ℤ) + after.size - 2 = (before.size + after.size - 2 : ℕ) := by omega
  rw [pooledFreedom, hcount, word_natCast]

theorem freedom_scaled (hu : 0 < u) :
    freedom (before.scaled u) (after.scaled u) = freedom before after := by
  have hu₂ : u ^ 2 ≠ 0 := (pow_pos hu 2).ne'
  have hu₄ : 0 < u ^ 4 := pow_pos hu 4
  have hsize (s : Sample ℝ) : (s.scaled u).size = s.size := rfl
  have hquotient (e k : ℝ) : u ^ 2 * e * (u ^ 2 * e) / k = u ^ 4 * (e * e / k) := by
    ring
  simp only [freedom, pooledFreedom, Sample.squaredError_scaled, hsize, isZero_scaled hu₂,
    ← mul_add, hquotient, pos_scaled hu₄]
  split
  · rfl
  · split
    · rw [← mul_div_assoc, mul_div_mul_left _ _ hu₄.ne']
    · rfl

theorem testBy_scaled (hu : 0 < u) (tail : (t df : ℝ) → ℝ) :
    testBy tail (before.scaled u) (after.scaled u) = testBy tail before after := by
  have hu₂ : u ^ 2 ≠ 0 := (pow_pos hu 2).ne'
  have hsize (s : Sample ℝ) : (s.scaled u).size = s.size := rfl
  have hmean (s : Sample ℝ) : (s.scaled u).mean = u * s.mean := rfl
  have hstdDev (s : Sample ℝ) : (s.scaled u).stdDev = u * s.stdDev := rfl
  simp only [testBy, pooledFreedom, hsize, hmean, hstdDev, isZero_scaled hu.ne',
    numEq_scaled hu.ne', freedom_scaled _ _ hu, Sample.squaredError_scaled, ← mul_add, ← mul_sub,
    isZero_scaled hu₂, Stats.sqrt_scaled hu.le, mul_div_mul_left _ _ hu.ne']

theorem effectSize_scaled (hu : 0 < u) :
    effectSize (before.scaled u) (after.scaled u) = effectSize before after := by
  have hvariance (w d : ℝ) : w * (u * d) * (u * d) = u ^ 2 * (w * d * d) := by ring
  simp only [effectSize, Sample.scaled, hvariance, ← mul_add, ← mul_sub, mul_div_assoc (u ^ 2),
    Stats.sqrt_scaled hu.le, isZero_scaled hu.ne', mul_div_mul_left _ _ hu.ne']

end Welch

namespace Gate

variable (g : Gate ℝ)

theorem p99_scaled (hu : 0 < u) (values : List ℝ) : p99 (values.map (u * ·)) = u * p99 values := by
  rw [p99, p99, Stats.sorted_scaled _ hu, Stats.percentile_scaled]

theorem cleared_scaled (hu : 0 < u) (before after : Sample ℝ) (pValue effectSize : ℝ) :
    g.Cleared (before.scaled u) (after.scaled u) pValue effectSize ↔
      g.Cleared before after pValue effectSize := by
  simp only [Cleared, Sample.scaled, mul_lt_mul_iff_right₀ hu, Stats.changePercent_scaled hu]

variable [NumberText ℝ] (now : Instant) (metric : String)

theorem judge_scaled (hu : 0 < u) (tail : (t df : ℝ) → ℝ) (before after : List ℝ) :
    g.judge tail now (before.map (u * ·)) (after.map (u * ·)) metric =
      (g.judge tail now before after metric).scaled u := by
  have hmean (s : Sample ℝ) : (s.scaled u).mean = u * s.mean := rfl
  simp only [judge, Sample.ofValues_scaled hu, p99_scaled hu, Welch.testBy_scaled _ _ hu,
    Welch.effectSize_scaled _ _ hu, cleared_scaled g hu, hmean, Stats.changePercent_scaled hu,
    List.length_map]
  rfl

theorem detect_scaled (hu : 0 < u) (before after : List ℝ) :
    g.detect now (before.map (u * ·)) (after.map (u * ·)) metric =
      (g.detect now before after metric).scaled u := by
  simp only [detect, detectBy, List.isEmpty_map, judge_scaled g now metric hu]
  split
  · simp only [Regression.scaled, Regression.insufficient, zero_scaled]
  · rfl

end Gate

end MetricWatch
