import Mathlib.Tactic.NormNum
import MetricWatch.Proofs.Exact.Comparison
import MetricWatch.Proofs.Exact.Regression

namespace MetricWatch

open Exact

/-- All fields but the measured quantities are the same in both units, and so are the flagged
places. -/
theorem change_of_unit [NumberText ℝ] (g : Gate ℝ) (d : Detector ℝ) (c : Comparator ℝ)
    (now calculatedAt : Instant) (before after history batch : List ℝ) (metric : String)
    (periodDays : Nat) (timestamps : Option (List Instant)) {u : ℝ} (hu : 0 < u) :
    let b := d.baseline calculatedAt history metric periodDays
    let b' := d.baseline calculatedAt (history.map (u * ·)) metric periodDays
    g.detect now (before.map (u * ·)) (after.map (u * ·)) metric =
        (g.detect now before after metric).scaled u ∧
      c.compare now (batch.map (u * ·)) b' timestamps =
        (c.compare now batch b timestamps).scaled u ∧
      ∀ v, b'.Valid ∧ b'.Flags c.zThreshold (u * v) ↔ b.Valid ∧ b.Flags c.zThreshold v := by
  intro b b'
  have hb : b' = b.scaled u :=
    Baseline.ofSample_scaled hu calculatedAt d.iqrMultiplier history metric periodDays
  refine ⟨g.detect_scaled now metric hu before after, ?_, fun v ↦ ?_⟩
  · rw [hb]
    exact c.compare_scaled now b hu batch timestamps
  · rw [hb]
    exact and_congr (b.valid_scaled hu) (b.flags_scaled hu c.zThreshold v)

theorem change_of_unit_thousand :
    let _ := nearestWhole
    let g : Gate ℝ := { Gate.standard with minEffectSize := 0.0 }
    let c : Comparator ℝ := .standard
    let scaled (values : List ℝ) := values.map ((1000 : ℝ) * ·)
    let b := (Detector.standard : Detector ℝ).baseline .epoch
      (scaled [1, 1, 1, 1, 1, 3, 3, 3, 3, 3]) "latency" 7
    (0 : ℝ) < 1000 ∧
      (g.detect .epoch (scaled [1, 1]) (scaled [2, 2]) "latency").isRegression = true ∧
      (c.compare .epoch (scaled [2, 9]) b none).meanChange = 175 ∧
      b.Valid ∧ b.Flags c.zThreshold (1000 * 9) := by
  intro text g c scaled b
  have hu : (0 : ℝ) < 1000 := by norm_num
  obtain ⟨hdetect, hcompare, hflags⟩ := change_of_unit g .standard c .epoch .epoch [1, 1] [2, 2]
    [1, 1, 1, 1, 1, 3, 3, 3, 3, 3] [2, 9] "latency" 7 none hu
  have hmean : Stats.mean ([1, 1, 1, 1, 1, 3, 3, 3, 3, 3] : List ℝ) = 2 := by
    norm_num [Stats.mean, Stats.sum_eq]
  have hstdDev : Stats.populationStdDev ([1, 1, 1, 1, 1, 3, 3, 3, 3, 3] : List ℝ) = 1 := by
    norm_num [Stats.populationStdDev, Stats.populationVariance, Stats.squaredDeviations, hmean,
      Stats.square, Stats.sum_eq, scalar_sqrt]
  have hsample (x : ℝ) : Sample.ofValues [x, x] = ⟨x, 0, 2⟩ := by
    norm_num [Sample.ofValues, Stats.mean, Stats.sampleStdDev, Stats.squaredDeviations,
      Stats.square, Stats.sum_eq, scalar_sqrt]
  refine ⟨hu, ?_, ?_, (hflags 9).2 ⟨⟨?_, ?_⟩, .inl ?_⟩⟩
  · rw [hdetect]
    norm_num [Regression.scaled, Gate.detect, Gate.detectBy, Gate.judge, hsample, Gate.Cleared,
      Welch.testBy, Welch.effectSize, Stats.changePercent, g, Gate.standard, isZero_iff, numEq_iff,
      scalar_abs, scalar_sqrt]
  · rw [hcompare]
    norm_num [Comparison.scaled, Comparator.compare, Detector.baseline, Baseline.ofSample,
      Stats.changePercent, hmean, isZero_iff, scalar_abs, Stats.mean, Stats.sum_eq]
  · exact Nat.le_refl 10
  · norm_num [Detector.baseline, Baseline.ofSample, hstdDev]
  · norm_num [Detector.baseline, Baseline.ofSample, hstdDev, Baseline.zScore, hmean, c,
      Comparator.standard, scalar_abs]

end MetricWatch
