import MetricWatch.Detector

namespace MetricWatch.Detector

variable {α : Type} [Scalar α] {d : Detector α} {now : Instant} {metric : String}
  {periodDays : Nat} {values : List α} {v : α}

theorem baseline_mean (h : values ≠ []) :
    (d.baseline now values metric periodDays).mean = Stats.mean values := by
  simp [baseline, Baseline.ofSample, h]

theorem baseline_stdDev (h : values ≠ []) :
    (d.baseline now values metric periodDays).stdDev = Stats.populationStdDev values := by
  simp [baseline, Baseline.ofSample, h]

theorem baseline_p99 (h : values ≠ []) :
    (d.baseline now values metric periodDays).p99 =
      Stats.percentile (Stats.sorted values) 99.0 := by
  simp [baseline, Baseline.ofSample, h]

theorem baseline_sampleCount (h : values ≠ []) :
    (d.baseline now values metric periodDays).sampleCount = values.length := by
  simp [baseline, Baseline.ofSample, h]

theorem baseline_periodDays :
    (d.baseline now values metric periodDays).periodDays = periodDays := by
  rw [baseline, Baseline.ofSample]
  split
  · rfl
  · rfl

theorem baseline_outsideFences (h : values ≠ []) :
    (d.baseline now values metric periodDays).OutsideFences v ↔
      v < (d.fences values).lower ∨ (d.fences values).upper < v := by
  simp [baseline, Baseline.ofSample, h, fences]

theorem baseline_valid (hcount : Baseline.leastSamples ≤ values.length)
    (hspread : 0.0 < Stats.populationStdDev values) :
    (d.baseline now values metric periodDays).Valid := by
  have h : values ≠ [] := List.ne_nil_of_length_pos (Nat.lt_of_lt_of_le (by decide) hcount)
  rw [Baseline.Valid, baseline_sampleCount h, baseline_stdDev h]
  exact ⟨hcount, hspread⟩

end MetricWatch.Detector
