import MetricWatch.Binary64.Text
import MetricWatch.Proofs.Detection.Baseline
import MetricWatch.Proofs.Detection.Points
import MetricWatch.Proofs.Stats.Finite

namespace MetricWatch.Detector

variable {α : Type} [Scalar α] {d : Detector α} {now : Instant} {metric : String}
  {periodDays : Nat} {values : List α} {v : α}

theorem baseline_zScore (h : values ≠ []) (hspread : 0.0 < Stats.populationStdDev values) :
    (d.baseline now values metric periodDays).zScore v = ownScore values v := by
  rw [Baseline.zScore, baseline_stdDev h, if_pos hspread, baseline_mean h, ownScore]

/-- Neither the settings nor the instants have to be checked for this, and where the deviation is
finite the mean is. -/
theorem selfBaseline_agrees (d : Detector Binary64) (now₁ now₂ now₃ : Instant)
    (metric₁ metric₂ : String) (periodDays : Nat) {values : List Binary64}
    {timestamps : List Instant}
    (hcount : max Baseline.leastSamples d.minSampleSize ≤ values.length)
    (hfinite : Scalar.isFinite (Stats.populationStdDev values) = true)
    (hspread : 0.0 < Stats.populationStdDev values) (hdistinct : timestamps.Nodup) :
    let own := d.detect now₁ values metric₁ (some timestamps) .combined
    let judged := d.againstBaseline now₃ values (d.baseline now₂ values metric₂ periodDays)
      (some timestamps)
    (∀ t, t ∈ own.map (·.timestamp) ↔ t ∈ judged.map (·.timestamp)) ∧
      ∀ a ∈ own, a.zScore.isSome = true → ∀ b ∈ judged, b.timestamp = a.timestamp →
        b.zScore = a.zScore := by
  have hleast : Baseline.leastSamples ≤ values.length := (Nat.max_le.1 hcount).1
  have hmin : d.minSampleSize ≤ values.length := (Nat.max_le.1 hcount).2
  have hne : values ≠ [] := List.ne_nil_of_length_pos (Nat.lt_of_lt_of_le (by decide) hleast)
  have hzero : ¬ Scalar.IsZero (Stats.populationStdDev values) :=
    fun h ↦ Binary64.not_le_of_lt hspread h.1
  have hvalid : (d.baseline now₂ values metric₂ periodDays).Valid := baseline_valid hleast hspread
  intro own judged
  constructor
  · intro t
    rw [mem_timestamps_detect hmin hzero, mem_timestamps_againstBaseline hvalid]
    refine exists_congr fun v ↦ and_congr_right fun hp ↦ ?_
    -- The scores are numbers, so the check that only one of the two paths makes never fails.
    have hnumber := Stats.isNumber_score hfinite hspread (List.of_mem_zip hp).1
    rw [Baseline.Flags, baseline_zScore hne hspread, baseline_outsideFences hne,
      or_comm (a := v < _)]
    exact or_congr_left (and_iff_left hnumber)
  · intro a ha hz b hb ht
    obtain ⟨v, hv, hscore⟩ := exists_of_mem_detect hmin hzero ha hz
    obtain ⟨w, hw, hscore'⟩ := exists_of_mem_againstBaseline hvalid hb
    rw [ht] at hw
    rw [hscore, hscore', baseline_zScore hne hspread, value_eq_of_mem_zip hdistinct hv hw]

theorem selfBaseline_agrees_spike :
    let d : Detector Binary64 := .standard
    let values : List Binary64 := List.replicate 10 1.0 ++ [100.0]
    let timestamps := (List.range 11).map fun i ↦ Instant.epoch.backBy (10 - i)
    let own := d.detect .epoch values "latency" (some timestamps) .combined
    let judged := d.againstBaseline .epoch values (d.baseline .epoch values "latency" 7)
      (some timestamps)
    (max Baseline.leastSamples d.minSampleSize ≤ values.length ∧
      Scalar.isFinite (Stats.populationStdDev values) = true ∧
      0.0 < Stats.populationStdDev values ∧ timestamps.Nodup) ∧
      Instant.epoch ∈ own.map (·.timestamp) ∧ Instant.epoch ∈ judged.map (·.timestamp) := by
  intro d values timestamps own judged
  have hcount : max Baseline.leastSamples d.minSampleSize ≤ values.length := by decide
  have hfinite : Scalar.isFinite (Stats.populationStdDev values) = true := by decide +kernel
  have hspread : 0.0 < Stats.populationStdDev values := by decide +kernel
  have hdistinct : timestamps.Nodup := by decide +kernel
  have hown : Instant.epoch ∈ own.map (·.timestamp) := by decide +kernel
  have hagree := selfBaseline_agrees d .epoch .epoch .epoch "latency" "latency" 7 hcount hfinite
    hspread hdistinct
  exact ⟨⟨hcount, hfinite, hspread, hdistinct⟩, hown, (hagree.1 .epoch).1 hown⟩

end MetricWatch.Detector
