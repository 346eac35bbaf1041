import MetricWatch.Proofs.Binary64.Ratio
import MetricWatch.Proofs.Detection.Selection
import MetricWatch.Proofs.Report.Consistency

namespace MetricWatch

namespace Report

variable {α : Type} [Scalar α] [NumberText α]

/-- An addition of what the methods find, together with the count of the points that they looked
at. -/
inductive Addition.Measured : Addition α → Prop
  | series (d : Detector α) (now : Instant) (values : List α) (metric : String)
      (timestamps : Option (List Instant)) (method : Method) :
      Measured (.anomalies values.length (d.detect now values metric timestamps method))
  | batch (c : Comparator α) (now : Instant) (values : List α) (b : Baseline α)
      (timestamps : Option (List Instant)) :
      Measured (.comparison (c.compare now values b timestamps))
  | regression (g : Regression α) : Measured (.regression g)

omit [NumberText α] in
def Counted (r : Report α) : Prop := r.allAnomalies.length ≤ r.dataPoints

variable {r : Report α} {a : Addition α} {as : List (Addition α)}

theorem Addition.Measured.length_le (h : a.Measured) :
    a.loose.length + (a.comparisons.map (·.anomalies.length)).sum ≤ a.dataPoints := by
  cases h with
  | series d now values metric timestamps method =>
    exact Nat.le_trans (Detector.length_detect_le timestamps method) (Nat.min_le_left _ _)
  | batch c now values b timestamps =>
    simpa only [loose, comparisons, dataPoints, List.length_nil, Nat.zero_add, List.map_cons,
      List.map_nil, List.sum_cons, List.sum_nil, Nat.add_zero] using
      Comparator.length_compare_le timestamps
  | regression g => exact Nat.le_refl 0

section Words

variable {r : Report Binary64} {a : Addition Binary64} {as : List (Addition Binary64)}

theorem Counted.add (h : r.Counted) (ha : a.Measured)
    (hpoints : r.dataPoints + a.dataPoints < 2 ^ 64) : (r.add a).Counted := by
  have hstep := ha.length_le
  unfold Counted at h ⊢
  rw [length_allAnomalies] at h ⊢
  rw [add_anomalies, add_comparisons, add_dataPoints, tally_eq (by omega),
    Nat.mod_eq_of_lt hpoints, List.length_append, List.map_append, List.sum_append]
  omega

theorem Counted.addAll (h : r.Counted) (has : ∀ a ∈ as, a.Measured)
    (hpoints : r.dataPoints + (as.map (·.dataPoints)).sum < 2 ^ 64) : (r.addAll as).Counted := by
  induction as generalizing r with
  | nil => exact h
  | cons a as ih =>
    obtain ⟨ha, has⟩ := List.forall_mem_cons.1 has
    rw [List.map_cons, List.sum_cons] at hpoints
    refine ih (h.add ha (by omega)) has ?_
    rw [add_dataPoints, tally_eq (by omega), Nat.mod_eq_of_lt (by omega)]
    omega

end Words

theorem Counted.anomalyRate_bounds {r : Report Binary64} (h : r.Counted) (hr : r.Consistent)
    (hpoints : r.dataPoints < 2 ^ 64) : (0.0 : Binary64) ≤ r.anomalyRate ∧ r.anomalyRate ≤ 1.0 := by
  rw [hr.anomalyRate]
  split
  · exact ⟨Scalar.zero_le_zero, Scalar.zero_le_one⟩
  · rename_i hne
    apply Binary64.ratio_bounds _ (Nat.pos_of_ne_zero hne) hpoints
    rw [hr.total, ← length_allAnomalies]
    exact h

end Report

theorem Comparator.anomalyRate_bounds {c : Comparator Binary64} {now : Instant}
    {values : List Binary64} {b : Baseline Binary64} (timestamps : Option (List Instant))
    (h : values.length < 2 ^ 64) :
    (0.0 : Binary64) ≤ (c.compare now values b timestamps).anomalyRate ∧
      (c.compare now values b timestamps).anomalyRate ≤ 1.0 := by
  unfold Comparison.anomalyRate
  split
  · exact ⟨Scalar.zero_le_zero, Scalar.zero_le_one⟩
  · rename_i hne
    apply Binary64.ratio_bounds (length_compare_le timestamps) (Nat.pos_of_ne_zero hne)
    rwa [compare_sampleCount]

/-- Settings, baselines and the lengths of the lists may be any. Counts are words of the machine. -/
theorem findings_select_points (d : Detector Binary64) (c : Comparator Binary64) (now : Instant)
    (values : List Binary64) (metric : String) (b : Baseline Binary64)
    (timestamps : Option (List Instant)) (start stop : Instant)
    {as : List (Report.Addition Binary64)} (hlen : values.length < 2 ^ 64)
    (has : ∀ a ∈ as, a.Measured) (hpoints : (as.map (·.dataPoints)).sum < 2 ^ 64) :
    let resolved := resolveTimestamps now values.length timestamps
    let comparison := c.compare now values b timestamps
    let report := (Report.new now start stop).addAll as
    Selects values resolved (d.byZScore now values metric timestamps) ∧
      Selects values resolved (d.byFences now values metric timestamps) ∧
      Selects values resolved (d.againstBaseline now values b timestamps) ∧
      Selects values resolved comparison.anomalies ∧
      (d.detect now values metric timestamps .combined).length ≤
        min values.length resolved.length ∧
      ((0.0 : Binary64) ≤ comparison.anomalyRate ∧ comparison.anomalyRate ≤ 1.0) ∧
      (0.0 : Binary64) ≤ report.anomalyRate ∧ report.anomalyRate ≤ 1.0 := by
  intro resolved comparison report
  have hsum : 0 + (as.map (·.dataPoints)).sum < 2 ^ 64 := by rwa [Nat.zero_add]
  have hcounted : report.Counted := Report.Counted.addAll (Nat.le_refl 0) has hsum
  have hconsistent : report.Consistent := Report.addAll_induction
    (fun r a _ ↦ Report.add_consistent r a) (Report.new_consistent now start stop)
  have hdata : report.dataPoints < 2 ^ 64 := by
    rw [show report.dataPoints = _ from Report.addAll_dataPoints (by decide : 0 < 2 ^ 64)]
    exact Nat.mod_lt _ (by decide)
  exact ⟨Detector.selects_byZScore timestamps, Detector.selects_byFences timestamps,
    Detector.selects_againstBaseline timestamps, Comparator.selects_compare timestamps,
    Detector.length_detect_le timestamps .combined,
    Comparator.anomalyRate_bounds timestamps hlen,
    hcounted.anomalyRate_bounds hconsistent hdata⟩

theorem findings_select_points_spike :
    let d : Detector Binary64 := .standard
    let c : Comparator Binary64 := .standard
    let values : List Binary64 := List.replicate 10 1.0 ++ [100.0]
    let b : Baseline Binary64 := { Baseline.empty .epoch "latency" 7 with
      sampleCount := 10, mean := 1.0, stdDev := 0.5, lowerFence := 0.0, upperFence := 2.0 }
    let found := d.detect .epoch values "latency" none .zScore
    let comparison := c.compare .epoch values b none
    let report := (Report.new .epoch .epoch .epoch).addAll
      [.anomalies values.length found, .comparison comparison]
    (found.length = 1 ∧ comparison.anomalies.length = 1) ∧
      (0.0 : Binary64) ≤ report.anomalyRate ∧ report.anomalyRate ≤ 1.0 := by
  intro d c values b found comparison report
  have hfound : found.length = 1 := by decide +kernel
  have hcompared : comparison.anomalies.length = 1 := by decide +kernel
  have hmeasured : ∀ a ∈ [Report.Addition.anomalies values.length found, .comparison comparison],
      a.Measured := by
    simpa using ⟨.series .., .batch ..⟩
  have h := findings_select_points d c .epoch values "latency" b none .epoch .epoch (by decide)
    hmeasured (by decide)
  exact ⟨⟨hfound, hcompared⟩, h.2.2.2.2.2.2⟩

end MetricWatch
