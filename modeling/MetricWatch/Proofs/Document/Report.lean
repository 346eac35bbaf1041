import MetricWatch.Document.Report
import MetricWatch.Proofs.Document.Baseline

namespace MetricWatch

open Node

theorem Health.faithful : Faithful Health.node Health.reader (fun _ ↦ True) id := by
  refine faithful_name fun h ↦ ?_
  cases h
  all_goals rfl

namespace Report

def parts : Report Binary64 ≃ Values [Instant, Instant, Instant, Nat, Nat, List (Anomaly Binary64),
    List (Comparison Binary64), List (Regression Binary64), Nat, Nat, Nat, Nat, Nat, Binary64,
    Health, List String] where
  toFun r := (r.generatedAt, r.periodStart, r.periodEnd, r.metricCount, r.dataPoints, r.anomalies,
    r.comparisons, r.regressions, r.total, r.critical, r.high, r.medium, r.low, r.anomalyRate,
    r.health, r.recommendations, ())
  invFun := fun (generatedAt, periodStart, periodEnd, metricCount, dataPoints, anomalies,
    comparisons, regressions, total, critical, high, medium, low, anomalyRate, health,
    recommendations, ()) ↦
    ⟨generatedAt, periodStart, periodEnd, metricCount, dataPoints, anomalies, comparisons,
      regressions, total, critical, high, medium, low, anomalyRate, health, recommendations⟩
  left_inv _ := rfl
  right_inv _ := rfl

def counts (r : Report Binary64) : List Nat :=
  [r.metricCount, r.dataPoints, r.total, r.critical, r.high, r.medium, r.low]

def Accepted (r : Report Binary64) : Prop :=
  (∀ n ∈ r.counts, n < 0x10000000000000000) ∧ r.anomalyRate.isFinite = true ∧
    (∀ a ∈ r.anomalies, a.Accepted) ∧ (∀ c ∈ r.comparisons, c.Accepted) ∧
    ∀ g ∈ r.regressions, g.Storable

def kept (r : Report Binary64) : Report Binary64 :=
  { r with
    anomalies := r.anomalies.map Anomaly.kept
    comparisons := r.comparisons.map Comparison.kept }

theorem faithful : Faithful node reader Accepted kept := by
  have hcolumns :=
    Columns.required "generated_at" Instant.faithful <|
    .required "analysis_period_start" Instant.faithful <|
    .required "analysis_period_end" Instant.faithful <|
    .required "metrics_analyzed" faithful_size <|
    .required "data_points_analyzed" faithful_size <|
    .required "anomalies" Anomaly.faithful.list <|
    .required "baseline_comparisons" Comparison.faithful.list <|
    .required "regressions" Regression.faithful.list <|
    .required "total_anomalies" faithful_size <|
    .required "critical_anomalies" faithful_size <|
    .required "high_anomalies" faithful_size <|
    .required "medium_anomalies" faithful_size <|
    .required "low_anomalies" faithful_size <|
    .required "anomaly_rate" faithful_real <|
    .required "health_status" Health.faithful <|
    .required "recommendations" faithful_texts .nil
  refine (hcolumns.faithful ?_).parts parts ?_ ?_ ?_ ?_
  · decide
  · intro r
    rfl
  · intro n
    rfl
  · intro r
    simp [Accepted, counts, parts]
    grind
  · intro r
    simp [kept, parts]

def numbers (r : Report Binary64) : List Binary64 :=
  r.anomalyRate :: (r.anomalies.flatMap Anomaly.numbers ++
    r.comparisons.flatMap Comparison.numbers ++ r.regressions.flatMap Regression.numbers)

abbrev CountsFit (r : Report Binary64) : Prop :=
  (∀ n ∈ r.counts, n < 0x10000000000000000) ∧ (∀ c ∈ r.comparisons, c.CountsFit) ∧
    ∀ g ∈ r.regressions, g.CountsFit

def Storable (r : Report Binary64) : Prop :=
  r.CountsFit ∧ ∀ x ∈ r.numbers, x.isFinite = true

theorem accepted_of_storable {r : Report Binary64} (h : r.Storable) : r.Accepted ∧ r.kept = r := by
  obtain ⟨⟨hcounts, hcomparisonCounts, hregressionCounts⟩, hnumbers⟩ := h
  obtain ⟨hrate, hrest⟩ := List.forall_mem_cons.1 hnumbers
  obtain ⟨hfirst, hregressions⟩ := List.forall_mem_append.1 hrest
  obtain ⟨hanomalies, hcomparisons⟩ := List.forall_mem_append.1 hfirst
  obtain ⟨ha, hkeptAnomalies⟩ := fit_list fun a ha ↦ Anomaly.accepted_of_storable fun x hx ↦
    hanomalies x (List.mem_flatMap_of_mem ha hx)
  obtain ⟨hc, hkeptComparisons⟩ := fit_list fun c hc ↦ Comparison.accepted_of_storable
    ⟨hcomparisonCounts c hc, fun x hx ↦ hcomparisons x (List.mem_flatMap_of_mem hc hx)⟩
  have hg : ∀ g ∈ r.regressions, g.Storable := fun g hg ↦
    ⟨hregressionCounts g hg, fun x hx ↦ hregressions x (List.mem_flatMap_of_mem hg hx)⟩
  refine ⟨⟨hcounts, hrate, ha, hc, hg⟩, ?_⟩
  rw [kept, hkeptAnomalies, hkeptComparisons]

end Report

end MetricWatch
