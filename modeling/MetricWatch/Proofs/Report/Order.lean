import Mathlib.Algebra.BigOperators.Group.List.Basic
import MetricWatch.Proofs.Report.Health

namespace MetricWatch.Report

variable {α : Type} [Scalar α] {r s : Report α}

/-- Whether two reports have the same findings, each in an order of its own. -/
structure Reordered (r s : Report α) : Prop where
  dataPoints : r.dataPoints = s.dataPoints
  anomalies : r.anomalies.Perm s.anomalies
  comparisons : r.comparisons.Perm s.comparisons
  regressions : r.regressions.Perm s.regressions

namespace Reordered

theorem allAnomalies (h : r.Reordered s) : r.allAnomalies.Perm s.allAnomalies :=
  h.anomalies.append (h.comparisons.flatMap_right _)

theorem occurrences (h : r.Reordered s) (severity : Severity) :
    r.occurrences severity = s.occurrences severity := by
  rw [← countOf_eq, ← countOf_eq]
  exact h.allAnomalies.countP_eq _

theorem names (h : r.Reordered s) : r.names = s.names := by
  unfold Report.names
  rw [List.toFinset_eq_of_perm _ _ (h.anomalies.map _),
    List.toFinset_eq_of_perm _ _ (h.comparisons.map _),
    List.toFinset_eq_of_perm _ _ (h.regressions.map _)]

theorem anyStatus (h : r.Reordered s) (status : Status) :
    r.anyStatus status = s.anyStatus status := h.comparisons.any_eq

variable [NumberText α]

theorem total (h : r.Reordered s) (hr : r.Consistent) (hs : s.Consistent) :
    r.total = s.total := by
  rw [hr.total, hs.total, ← length_allAnomalies, ← length_allAnomalies]
  exact h.allAnomalies.length_eq

theorem critical (h : r.Reordered s) (hr : r.Consistent) (hs : s.Consistent) :
    r.critical = s.critical := by
  rw [hr.critical, hs.critical, h.occurrences]

theorem high (h : r.Reordered s) (hr : r.Consistent) (hs : s.Consistent) : r.high = s.high := by
  rw [hr.high, hs.high, h.occurrences]

theorem anomalyRate (h : r.Reordered s) (hr : r.Consistent) (hs : s.Consistent) :
    r.anomalyRate = s.anomalyRate := by
  rw [hr.anomalyRate, hs.anomalyRate, h.total hr hs, h.dataPoints]

theorem hasCriticalIssues (h : r.Reordered s) (hr : r.Consistent) (hs : s.Consistent) :
    r.hasCriticalIssues = s.hasCriticalIssues := by
  rw [Report.hasCriticalIssues, Report.hasCriticalIssues, h.critical hr hs, h.regressions.any_eq]

theorem health (h : r.Reordered s) (hr : r.Consistent) (hs : s.Consistent) :
    r.health = s.health := by
  rw [hr.health, hs.health, derivedHealth, derivedHealth, h.hasCriticalIssues hr hs,
    h.anyStatus, h.anyStatus, h.anyStatus, h.high hr hs, h.total hr hs, h.anomalyRate hr hs,
    h.regressions.any_eq]

theorem advice (h : r.Reordered s) (hr : r.Consistent) (hs : s.Consistent) :
    r.advice.Perm s.advice := by
  unfold Report.advice
  rw [h.critical hr hs, h.high hr hs, h.anomalyRate hr hs]
  apply List.Perm.append_right
  apply List.Perm.append
  · exact List.Perm.append_left _ ((h.regressions.filter _).map _)
  · exact (h.comparisons.filter _).map _

theorem recommendations (h : r.Reordered s) (hr : r.Consistent) (hs : s.Consistent) :
    r.recommendations.Perm s.recommendations := by
  rw [hr.recommendations, hs.recommendations]
  exact (h.advice hr hs).map _

end Reordered

variable [NumberText α]

theorem addAll_reordered {as bs : List (Addition Binary64)} (h : as.Perm bs)
    {r : Report Binary64} (hr : r.dataPoints < 2 ^ 64) :
    (r.addAll as).Reordered (r.addAll bs) where
  dataPoints := by
    rw [addAll_dataPoints hr, addAll_dataPoints hr, (h.map _).sum_eq]
  anomalies := by
    rw [addAll_anomalies, addAll_anomalies]
    exact (h.flatMap_right _).append_left _
  comparisons := by
    rw [addAll_comparisons, addAll_comparisons]
    exact (h.flatMap_right _).append_left _
  regressions := by
    rw [addAll_regressions, addAll_regressions]
    exact (h.flatMap_right _).append_left _

theorem refresh_congr (hnow : r.generatedAt = s.generatedAt) (hstart : r.periodStart = s.periodStart)
    (hend : r.periodEnd = s.periodEnd) (hpoints : r.dataPoints = s.dataPoints)
    (hanomalies : r.anomalies = s.anomalies) (hcomparisons : r.comparisons = s.comparisons)
    (hregressions : r.regressions = s.regressions) : r.refresh = s.refresh := by
  cases r
  cases s
  cases hnow
  cases hstart
  cases hend
  cases hpoints
  cases hanomalies
  cases hcomparisons
  cases hregressions
  rfl

/-- A count that leaves the words twice is the one that leaves them once. -/
theorem word_add_word_add (m n₁ n₂ : Nat) :
    Scalar.word Binary64 (Scalar.word Binary64 (m + n₁) + n₂) =
      Scalar.word Binary64 (m + (n₁ + n₂ : Nat)) := by
  have hword (a b : Nat) : Scalar.word Binary64 (a + b) = (a + b) % 2 ^ 64 :=
    Binary64.word_natCast (a + b)
  rw [hword, hword, hword, Nat.mod_add_mod, Nat.add_assoc]

theorem addAnomalies_addAnomalies (r : Report Binary64) (n₁ n₂ : Nat)
    (a₁ a₂ : List (Anomaly Binary64)) :
    (r.addAnomalies n₁ a₁).addAnomalies n₂ a₂ = r.addAnomalies (n₁ + n₂) (a₁ ++ a₂) :=
  refresh_congr rfl rfl rfl (word_add_word_add _ n₁ n₂) (List.append_assoc _ _ _) rfl rfl

theorem order_irrelevant (now start stop : Instant) {as bs : List (Addition Binary64)}
    (h : as.Perm bs) :
    let r : Report Binary64 := (new now start stop).addAll as
    let s : Report Binary64 := (new now start stop).addAll bs
    (r.total = s.total ∧ r.critical = s.critical ∧ r.high = s.high ∧ r.medium = s.medium ∧
      r.low = s.low ∧ r.dataPoints = s.dataPoints ∧ r.anomalyRate = s.anomalyRate ∧
      r.metricCount = s.metricCount ∧ r.hasCriticalIssues = s.hasCriticalIssues ∧
      r.health = s.health ∧ r.recommendations.Perm s.recommendations) ∧
    ∀ (t : Report Binary64) (n₁ n₂ : Nat) (a₁ a₂ : List (Anomaly Binary64)),
      (t.addAnomalies n₁ a₁).addAnomalies n₂ a₂ = t.addAnomalies (n₁ + n₂) (a₁ ++ a₂) := by
  intro r s
  have hrs : r.Reordered s := addAll_reordered h (by decide : 0 < 2 ^ 64)
  have hr : r.Consistent := run_consistent now start stop as
  have hs : s.Consistent := run_consistent now start stop bs
  refine ⟨⟨hrs.total hr hs, hrs.critical hr hs, hrs.high hr hs, ?_, ?_, hrs.dataPoints,
    hrs.anomalyRate hr hs, ?_, hrs.hasCriticalIssues hr hs, hrs.health hr hs,
    hrs.recommendations hr hs⟩, addAnomalies_addAnomalies⟩
  · rw [hr.medium, hs.medium, hrs.occurrences]
  · rw [hr.low, hs.low, hrs.occurrences]
  · rw [hr.metricCount, hs.metricCount, hrs.names]

theorem order_irrelevant_pair :
    let point : Anomaly Binary64 := .ofPoint .epoch "latency" .spike .high 2.0 1.0 .epoch
    let slower : Regression Binary64 :=
      { Regression.insufficient .epoch "errors" with isRegression := true, severity := .medium }
    let as : List (Addition Binary64) := [.anomalies 10 [point], .regression slower]
    let bs : List (Addition Binary64) := [.regression slower, .anomalies 10 [point]]
    as.Perm bs ∧ (((new .epoch .epoch .epoch).addAll as).health =
      ((new .epoch .epoch .epoch).addAll bs).health) ∧
      ((new .epoch .epoch .epoch).addAll as).recommendations.Perm
        ((new .epoch .epoch .epoch).addAll bs).recommendations := by
  intro point slower as bs
  have h : as.Perm bs := .swap _ _ _
  obtain ⟨⟨-, -, -, -, -, -, -, -, -, hhealth, hadvice⟩, -⟩ :=
    order_irrelevant .epoch .epoch .epoch h
  exact ⟨h, hhealth, hadvice⟩

end MetricWatch.Report
