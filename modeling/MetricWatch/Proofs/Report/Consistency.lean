import Mathlib.Data.Finset.Card
import MetricWatch.Binary64.Text
import MetricWatch.Proofs.Report.Additions

namespace MetricWatch

theorem nodup_eraseDups {β : Type} [BEq β] [LawfulBEq β] (l : List β) : l.eraseDups.Nodup := by
  induction l using List.reverseRecOn with
  | nil => exact List.nodup_nil
  | append_singleton l b ih =>
    rw [List.eraseDups_append]
    by_cases h : b ∈ l
    · simpa [List.removeAll, h] using ih
    · have hlast : [b].eraseDups = [b] := by simp [List.eraseDups_cons]
      have hdisjoint : ∀ c ∈ l, c ≠ b := fun c hc hcb ↦ h (hcb ▸ hc)
      simpa [List.removeAll, h, hlast, List.nodup_append, List.mem_eraseDups] using
        ⟨ih, hdisjoint⟩

namespace Report

variable {α : Type} [Scalar α]

def occurrences (r : Report α) (severity : Severity) : Nat :=
  (r.anomalies.filter (·.severity = severity)).length +
    (r.comparisons.map fun c ↦ (c.anomalies.filter (·.severity = severity)).length).sum

def names (r : Report α) : Finset String :=
  (r.anomalies.map (·.metric)).toFinset ∪ (r.comparisons.map (·.metric)).toFinset ∪
    (r.regressions.map (·.metric)).toFinset

/-- What a report states about its findings agrees with them. -/
structure Consistent [NumberText α] (r : Report α) : Prop where
  total : r.total = r.anomalies.length + (r.comparisons.map (·.anomalies.length)).sum
  critical : r.critical = r.occurrences .critical
  high : r.high = r.occurrences .high
  medium : r.medium = r.occurrences .medium
  low : r.low = r.occurrences .low
  graded : r.critical + r.high + r.medium + r.low + r.occurrences .info = r.total
  anomalyRate : r.anomalyRate =
    if r.dataPoints = 0 then 0.0 else (r.total : α) / (r.dataPoints : α)
  metricCount : r.metricCount = r.names.card
  health : r.health = r.derivedHealth
  recommendations : r.recommendations = r.advice.map (·.text)

variable {r : Report α}

theorem length_allAnomalies :
    r.allAnomalies.length = r.anomalies.length + (r.comparisons.map (·.anomalies.length)).sum := by
  rw [allAnomalies, List.length_append, List.length_flatMap]

theorem countOf_eq (severity : Severity) : r.countOf severity = r.occurrences severity := by
  rw [countOf, allAnomalies, List.countP_append, List.countP_flatMap, occurrences]
  simp only [List.countP_eq_length_filter, Function.comp_def]

theorem countOf_add :
    r.countOf .critical + r.countOf .high + r.countOf .medium + r.countOf .low + r.countOf .info =
      r.allAnomalies.length := by
  simp only [countOf]
  induction r.allAnomalies with
  | nil => rfl
  | cons a rest ih =>
    rw [List.length_cons, ← ih]
    cases h : a.severity <;> simp [h] <;> omega

theorem length_metricNames : r.metricNames.length = r.names.card := by
  rw [metricNames, ← List.toFinset_card_of_nodup (nodup_eraseDups _)]
  congr 1
  ext name
  simp only [List.mem_toFinset, List.mem_eraseDups, names, Finset.mem_union, List.mem_append]

variable [NumberText α]

theorem refresh_consistent : r.refresh.Consistent where
  total := length_allAnomalies
  critical := countOf_eq .critical
  high := countOf_eq .high
  medium := countOf_eq .medium
  low := countOf_eq .low
  graded := by
    rw [← countOf_eq .info]
    exact countOf_add
  anomalyRate := by
    rcases Nat.eq_zero_or_pos r.dataPoints with h | h
    · simp [refresh, recount, h]
    · simp [refresh, recount, h, Nat.ne_of_gt h]
  metricCount := length_metricNames
  health := rfl
  recommendations := rfl

theorem add_consistent (r : Report α) (a : Addition α) : (r.add a).Consistent := by
  rw [add_eq_refresh]
  exact refresh_consistent

theorem new_consistent (now start stop : Instant) :
    (new now start stop : Report Binary64).Consistent where
  total := rfl
  critical := rfl
  high := rfl
  medium := rfl
  low := rfl
  graded := rfl
  anomalyRate := rfl
  metricCount := rfl
  health := by
    have hrate : ¬ (degradedRate : Binary64) < 0.0 := by decide +kernel
    simp [new, derivedHealth, hasCriticalIssues, anyStatus, hrate]
  recommendations := by
    have hrate : ¬ (degradedRate : Binary64) < 0.0 := by decide +kernel
    simp [new, advice, hrate]

/-- A single addition may meet a report that states anything. A run starts from a new report, and
its additions may be any, in any order. Points are counted exactly as far as a word goes. -/
theorem consistent_throughout (r : Report Binary64) (a : Addition Binary64)
    (now start stop : Instant) (as : List (Addition Binary64)) :
    let next := r.add a
    let full := (new now start stop).addAll as
    (next.Consistent ∧
      (r.dataPoints + a.dataPoints < 2 ^ 64 → next.dataPoints = r.dataPoints + a.dataPoints) ∧
      next.anomalies = r.anomalies ++ a.loose ∧
      next.comparisons = r.comparisons ++ a.comparisons ∧
      next.regressions = r.regressions ++ a.regressions) ∧
    full.Consistent ∧
      ((as.map (·.dataPoints)).sum < 2 ^ 64 → full.dataPoints = (as.map (·.dataPoints)).sum) ∧
      full.anomalies = as.flatMap (·.loose) ∧ full.comparisons = as.flatMap (·.comparisons) ∧
      full.regressions = as.flatMap (·.regressions) := by
  intro next full
  have hrun : full.Consistent :=
    addAll_induction (fun r a _ ↦ add_consistent r a) (new_consistent now start stop)
  have hpoints : full.dataPoints = (as.map (·.dataPoints)).sum % 2 ^ 64 := by
    rw [show full.dataPoints = _ from addAll_dataPoints (by decide : 0 < 2 ^ 64)]
    exact congrArg (· % 2 ^ 64) (Nat.zero_add _)
  refine ⟨⟨add_consistent r a, fun h ↦ ?_, add_anomalies, add_comparisons, add_regressions⟩,
    hrun, fun h ↦ ?_, addAll_anomalies, addAll_comparisons, addAll_regressions⟩
  · rw [show next.dataPoints = _ from add_dataPoints, tally_eq (by omega), Nat.mod_eq_of_lt h]
  · rw [hpoints, Nat.mod_eq_of_lt h]

theorem consistent_throughout_words :
    let r : Report Binary64 := { new .epoch .epoch .epoch with dataPoints := 2 ^ 64 - 3 }
    let a : Addition Binary64 := .anomalies 2 []
    let as : List (Addition Binary64) := [a, .anomalies 40 []]
    (r.dataPoints + a.dataPoints < 2 ^ 64 ∧ (as.map (·.dataPoints)).sum < 2 ^ 64) ∧
      (r.add a).dataPoints = 2 ^ 64 - 1 ∧ ((new .epoch .epoch .epoch).addAll as).dataPoints = 42 := by
  intro r a as
  have hnext : r.dataPoints + a.dataPoints < 2 ^ 64 := by decide
  have hrun : (as.map (·.dataPoints)).sum < 2 ^ 64 := by decide
  obtain ⟨⟨-, hpoints, -⟩, -, hsum, -⟩ := consistent_throughout r a .epoch .epoch .epoch as
  exact ⟨⟨hnext, hrun⟩, hpoints hnext, hsum hrun⟩

end Report

end MetricWatch
