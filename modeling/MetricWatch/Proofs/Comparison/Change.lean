import MetricWatch.Binary64.Text
import MetricWatch.Comparator
import MetricWatch.Proofs.Detection.Baseline
import MetricWatch.Regression.Gate

namespace MetricWatch

variable {α : Type} [Scalar α]

def changesBetween (before after : List α) : α × α :=
  (Stats.changePercent (Stats.mean before) (Stats.mean after),
    Stats.changePercent (Stats.percentile (Stats.sorted before) 99.0)
      (Stats.percentile (Stats.sorted after) 99.0))

namespace Comparator

variable {c : Comparator α} {first last : Baseline α}

theorem drift_pair (c : Comparator α) (first last : Baseline α) :
    let drift := c.drift [first, last]
    (drift.mean, drift.p99) =
        (Stats.changePercent first.mean last.mean, Stats.changePercent first.p99 last.p99) ∧
      drift.drifting = (decide (c.significance ≤ Scalar.abs drift.mean) ||
        decide (c.significance ≤ Scalar.abs drift.p99)) := ⟨rfl, rfl⟩

theorem drift_ends (between : List (Baseline α)) :
    c.drift (first :: (between ++ [last])) = c.drift [first, last] := by
  cases between with
  | nil => rfl
  | cons next rest =>
    have hlast : (next :: (rest ++ [last])).getLastD next = last := by
      rw [← List.cons_append, List.getLastD_eq_getLast?, List.getLast?_concat, Option.getD_some]
    simp only [List.cons_append, drift, hlast]
    rfl

variable [NumberText α] {now : Instant} {values : List α} {b : Baseline α}
  {timestamps : Option (List Instant)}

theorem compare_changes (h : values ≠ []) :
    let comparison := c.compare now values b timestamps
    (comparison.meanChange, comparison.p99Change) =
      (Stats.changePercent b.mean (Stats.mean values),
        Stats.changePercent b.p99 (Stats.percentile (Stats.sorted values) 99.0)) := by
  simp [compare, h]

theorem compare_significant (h : values ≠ []) :
    let comparison := c.compare now values b timestamps
    comparison.significant = c.isSignificant comparison.meanChange comparison.p99Change
      comparison.anomalies.length comparison.sampleCount := by
  simp [compare, h]

omit [NumberText α] in
theorem isSignificant_of_change {meanChange p99Change : α} (anomalyCount sampleCount : Nat)
    (h : (decide (c.significance ≤ Scalar.abs meanChange) ||
      decide (c.significance ≤ Scalar.abs p99Change)) = true) :
    c.isSignificant meanChange p99Change anomalyCount sampleCount = true := by
  rw [isSignificant, h, Bool.true_or]

end Comparator

theorem Gate.detect_changes [NumberText α] {g : Gate α} {now : Instant} {before after : List α}
    {metric : String} (hb : before ≠ []) (ha : after ≠ []) :
    let r := g.detect now before after metric
    (r.meanChange, r.p99Change) = changesBetween before after := by
  simp [detect, detectBy, hb, ha]
  rfl

/-- The history may hold anything between its two ends, and neither the comparator nor the
detectors and the gate have to be checked. -/
theorem changes_agree [NumberText α] (c : Comparator α) (d d' : Detector α) (g : Gate α)
    (now now' : Instant) (metric metric' : String) (periodDays periodDays' : Nat)
    (between : List (Baseline α)) (timestamps : Option (List Instant)) {before after : List α}
    (hb : before ≠ []) (ha : after ≠ []) :
    let first := d.baseline now before metric periodDays
    let last := d'.baseline now' after metric' periodDays'
    let drift := c.drift (first :: (between ++ [last]))
    let comparison := c.compare now' after first timestamps
    let regression := g.detect now' before after metric'
    (drift.mean, drift.p99) = (comparison.meanChange, comparison.p99Change) ∧
      (comparison.meanChange, comparison.p99Change) =
        (regression.meanChange, regression.p99Change) ∧
      (regression.meanChange, regression.p99Change) = (drift.mean, drift.p99) ∧
      (drift.drifting = true → comparison.significant = true) := by
  intro first last drift comparison regression
  have hends : drift = c.drift [first, last] := Comparator.drift_ends between
  obtain ⟨hpair, hdrifting⟩ := Comparator.drift_pair c first last
  rw [← hends] at hpair hdrifting
  have hdrift : (drift.mean, drift.p99) = changesBetween before after := by
    rw [hpair, Detector.baseline_mean hb, Detector.baseline_mean ha, Detector.baseline_p99 hb,
      Detector.baseline_p99 ha]
    rfl
  have hcompare : (comparison.meanChange, comparison.p99Change) = changesBetween before after := by
    rw [Comparator.compare_changes ha, Detector.baseline_mean hb, Detector.baseline_p99 hb]
    rfl
  have hdetect : (regression.meanChange, regression.p99Change) = changesBetween before after :=
    Gate.detect_changes hb ha
  refine ⟨hdrift.trans hcompare.symm, hcompare.trans hdetect.symm, hdetect.trans hdrift.symm,
    fun h ↦ ?_⟩
  obtain ⟨hmean, hp99⟩ := Prod.mk.inj (hdrift.trans hcompare.symm)
  rw [hdrifting, hmean, hp99] at h
  rw [Comparator.compare_significant ha]
  exact Comparator.isSignificant_of_change _ _ h

theorem changes_agree_doubled :
    let c : Comparator Binary64 := .standard
    let d : Detector Binary64 := .standard
    let before : List Binary64 := [10.0, 12.0, 11.0]
    let after : List Binary64 := [22.0, 24.0]
    let first := d.baseline .epoch before "latency" 7
    let last := d.baseline .epoch after "latency" 7
    let drift := c.drift (first :: ([.empty .epoch "latency" 7] ++ [last]))
    let comparison := c.compare .epoch after first none
    (before ≠ [] ∧ after ≠ []) ∧ drift.drifting = true ∧ comparison.significant = true := by
  intro c d before after first last drift comparison
  have hb : before ≠ [] := List.cons_ne_nil _ _
  have ha : after ≠ [] := List.cons_ne_nil _ _
  have hdrift : drift.drifting = true := by decide +kernel
  have hagree := changes_agree c d d .standard .epoch .epoch "latency" "latency" 7 7
    [.empty .epoch "latency" 7] none hb ha
  exact ⟨⟨hb, ha⟩, hdrift, hagree.2.2.2 hdrift⟩

end MetricWatch
