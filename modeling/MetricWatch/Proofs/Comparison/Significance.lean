import Mathlib.Tactic.SplitIfs
import MetricWatch.Binary64.Text
import MetricWatch.Proofs.Binary64.Ratio
import MetricWatch.Proofs.Comparison.Change
import MetricWatch.Proofs.Detection.Selection
import MetricWatch.Proofs.Stats.Finite
import MetricWatch.Proofs.Validation

namespace MetricWatch

def Status.notable : List Status := [changed, degraded, critical]

namespace Comparator

variable {c : Comparator Binary64} {meanChange p99Change : Binary64}
  {anomalyCount sampleCount : Nat}

theorem isSignificant_iff :
    c.isSignificant meanChange p99Change anomalyCount sampleCount = true ↔
      c.significance ≤ largestChange meanChange p99Change ∨
        (sampleCount : Binary64) * degradedRate < (anomalyCount : Binary64) := by
  rw [isSignificant, largestChange, Binary64.le_larger_iff, Bool.or_eq_true, Bool.or_eq_true,
    decide_eq_true_eq, decide_eq_true_eq, decide_eq_true_eq]

theorem rates_ordered :
    (0.0 : Binary64) < degradedRate ∧ (degradedRate : Binary64) < criticalRate := by decide +kernel

theorem statusOf_mem_notable_iff (hhigh : c.high ≤ c.critical) (h : 0 < sampleCount) :
    c.statusOf meanChange p99Change anomalyCount sampleCount ∈ Status.notable ↔
      c.significance ≤ largestChange meanChange p99Change ∨
        c.high ≤ largestChange meanChange p99Change ∨
        (degradedRate : Binary64) < (anomalyCount : Binary64) / (sampleCount : Binary64) := by
  obtain ⟨-, hrates⟩ := rates_ordered
  simp only [statusOf, if_pos h]
  split_ifs with hcritical hdegraded hchanged
  · refine iff_of_true (by decide) (.inr ?_)
    rcases hcritical with hl | hr
    · exact .inl (Binary64.le_trans hhigh hl)
    · exact .inr (Binary64.lt_of_lt_of_le hrates (Binary64.le_of_lt hr))
  · exact iff_of_true (by decide) (.inr hdegraded)
  · exact iff_of_true (by decide) (.inl hchanged)
  · exact iff_of_false (by decide) (not_or.2 ⟨hchanged, hdegraded⟩)

theorem high_le_critical (h : c.validate = .ok ()) : c.high ≤ c.critical := by
  obtain ⟨hall, hnot⟩ := validate_eq_ok_iff.1 h
  have hcritical := (hall ("critical_change_percent", c.critical) (by simp [thresholds])).1
  have hhigh := (hall ("high_change_percent", c.high) (by simp [thresholds])).1
  exact Binary64.le_of_not_lt (Binary64.isFinite_iff.1 hcritical).1
    (Binary64.isFinite_iff.1 hhigh).1 hnot

theorem statusOf_mem_notable_iff_isSignificant (hhigh : c.high ≤ c.critical)
    (hle : anomalyCount ≤ sampleCount) (h : 0 < sampleCount) (hlen : sampleCount < 3 * 2 ^ 51 + 5) :
    c.statusOf meanChange p99Change anomalyCount sampleCount ∈ Status.notable ↔
      c.isSignificant meanChange p99Change anomalyCount sampleCount = true ∨
        c.high ≤ largestChange meanChange p99Change := by
  have hrate : (sampleCount : Binary64) * degradedRate < (anomalyCount : Binary64) ↔
      (degradedRate : Binary64) < (anomalyCount : Binary64) / (sampleCount : Binary64) :=
    Binary64.mul_tenth_lt_iff_tenth_lt_ratio hle h hlen
  rw [statusOf_mem_notable_iff hhigh h, isSignificant_iff, hrate, or_assoc,
    or_comm (a := c.high ≤ _)]

/-- Where the status counts more than the significance does, it is a high change that is not yet a
significant one. The bound is on the length of the batch. -/
theorem status_agrees (c : Comparator Binary64) (now : Instant) {values : List Binary64}
    (b : Baseline Binary64) (timestamps : Option (List Instant)) (hc : c.validate = .ok ())
    (hne : values ≠ []) (hlen : values.length < 3 * 2 ^ 51 + 5) :
    let r := c.compare now values b timestamps
    (r.status ∈ Status.notable ↔
      r.significant = true ∨ c.high ≤ largestChange r.meanChange r.p99Change) ∧
    (c.significance ≤ c.high → (r.significant = true ↔ r.status ∈ Status.notable)) := by
  intro r
  have hcount : r.sampleCount = values.length := compare_sampleCount timestamps
  have hpos : 0 < r.sampleCount := hcount ▸ List.length_pos_iff.2 hne
  have hnotable : r.status ∈ Status.notable ↔
      r.significant = true ∨ c.high ≤ largestChange r.meanChange r.p99Change := by
    rw [compare_status hne, compare_significant hne]
    exact statusOf_mem_notable_iff_isSignificant (high_le_critical hc)
      (length_compare_le timestamps) hpos (hcount ▸ hlen)
  refine ⟨hnotable, fun hle ↦ ?_⟩
  rw [hnotable, iff_self_or]
  intro hlarge
  rw [compare_significant hne, isSignificant_iff]
  exact .inl (Binary64.le_trans hle hlarge)

theorem percentile_singleton (v p : Binary64) : Stats.percentile (Stats.sorted [v]) p = v := by
  rw [Stats.sorted, List.mergeSort_singleton]
  exact dif_neg (by simp)

theorem compare_singleton (d : Detector Binary64) (now : Instant) (metric : String)
    (periodDays : Nat) (base v : Binary64) :
    let r := c.compare now [v] (d.baseline now [base] metric periodDays) none
    r.meanChange = Stats.changePercent (Stats.mean [base]) (Stats.mean [v]) ∧
      r.p99Change = Stats.changePercent base v ∧ r.anomalies.length = 0 ∧ r.sampleCount = 1 := by
  intro r
  have hne (x : Binary64) : [x] ≠ [] := List.cons_ne_nil x []
  have hchanges : (r.meanChange, r.p99Change) = _ := compare_changes (hne v)
  have hvalid : ¬ (d.baseline now [base] metric periodDays).Valid := by
    rw [Baseline.Valid, Detector.baseline_sampleCount (hne base)]
    exact fun h ↦ Nat.not_le.2 (by decide : 1 < Baseline.leastSamples) h.1
  rw [Detector.baseline_mean (hne base), Detector.baseline_p99 (hne base), percentile_singleton,
    percentile_singleton, Prod.mk.injEq] at hchanges
  have hanomalies : r.anomalies = [] := (compare_anomalies (hne v)).trans (if_neg hvalid)
  exact ⟨hchanges.1, hchanges.2, congrArg List.length hanomalies, compare_sampleCount none⟩

theorem status_agrees_changed :
    let c : Comparator Binary64 := .standard
    let d : Detector Binary64 := .standard
    let r := c.compare .epoch [112.0] (d.baseline .epoch [100.0] "latency" 7) none
    c.validate = .ok () ∧ c.significance ≤ c.high ∧ r.significant = true ∧
      r.status ∈ Status.notable := by
  intro c d r
  have hc : c.validate = .ok () := validate_eq_ok_iff.2 (by decide +kernel)
  have hle : c.significance ≤ c.high := by decide +kernel
  have hne : [(112.0 : Binary64)] ≠ [] := List.cons_ne_nil _ _
  obtain ⟨hmean, hp99, -, -⟩ := compare_singleton (c := c) d .epoch "latency" 7 100.0 112.0
  have hsignificant : r.significant = true := by
    rw [compare_significant hne, isSignificant_iff, hmean, hp99]
    exact .inl (by decide +kernel)
  have hagree := status_agrees c .epoch (d.baseline .epoch [100.0] "latency" 7) none hc hne
    (by decide)
  exact ⟨hc, hle, hsignificant, (hagree.2 hle).1 hsignificant⟩

theorem not_le_largestChange {t : Binary64} (hm : meanChange.isNaN = true)
    (hp : p99Change.isNaN = true) : ¬ t ≤ largestChange meanChange p99Change := by
  rw [largestChange, Binary64.le_larger_iff, not_or]
  constructor
  · exact fun h ↦ Bool.false_ne_true (h.2.1.symm.trans ((Binary64.isNaN_abs _).trans hm))
  · exact fun h ↦ Bool.false_ne_true (h.2.1.symm.trans ((Binary64.isNaN_abs _).trans hp))

theorem compare_gaps {b : Baseline Binary64} (hb : b.Valid) (hmean : ¬ Scalar.IsZero b.mean)
    (hp99 : b.p99.isNaN = true) {gap v : Binary64} (hgap : gap.isNaN = true)
    (hflags : b.Flags c.zThreshold gap ∧ ¬ b.Flags c.zThreshold v) (now : Instant) {k : Nat}
    (hk : 0 < k) (m : Nat) :
    let r := c.compare now (List.replicate k gap ++ List.replicate m v) b none
    (r.significant = true ↔ ((k + m : Nat) : Binary64) * degradedRate < (k : Binary64)) ∧
      ((degradedRate : Binary64) < (k : Binary64) / ((k + m : Nat) : Binary64) →
        c.high ≤ c.critical → r.status ∈ Status.notable) := by
  intro r
  have hmem : gap ∈ List.replicate k gap ++ List.replicate m v :=
    List.mem_append_left _ (List.mem_replicate.2 ⟨Nat.ne_of_gt hk, rfl⟩)
  have hne : List.replicate k gap ++ List.replicate m v ≠ [] := List.ne_nil_of_mem hmem
  have hchanges : (r.meanChange, r.p99Change) = _ := compare_changes hne
  obtain ⟨hmeanChange, hp99Change⟩ := Prod.mk.inj hchanges
  have hm : r.meanChange.isNaN = true := by
    rw [hmeanChange]
    exact Stats.changePercent_isNaN hmean (.inl (Stats.mean_isNaN hmem hgap))
  have hzero : ¬ Scalar.IsZero b.p99 := fun h ↦ Bool.false_ne_true (h.1.1.symm.trans hp99)
  have hp : r.p99Change.isNaN = true := by
    rw [hp99Change]
    exact Stats.changePercent_isNaN hzero (.inr hp99)
  have hfound : r.anomalies.length = k := by
    rw [compare_anomalies hne, length_anomalies hb, List.countP_append, List.countP_replicate,
      List.countP_replicate, if_pos (decide_eq_true hflags.1),
      if_neg (by simpa using hflags.2), Nat.add_zero]
  have hcount : r.sampleCount = k + m := by
    rw [compare_sampleCount, List.length_append, List.length_replicate, List.length_replicate]
  constructor
  · rw [compare_significant hne, isSignificant_iff, hfound, hcount]
    exact or_iff_right (not_le_largestChange hm hp)
  · intro hrate hhigh
    rw [compare_status hne, hfound, hcount, statusOf_mem_notable_iff hhigh (by omega)]
    exact .inr (.inr hrate)

/-- A change between two thresholds, the significant one the higher; and, with the standard
thresholds, the shortest batch in which a tenth of the values is more than a tenth of them and the
product with the rate is rounded up to it. -/
theorem status_agrees_parted :
    (let c : Comparator Binary64 := { standard with significance := 40.0 }
      let d : Detector Binary64 := .standard
      let r := c.compare .epoch [130.0] (d.baseline .epoch [100.0] "latency" 7) none
      c.validate = .ok () ∧ r.status ∈ Status.notable ∧ r.significant = false) ∧
    (let c : Comparator Binary64 := .standard
      let b : Baseline Binary64 := { Baseline.empty .epoch "latency" 7 with
        sampleCount := 10, mean := 1.0, stdDev := 1.0, p99 := .nan false, lowerFence := 0.0
        upperFence := 2.0 }
      let values : List Binary64 :=
        List.replicate 675539944105575 (.nan false) ++ List.replicate 6079859496950174 1.0
      let r := c.compare .epoch values b none
      c.validate = .ok () ∧ values.length = 3 * 2 ^ 51 + 5 ∧ r.status ∈ Status.notable ∧
        r.significant = false) := by
  constructor
  · intro c d r
    have hne : [(130.0 : Binary64)] ≠ [] := List.cons_ne_nil _ _
    obtain ⟨hmean, hp99, hfound, hcount⟩ :=
      compare_singleton (c := c) d .epoch "latency" 7 100.0 130.0
    refine ⟨validate_eq_ok_iff.2 (by decide +kernel), ?_, ?_⟩
    · rw [compare_status hne, hmean, hp99, hfound, hcount]
      decide +kernel
    · rw [compare_significant hne, hmean, hp99, hfound, hcount]
      decide +kernel
  · intro c b values r
    have hgaps := compare_gaps (c := c) (b := b) (by decide +kernel) (by decide +kernel)
      (by decide +kernel) (by decide +kernel : (Binary64.nan false).isNaN = true) (v := 1.0)
      (by decide +kernel) .epoch (k := 675539944105575) (by decide) 6079859496950174
    refine ⟨validate_eq_ok_iff.2 (by decide +kernel), ?_, ?_, ?_⟩
    · rw [List.length_append, List.length_replicate, List.length_replicate]
      decide
    · exact hgaps.2 (by decide +kernel) (by decide +kernel)
    · exact Bool.eq_false_iff.2 fun h ↦ absurd (hgaps.1.1 h) (by decide +kernel)

end Comparator

end MetricWatch
