import Mathlib.Data.List.Forall2
import MetricWatch.Binary64.Text
import MetricWatch.Proofs.Binary64.Count
import MetricWatch.Proofs.Binary64.Finite
import MetricWatch.Proofs.Detection.Selection
import MetricWatch.Proofs.Validation

namespace MetricWatch

variable {α : Type} [Scalar α] {values : List α}

namespace Baseline

variable {b : Baseline α} {v : α}

abbrev score (b : Baseline α) (value : α) : α := (value - b.mean) / b.stdDev

/-- Whether the score of a value reaches a threshold or the value lies outside the fences. -/
abbrev Departs (b : Baseline α) (zThreshold value : α) : Prop :=
  zThreshold ≤ Scalar.abs (b.score value) ∨ b.OutsideFences value

theorem zScore_eq (hb : b.Valid) : b.zScore v = b.score v := if_pos hb.2

end Baseline

namespace Baseline

variable {b : Baseline Binary64} {zThreshold v : Binary64}

theorem flags_iff (hb : b.Valid) (ht : zThreshold.isNaN = false) :
    b.Flags zThreshold v ↔ b.Departs zThreshold v ∨ ¬ Scalar.IsNumber (b.score v) := by
  rw [Flags, zScore_eq hb, Binary64.not_abs_lt_iff ht, Departs, or_right_comm]

theorem isNumber_score_iff (hb : b.Valid) (hm : b.mean.isFinite = true)
    (hs : b.stdDev.isFinite = true) : Scalar.IsNumber (b.score v) ↔ Scalar.IsNumber v := by
  rw [Binary64.isNumber_iff, Binary64.isNumber_iff]
  constructor
  · intro h
    rw [← Bool.not_eq_true] at h ⊢
    exact fun hv ↦ h (Binary64.div_isNaN_of_left (Binary64.sub_isNaN (.inl hv)))
  · intro hv
    have hdistance : (v - b.mean).isNaN = false :=
      Binary64.isNaN_sub hv (Binary64.isFinite_iff.1 hm).1 (.inr hm)
    exact Binary64.isNaN_div_of_isFinite hdistance hb.2 hs

end Baseline

/-- A score that is not a number is not below the threshold either, and counts as reaching it. With
a finite mean and deviation it is the score of a gap. -/
theorem baseline_findings_exact (d : Detector Binary64) (c : Comparator Binary64) (now : Instant)
    (values : List Binary64) {b : Baseline Binary64} (timestamps : Option (List Instant))
    (hd : d.validate = .ok ()) (hc : c.validate = .ok ()) (hb : b.Valid) :
    let points := resolveTimestamps now values.length timestamps
    let detected := d.againstBaseline now values b timestamps
    let compared := (c.compare now values b timestamps).anomalies
    (SelectsWhere (fun v ↦ b.Departs d.zThreshold v ∨ ¬ Scalar.IsNumber (b.score v)) values points
        detected ∧
      SelectsWhere (fun v ↦ b.Departs c.zThreshold v ∨ ¬ Scalar.IsNumber (b.score v)) values points
        compared) ∧
    ((∀ v ∈ values, Scalar.IsNumber (b.score v)) →
      SelectsWhere (b.Departs d.zThreshold) values points detected ∧
        SelectsWhere (b.Departs c.zThreshold) values points compared) ∧
    (b.mean.isFinite = true → b.stdDev.isFinite = true →
      ∀ v, Scalar.IsNumber (b.score v) ↔ Scalar.IsNumber v) := by
  intro points detected compared
  have hdz : d.zThreshold.isNaN = false :=
    (Binary64.isFinite_iff.1 (Detector.validate_eq_ok_iff.1 hd).1.1).1
  have hcz : c.zThreshold.isNaN = false :=
    (Binary64.isFinite_iff.1 ((Comparator.validate_eq_ok_iff.1 hc).1 ("z_threshold", c.zThreshold)
      (by simp [Comparator.thresholds])).1).1
  have hdetected : SelectsWhere (b.Flags d.zThreshold) values points detected :=
    (Detector.selectsWhere_againstBaseline timestamps).of_guard hb
  have hcompared : SelectsWhere (b.Flags c.zThreshold) values points compared :=
    (Comparator.selectsWhere_compare timestamps).of_guard hb
  refine ⟨⟨hdetected.congr fun v _ ↦ Baseline.flags_iff hb hdz,
    hcompared.congr fun v _ ↦ Baseline.flags_iff hb hcz⟩, fun hscores ↦ ?_,
    fun hm hs v ↦ Baseline.isNumber_score_iff hb hm hs⟩
  have hflags {t v : Binary64} (ht : t.isNaN = false) (hv : v ∈ values) :
      b.Flags t v ↔ b.Departs t v := by
    rw [Baseline.flags_iff hb ht, or_iff_left (not_not.2 (hscores v hv))]
  exact ⟨hdetected.congr fun v hv ↦ hflags hdz hv, hcompared.congr fun v hv ↦ hflags hcz hv⟩

theorem baseline_findings_exact_spike :
    let d : Detector Binary64 := .standard
    let c : Comparator Binary64 := .standard
    let b : Baseline Binary64 := { Baseline.empty .epoch "latency" 7 with
      sampleCount := 10, mean := 1.0, stdDev := 1.0, lowerFence := 0.0, upperFence := 2.0 }
    let values : List Binary64 := [1.0, 9.0]
    (d.validate = .ok () ∧ c.validate = .ok () ∧ b.Valid ∧
        (∀ v ∈ values, Scalar.IsNumber (b.score v)) ∧ b.mean.isFinite = true ∧
        b.stdDev.isFinite = true) ∧
      (d.againstBaseline .epoch values b none).map (·.actual) = [9.0] ∧
      (c.compare .epoch values b none).anomalies.map (·.actual) = [9.0] ∧
      ¬ Scalar.IsNumber (b.score (.nan false)) := by
  intro d c b values
  have hd : d.validate = .ok () := Detector.validate_eq_ok_iff.2 (by decide +kernel)
  have hc : c.validate = .ok () := Comparator.validate_eq_ok_iff.2 (by decide +kernel)
  have hb : b.Valid := by decide +kernel
  have hscores : ∀ v ∈ values, Scalar.IsNumber (b.score v) := by decide +kernel
  have hmean : b.mean.isFinite = true := by decide +kernel
  have hstdDev : b.stdDev.isFinite = true := by decide +kernel
  obtain ⟨-, hexact, hgap⟩ := baseline_findings_exact d c .epoch values none hd hc hb
  obtain ⟨hdetected, hcompared⟩ := hexact hscores
  have hactual {found : List (Anomaly Binary64)} {points : List (Binary64 × Instant)}
      (h : found.map (fun a ↦ (a.actual, a.timestamp)) = points) :
      found.map (·.actual) = points.map Prod.fst := by
    rw [← h, List.map_map]
    rfl
  refine ⟨⟨hd, hc, hb, hscores, hmean, hstdDev⟩, (hactual hdetected).trans ?_,
    (hactual hcompared).trans ?_, fun h ↦ ?_⟩
  · decide +kernel
  · decide +kernel
  · exact absurd ((hgap hmean hstdDev _).1 h) (by decide +kernel)

theorem baseline_findings_exact_gap :
    let d : Detector Binary64 := .standard
    let c : Comparator Binary64 := .standard
    let b : Baseline Binary64 := { Baseline.empty .epoch "latency" 7 with
      sampleCount := 10, mean := 1.0, stdDev := 1.0, lowerFence := 0.0, upperFence := 2.0 }
    let gap : Binary64 := .nan false
    (d.validate = .ok () ∧ c.validate = .ok () ∧ b.Valid) ∧
      (¬ b.Departs d.zThreshold gap ∧ (d.againstBaseline .epoch [gap] b none).length = 1) ∧
      ¬ b.Departs c.zThreshold gap ∧ (c.compare .epoch [gap] b none).anomalies.length = 1 := by
  intro d c b gap
  have hb : b.Valid := by decide +kernel
  have hdetected : (d.againstBaseline .epoch [gap] b none).length = _ :=
    Detector.length_againstBaseline d .epoch [gap] hb (Nat.le_refl 1)
  have hcompared : (c.anomalies .epoch [gap] b none).length = _ := Comparator.length_anomalies hb
  refine ⟨⟨Detector.validate_eq_ok_iff.2 (by decide +kernel),
    Comparator.validate_eq_ok_iff.2 (by decide +kernel), hb⟩, ⟨by decide +kernel, ?_⟩,
    by decide +kernel, ?_⟩
  · exact hdetected.trans (by decide +kernel)
  · rw [Comparator.compare_anomalies (List.cons_ne_nil gap [])]
    exact hcompared.trans (by decide +kernel)

/-- Two findings of the same deviation, which may differ in how grave and how sure it is. -/
structure Anomaly.SameJudgement (a b : Anomaly α) : Prop where
  timestamp : a.timestamp = b.timestamp
  metric : a.metric = b.metric
  kind : a.kind = b.kind
  actual : a.actual = b.actual
  expected : a.expected = b.expected
  deviation : a.deviation = b.deviation
  zScore : a.zScore = b.zScore

section Agreement

variable [NumberText α] {d : Detector α} {c : Comparator α} {b : Baseline α} {now₁ now₂ : Instant}

theorem points_agree (hz : d.zThreshold = c.zThreshold) (v : α) (t : Instant) :
    Option.Rel Anomaly.SameJudgement (c.point? now₁ b v t) (d.baselinePoint? now₂ b v t) := by
  rw [Comparator.point?_eq, Detector.baselinePoint?, hz]
  split
  · exact .some ⟨rfl, rfl, rfl, rfl, rfl, rfl, rfl⟩
  · exact .none

theorem Comparator.compare_anomalies_eq (values : List α) (points : List Instant) :
    (c.compare now₁ values b (some points)).anomalies =
      c.anomalies now₁ values b (some points) := by
  rcases eq_or_ne values [] with rfl | h
  · simp [compare, Comparison.noData, anomalies]
  · exact compare_anomalies h

/-- Nothing is asked of the baseline, which both refuse to judge by on the same grounds. -/
theorem judgements_agree (d : Detector α) (c : Comparator α) (now₁ now₂ : Instant)
    (values : List α) (b : Baseline α) (points : List Instant)
    (hz : d.zThreshold = c.zThreshold) :
    let compared := (c.compare now₁ values b (some points)).anomalies
    let detected := d.againstBaseline now₂ values b (some points)
    compared.length = detected.length ∧
      List.Forall₂ Anomaly.SameJudgement compared detected := by
  intro compared detected
  have hsame : List.Forall₂ Anomaly.SameJudgement compared detected := by
    rw [show compared = _ from Comparator.compare_anomalies_eq values points]
    simp only [detected, Comparator.anomalies, Detector.againstBaseline]
    split
    · refine List.rel_filterMap (R := (· = ·)) ?_ (List.forall₂_same.2 fun _ _ ↦ rfl)
      rintro ⟨v, t⟩ _ rfl
      exact points_agree hz v t
    · exact .nil
  exact ⟨hsame.length_eq, hsame⟩

end Agreement

theorem judgements_agree_spike :
    let d : Detector Binary64 := .standard
    let c : Comparator Binary64 := { Comparator.standard with zThreshold := 3.0 }
    let b : Baseline Binary64 := { Baseline.empty .epoch "latency" 7 with
      sampleCount := 10, mean := 1.0, stdDev := 1.0, lowerFence := 0.0, upperFence := 2.0 }
    let values : List Binary64 := [1.0, 9.0, .nan false]
    let points : List Instant := List.replicate 3 .epoch
    let compared := (c.compare .epoch values b (some points)).anomalies
    d.zThreshold = c.zThreshold ∧ compared.length = 2 ∧
      List.Forall₂ Anomaly.SameJudgement compared
        (d.againstBaseline .epoch values b (some points)) := by
  intro d c b values points compared
  have hz : d.zThreshold = c.zThreshold := by decide +kernel
  have hb : b.Valid := by decide +kernel
  obtain ⟨hlen, hsame⟩ := judgements_agree d c .epoch .epoch values b points hz
  have hdetected : (d.againstBaseline .epoch values b (some points)).length = _ :=
    Detector.length_againstBaseline d .epoch values hb (Nat.le_refl 3)
  exact ⟨hz, (hlen.trans hdetected).trans (by decide +kernel), hsame⟩

end MetricWatch
