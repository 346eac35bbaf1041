import MetricWatch.Binary64.Text
import MetricWatch.Proofs.Detection.Baseline
import MetricWatch.Proofs.Detection.Selection
import MetricWatch.Proofs.Stats.Constant
import MetricWatch.Proofs.Validation

namespace MetricWatch

namespace Detector

open Binary64

variable {d : Detector Binary64} {now : Instant} {metric : String} {periodDays n : Nat}
  {c : Binary64} {values : List Binary64} {timestamps : Option (List Instant)}

theorem byZScore_of_isZero (h : Scalar.IsZero (Stats.populationStdDev values)) :
    d.byZScore now values metric timestamps = [] := if_pos (.inr h)

theorem valid_replicate_iff (hpos : 0 < n) :
    (d.baseline now (List.replicate n c) metric periodDays).Valid ↔
      Baseline.leastSamples ≤ n ∧ 0.0 < Stats.populationStdDev (List.replicate n c) := by
  have hne : List.replicate n c ≠ [] := by simp; omega
  rw [Baseline.Valid, baseline_sampleCount hne, baseline_stdDev hne, List.length_replicate]

theorem zero_lt_populationStdDev_iff (hc : c.isFinite = true) (hpos : 0 < n)
    (hn : n ≤ 2 * binade) :
    (0.0 : Binary64) < Stats.populationStdDev (List.replicate n c) ↔
      ¬ Scalar.IsZero (Stats.rest n c) := by
  constructor
  · intro hlt hrest
    exact not_zero_lt_of_isZero (Stats.isZero_populationStdDev hpos hrest) hlt
  · exact Stats.zero_lt_populationStdDev hc hpos hn

/-- The score ought to be one. Rounding does not double it, and a deviation that leaves the range
makes it zero. -/
theorem abs_ownScore_lt_two (hc : c.isFinite = true) (hpos : 0 < n) (hn : n ≤ 2 * binade)
    (hrest : ¬ Scalar.IsZero (Stats.rest n c)) :
    Scalar.abs (ownScore (List.replicate n c) c) < (2.0 : Binary64) ∨
      ¬ Scalar.IsNumber (ownScore (List.replicate n c) c) := by
  have hmem : c ∈ List.replicate n c := List.mem_replicate.2 ⟨Nat.ne_of_gt hpos, rfl⟩
  have hnan := (zero_lt_iff.1 (Stats.zero_lt_populationStdDev hc hpos hn hrest)).1
  unfold ownScore
  cases hf : (Stats.populationStdDev (List.replicate n c)).isFinite with
  | true =>
    have hdeviation := Stats.isFinite_sub_mean hf hmem
    obtain ⟨t, hsquare, hunits⟩ := Stats.exists_atLeast_square hdeviation hrest
    exact .inl (Stats.abs_div_lt_two hdeviation hunits
      (Stats.atLeast_populationStdDev hsquare hpos hn) hf)
  | false =>
    apply Stats.abs_div_lt_two_of_isInfinite
    simpa [hnan, hf] using isFinite_iff (x := Stats.populationStdDev (List.replicate n c))

theorem selectsWhere_replicate (hd : d.validate = .ok ()) (hc : c.isFinite = true) (hpos : 0 < n)
    (hn : n ≤ 2 * binade) (timestamps : Option (List Instant)) :
    let values := List.replicate n c
    SelectsWhere
      (fun v ↦ d.minSampleSize ≤ n ∧ ¬ Scalar.IsZero (Stats.rest n c) ∧
        d.zThreshold ≤ Scalar.abs (ownScore values v))
      values (resolveTimestamps now values.length timestamps)
      (d.byZScore now values metric timestamps) := by
  intro values
  have hzThreshold : d.zThreshold.isNaN = false :=
    (isFinite_iff.1 (Detector.validate_eq_ok_iff.1 hd).1.1).1
  have hspread := zero_lt_populationStdDev_iff hc hpos hn
  have hzero : Scalar.IsZero (Stats.populationStdDev values) ↔ Scalar.IsZero (Stats.rest n c) :=
    ⟨fun h ↦ by_contra fun hrest ↦ not_zero_lt_of_isZero h (hspread.2 hrest),
      Stats.isZero_populationStdDev hpos⟩
  refine (selectsWhere_byZScore timestamps).congr fun v _ ↦ ?_
  rw [not_abs_lt_and_isNumber_iff hzThreshold, hzero, List.length_replicate, and_assoc]

/-- One square decides whether the series has a deviation, and it is zero where the sum is exact.
With a deviation, there is a baseline to judge by, and the points are found by every threshold that
their common score reaches, which is less than two. -/
theorem constant_series (d : Detector Binary64) (now₁ now₂ : Instant) (metric : String)
    (periodDays : Nat) (timestamps : Option (List Instant)) {c : Binary64} {n : Nat}
    (hd : d.validate = .ok ()) (hc : c.isFinite = true) (hpos : 1 ≤ n) :
    let values := List.replicate n c
    let points := resolveTimestamps now₂ values.length timestamps
    let b := d.baseline now₁ values metric periodDays
    let found := d.byZScore now₂ values metric timestamps
    (Scalar.IsZero (Stats.rest n c) → ¬ b.Valid ∧ found = []) ∧
    (n ≤ 2 ^ 53 →
      (b.Valid ↔ Baseline.leastSamples ≤ n ∧ ¬ Scalar.IsZero (Stats.rest n c)) ∧
      SelectsWhere
        (fun v ↦ d.minSampleSize ≤ n ∧ ¬ Scalar.IsZero (Stats.rest n c) ∧
          d.zThreshold ≤ Scalar.abs (ownScore values v))
        values points found ∧
      (2.0 ≤ d.zThreshold → found = []) ∧
      ∀ q e, c.units = q * 2 ^ e → n * q ≤ 2 ^ 53 → n * q * 2 ^ e < limit →
        Stats.mean values = c ∧ Scalar.IsZero (Stats.rest n c)) := by
  intro values points b found
  refine ⟨fun hrest ↦ ?_, fun hn ↦ ?_⟩
  · have hzero := Stats.isZero_populationStdDev hpos hrest
    exact ⟨fun hvalid ↦ not_zero_lt_of_isZero hzero ((valid_replicate_iff hpos).1 hvalid).2,
      byZScore_of_isZero hzero⟩
  replace hn : n ≤ 2 * binade := hn.trans (by decide)
  have hspread := zero_lt_populationStdDev_iff hc hpos hn
  have hfound : SelectsWhere _ values points found :=
    selectsWhere_replicate hd hc hpos hn timestamps
  refine ⟨(valid_replicate_iff hpos).trans (and_congr_right' hspread), hfound, fun htwo ↦ ?_,
    fun q e hunits hcount hsum ↦ ?_⟩
  · refine hfound.eq_nil fun v hv ⟨_, hrest, hreach⟩ ↦ ?_
    obtain rfl := List.eq_of_mem_replicate hv
    rcases abs_ownScore_lt_two hc hpos hn hrest with hlt | hnumber
    · exact not_le_of_lt (lt_of_lt_of_le hlt htwo) hreach
    · exact hnumber (isNumber_iff.2 ((isNaN_abs _).symm.trans hreach.2.1))
  · have hmean : Stats.mean values = c :=
      Stats.mean_exact hc (Stats.isSize_mul_units hunits hcount hsum) hpos hn
    exact ⟨hmean, Stats.isZero_rest hc hmean⟩

theorem constant_series_five :
    let d : Detector Binary64 := .standard
    let c : Binary64 := 5.0
    let values := List.replicate 10 c
    (d.validate = .ok () ∧ c.isFinite = true ∧ 1 ≤ 10 ∧ 10 ≤ 2 ^ 53 ∧ 2.0 ≤ d.zThreshold ∧
        c.units = 5 * 2 ^ 1074 ∧ 10 * 5 * 2 ^ 1074 < limit) ∧
      Stats.mean values = c ∧ ¬ (d.baseline .epoch values "latency" 7).Valid ∧
      d.byZScore .epoch values "latency" none = [] := by
  intro d c values
  have hd : d.validate = .ok () := Detector.validate_eq_ok_iff.2 (by decide +kernel)
  have hc : c.isFinite = true := by decide +kernel
  have hzThreshold : 2.0 ≤ d.zThreshold := by decide +kernel
  have hunits : c.units = 5 * 2 ^ 1074 := by decide +kernel
  have hsum : 10 * 5 * 2 ^ 1074 < limit := by decide +kernel
  obtain ⟨hrest, hmore⟩ := constant_series d .epoch .epoch "latency" 7 none hd hc
    (show 1 ≤ 10 by decide)
  obtain ⟨-, -, hfound, hexact⟩ := hmore (by decide)
  obtain ⟨hmean, hzero⟩ := hexact 5 1074 hunits (by decide) hsum
  exact ⟨⟨hd, hc, by decide, by decide, hzThreshold, hunits, hsum⟩, hmean, (hrest hzero).1,
    hfound hzThreshold⟩

/-- The mean of ten tenths is the number below a tenth. -/
theorem constant_series_tenth :
    let d : Detector Binary64 := { Detector.standard with zThreshold := 1.0 }
    let c : Binary64 := 0.1
    let values := List.replicate 10 c
    (d.validate = .ok () ∧ c.isFinite = true) ∧
      (d.baseline .epoch values "latency" 7).Valid ∧
      (d.byZScore .epoch values "latency" none).length = 10 := by
  intro d c values
  have hd : d.validate = .ok () := Detector.validate_eq_ok_iff.2 (by decide +kernel)
  refine ⟨⟨hd, by decide +kernel⟩, ?_, ?_⟩
  · decide +kernel
  · decide +kernel

end Detector

end MetricWatch
