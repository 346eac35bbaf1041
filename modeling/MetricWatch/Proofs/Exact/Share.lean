import MetricWatch.Proofs.Exact.Summary
import MetricWatch.Proofs.Detection.Kind

namespace MetricWatch.Detector

open Exact

section Score

variable {values : List ℝ} {t x : ℝ}

theorem sq_le_of_ownScore (hspread : 0 < Stats.populationStdDev values) (ht : 0 ≤ t)
    (h : ¬ |ownScore values x| < t) :
    (t * Stats.populationStdDev values) ^ 2 ≤ (x - Stats.mean values) ^ 2 := by
  rw [not_lt, ownScore, abs_div, abs_of_pos hspread, le_div_iff₀ hspread] at h
  rw [← sq_abs (x - Stats.mean values)]
  exact pow_le_pow_left₀ (mul_nonneg ht hspread.le) h 2

/-- The findings by score are at most one in the squared threshold of all values. -/
theorem length_byZScore_mul_sq_le [NumberText ℝ] {d : Detector ℝ} (hd : d.validate = .ok ())
    (now : Instant) (values : List ℝ) (metric : String) (timestamps : Option (List Instant)) :
    ((d.byZScore now values metric timestamps).length : ℝ) * d.zThreshold ^ 2 ≤ values.length := by
  obtain ⟨hthreshold, -, -⟩ := validate_eq_ok_iff.1 hd
  have hselects : SelectsWhere _ values (resolveTimestamps now values.length timestamps)
      (d.byZScore now values metric timestamps) := selectsWhere_byZScore timestamps
  rcases (Stats.populationStdDev_nonneg values).eq_or_lt with hzero | hspread
  · rw [hselects.eq_nil fun v _ hflagged ↦ hflagged.1.2 (isZero_iff.2 hzero.symm)]
    simp
  · have hlength := hselects.actuals_sublist.length_le
    rw [List.length_map, ← List.countP_eq_length_filter] at hlength
    calc ((d.byZScore now values metric timestamps).length : ℝ) * d.zThreshold ^ 2
        ≤ _ * d.zThreshold ^ 2 :=
          mul_le_mul_of_nonneg_right (Nat.cast_le.2 hlength) (sq_nonneg _)
      _ ≤ values.length := by
          apply Stats.countP_mul_sq_le hspread
          intro x _ hflagged
          exact sq_le_of_ownScore hspread (nonneg_of_positive hthreshold) hflagged.2.1

theorem length_byZScore_mul_sq_le_pair :
    let _ := nearestWhole
    let d : Detector ℝ := ⟨1, 1.5, 2⟩
    let found := d.byZScore .epoch [-1, 1] "latency" none
    d.validate = .ok () ∧ found.length = 2 ∧ (found.length : ℝ) * 1 ^ 2 ≤ 2 := by
  intro text d found
  have hd : d.validate = .ok () := by
    rw [validate_eq_ok_iff]
    norm_num [d, PositiveThreshold, Scalar.isFinite]
  have hstdDev : Stats.populationStdDev [-1, 1] = (1 : ℝ) := by
    norm_num [Stats.populationStdDev, Stats.populationVariance, Stats.squaredDeviations,
      Stats.mean, Stats.square, Stats.sum_eq, scalar_sqrt]
  have hscore (x : ℝ) : ownScore [-1, 1] x = x := by
    norm_num [ownScore, hstdDev, Stats.mean, Stats.sum_eq]
  refine ⟨hd, ?_, ?_⟩
  · rw [(selectsWhere_byZScore none).length_eq (by simp [resolveTimestamps])]
    norm_num [hstdDev, hscore, d, scalar_abs, isZero_iff]
  · exact length_byZScore_mul_sq_le hd .epoch [-1, 1] "latency" none

end Score

section Fences

variable {d : Detector ℝ} {values : List ℝ}

theorem side_of_mem_byFences [NumberText ℝ] {now : Instant} {metric : String}
    {timestamps : Option (List Instant)} {a : Anomaly ℝ} (hd : d.validate = .ok ())
    (ha : a ∈ d.byFences now values metric timestamps) :
    a.kind = .spike ∧ (d.fences values).q3 < a.actual ∨
      a.kind = .drop ∧ a.actual < (d.fences values).q1 := by
  obtain ⟨⟨hlower, -, -, hupper⟩, -⟩ := fences_ordered hd values
  rcases (kind_of_mem_byFences ha).2 with ⟨hspike, habove⟩ | ⟨hdrop, hbelow⟩
  · exact .inl ⟨hspike, hupper.trans_lt habove⟩
  · exact .inr ⟨hdrop, hbelow.trans_le hlower⟩

/-- On each side at most a quarter of the ranks after the first is found, and it is found on that
side of the median. Between the quartiles nothing is found. -/
theorem byFences_share [NumberText ℝ] (hd : d.validate = .ok ()) (now : Instant) (values : List ℝ)
    (metric : String) (timestamps : Option (List Instant)) :
    let f := d.fences values
    let found := d.byFences now values metric timestamps
    found.countP (·.kind = .spike) ≤ ⌈((values.length : ℝ) - 1) / 4⌉₊ ∧
      found.countP (·.kind = .drop) ≤ ⌈((values.length : ℝ) - 1) / 4⌉₊ ∧
      (∀ a ∈ found, a.expected = Stats.median (Stats.sorted values) ∧
        (a.kind = .spike ∧ a.expected < a.actual ∨ a.kind = .drop ∧ a.actual < a.expected)) ∧
      ∀ a ∈ found, ¬ (f.q1 ≤ a.actual ∧ a.actual ≤ f.q3) := by
  intro f found
  obtain ⟨⟨-, hlow, hhigh, -⟩, -⟩ := fences_ordered hd values
  have hselects : SelectsWhere _ values (resolveTimestamps now values.length timestamps) found :=
    selectsWhere_byFences timestamps
  -- The fences stand outside the quartiles: what is past a fence is past the quartile next to it.
  refine ⟨?_, ?_, fun a ha ↦ ?_, fun a ha hbetween ↦ ?_⟩
  · refine le_trans (hselects.countP_kind_le fun a ha hspike ↦ ?_)
      (Stats.countP_gt_upperQuartile values)
    rcases side_of_mem_byFences hd ha with ⟨-, habove⟩ | ⟨hdrop, -⟩
    · exact habove
    · simp [hspike] at hdrop
  · refine le_trans (hselects.countP_kind_le fun a ha hdrop ↦ ?_)
      (Stats.countP_lt_lowerQuartile values)
    rcases side_of_mem_byFences hd ha with ⟨hspike, -⟩ | ⟨-, hbelow⟩
    · simp [hdrop] at hspike
    · exact hbelow
  · have hmedian : a.expected = f.median := (kind_of_mem_byFences ha).1
    refine ⟨hmedian, ?_⟩
    rw [hmedian]
    rcases side_of_mem_byFences hd ha with ⟨hspike, habove⟩ | ⟨hdrop, hbelow⟩
    · exact .inl ⟨hspike, hhigh.trans_lt habove⟩
    · exact .inr ⟨hdrop, hbelow.trans_le hlow⟩
  · rcases side_of_mem_byFences hd ha with ⟨-, habove⟩ | ⟨-, hbelow⟩
    · exact not_lt_of_ge hbetween.2 habove
    · exact not_lt_of_ge hbetween.1 hbelow

theorem byFences_share_five :
    let _ := nearestWhole
    let d : Detector ℝ := ⟨3, 1.5, 5⟩
    let found := d.byFences .epoch [0, 0, 9, 0, 0] "latency" none
    d.validate = .ok () ∧ found.length = 1 ∧
      found.countP (·.kind = .spike) ≤ ⌈((5 : ℝ) - 1) / 4⌉₊ ∧ ⌈((5 : ℝ) - 1) / 4⌉₊ = 1 ∧
      ∀ a ∈ found, a.expected = Stats.median (Stats.sorted [0, 0, 9, 0, 0]) := by
  intro text d found
  have hd : d.validate = .ok () := by
    rw [validate_eq_ok_iff]
    norm_num [d, PositiveThreshold, Scalar.isFinite]
  obtain ⟨hspikes, -, hmedian, -⟩ := byFences_share hd .epoch [0, 0, 9, 0, 0] "latency" none
  have hsorted : Stats.sorted [0, 0, 9, 0, 0] = ([0, 0, 0, 0, 9] : List ℝ) :=
    Stats.sorted_append_cons [0, 0] [0, 0] (by simp)
  refine ⟨hd, ?_, hspikes, by norm_num, fun a ha ↦ (hmedian a ha).1⟩
  rw [(selectsWhere_byFences none).length_eq (by simp [resolveTimestamps])]
  norm_num [fences, hsorted, Stats.percentile, d, Scalar.wholePart]

end Fences

end MetricWatch.Detector
