import Mathlib.Algebra.Order.Floor.Semifield
import MetricWatch.Comparator
import MetricWatch.Proofs.Detection.Baseline
import MetricWatch.Proofs.Exact.Accord
import MetricWatch.Proofs.Exact.Summary

namespace MetricWatch

open Exact Comparator

namespace Stats

variable {values : List ℝ} {side q : ℝ}

/-- Up and down are told apart by the sign of `side`. -/
theorem quartile_sub_mean_lt (hside : side ^ 2 = 1) (hspread : 0 < populationStdDev values)
    (hn : 3 ≤ values.length)
    (hquarter : values.countP (fun y ↦ side * y < side * q) ≤ ⌈((values.length : ℝ) - 1) / 4⌉₊) :
    side * (q - mean values) < populationStdDev values := by
  by_contra hfar
  rw [not_lt] at hfar
  have hhalf := two_mul_countP_le hside hspread hfar
  have hsplit := List.length_eq_countP_add_countP (fun y ↦ decide (side * y < side * q))
    (l := values)
  simp only [decide_eq_true_eq] at hsplit
  have hquarters := four_mul_quarter_lt (Nat.lt_of_lt_of_le three_pos hn)
  omega

theorem lowerQuartile_sub_mean_lt (hspread : 0 < populationStdDev values)
    (hn : 3 ≤ values.length) :
    percentile (sorted values) 25.0 - mean values < populationStdDev values := by
  have hlt := quartile_sub_mean_lt (one_pow 2) hspread hn (q := percentile (sorted values) 25.0)
  simp only [one_mul] at hlt
  exact hlt (countP_lt_lowerQuartile values)

theorem mean_sub_upperQuartile_lt (hspread : 0 < populationStdDev values)
    (hn : 3 ≤ values.length) :
    mean values - percentile (sorted values) 75.0 < populationStdDev values := by
  have hlt := quartile_sub_mean_lt neg_one_sq hspread hn (q := percentile (sorted values) 75.0)
  simp only [neg_one_mul, neg_lt_neg_iff, neg_sub] at hlt
  exact hlt (countP_gt_upperQuartile values)

end Stats

namespace Baseline

variable {b : Baseline ℝ} {x y : ℝ}

noncomputable def excess (b : Baseline ℝ) (x : ℝ) : ℝ :=
  max 0 (max (b.lowerFence - x) (x - b.upperFence))

/-- The mean is not beyond a fence, if the fences count. -/
def Centred (b : Baseline ℝ) : Prop :=
  0 < b.iqr → b.lowerFence ≤ b.mean ∧ b.mean ≤ b.upperFence

theorem excess_nonneg : 0 ≤ b.excess x := le_max_left _ _

theorem lowerFence_sub_le_excess : b.lowerFence - x ≤ b.excess x :=
  (le_max_left _ _).trans (le_max_right _ _)

theorem sub_upperFence_le_excess : x - b.upperFence ≤ b.excess x :=
  (le_max_right _ _).trans (le_max_right _ _)

theorem excess_le_iff {c : ℝ} (hc : 0 ≤ c) :
    b.excess x ≤ c ↔ b.lowerFence - x ≤ c ∧ x - b.upperFence ≤ c := by
  rw [excess, max_le_iff, max_le_iff, and_iff_right hc]

theorem excess_eq_zero_iff : b.excess x = 0 ↔ b.lowerFence ≤ x ∧ x ≤ b.upperFence := by
  rw [← excess_nonneg.ge_iff_eq', excess_le_iff le_rfl, sub_nonpos, sub_nonpos]

theorem excess_le_add : b.excess x ≤ b.excess y + |x - y| := by
  have hlow := b.lowerFence_sub_le_excess (x := y)
  have hhigh := b.sub_upperFence_le_excess (x := y)
  have hdown := neg_abs_le (x - y)
  have hup := le_abs_self (x - y)
  rw [excess_le_iff (add_nonneg excess_nonneg (abs_nonneg _))]
  constructor
  · linarith
  · linarith

theorem excess_le_above (hx : b.lowerFence ≤ x) (hxy : x ≤ y) : b.excess x ≤ b.excess y := by
  have hhigh := b.sub_upperFence_le_excess (x := y)
  rw [excess_le_iff excess_nonneg]
  constructor
  · exact (sub_nonpos.2 hx).trans excess_nonneg
  · linarith

theorem excess_le_below (hx : x ≤ b.upperFence) (hyx : y ≤ x) : b.excess x ≤ b.excess y := by
  have hlow := b.lowerFence_sub_le_excess (x := y)
  rw [excess_le_iff excess_nonneg]
  constructor
  · linarith
  · exact (sub_nonpos.2 hx).trans excess_nonneg

theorem Ordered.lowerFence_le_upperFence (h : b.Ordered) : b.lowerFence ≤ b.upperFence := by
  calc b.lowerFence ≤ b.p25 := h.lowerFence_le_p25
    _ ≤ b.median := h.p25_le_median
    _ ≤ b.p75 := h.median_le_p75
    _ ≤ b.upperFence := h.p75_le_upperFence

theorem Ordered.beyond_eq (h : b.Ordered) :
    (if x < b.lowerFence then (b.lowerFence - x) / b.iqr
      else if b.upperFence < x then (x - b.upperFence) / b.iqr else 0.0) = b.excess x / b.iqr := by
  have hfences := h.lowerFence_le_upperFence
  split_ifs with hlow hhigh
  · rw [excess, max_eq_left (by linarith : x - b.upperFence ≤ b.lowerFence - x),
      max_eq_right (sub_nonneg.2 hlow.le)]
  · rw [excess, max_eq_right (by linarith : b.lowerFence - x ≤ x - b.upperFence),
      max_eq_right (sub_nonneg.2 hhigh.le)]
  · rw [excess_eq_zero_iff.2 ⟨not_lt.1 hlow, not_lt.1 hhigh⟩, zero_div, zero_literal]

theorem deviationScore_eq (hb : b.Valid) (h : b.Ordered) :
    deviationScore x b = 0.6 * (|x - b.mean| / b.stdDev) + 0.4 * (b.excess x / b.iqr) := by
  rw [deviationScore, if_pos hb, if_pos hb.2, h.beyond_eq, scalar_abs, zero_literal]
  split_ifs with hiqr
  · rfl
  · have hzero : b.iqr = 0 := (not_lt.1 hiqr).antisymm h.iqr_nonneg
    rw [hzero, div_zero]

theorem deviationScore_mean_eq_zero_iff (hb : b.Valid) (h : b.Ordered) :
    deviationScore b.mean b = 0 ↔ b.Centred := by
  have hshare : (0.4 : ℝ) ≠ 0 := by norm_num
  rw [deviationScore_eq hb h, sub_self, abs_zero, zero_div, mul_zero, zero_add, mul_eq_zero,
    or_iff_right hshare, div_eq_zero_iff, excess_eq_zero_iff, Centred, h.iqr_nonneg.lt_iff_ne',
    Ne, ← or_iff_not_imp_left, or_comm]

theorem share_le_iff {gap : ℝ} (hgap : 0 < gap) (hspread : 0 < b.stdDev) (hiqr : 0 < b.iqr) :
    0.4 * (gap / b.iqr) ≤ 0.6 * (gap / b.stdDev) ↔ 2 * b.stdDev ≤ 3 * b.iqr := by
  have hleft : 0.4 * gap * b.stdDev = gap / 5 * (2 * b.stdDev) := by ring
  have hright : 0.6 * gap * b.iqr = gap / 5 * (3 * b.iqr) := by ring
  rw [← mul_div_assoc, ← mul_div_assoc, div_le_div_iff₀ hiqr hspread, hleft, hright,
    mul_le_mul_iff_right₀ (by positivity)]

def Leads (b : Baseline ℝ) (x y : ℝ) : Prop := b.mean ≤ x ∧ x ≤ y ∨ y ≤ x ∧ x ≤ b.mean

theorem rises_iff {f : ℝ → ℝ} :
    MonotoneOn f (Set.Ici b.mean) ∧ AntitoneOn f (Set.Iic b.mean) ↔
      ∀ x y, b.Leads x y → f x ≤ f y := by
  constructor
  · rintro ⟨hup, hdown⟩ x y (⟨hx, hxy⟩ | ⟨hyx, hx⟩)
    · exact hup hx (hx.trans hxy) hxy
    · exact hdown (hyx.trans hx) hx hyx
  · intro hrises
    constructor
    · intro x hx y _ hxy
      exact hrises x y (.inl ⟨hx, hxy⟩)
    · intro y _ x hx hyx
      exact hrises x y (.inr ⟨hyx, hx⟩)

theorem Leads.abs_sub_mean (h : b.Leads x y) : |y - b.mean| = |x - b.mean| + |x - y| := by
  have hsame : 0 ≤ x - b.mean ∧ 0 ≤ y - x ∨ x - b.mean ≤ 0 ∧ y - x ≤ 0 := by
    simpa only [sub_nonneg, sub_nonpos, and_comm, Leads] using h
  rw [abs_sub_comm x y, ← (abs_add_eq_add_abs_iff _ _).2 hsame, sub_add_sub_cancel']

/-- No step away from the mean counts for less than a step of the excess. -/
theorem deviationScore_le_of_steep (hb : b.Valid) (h : b.Ordered)
    (hsteep : 2 * b.stdDev ≤ 3 * b.iqr) (hleads : b.Leads x y) :
    deviationScore x b ≤ deviationScore y b := by
  have hspread : 0 < b.stdDev := stdDev_pos hb
  have hiqr : 0 < b.iqr := by linarith
  rcases eq_or_ne x y with rfl | hne
  · exact le_rfl
  have hshare := (share_le_iff (abs_sub_pos.2 hne) hspread hiqr).2 hsteep
  have hexcess : b.excess x / b.iqr ≤ b.excess y / b.iqr + |x - y| / b.iqr := by
    rw [← add_div]
    gcongr
    exact excess_le_add
  rw [deviationScore_eq hb h, deviationScore_eq hb h, hleads.abs_sub_mean, add_div]
  linarith

/-- A mean between the fences is where both distances start. -/
theorem deviationScore_le_of_centred (hb : b.Valid) (h : b.Ordered) (hcentred : b.Centred)
    (hleads : b.Leads x y) : deviationScore x b ≤ deviationScore y b := by
  have hspread : 0 ≤ b.stdDev := h.stdDev_nonneg
  have hdistance : |x - b.mean| ≤ |y - b.mean| := by
    rw [hleads.abs_sub_mean]
    exact le_add_of_nonneg_right (abs_nonneg _)
  have hbeyond : b.excess x / b.iqr ≤ b.excess y / b.iqr := by
    rcases h.iqr_nonneg.eq_or_lt with hzero | hiqr
    · rw [← hzero, div_zero, div_zero]
    · obtain ⟨hlow, hhigh⟩ := hcentred hiqr
      apply div_le_div_of_nonneg_right _ hiqr.le
      rcases hleads with ⟨hx, hxy⟩ | ⟨hyx, hx⟩
      · exact excess_le_above (hlow.trans hx) hxy
      · exact excess_le_below (hx.trans hhigh) hyx
  rw [deviationScore_eq hb h, deviationScore_eq hb h]
  gcongr

theorem steep_of_deviationScore_le (hb : b.Valid) (h : b.Ordered) (hiqr : 0 < b.iqr)
    (hfence : b.excess x = 0) (hgap : 0 < |x - b.mean|) (hbeyond : |x - b.mean| ≤ b.excess b.mean)
    (hle : deviationScore b.mean b ≤ deviationScore x b) : 2 * b.stdDev ≤ 3 * b.iqr := by
  have hspread : 0 < b.stdDev := stdDev_pos hb
  rw [← share_le_iff hgap hspread hiqr]
  calc 0.4 * (|x - b.mean| / b.iqr) ≤ 0.4 * (b.excess b.mean / b.iqr) := by gcongr
    _ = deviationScore b.mean b := by rw [deviationScore_eq hb h]; simp
    _ ≤ deviationScore x b := hle
    _ = 0.6 * (|x - b.mean| / b.stdDev) := by rw [deviationScore_eq hb h, hfence]; simp

theorem deviationScore_rises_iff (hb : b.Valid) (h : b.Ordered) :
    MonotoneOn (deviationScore · b) (Set.Ici b.mean) ∧
        AntitoneOn (deviationScore · b) (Set.Iic b.mean) ↔
      b.Centred ∨ 2 * b.stdDev ≤ 3 * b.iqr := by
  rw [rises_iff]
  constructor
  · intro hrises
    by_contra hnot
    obtain ⟨hoff, hflat⟩ := not_or.1 hnot
    obtain ⟨hiqr, hbeyond⟩ := Classical.not_imp.1 hoff
    have hfences := h.lowerFence_le_upperFence
    -- The fence next to the mean has no excess, and a score that the mean must not exceed.
    rcases not_and_or.1 hbeyond with hlow | hhigh
    · rw [not_le] at hlow
      refine hflat (steep_of_deviationScore_le hb h hiqr
        (excess_eq_zero_iff.2 ⟨le_rfl, hfences⟩) (abs_sub_pos.2 hlow.ne') ?_
        (hrises _ _ (.inl ⟨le_rfl, hlow.le⟩)))
      rw [abs_of_pos (sub_pos.2 hlow)]
      exact lowerFence_sub_le_excess
    · rw [not_le] at hhigh
      refine hflat (steep_of_deviationScore_le hb h hiqr
        (excess_eq_zero_iff.2 ⟨hfences, le_rfl⟩) (abs_sub_pos.2 hhigh.ne) ?_
        (hrises _ _ (.inr ⟨hhigh.le, le_rfl⟩)))
      rw [abs_of_neg (sub_neg.2 hhigh), neg_sub]
      exact sub_upperFence_le_excess
  · rintro (hcentred | hsteep) x y hleads
    · exact deviationScore_le_of_centred hb h hcentred hleads
    · exact deviationScore_le_of_steep hb h hsteep hleads

end Baseline

namespace Detector

variable {d : Detector ℝ} {now : Instant} {values : List ℝ} {metric : String} {periodDays : ℕ}

theorem ne_nil_of_valid (hb : (d.baseline now values metric periodDays).Valid) : values ≠ [] := by
  rintro rfl
  exact absurd hb.1 (by simp [baseline, Baseline.ofSample, Baseline.empty, Baseline.leastSamples])

theorem baseline_centred (hb : (d.baseline now values metric periodDays).Valid) :
    let b := d.baseline now values metric periodDays
    b.stdDev ≤ d.iqrMultiplier * b.iqr → b.Centred := by
  intro b hreach _
  have hne := ne_nil_of_valid hb
  have hmean : b.mean = Stats.mean values := baseline_mean hne
  have hstdDev : b.stdDev = Stats.populationStdDev values := baseline_stdDev hne
  have hspread : 0 < Stats.populationStdDev values := hstdDev ▸ Baseline.stdDev_pos hb
  have hn : 3 ≤ values.length := by
    rw [← baseline_sampleCount hne]
    exact le_trans (by decide) hb.1
  have hlow : b.p25 - b.mean < b.stdDev := by
    rw [hmean, hstdDev]
    simpa [b, baseline, Baseline.ofSample, hne] using Stats.lowerQuartile_sub_mean_lt hspread hn
  have hhigh : b.mean - b.p75 < b.stdDev := by
    rw [hmean, hstdDev]
    simpa [b, baseline, Baseline.ofSample, hne] using Stats.mean_sub_upperQuartile_lt hspread hn
  obtain ⟨-, hlower, hupper⟩ := baseline_fences d now values metric periodDays
  constructor
  · linarith
  · linarith

end Detector

/-- The score is centred just where the mean is between the fences, which it is unless the deviation
is above the way from the quartiles to them. -/
theorem deviation_centred (d : Detector ℝ) (hd : d.validate = .ok ()) (now : Instant)
    (values : List ℝ) (metric : String) (periodDays : ℕ) :
    let b := d.baseline now values metric periodDays
    b.Valid →
      (deviationScore b.mean b = 0 ↔ b.Centred) ∧
        (MonotoneOn (deviationScore · b) (Set.Ici b.mean) ∧
            AntitoneOn (deviationScore · b) (Set.Iic b.mean) ↔
          b.Centred ∨ 2 * b.stdDev ≤ 3 * b.iqr) ∧
        (b.stdDev ≤ d.iqrMultiplier * b.iqr → b.Centred) := by
  intro b hb
  have hordered : b.Ordered :=
    Detector.baseline_ordered hd now (Detector.ne_nil_of_valid hb) metric periodDays
  exact ⟨Baseline.deviationScore_mean_eq_zero_iff hb hordered,
    Baseline.deviationScore_rises_iff hb hordered, Detector.baseline_centred hb⟩

/-- Two levels, one deviation below the mean and one above it. -/
theorem Detector.baseline_two_levels (d : Detector ℝ) (now : Instant) (metric : String)
    (periodDays : ℕ) :
    let b := d.baseline now [1, 1, 1, 1, 1, 3, 3, 3, 3, 3] metric periodDays
    b.Valid ∧ (b.mean = 2 ∧ b.stdDev = 1) ∧ b.p25 = 1 ∧ b.p75 = 3 ∧ b.iqr = 2 := by
  intro b
  have hsorted : Stats.sorted ([1, 1, 1, 1, 1, 3, 3, 3, 3, 3] : List ℝ) =
      [1, 1, 1, 1, 1, 3, 3, 3, 3, 3] := Stats.sorted_eq_of_perm (.refl _) (by norm_num)
  have hstdDev : b.stdDev = 1 := by
    norm_num [b, baseline, Baseline.ofSample, Stats.populationStdDev, Stats.populationVariance,
      Stats.squaredDeviations, Stats.mean, Stats.square, Stats.sum_eq, scalar_sqrt]
  refine ⟨⟨Nat.le_refl 10, ?_⟩, ⟨?_, hstdDev⟩, ?_⟩
  · rw [hstdDev]
    norm_num
  · norm_num [b, baseline, Baseline.ofSample, Stats.mean, Stats.sum_eq]
  · norm_num [b, baseline, Baseline.ofSample, hsorted, Stats.percentile, Scalar.wholePart]

theorem deviation_centred_two_levels :
    let d : Detector ℝ := .standard
    let b := d.baseline .epoch [1, 1, 1, 1, 1, 3, 3, 3, 3, 3] "latency" 7
    (d.validate = .ok () ∧ b.Valid) ∧ b.stdDev ≤ d.iqrMultiplier * b.iqr ∧
      deviationScore b.mean b = 0 ∧ MonotoneOn (deviationScore · b) (Set.Ici b.mean) ∧
        AntitoneOn (deviationScore · b) (Set.Iic b.mean) := by
  intro d b
  have hd : d.validate = .ok () := Detector.validate_standard
  obtain ⟨hb, ⟨-, hstdDev⟩, -, -, hiqr⟩ : b.Valid ∧ (b.mean = 2 ∧ b.stdDev = 1) ∧ _ :=
    d.baseline_two_levels .epoch "latency" 7
  have hreach : b.stdDev ≤ d.iqrMultiplier * b.iqr := by
    rw [hstdDev, hiqr]
    norm_num [d, Detector.standard]
  obtain ⟨hzero, hrises, hcentred⟩ := deviation_centred d hd .epoch _ "latency" 7 hb
  exact ⟨⟨hd, hb⟩, hreach, hzero.2 (hcentred hreach), hrises.2 (.inl (hcentred hreach))⟩

/-- One value is so high that the mean is far above the upper fence: its own score is not zero, and
the fence scores less. -/
theorem deviation_centred_skewed :
    let d : Detector ℝ := .standard
    let b := d.baseline .epoch [0, 0, 0, 0, 1, 1, 1, 1, 1, 95] "latency" 7
    (d.validate = .ok () ∧ b.Valid) ∧ b.mean = 10 ∧ b.upperFence = 2.5 ∧
      deviationScore 10 b = 3 ∧ deviationScore 2.5 b < deviationScore 10 b := by
  intro d b
  have hsorted : Stats.sorted ([0, 0, 0, 0, 1, 1, 1, 1, 1, 95] : List ℝ) =
      [0, 0, 0, 0, 1, 1, 1, 1, 1, 95] := Stats.sorted_eq_of_perm (.refl _) (by norm_num)
  have hmean : b.mean = 10 := by
    norm_num [b, Detector.baseline, Baseline.ofSample, Stats.mean, Stats.sum_eq]
  have hspread : 20 ≤ b.stdDev := by
    have hvariance : Stats.populationVariance [0, 0, 0, 0, 1, 1, 1, 1, 1, (95 : ℝ)] = 803 := by
      norm_num [Stats.populationVariance, Stats.squaredDeviations, Stats.mean, Stats.square,
        Stats.sum_eq]
    have hstdDev : b.stdDev = √803 :=
      (Stats.populationStdDev_eq _).trans (congrArg Real.sqrt hvariance)
    rw [hstdDev]
    exact Real.le_sqrt_of_sq_le (by norm_num)
  have hb : b.Valid := by
    refine ⟨Nat.le_refl 10, ?_⟩
    rw [zero_literal]
    linarith
  have hquartiles : b.p25 = 0 ∧ b.p75 = 1 ∧ b.iqr = 1 := by
    norm_num [b, Detector.baseline, Baseline.ofSample, hsorted, Stats.percentile, Scalar.wholePart]
  have hfences : b.lowerFence = -1.5 ∧ b.upperFence = 2.5 := by
    have hmultiplier : d.iqrMultiplier = 1.5 := rfl
    obtain ⟨-, hlower, hupper⟩ := d.baseline_fences .epoch
      [0, 0, 0, 0, 1, 1, 1, 1, 1, 95] "latency" 7
    obtain ⟨hp25, hp75, hiqr⟩ := hquartiles
    rw [hlower, hupper, hp25, hp75, hiqr, hmultiplier]
    norm_num
  have hd : d.validate = .ok () := Detector.validate_standard
  have hordered : b.Ordered := Detector.baseline_ordered hd .epoch (List.cons_ne_nil _ _) _ _
  have hten : deviationScore 10 b = 3 := by
    rw [Baseline.deviationScore_eq hb hordered]
    norm_num [Baseline.excess, hmean, hquartiles, hfences]
  have hfence : deviationScore 2.5 b = 4.5 / b.stdDev := by
    rw [Baseline.deviationScore_eq hb hordered]
    norm_num [Baseline.excess, hmean, hquartiles, hfences, abs_of_neg]
    ring
  refine ⟨⟨hd, hb⟩, hmean, hfences.2, hten, ?_⟩
  rw [hten, hfence, div_lt_iff₀ (by linarith)]
  linarith

end MetricWatch
