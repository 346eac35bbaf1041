import MetricWatch.Proofs.Exact.Spread
import MetricWatch.Proofs.Detection.Kind

namespace MetricWatch

open Exact

namespace Stats

variable {base values : List ℝ} {k : ℝ}

/-- The sample with one more value, `k` deviations of the others off their mean. -/
def WithOutlier (base : List ℝ) (k : ℝ) (values : List ℝ) : Prop :=
  values.Perm ((mean base + k * populationStdDev base) :: base)

namespace WithOutlier

theorem length_eq (h : WithOutlier base k values) : values.length = base.length + 1 :=
  List.Perm.length_eq h

theorem length_mul_sub_mean (h : WithOutlier base k values) :
    (base.length + 1) * (mean base + k * populationStdDev base - mean values) =
      base.length * (k * populationStdDev base) := by
  have hmean := length_mul_mean_cons_sub base (mean base + k * populationStdDev base)
  rw [mean_perm h]
  linarith

theorem sq_length_mul_variance (h : WithOutlier base k values) :
    (base.length + 1) ^ 2 * populationStdDev values ^ 2 =
      base.length * populationStdDev base ^ 2 * (base.length + 1 + k ^ 2) := by
  have htotal := length_mul_squaredDeviations_cons base (mean base + k * populationStdDev base)
  rw [← squaredDeviations_perm h, squaredDeviations_eq_length_mul, squaredDeviations_eq_length_mul,
    h.length_eq, ← sq_populationStdDev, ← sq_populationStdDev, add_sub_cancel_left] at htotal
  push_cast at htotal
  linear_combination htotal

theorem populationStdDev_pos (h : WithOutlier base k values) (hspread : 0 < populationStdDev base) :
    0 < populationStdDev values := by
  have hlength : (0 : ℝ) < base.length := Nat.cast_pos.2 (length_pos_of_spread hspread)
  have hpos : 0 < (base.length + 1 : ℝ) ^ 2 * populationStdDev values ^ 2 := by
    rw [h.sq_length_mul_variance]
    positivity
  refine lt_of_le_of_ne (populationStdDev_nonneg values) fun hzero ↦ ?_
  rw [← hzero] at hpos
  simp at hpos

end WithOutlier

end Stats

namespace Detector

open Stats

variable {base values : List ℝ} {k t : ℝ}

theorem sq_ownScore_outlier (h : WithOutlier base k values)
    (hspread : 0 < populationStdDev base) :
    (base.length + 1 + k ^ 2) * ownScore values (mean base + k * populationStdDev base) ^ 2 =
      base.length * k ^ 2 := by
  have hlength : (0 : ℝ) < base.length := Nat.cast_pos.2 (length_pos_of_spread hspread)
  have hpos := h.populationStdDev_pos hspread
  have hmean := h.length_mul_sub_mean
  have hvariance := h.sq_length_mul_variance
  set s := populationStdDev base
  set v := mean base + k * s
  have hscore : ownScore values v * populationStdDev values = v - mean values :=
    div_mul_cancel₀ _ hpos.ne'
  -- Both sides are compared after multiplication by the variance of the others and their count.
  have hscale : (base.length : ℝ) * s ^ 2 ≠ 0 := by positivity
  refine mul_left_cancel₀ hscale ?_
  calc base.length * s ^ 2 * ((base.length + 1 + k ^ 2) * ownScore values v ^ 2)
      = (base.length + 1) ^ 2 * populationStdDev values ^ 2 * ownScore values v ^ 2 := by
        rw [hvariance]
        ring
    _ = ((base.length + 1) * (v - mean values)) ^ 2 := by
        rw [← hscore]
        ring
    _ = base.length * s ^ 2 * (base.length * k ^ 2) := by
        rw [hmean]
        ring

theorem ownScore_outlier_pos_iff (h : WithOutlier base k values)
    (hspread : 0 < populationStdDev base) :
    0 < ownScore values (mean base + k * populationStdDev base) ↔ 0 < k := by
  have hlength : (0 : ℝ) < base.length := Nat.cast_pos.2 (length_pos_of_spread hspread)
  rw [ownScore, div_pos_iff_of_pos_right (h.populationStdDev_pos hspread),
    ← mul_pos_iff_of_pos_left (by linarith : (0 : ℝ) < base.length + 1), h.length_mul_sub_mean,
    mul_pos_iff_of_pos_left hlength, mul_pos_iff_of_pos_right hspread]

/-- Past the threshold is past it in square, where the bound on the score becomes linear. -/
theorem le_abs_ownScore_outlier_iff (h : WithOutlier base k values)
    (hspread : 0 < populationStdDev base) (ht : 0 ≤ t) :
    t ≤ |ownScore values (mean base + k * populationStdDev base)| ↔
      (base.length + 1) * t ^ 2 ≤ k ^ 2 * (base.length - t ^ 2) := by
  have hpos : (0 : ℝ) < base.length + 1 + k ^ 2 := by positivity
  rw [← abs_of_nonneg ht, ← sq_le_sq, abs_of_nonneg ht, ← mul_le_mul_iff_right₀ hpos,
    sq_ownScore_outlier h hspread]
  constructor
  · intro hle
    linarith
  · intro hle
    linarith

theorem not_enough {n : ℕ} (hn : 0 < n) (hroom : n ≤ t ^ 2) (k : ℝ) :
    k ^ 2 * (n - t ^ 2) < (n + 1) * t ^ 2 := by
  have hcount : (0 : ℝ) < n := Nat.cast_pos.2 hn
  have hright : k ^ 2 * (n - t ^ 2) ≤ 0 :=
    mul_nonpos_of_nonneg_of_nonpos (sq_nonneg k) (sub_nonpos.2 hroom)
  have hleft : 0 < ((n : ℝ) + 1) * t ^ 2 := mul_pos (by linarith) (hcount.trans_le hroom)
  linarith

theorem exists_enough_iff {n : ℕ} (hn : 0 < n) (t : ℝ) :
    (∃ K, ∀ k : ℝ, K ≤ k → (n + 1) * t ^ 2 ≤ k ^ 2 * (n - t ^ 2)) ↔ t ^ 2 < n := by
  constructor
  · rintro ⟨K, hK⟩
    by_contra hle
    exact not_le_of_gt (not_enough hn (not_lt.1 hle) K) (hK K le_rfl)
  · intro hlt
    have hroom : 0 < n - t ^ 2 := sub_pos.2 hlt
    refine ⟨max 1 ((n + 1) * t ^ 2 / (n - t ^ 2)), fun k hk ↦ ?_⟩
    obtain ⟨hone, hquotient⟩ := max_le_iff.1 hk
    calc (n + 1) * t ^ 2 ≤ k * (n - t ^ 2) := (div_le_iff₀ hroom).1 hquotient
      _ ≤ k ^ 2 * (n - t ^ 2) := by
        refine mul_le_mul_of_nonneg_right ?_ hroom.le
        exact le_self_pow₀ hone two_ne_zero

section Found

variable [NumberText ℝ] {d : Detector ℝ} {now instant : Instant} {metric : String}
  {timestamps : Option (List Instant)} {place : ℕ}

theorem exists_outlier_iff (h : WithOutlier base k values) (hspread : 0 < populationStdDev base)
    (hn : d.minSampleSize ≤ values.length) (ht : 0 ≤ d.zThreshold)
    (hvalue : values[place]? = some (mean base + k * populationStdDev base))
    (hinstant : (resolveTimestamps now values.length timestamps)[place]? = some instant) :
    (∃ a ∈ d.byZScore now values metric timestamps,
        a.actual = mean base + k * populationStdDev base ∧ a.timestamp = instant) ↔
      (base.length + 1) * d.zThreshold ^ 2 ≤ k ^ 2 * (base.length - d.zThreshold ^ 2) := by
  rw [(selectsWhere_byZScore timestamps).exists_mem_iff, ← le_abs_ownScore_outlier_iff h hspread ht,
    isZero_iff, scalar_abs, not_lt]
  have hzip : (mean base + k * populationStdDev base, instant) ∈
      values.zip (resolveTimestamps now values.length timestamps) :=
    List.mem_of_getElem? (List.getElem?_zip_eq_some.2 ⟨hvalue, hinstant⟩)
  have hspread' : populationStdDev values ≠ 0 := (h.populationStdDev_pos hspread).ne'
  exact ⟨fun hflagged ↦ hflagged.2.2.1, fun hle ↦ ⟨hzip, ⟨hn, hspread'⟩, hle, le_rfl⟩⟩

theorem kind_outlier (h : WithOutlier base k values) (hspread : 0 < populationStdDev base)
    {a : Anomaly ℝ} (ha : a ∈ d.byZScore now values metric timestamps)
    (hvalue : a.actual = mean base + k * populationStdDev base) :
    a.kind = if 0 < k then .spike else .drop := by
  rw [kind_of_mem_byZScore ha, hvalue, zero_literal]
  simp only [ownScore_outlier_pos_iff h hspread]

end Found

/-- The inserted value is found exactly if the threshold leaves room for it, on the side it is on.
Where the squared threshold is the count less one or more, there is no room at all. Of a validated
threshold, which is positive, no more is used than that it is not negative. -/
theorem injected_outlier [NumberText ℝ] (d : Detector ℝ) (ht : 0 ≤ d.zThreshold) (now : Instant)
    (before after : List ℝ) (hspread : 0 < populationStdDev (before ++ after))
    (hn : d.minSampleSize ≤ (before ++ after).length + 1) (metric : String)
    (timestamps : Option (List Instant)) {instant : Instant}
    (hinstant : (resolveTimestamps now ((before ++ after).length + 1) timestamps)[before.length]? =
      some instant) :
    let m := mean (before ++ after)
    let s := populationStdDev (before ++ after)
    let n : ℝ := (before ++ after).length + 1
    let found (v : ℝ) := d.byZScore now (before ++ v :: after) metric timestamps
    let IsFound (v : ℝ) := ∃ a ∈ found v, a.actual = v ∧ a.timestamp = instant
    (∀ k, 0 < k →
      (IsFound (m + k * s) ↔ n * d.zThreshold ^ 2 ≤ k ^ 2 * (n - 1 - d.zThreshold ^ 2)) ∧
      (IsFound (m - k * s) ↔ n * d.zThreshold ^ 2 ≤ k ^ 2 * (n - 1 - d.zThreshold ^ 2)) ∧
      (∀ a ∈ found (m + k * s), a.actual = m + k * s → a.kind = .spike) ∧
      ∀ a ∈ found (m - k * s), a.actual = m - k * s → a.kind = .drop) ∧
    ((∃ K, ∀ k, K ≤ k → IsFound (m + k * s) ∧ IsFound (m - k * s)) ↔ d.zThreshold ^ 2 < n - 1) ∧
    (n - 1 ≤ d.zThreshold ^ 2 → ∀ k, 0 < k → ¬ IsFound (m + k * s) ∧ ¬ IsFound (m - k * s)) := by
  intro m s n found IsFound
  have hcount : n - 1 = (before ++ after).length := add_sub_cancel_right _ 1
  have hpos : 0 < (before ++ after).length := length_pos_of_spread hspread
  have houtlier (k : ℝ) : WithOutlier (before ++ after) k (before ++ (m + k * s) :: after) :=
    List.perm_middle
  have hbelow (k : ℝ) : m - k * s = m + -k * s := by ring
  have hfound (k : ℝ) : IsFound (m + k * s) ↔
      n * d.zThreshold ^ 2 ≤ k ^ 2 * (n - 1 - d.zThreshold ^ 2) := by
    have hlength := (houtlier k).length_eq
    have hvalue : (before ++ (m + k * s) :: after)[before.length]? = some (m + k * s) := by simp
    rw [← hlength] at hn hinstant
    rw [hcount]
    exact exists_outlier_iff (houtlier k) hspread hn ht hvalue hinstant
  -- A value below the mean is one above it by a negative multiple, and the multiple is squared.
  have hfound' (k : ℝ) : IsFound (m - k * s) ↔
      n * d.zThreshold ^ 2 ≤ k ^ 2 * (n - 1 - d.zThreshold ^ 2) := by
    rw [hbelow, hfound, neg_sq]
  refine ⟨fun k hk ↦ ⟨hfound k, hfound' k, fun a ha hvalue ↦ ?_, fun a ha hvalue ↦ ?_⟩, ?_, ?_⟩
  · rw [kind_outlier (houtlier k) hspread ha hvalue, if_pos hk]
  · rw [hbelow] at ha hvalue
    rw [kind_outlier (houtlier (-k)) hspread ha hvalue, if_neg (by linarith)]
  · simp only [hfound, hfound', and_self, hcount]
    exact exists_enough_iff hpos d.zThreshold
  · intro hroom k hk
    rw [hcount] at hroom
    rw [hfound, hfound', and_self, not_le, hcount]
    exact not_enough hpos hroom k

/-- With the standard settings and the least count of values no spike is found, however high it is.
With one value more ten deviations are enough. -/
theorem injected_outlier_edge :
    let _ := nearestWhole
    let d : Detector ℝ := .standard
    let values (j : ℕ) : List ℝ := [-1, 1] ++ List.replicate j 0
    let spike (j : ℕ) (k : ℝ) := mean (values j) + k * populationStdDev (values j)
    let found (j : ℕ) (k : ℝ) :=
      d.byZScore .epoch ([-1, 1] ++ spike j k :: List.replicate j 0) "latency" none
    (0 ≤ d.zThreshold ∧ (∀ j, 0 < populationStdDev (values j)) ∧
      d.minSampleSize = (values 7).length + 1 ∧
      (∀ j, (resolveTimestamps .epoch ((values j).length + 1) none)[2]? =
        some (Instant.epoch.backBy j))) ∧
      (∀ k, 0 < k → ¬ ∃ a ∈ found 7 k, a.actual = spike 7 k ∧
        a.timestamp = Instant.epoch.backBy 7) ∧
      ∃ a ∈ found 8 10, a.actual = spike 8 10 ∧ a.kind = .spike := by
  intro text d values spike found
  have ht : 0 ≤ d.zThreshold := by norm_num [d, standard]
  have hlength (j : ℕ) : (values j).length = j + 2 := by
    simp only [values, List.length_append, List.length_replicate, List.length_cons, List.length_nil]
    omega
  have hspread (j : ℕ) : 0 < populationStdDev (values j) := by
    have hmean : mean (values j) = 0 := by
      simp [mean, sum_eq, values]
    have hsquares : squaredDeviations (values j) = 2 := by
      rw [squaredDeviations_eq, hmean]
      norm_num [values]
    rw [populationStdDev_eq, Real.sqrt_pos]
    have hvariance := squaredDeviations_eq_length_mul (values j)
    rw [hsquares] at hvariance
    refine pos_of_mul_pos_right (hvariance ▸ two_pos) (Nat.cast_nonneg _)
  have hinstant (j : ℕ) : (resolveTimestamps .epoch ((values j).length + 1) none)[2]? =
      some (Instant.epoch.backBy j) := by
    simp [resolveTimestamps, hlength]
  have hn (j : ℕ) (hj : 7 ≤ j) : d.minSampleSize ≤ (values j).length + 1 := by
    rw [hlength]
    exact Nat.add_le_add_right hj 3
  obtain ⟨-, -, hnone⟩ := injected_outlier d ht .epoch [-1, 1] (List.replicate 7 0) (hspread 7)
    (hn 7 le_rfl) "latency" none (hinstant 7)
  obtain ⟨hall, -, -⟩ := injected_outlier d ht .epoch [-1, 1] (List.replicate 8 0) (hspread 8)
    (hn 8 (by norm_num)) "latency" none (hinstant 8)
  refine ⟨⟨ht, hspread, ?_, hinstant⟩, fun k hk ↦ (hnone ?_ k hk).1, ?_⟩
  · rw [hlength]
    rfl
  · norm_num [d, standard]
  · obtain ⟨hfound, -, hkind, -⟩ := hall 10 (by norm_num)
    obtain ⟨a, ha, hactual, -⟩ := hfound.2 (by norm_num [d, standard])
    exact ⟨a, ha, hactual, hkind a ha hactual⟩

end Detector

end MetricWatch
