import MetricWatch.Proofs.Exact.Share
import MetricWatch.Proofs.Detection.Combined

namespace MetricWatch

open Exact

theorem countP_lt_countP {β : Type} {l : List β} {p q : β → Bool} {x : β}
    (hpq : ∀ y ∈ l, p y = true → q y = true) (hx : x ∈ l) (hp : p x = false) (hq : q x = true) :
    l.countP p < l.countP q := by
  obtain ⟨before, after, rfl⟩ := List.append_of_mem hx
  have hbefore : before.countP p ≤ before.countP q :=
    List.countP_mono_left fun y hy ↦ hpq y (List.mem_append_left _ hy)
  have hafter : after.countP p ≤ after.countP q :=
    List.countP_mono_left fun y hy ↦ hpq y (List.mem_append_right _ (List.mem_cons_of_mem x hy))
  simp only [List.countP_append, List.countP_cons, hp, hq, Bool.false_eq_true, if_false, if_true]
  omega

namespace Stats

variable {values : List ℝ} {side x q : ℝ}

theorem four_mul_quarter_lt {n : ℕ} (hn : 0 < n) : 4 * ⌈((n : ℝ) - 1) / 4⌉₊ < n + 3 := by
  have hone : (1 : ℝ) ≤ n := Nat.one_le_cast.2 hn
  have hceil : (⌈((n : ℝ) - 1) / 4⌉₊ : ℝ) < ((n : ℝ) - 1) / 4 + 1 :=
    Nat.ceil_lt_add_one (by linarith)
  have hreal : (4 * ⌈((n : ℝ) - 1) / 4⌉₊ : ℝ) < n + 3 := by linarith
  exact_mod_cast hreal

theorem two_mul_countP_le (hside : side ^ 2 = 1) (hspread : 0 < populationStdDev values)
    (hfar : populationStdDev values ≤ side * (x - mean values)) :
    2 * values.countP (fun y ↦ ¬ side * y < side * x) ≤ values.length := by
  have hbeyond : ∀ y ∈ values, ¬ side * y < side * x →
      1 * populationStdDev values ≤ side * (y - mean values) := by
    intro y _ hy
    linarith
  have hcount := countP_mul_one_add_sq_le hside one_pos hspread hbeyond
  have hreal : (2 * values.countP (fun y ↦ ¬ side * y < side * x) : ℝ) ≤ values.length := by
    linarith
  exact_mod_cast hreal

/-- Up and down are told apart by the sign of `side`. -/
theorem not_past_quartile (hside : side ^ 2 = 1) (hspread : 0 < populationStdDev values)
    (hfar : populationStdDev values ≤ side * (x - mean values)) (hx : x ∈ values)
    (hquarter : values.countP (fun y ↦ side * y < side * q) ≤ ⌈((values.length : ℝ) - 1) / 4⌉₊) :
    side * q ≤ side * x := by
  by_contra hpast
  rw [not_le] at hpast
  have hfewer : values.countP (fun y ↦ side * y < side * x) <
      values.countP fun y ↦ side * y < side * q := by
    apply countP_lt_countP _ hx
    · simp
    · exact decide_eq_true hpast
    · intro y _ hy
      exact decide_eq_true ((of_decide_eq_true hy).trans hpast)
  have hsplit := List.length_eq_countP_add_countP (fun y ↦ decide (side * y < side * x))
    (l := values)
  simp only [decide_eq_true_eq] at hsplit
  have hhalf := two_mul_countP_le hside hspread hfar
  have hquarters := four_mul_quarter_lt (List.length_pos_of_mem hx)
  omega

theorem lowerQuartile_le_of_far (hspread : 0 < populationStdDev values)
    (hfar : populationStdDev values ≤ x - mean values) (hx : x ∈ values) :
    percentile (sorted values) 25.0 ≤ x := by
  have hle := not_past_quartile (one_pow 2) hspread (hfar.trans_eq (one_mul _).symm) hx
    (q := percentile (sorted values) 25.0)
  simp only [one_mul] at hle
  exact hle (countP_lt_lowerQuartile values)

theorem le_upperQuartile_of_far (hspread : 0 < populationStdDev values)
    (hfar : populationStdDev values ≤ mean values - x) (hx : x ∈ values) :
    x ≤ percentile (sorted values) 75.0 := by
  have hfar' : populationStdDev values ≤ -1 * (x - mean values) := by linarith
  have hle := not_past_quartile neg_one_sq hspread hfar' hx (q := percentile (sorted values) 75.0)
  simp only [neg_one_mul, neg_lt_neg_iff, neg_le_neg_iff] at hle
  exact hle (countP_gt_upperQuartile values)

end Stats

namespace Detector

variable {d : Detector ℝ} {now : Instant} {values : List ℝ} {metric : String}
  {timestamps : Option (List Instant)} {a b : Anomaly ℝ} {t x : ℝ}

theorem far_of_ownScore (hspread : 0 < Stats.populationStdDev values) (ht : 1 ≤ t)
    (h : ¬ |ownScore values x| < t) :
    if 0 < ownScore values x then Stats.populationStdDev values ≤ x - Stats.mean values
    else Stats.populationStdDev values ≤ Stats.mean values - x := by
  have hsize : Stats.populationStdDev values ≤ |x - Stats.mean values| := by
    have hone := ht.trans (not_lt.1 h)
    rwa [ownScore, abs_div, abs_of_pos hspread, one_le_div hspread] at hone
  have hsign : 0 < ownScore values x ↔ 0 < x - Stats.mean values := div_pos_iff_of_pos_right hspread
  split_ifs with hpos
  · rwa [abs_of_pos (hsign.1 hpos)] at hsize
  · rwa [abs_of_nonpos (not_lt.1 (mt hsign.2 hpos)), neg_sub] at hsize

theorem exists_mem_firstPerInstant {findings : List (Anomaly ℝ)} (hb : b ∈ findings) :
    ∃ a ∈ firstPerInstant [] findings, a.timestamp = b.timestamp := by
  have hinstant : b.timestamp ∈ (firstPerInstant [] findings).map (·.timestamp) :=
    mem_timestamps_firstPerInstant.2 ⟨List.mem_map_of_mem hb, List.not_mem_nil⟩
  obtain ⟨a, ha, heq⟩ := List.mem_map.1 hinstant
  exact ⟨a, ha, heq⟩

section Found

variable [NumberText ℝ]

theorem kind_of_mem_byFences_eq (hd : d.validate = .ok ())
    (ha : a ∈ d.byFences now values metric timestamps) :
    a.kind = if (d.fences values).q3 < a.actual then .spike else .drop := by
  obtain ⟨⟨-, hlow, hhigh, -⟩, -⟩ := fences_ordered hd values
  rcases side_of_mem_byFences hd ha with ⟨hspike, habove⟩ | ⟨hdrop, hbelow⟩
  · rw [if_pos habove, hspike]
  · rw [if_neg (not_lt_of_ge (hbelow.le.trans (hlow.trans hhigh))), hdrop]

theorem kind_eq_of_both (hd : d.validate = .ok ()) (hz : 1 ≤ d.zThreshold)
    (ha : a ∈ d.byZScore now values metric timestamps)
    (hb : b ∈ d.byFences now values metric timestamps) (h : a.actual = b.actual) :
    a.kind = b.kind := by
  obtain ⟨hmem, ⟨-, hvaries⟩, hflagged, -⟩ :=
    (selectsWhere_byZScore timestamps).exists_mem_iff.1 ⟨a, ha, rfl, rfl⟩
  have hx : a.actual ∈ values := (List.of_mem_zip hmem).1
  have hspread : 0 < Stats.populationStdDev values :=
    (Stats.populationStdDev_nonneg values).lt_of_ne' (mt isZero_iff.2 hvaries)
  have hfar := far_of_ownScore hspread hz hflagged
  rw [kind_of_mem_byZScore ha, zero_literal]
  have hside := side_of_mem_byFences hd hb
  rw [← h] at hside
  split_ifs at hfar ⊢ with hpos
  · have hbelow : ¬ a.actual < (d.fences values).q1 :=
      not_lt_of_ge (Stats.lowerQuartile_le_of_far hspread hfar hx)
    rcases hside with ⟨hspike, -⟩ | ⟨-, hlt⟩
    · exact hspike.symm
    · exact absurd hlt hbelow
  · have habove : ¬ (d.fences values).q3 < a.actual :=
      not_lt_of_ge (Stats.le_upperQuartile_of_far hspread hfar hx)
    rcases hside with ⟨-, hlt⟩ | ⟨hdrop, -⟩
    · exact absurd hlt habove
    · exact hdrop.symm

theorem kind_eq_of_actual (hd : d.validate = .ok ()) (hz : 1 ≤ d.zThreshold)
    (ha : a ∈ d.byZScore now values metric timestamps ++ d.byFences now values metric timestamps)
    (hb : b ∈ d.byZScore now values metric timestamps ++ d.byFences now values metric timestamps)
    (h : a.actual = b.actual) : a.kind = b.kind := by
  rcases List.mem_append.1 ha with ha | ha
  · rcases List.mem_append.1 hb with hb | hb
    · rw [kind_of_mem_byZScore ha, kind_of_mem_byZScore hb, h]
    · exact kind_eq_of_both hd hz ha hb h
  · rcases List.mem_append.1 hb with hb | hb
    · exact (kind_eq_of_both hd hz hb ha h.symm).symm
    · rw [kind_of_mem_byFences_eq hd ha, kind_of_mem_byFences_eq hd hb, h]

theorem mem_zip_of_mem
    (ha : a ∈ d.byZScore now values metric timestamps ++ d.byFences now values metric timestamps) :
    (a.actual, a.timestamp) ∈ values.zip (resolveTimestamps now values.length timestamps) := by
  rcases List.mem_append.1 ha with ha | ha
  · exact ((selectsWhere_byZScore timestamps).exists_mem_iff.1 ⟨a, ha, rfl, rfl⟩).1
  · exact ((selectsWhere_byFences timestamps).exists_mem_iff.1 ⟨a, ha, rfl, rfl⟩).1

end Found

/-- Points are compared by their values, so that it does not matter if instants are repeated. Where
they are not, what the combined method leaves out is in its result with the same verdict. -/
theorem methods_concur [NumberText ℝ] {d : Detector ℝ} (hd : d.validate = .ok ())
    (hz : 1 ≤ d.zThreshold) (now : Instant) (values : List ℝ) (metric : String)
    (timestamps : Option (List Instant)) :
    let scored := d.byZScore now values metric timestamps
    let fenced := d.byFences now values metric timestamps
    let combined := d.detect now values metric timestamps .combined
    (∀ a ∈ scored, ∀ b ∈ fenced, a.actual = b.actual → a.kind = b.kind) ∧
      (∀ a ∈ combined, ∀ b ∈ scored ++ fenced, a.actual = b.actual → a.kind = b.kind) ∧
      ((resolveTimestamps now values.length timestamps).Nodup → ∀ b ∈ scored ++ fenced,
        ∃ a ∈ combined, a.timestamp = b.timestamp ∧ a.actual = b.actual ∧ a.kind = b.kind) := by
  intro scored fenced combined
  have hcombined : combined = firstPerInstant [] (scored ++ fenced) := detect_combined_eq timestamps
  have hsub : ∀ a ∈ combined, a ∈ scored ++ fenced := by
    intro a ha
    rw [hcombined] at ha
    exact (firstPerInstant_sublist [] _).subset ha
  refine ⟨fun a ha b hb ↦ kind_eq_of_both hd hz ha hb,
    fun a ha b hb ↦ kind_eq_of_actual hd hz (hsub a ha) hb, fun hdistinct b hb ↦ ?_⟩
  obtain ⟨a, ha, hinstant⟩ := exists_mem_firstPerInstant hb
  rw [← hcombined] at ha
  have hpoint := mem_zip_of_mem (hsub a ha)
  rw [hinstant] at hpoint
  have hactual : a.actual = b.actual := value_eq_of_mem_zip hdistinct hpoint (mem_zip_of_mem hb)
  exact ⟨a, ha, hinstant, hactual, kind_eq_of_actual hd hz (hsub a ha) hb hactual⟩

theorem methods_concur_five :
    let _ := nearestWhole
    let d : Detector ℝ := ⟨1, 1.5, 5⟩
    let scored := d.byZScore .epoch [0, 0, 9, 0, 0] "latency" none
    let fenced := d.byFences .epoch [0, 0, 9, 0, 0] "latency" none
    (d.validate = .ok () ∧ 1 ≤ d.zThreshold) ∧
      ∃ a ∈ scored, ∃ b ∈ fenced, a.actual = 9 ∧ b.actual = 9 ∧ a.kind = b.kind := by
  intro text d scored fenced
  have hd : d.validate = .ok () := by
    rw [validate_eq_ok_iff]
    norm_num [d, PositiveThreshold, Scalar.isFinite]
  obtain ⟨hboth, -, -⟩ := methods_concur hd le_rfl .epoch [0, 0, 9, 0, 0] "latency" none
  have hmean : Stats.mean [0, 0, 9, 0, 0] = (9 / 5 : ℝ) := by
    norm_num [Stats.mean, Stats.sum_eq]
  have hvariance : Stats.populationVariance [0, 0, 9, 0, 0] = ((18 / 5) ^ 2 : ℝ) := by
    norm_num [Stats.populationVariance, Stats.squaredDeviations, hmean, Stats.square, Stats.sum_eq]
  have hstdDev : Stats.populationStdDev [0, 0, 9, 0, 0] = (18 / 5 : ℝ) := by
    rw [Stats.populationStdDev_eq, hvariance, Real.sqrt_sq (by norm_num)]
  have hsorted : Stats.sorted [0, 0, 9, 0, 0] = ([0, 0, 0, 0, 9] : List ℝ) :=
    Stats.sorted_append_cons [0, 0] [0, 0] (by simp)
  have hpoint : ((9 : ℝ), Instant.epoch.backBy 2) ∈
      ([0, 0, 9, 0, 0] : List ℝ).zip (resolveTimestamps .epoch 5 none) := by
    simp [resolveTimestamps, List.range_succ]
  have hscored : SelectsWhere _ [0, 0, 9, 0, 0] (resolveTimestamps .epoch 5 none) scored :=
    selectsWhere_byZScore none
  have hfenced : SelectsWhere _ [0, 0, 9, 0, 0] (resolveTimestamps .epoch 5 none) fenced :=
    selectsWhere_byFences none
  obtain ⟨a, ha, hactual, -⟩ := hscored.exists_mem_iff.2 ⟨hpoint, by
    norm_num [d, hstdDev, ownScore, hmean, isZero_iff, scalar_abs]⟩
  obtain ⟨b, hb, hactual', -⟩ := hfenced.exists_mem_iff.2 ⟨hpoint, by
    norm_num [d, fences, hsorted, Stats.percentile, Scalar.wholePart]⟩
  exact ⟨⟨hd, le_rfl⟩, a, ha, b, hb, hactual, hactual',
    hboth a ha b hb (hactual.trans hactual'.symm)⟩

end Detector

end MetricWatch
