import Mathlib.Algebra.Order.Interval.Set.Group
import Mathlib.Order.Interval.Set.OrdConnected
import MetricWatch.Proofs.Comparison.Judgement
import MetricWatch.Proofs.Exact.Deviation

namespace MetricWatch

open Exact

namespace Comparator

variable {c : Comparator ℝ} {b : Baseline ℝ} {t t' x : ℝ}

def accepted (c : Comparator ℝ) (b : Baseline ℝ) (t : ℝ) : Set ℝ := {x | c.isWithin x b t = true}

theorem mem_accepted : x ∈ c.accepted b t ↔ c.isWithin x b t = true := Iff.rfl

theorem accepted_of_invalid (hb : ¬ b.Valid) : c.accepted b t = Set.univ := by
  ext x
  simp only [mem_accepted, isWithin, if_neg hb, Set.mem_univ]

theorem isWithin_iff (hb : b.Valid) : c.isWithin x b t = true ↔
    |b.score x| ≤ t * c.zThreshold ∧ b.p25 - t * b.iqr ≤ x ∧ x ≤ b.p75 + t * b.iqr := by
  have hspread : 0 < b.stdDev := Baseline.stdDev_pos hb
  rw [isWithin, if_pos hb, if_pos hb.2, scalar_abs, Baseline.score, abs_div, abs_of_pos hspread]
  dsimp only
  split_ifs with hfar
  · simp [hfar]
  · simp [not_lt.1 hfar]

theorem abs_score_le_iff (hspread : 0 < b.stdDev) {r : ℝ} :
    |b.score x| ≤ r ↔ x ∈ Set.Icc (b.mean - r * b.stdDev) (b.mean + r * b.stdDev) := by
  rw [Baseline.score, abs_div, abs_of_pos hspread, div_le_iff₀ hspread, abs_sub_comm,
    Set.mem_Icc_iff_abs_le]

theorem accepted_of_valid (hb : b.Valid) : c.accepted b t =
    Set.Icc (b.mean - t * c.zThreshold * b.stdDev) (b.mean + t * c.zThreshold * b.stdDev) ∩
      Set.Icc (b.p25 - t * b.iqr) (b.p75 + t * b.iqr) := by
  have hspread : 0 < b.stdDev := Baseline.stdDev_pos hb
  ext x
  rw [mem_accepted, isWithin_iff hb, abs_score_le_iff hspread, Set.mem_inter_iff,
    Set.mem_Icc (a := b.p25 - t * b.iqr)]

theorem ordConnected_accepted (c : Comparator ℝ) (b : Baseline ℝ) (t : ℝ) :
    (c.accepted b t).OrdConnected := by
  by_cases hb : b.Valid
  · rw [accepted_of_valid hb]
    exact Set.ordConnected_Icc.inter Set.ordConnected_Icc
  · rw [accepted_of_invalid hb]
    exact Set.ordConnected_univ

theorem accepted_mono (hz : 0 ≤ c.zThreshold) (hiqr : 0 ≤ b.iqr) (h : t ≤ t') :
    c.accepted b t ⊆ c.accepted b t' := by
  by_cases hb : b.Valid
  · have hspread : 0 ≤ b.stdDev := (Baseline.stdDev_pos hb).le
    rw [accepted_of_valid hb, accepted_of_valid hb]
    apply Set.inter_subset_inter
    · apply Set.Icc_subset_Icc <;> gcongr
    · apply Set.Icc_subset_Icc <;> gcongr
  · rw [accepted_of_invalid hb, accepted_of_invalid hb]

theorem not_flags_of_accepted {k : ℝ} (hz : 0 < c.zThreshold) (hiqr : 0 ≤ b.iqr)
    (hlower : b.lowerFence = b.p25 - k * b.iqr) (hupper : b.upperFence = b.p75 + k * b.iqr)
    (hone : t < 1) (hk : t ≤ k) (hb : b.Valid) (hx : x ∈ c.accepted b t) :
    ¬ b.Flags c.zThreshold x := by
  obtain ⟨hscore, hlow, hhigh⟩ := (isWithin_iff hb).1 (mem_accepted.1 hx)
  have hreach : t * b.iqr ≤ k * b.iqr := mul_le_mul_of_nonneg_right hk hiqr
  rintro (hfar | hbelow | habove)
  · rw [Baseline.zScore_eq hb, scalar_abs, not_lt] at hfar
    have hless : t * c.zThreshold < c.zThreshold := mul_lt_of_lt_one_left hz hone
    exact hless.not_ge (hfar.trans hscore)
  · linarith
  · linarith

theorem zThreshold_pos (hc : c.validate = .ok ()) : 0 < c.zThreshold :=
  threshold_pos hc (t := ("z_threshold", c.zThreshold)) (by simp [thresholds])

/-- An invalid baseline accepts everything, and flags nothing. -/
theorem tolerance_check [NumberText ℝ] (c : Comparator ℝ) (hc : c.validate = .ok ())
    (d : Detector ℝ) (now : Instant) (history : List ℝ) (metric : String) (periodDays : ℕ) :
    let b := d.baseline now history metric periodDays
    (∀ t, {v | c.isWithin v b t = true}.OrdConnected) ∧
      (∀ t t', t ≤ t' → ∀ v, c.isWithin v b t = true → c.isWithin v b t' = true) ∧
      ∀ t, t < 1 → t ≤ d.iqrMultiplier → ∀ v, c.isWithin v b t = true →
        ∀ comparedAt values timestamps,
          ∀ a ∈ (c.compare comparedAt values b timestamps).anomalies, a.actual ≠ v := by
  intro b
  obtain ⟨hiqr, hlower, hupper⟩ := d.baseline_fences now history metric periodDays
  have hz : 0 < c.zThreshold := zThreshold_pos hc
  refine ⟨ordConnected_accepted c b, fun t t' h v hv ↦ accepted_mono hz.le hiqr h hv, ?_⟩
  rintro t hone hk v hv comparedAt values timestamps a ha rfl
  obtain ⟨-, hb, hflags⟩ := (selectsWhere_compare timestamps).exists_mem_iff.1 ⟨a, ha, rfl, rfl⟩
  exact not_flags_of_accepted hz hiqr hlower hupper hone hk hb hv hflags

theorem tolerance_check_half :
    let _ := nearestWhole
    let c : Comparator ℝ := .standard
    let d : Detector ℝ := .standard
    let b := d.baseline .epoch [1, 1, 1, 1, 1, 3, 3, 3, 3, 3] "latency" 7
    let anomalies := (c.compare .epoch [3, 9] b none).anomalies
    (c.validate = .ok () ∧ (1 / 2 : ℝ) < 1 ∧ 1 / 2 ≤ d.iqrMultiplier) ∧ b.Valid ∧
      c.isWithin 3 b (1 / 2) = true ∧ c.isWithin 3 b 1 = true ∧ (∀ a ∈ anomalies, a.actual ≠ 3) ∧
      ∃ a ∈ anomalies, a.actual = 9 := by
  intro text c d b anomalies
  have hc : c.validate = .ok () := validate_standard
  have hk : 1 / 2 ≤ d.iqrMultiplier := by norm_num [d, Detector.standard]
  obtain ⟨hb, ⟨hmean, hstdDev⟩, hp25, hp75, hiqr⟩ := d.baseline_two_levels .epoch "latency" 7
  obtain ⟨-, hgrows, hspared⟩ := tolerance_check c hc d .epoch
    [1, 1, 1, 1, 1, 3, 3, 3, 3, 3] "latency" 7
  have hwithin : c.isWithin 3 b (1 / 2) = true := by
    rw [isWithin_iff hb, Baseline.score, hmean, hstdDev, hp25, hp75, hiqr]
    norm_num [c, standard]
  have hflags : b.Flags c.zThreshold 9 := by
    left
    rw [Baseline.zScore_eq hb, Baseline.score, hmean, hstdDev]
    norm_num [c, standard, scalar_abs]
  obtain ⟨a, ha, hactual, -⟩ : ∃ a ∈ anomalies, a.actual = 9 ∧ a.timestamp = .epoch :=
    (selectsWhere_compare none).exists_mem_iff.2
      ⟨List.mem_cons_of_mem _ List.mem_cons_self, hb, hflags⟩
  exact ⟨⟨hc, one_half_lt_one, hk⟩, hb, hwithin, hgrows _ _ one_half_lt_one.le 3 hwithin,
    hspared _ one_half_lt_one hk 3 hwithin .epoch [3, 9] none, a, ha, hactual⟩

end Comparator

end MetricWatch
