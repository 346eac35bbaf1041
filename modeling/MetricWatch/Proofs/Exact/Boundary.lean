import MetricWatch.Proofs.Exact.Spread
import MetricWatch.Proofs.Detection.Locality

namespace MetricWatch

theorem extract_reverse {β : Type} {values : List β} {start stop : ℕ} (hstart : start ≤ stop)
    (hstop : stop ≤ values.length) : values.reverse.extract start stop =
      (values.extract (values.length - stop) (values.length - start)).reverse := by
  rw [List.extract_eq_take_drop, List.extract_eq_take_drop, List.drop_reverse, List.take_reverse,
    List.length_take_of_le (Nat.sub_le _ _), List.drop_take]
  congr 3
  · omega
  · omega

namespace Detector

open Exact

noncomputable def pooledDeviation (before after : List ℝ) : ℝ :=
  √((Stats.populationVariance before + Stats.populationVariance after) / 2.0)

/-- The windows before and after a place vary, and in pooled deviations their means are a distance
apart that reaches the threshold. -/
def ShiftsBy (d : Detector ℝ) (values : List ℝ) (window place : ℕ) (m : ℝ) : Prop :=
  let before := values.extract (place - window) place
  let after := values.extract place (place + window)
  0 < pooledDeviation before after ∧
    m = |Stats.mean after - Stats.mean before| / pooledDeviation before after ∧ d.zThreshold ≤ m

variable {d : Detector ℝ} {values before after : List ℝ} {window place i : ℕ} {m : ℝ}

theorem pooledDeviation_reverse (before after : List ℝ) :
    pooledDeviation after.reverse before.reverse = pooledDeviation before after := by
  rw [pooledDeviation, Stats.populationVariance_perm (List.reverse_perm after),
    Stats.populationVariance_perm (List.reverse_perm before), add_comm, pooledDeviation]

theorem shift?_eq_some_iff : shift? before after = some m ↔ 0 < pooledDeviation before after ∧
    m = |Stats.mean after - Stats.mean before| / pooledDeviation before after := by
  have hpooled : Scalar.sqrt
      ((Stats.populationVariance before + Stats.populationVariance after) / 2.0) =
        pooledDeviation before after := rfl
  simp only [shift?, hpooled, zero_literal, scalar_abs]
  split_ifs with hpos
  · rw [Option.some_inj, and_iff_right hpos, eq_comm]
  · exact iff_of_false nofun fun h ↦ hpos h.1

theorem ShiftsBy.window_pos (h : d.ShiftsBy values window place m) : 0 < window := by
  refine Nat.pos_of_ne_zero ?_
  rintro rfl
  simp [ShiftsBy, pooledDeviation, Stats.populationVariance, zero_literal] at h

theorem mem_changePoints_iff_shiftsBy : (i, m) ∈ d.changePoints values window ↔
    (window ≤ i ∧ i < values.length - window) ∧ d.ShiftsBy values window i m := by
  rw [scans_of_word (fun n _ ↦ word_natCast n) d i m]
  constructor
  · intro ⟨⟨_, hlow, hhigh⟩, hshift, hreach⟩
    rw [shiftAt?_eq hlow, shift?_eq_some_iff] at hshift
    exact ⟨⟨hlow, hhigh⟩, hshift.1, hshift.2, hreach⟩
  · intro ⟨⟨hlow, hhigh⟩, h⟩
    obtain ⟨hpooled, hm, hreach⟩ := id h
    rw [shiftAt?_eq hlow, shift?_eq_some_iff]
    exact ⟨⟨h.window_pos, hlow, hhigh⟩, ⟨hpooled, hm⟩, hreach⟩

theorem shiftsBy_reverse_iff (hlow : window ≤ i) (hhigh : i + window ≤ values.length) :
    d.ShiftsBy values.reverse window (values.length - i) m ↔ d.ShiftsBy values window i m := by
  have hbefore : values.reverse.extract (values.length - i - window) (values.length - i) =
      (values.extract i (i + window)).reverse := by
    rw [extract_reverse (Nat.sub_le _ _) (Nat.sub_le _ _)]
    congr 2
    · omega
    · omega
  have hafter : values.reverse.extract (values.length - i) (values.length - i + window) =
      (values.extract (i - window) i).reverse := by
    rw [extract_reverse (Nat.le_add_right _ _) (by omega)]
    congr 2
    · omega
    · omega
  simp only [ShiftsBy, hbefore, hafter, pooledDeviation_reverse,
    Stats.mean_perm (List.reverse_perm _), abs_sub_comm (Stats.mean (values.extract i _))]

/-- A scan reports just the boundaries with a shift among those it goes through, and these are all
but the last one. Of the reversed series they are all but the first one. -/
theorem boundaries_scanned (d : Detector ℝ) (values : List ℝ) (window : ℕ) :
    d.changePoints? values window = some (d.changePoints values window) ∧
      (∀ i m, (i, m) ∈ d.changePoints values window ↔
        (window ≤ i ∧ i < values.length - window) ∧ d.ShiftsBy values window i m) ∧
      ∀ i m, (values.length - i, m) ∈ d.changePoints values.reverse window ↔
        (window < i ∧ i ≤ values.length - window) ∧ d.ShiftsBy values window i m := by
  refine ⟨changePoints?_eq (fun n _ ↦ word_natCast n) d,
    fun i m ↦ mem_changePoints_iff_shiftsBy, fun i m ↦ ?_⟩
  rw [mem_changePoints_iff_shiftsBy, List.length_reverse]
  constructor
  · intro ⟨hi, hshift⟩
    have hw := hshift.window_pos
    exact ⟨by omega, (shiftsBy_reverse_iff (by omega) (by omega)).1 hshift⟩
  · intro ⟨hi, hshift⟩
    exact ⟨by omega, (shiftsBy_reverse_iff (by omega) (by omega)).2 hshift⟩

/-- A step of ten deviations in a series of two windows, whose only boundary is the last one. -/
theorem boundaries_scanned_last :
    let d : Detector ℝ := .standard
    let values : List ℝ := [0, 2, 10, 12]
    (d.validate = .ok () ∧ 2 * 2 ≤ values.length ∧ 2 ≤ values.length - 2) ∧
      d.ShiftsBy values 2 2 10 ∧ d.changePoints values 2 = [] := by
  intro d values
  have hd : d.validate = .ok () := by
    rw [validate_eq_ok_iff]
    norm_num [d, standard, PositiveThreshold, Scalar.isFinite]
  have hvariance : Stats.populationVariance [(0 : ℝ), 2] = 1 ∧
      Stats.populationVariance [(10 : ℝ), 12] = 1 := by
    norm_num [Stats.populationVariance, Stats.squaredDeviations_eq, Stats.mean, Stats.sum_eq]
  have hpooled : pooledDeviation [0, 2] [10, 12] = 1 := by
    rw [pooledDeviation, hvariance.1, hvariance.2]
    norm_num
  have hshift : 0 < pooledDeviation [0, 2] [10, 12] ∧
      10 = |Stats.mean [(10 : ℝ), 12] - Stats.mean [(0 : ℝ), 2]| /
        pooledDeviation [0, 2] [10, 12] := by
    rw [hpooled]
    norm_num [Stats.mean, Stats.sum_eq]
  have hreach : d.zThreshold ≤ 10 := by norm_num [d, standard]
  exact ⟨⟨hd, le_rfl, le_rfl⟩, ⟨hshift.1, hshift.2, hreach⟩, rfl⟩

end Detector

end MetricWatch
