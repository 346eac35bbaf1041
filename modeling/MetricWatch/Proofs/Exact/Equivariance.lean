import Mathlib.Data.List.Forall2
import Mathlib.Data.Sign.Basic
import MetricWatch.Proofs.Exact.Accord
import MetricWatch.Proofs.Exact.Affine
import MetricWatch.Proofs.Detection.Locality

namespace MetricWatch

open Exact Stats

def AnomalyKind.mirrored : AnomalyKind → AnomalyKind
  | spike => drop
  | drop => spike
  | kind => kind

/-- A finding and the one at the same point on a scale with a unit of `a` and its zero at `b`. -/
structure Anomaly.Rescaled (a b : ℝ) (x y : Anomaly ℝ) : Prop where
  timestamp : y.timestamp = x.timestamp
  actual : y.actual = rescale a b x.actual
  expected : y.expected = rescale a b x.expected
  kind : y.kind = if 0 < a then x.kind else x.kind.mirrored
  severity : y.severity = x.severity
  confidence : y.confidence = x.confidence
  zScore : y.zScore = x.zScore.map ((SignType.sign a : ℝ) * ·)

/-- The findings are at these places of a series, one at each. -/
def FoundAt (places : List ℕ) (values : List ℝ) (instants : List Instant)
    (found : List (Anomaly ℝ)) : Prop :=
  List.Forall₂ (fun i x ↦ values[i]? = some x.actual ∧ instants[i]? = some x.timestamp) places found

variable {a b : ℝ}

section Places

variable {places : List ℕ} {values : List ℝ} {instants : List Instant}
  {found found' : List (Anomaly ℝ)}

theorem exists_foundAt (h : ∀ x ∈ found, (x.actual, x.timestamp) ∈ values.zip instants) :
    ∃ places, FoundAt places values instants found := by
  induction found with
  | nil => exact ⟨[], .nil⟩
  | cons x rest ih =>
    obtain ⟨places, hplaces⟩ := ih fun y hy ↦ h y (List.mem_cons_of_mem x hy)
    obtain ⟨i, hi⟩ := List.mem_iff_getElem?.1 (h x List.mem_cons_self)
    exact ⟨i :: places, .cons (List.getElem?_zip_eq_some.1 hi) hplaces⟩

theorem FoundAt.rescale (h : FoundAt places values instants found)
    (hfound : List.Forall₂ (Anomaly.Rescaled a b) found found') :
    FoundAt places (values.map (rescale a b)) instants found' := by
  induction h generalizing found' with
  | nil =>
    cases hfound
    exact .nil
  | cons hpoint hrest ih =>
    cases hfound with
    | cons hx hxs =>
      refine .cons ⟨?_, ?_⟩ (ih hxs)
      · rw [List.getElem?_map, hpoint.1, hx.actual, Option.map_some]
      · rw [hpoint.2, hx.timestamp]

/-- The findings in a series are at the same places on another scale, and agree there. -/
structure SameFindings (a b : ℝ) (values : List ℝ) (instants : List Instant)
    (found found' : List (Anomaly ℝ)) : Prop where
  rescaled : List.Forall₂ (Anomaly.Rescaled a b) found found'
  places : ∃ places, FoundAt places values instants found ∧
    FoundAt places (values.map (rescale a b)) instants found'

theorem sameFindings_of_rescaled (h : ∀ x ∈ found, (x.actual, x.timestamp) ∈ values.zip instants)
    (hfound : List.Forall₂ (Anomaly.Rescaled a b) found found') :
    SameFindings a b values instants found found' := by
  obtain ⟨places, hplaces⟩ := exists_foundAt h
  exact ⟨hfound, places, hplaces, hplaces.rescale hfound⟩

end Places

section Score

variable {z : ℝ}

theorem abs_sign_mul (ha : a ≠ 0) (z : ℝ) : |SignType.sign a * z| = |z| := by
  rcases ha.lt_or_gt with ha | ha
  · rw [sign_neg ha, SignType.coe_neg_one, neg_one_mul, abs_neg]
  · rw [sign_pos ha, SignType.coe_one, one_mul]

theorem score_rescale (ha : a ≠ 0) (b v m s : ℝ) :
    (rescale a b v - rescale a b m) / (|a| * s) = SignType.sign a * ((v - m) / s) := by
  calc (rescale a b v - rescale a b m) / (|a| * s)
      = SignType.sign a * |a| * (v - m) / (|a| * s) := by rw [rescale_sub_rescale, sign_mul_abs]
    _ = |a| * (SignType.sign a * (v - m)) / (|a| * s) := by ring
    _ = SignType.sign a * ((v - m) / s) := by
      rw [mul_div_mul_left _ _ (abs_ne_zero.2 ha), mul_div_assoc]

theorem ofZScore_sign_mul (ha : a ≠ 0) (z : ℝ) :
    Severity.ofZScore (SignType.sign a * z) = Severity.ofZScore z := by
  simp only [Severity.ofZScore, scalar_abs, abs_sign_mul ha]

theorem scoreConfidence_sign_mul (ha : a ≠ 0) (z : ℝ) :
    Detector.scoreConfidence (SignType.sign a * z) = Detector.scoreConfidence z := by
  simp only [Detector.scoreConfidence, scalar_abs, abs_sign_mul ha]

/-- A score of zero is a drop in either direction. -/
theorem kind_sign_mul (ha : a ≠ 0) (hz : a < 0 → z ≠ 0) :
    (if 0.0 < SignType.sign a * z then AnomalyKind.spike else .drop) =
      if 0 < a then (if 0.0 < z then AnomalyKind.spike else .drop)
      else (if 0.0 < z then AnomalyKind.spike else .drop).mirrored := by
  rw [zero_literal]
  rcases ha.lt_or_gt with ha | ha
  · rw [sign_neg ha, SignType.coe_neg_one, neg_one_mul, if_neg ha.not_gt]
    rcases (hz ha).lt_or_gt with hz | hz
    · rw [if_pos (neg_pos.2 hz), if_neg hz.not_gt]
      rfl
    · rw [if_neg (neg_neg_of_pos hz).not_gt, if_pos hz]
      rfl
  · rw [sign_pos ha, SignType.coe_one, one_mul, if_pos ha]

end Score

namespace Detector

variable {d : Detector ℝ} {now : Instant} {metric : String} {values : List ℝ}
  {timestamps : Option (List Instant)}

theorem scorePoint?_rescale [NumberText ℝ] (ha : a ≠ 0) (hd : a < 0 → 0 < d.zThreshold)
    (mean stdDev v : ℝ) (t : Instant) :
    Option.Rel (Anomaly.Rescaled a b) (d.scorePoint? now metric mean stdDev v t)
      (d.scorePoint? now metric (rescale a b mean) (|a| * stdDev) (rescale a b v) t) := by
  simp only [scorePoint?, score_rescale ha, scalar_abs, abs_sign_mul ha]
  set z := (v - mean) / stdDev
  have hnumber (x : ℝ) : Scalar.IsNumber x := le_rfl
  simp only [hnumber, not_true, or_false]
  split
  · exact .none
  · rename_i hflagged
    have hz (hneg : a < 0) : z ≠ 0 := by
      have hpos := (hd hneg).trans_le (not_lt.1 hflagged)
      exact abs_pos.1 hpos
    exact .some {
      timestamp := rfl
      actual := rfl
      expected := rfl
      kind := kind_sign_mul ha hz
      severity := ofZScore_sign_mul ha z
      confidence := scoreConfidence_sign_mul ha z
      zScore := rfl }

namespace Fences

variable {f : Fences ℝ}

/-- In the other direction the upper fence is the lower one, and the upper quartile is the lower. -/
noncomputable def rescale (a b : ℝ) (f : Fences ℝ) : Fences ℝ where
  q1 := Stats.rescale a b (if 0 < a then f.q1 else f.q3)
  median := Stats.rescale a b f.median
  q3 := Stats.rescale a b (if 0 < a then f.q3 else f.q1)
  iqr := |a| * f.iqr
  lower := Stats.rescale a b (if 0 < a then f.lower else f.upper)
  upper := Stats.rescale a b (if 0 < a then f.upper else f.lower)

theorem excess?_rescale (ha : a ≠ 0) (hf : a < 0 → f.lower ≤ f.upper) (v : ℝ) :
    (f.rescale a b).excess? (Stats.rescale a b v) = (f.excess? v).map fun (kind, excess) ↦
      (if 0 < a then kind else kind.mirrored, |a| * excess) := by
  rcases ha.lt_or_gt with ha | ha
  · -- Between fences that are not crossed no value is past both.
    have hboth : f.upper < v → ¬ v < f.lower := fun h ↦ ((hf ha).trans h.le).not_gt
    simp only [excess?, rescale, if_neg ha.not_gt, rescale_lt_rescale_of_neg ha,
      rescale_sub_rescale, abs_of_neg ha]
    split_ifs with hlower hupper hupper
    · exact absurd hlower (hboth hupper)
    · simp only [Option.map_some, AnomalyKind.mirrored, Option.some.injEq, Prod.mk.injEq, true_and]
      ring
    · simp only [Option.map_some, AnomalyKind.mirrored, Option.some.injEq, Prod.mk.injEq, true_and]
      ring
    · rfl
  · simp only [excess?, rescale, if_pos ha, rescale_lt_rescale_of_pos ha, rescale_sub_rescale,
      abs_of_pos ha]
    split_ifs
    · rfl
    · rfl
    · rfl

theorem inRanges_rescale (ha : a ≠ 0) (excess : ℝ) :
    (f.rescale a b).inRanges (|a| * excess) = f.inRanges excess := by
  simp only [inRanges, rescale, pos_scaled (abs_pos.2 ha), mul_div_mul_left _ _ (abs_ne_zero.2 ha)]

theorem point?_rescale [NumberText ℝ] (ha : a ≠ 0) (hf : a < 0 → f.lower ≤ f.upper) (v : ℝ)
    (t : Instant) :
    Option.Rel (Anomaly.Rescaled a b) (f.point? now metric v t)
      ((f.rescale a b).point? now metric (Stats.rescale a b v) t) := by
  simp only [point?, excess?_rescale ha hf, Option.map_map]
  cases f.excess? v with
  | none => exact .none
  | some found =>
    obtain ⟨kind, excess⟩ := found
    simp only [Option.map_some, Function.comp_apply, inRanges_rescale ha]
    exact .some {
      timestamp := rfl
      actual := rfl
      expected := rfl
      kind := rfl
      severity := rfl
      confidence := rfl
      zScore := rfl }

end Fences

theorem fences_rescale (ha : a ≠ 0) (h : values ≠ []) (d : Detector ℝ) (b : ℝ) :
    d.fences (values.map (rescale a b)) = (d.fences values).rescale a b := by
  rcases ha.lt_or_gt with ha | ha
  · have hpercentile (p q : ℝ) (hp : 0 ≤ p) (hp' : p ≤ 100) (hq : q = 100 - p) :
        percentile (sorted (values.map (rescale a b))) q =
          rescale a b (percentile (sorted values) p) := by
      rw [hq, percentile_sorted_rescale_of_neg ha h b hp hp']
    have hlow := hpercentile 75.0 25.0 (by norm_num) (by norm_num) (by norm_num)
    have hmedian := hpercentile 50.0 50.0 (by norm_num) (by norm_num) (by norm_num)
    have hhigh := hpercentile 25.0 75.0 (by norm_num) (by norm_num) (by norm_num)
    simp only [fences, Fences.rescale, median, hlow, hmedian, hhigh, if_neg ha.not_gt,
      abs_of_neg ha, rescale_sub_rescale]
    simp only [Fences.mk.injEq, true_and]
    refine ⟨?_, ?_, ?_⟩
    · ring
    · rw [rescale, rescale]
      ring
    · rw [rescale, rescale]
      ring
  · simp only [fences, Fences.rescale, median, percentile_sorted_rescale_of_pos ha h, if_pos ha,
      abs_of_pos ha, rescale_sub_rescale]
    simp only [Fences.mk.injEq, true_and]
    refine ⟨?_, ?_⟩
    · rw [rescale, rescale]
      ring
    · rw [rescale, rescale]
      ring

section Shift

variable {window place : ℕ}

theorem shiftAt?_rescale (ha : a ≠ 0) (b : ℝ)
    (hbefore : (values.drop (place - window)).take window ≠ [])
    (hafter : (values.drop place).take window ≠ []) :
    shiftAt? (values.map (rescale a b)) window place = shiftAt? values window place := by
  have hpooled (x y : ℝ) : √((a ^ 2 * x + a ^ 2 * y) / 2.0) = |a| * √((x + y) / 2.0) := by
    rw [← mul_add, mul_div_assoc, ← sq_abs a, Real.sqrt_mul (sq_nonneg _),
      Real.sqrt_sq (abs_nonneg a)]
  simp only [shiftAt?, shift?, ← List.map_drop, ← List.map_take, mean_rescale hbefore,
    mean_rescale hafter, populationVariance_rescale, rescale_sub_rescale, scalar_abs, scalar_sqrt,
    abs_mul, hpooled, pos_scaled (abs_pos.2 ha), mul_div_mul_left _ _ (abs_ne_zero.2 ha)]

theorem changePoints_rescale (ha : a ≠ 0) (d : Detector ℝ) (b : ℝ) (values : List ℝ)
    (window : ℕ) :
    d.changePoints (values.map (rescale a b)) window = d.changePoints values window := by
  apply eq_of_same_points (changePoints_pairwise d _ window) (changePoints_pairwise d values window)
  intro i m
  rw [scans_of_word (fun n _ ↦ word_natCast n) d i m,
    scans_of_word (fun n _ ↦ word_natCast n) d i m, List.length_map]
  refine and_congr_right fun ⟨hw, hlow, hhigh⟩ ↦ ?_
  have hne {start : ℕ} (hstart : start + window ≤ values.length) :
      (values.drop start).take window ≠ [] := by
    apply List.ne_nil_of_length_pos
    rw [List.length_take, List.length_drop]
    omega
  rw [shiftAt?_rescale ha b (hne (by omega)) (hne (by omega))]

end Shift

theorem forall₂_findings {find? find?' : ℝ → Instant → Option (Anomaly ℝ)}
    (h : ∀ v t, Option.Rel (Anomaly.Rescaled a b) (find? v t) (find?' (rescale a b v) t))
    (values : List ℝ) (instants : List Instant) :
    List.Forall₂ (Anomaly.Rescaled a b) ((values.zip instants).filterMap fun (v, t) ↦ find? v t)
      (((values.map (rescale a b)).zip instants).filterMap fun (v, t) ↦ find?' v t) := by
  rw [List.zip_map_left, List.filterMap_map]
  refine List.rel_filterMap (R := Eq) ?_ (List.forall₂_refl _)
  rintro ⟨v, t⟩ _ rfl
  exact h v t

theorem firstPerInstant_rescale {found found' : List (Anomaly ℝ)} (seen : List Instant)
    (h : List.Forall₂ (Anomaly.Rescaled a b) found found') :
    List.Forall₂ (Anomaly.Rescaled a b) (firstPerInstant seen found)
      (firstPerInstant seen found') := by
  induction h generalizing seen with
  | nil => exact .nil
  | cons hx _ ih =>
    simp only [firstPerInstant, hx.timestamp]
    split
    · exact ih seen
    · exact .cons hx (ih _)

section Found

variable [NumberText ℝ]

theorem byZScore_rescale (ha : a ≠ 0) (hd : a < 0 → d.validate = .ok ()) :
    List.Forall₂ (Anomaly.Rescaled a b) (d.byZScore now values metric timestamps)
      (d.byZScore now (values.map (rescale a b)) metric timestamps) := by
  simp only [byZScore, List.length_map, populationStdDev_rescale, isZero_scaled (abs_ne_zero.2 ha)]
  split
  · exact .nil
  · rcases eq_or_ne values [] with rfl | h
    · exact .nil
    · have hz (hneg : a < 0) : 0 < d.zThreshold :=
        pos_of_positive (validate_eq_ok_iff.1 (hd hneg)).1
      rw [mean_rescale h]
      exact forall₂_findings (scorePoint?_rescale ha hz _ _) values _

theorem byFences_rescale (ha : a ≠ 0) (hd : a < 0 → d.validate = .ok ()) :
    List.Forall₂ (Anomaly.Rescaled a b) (d.byFences now values metric timestamps)
      (d.byFences now (values.map (rescale a b)) metric timestamps) := by
  simp only [byFences, List.length_map]
  split
  · exact .nil
  · rcases eq_or_ne values [] with rfl | h
    · exact .nil
    · have hf (hneg : a < 0) : (d.fences values).lower ≤ (d.fences values).upper := by
        obtain ⟨⟨hlower, hlow, hhigh, hupper⟩, -⟩ := fences_ordered (hd hneg) values
        exact hlower.trans (hlow.trans (hhigh.trans hupper))
      rw [fences_rescale ha h]
      exact forall₂_findings (Fences.point?_rescale ha hf) values _

theorem combined_rescale (ha : a ≠ 0) (hd : a < 0 → d.validate = .ok ()) :
    List.Forall₂ (Anomaly.Rescaled a b) (d.detect now values metric timestamps .combined)
      (d.detect now (values.map (rescale a b)) metric timestamps .combined) := by
  rw [detect_combined_eq, detect_combined_eq]
  exact firstPerInstant_rescale [] (List.rel_append (byZScore_rescale ha hd)
    (byFences_rescale ha hd))

end Found

/-- A mirror asks for settings that a detector is made with. Without a positive threshold a score of
zero is found, which is a drop in both directions, and between crossed fences a value is past both. -/
theorem rescaled_findings [NumberText ℝ] {d : Detector ℝ} {a : ℝ} (ha : a ≠ 0)
    (hd : a < 0 → d.validate = .ok ()) (b : ℝ) (now : Instant) (values : List ℝ) (metric : String)
    (timestamps : Option (List Instant)) (window : ℕ) :
    let values' := values.map fun x ↦ a * x + b
    let instants := resolveTimestamps now values.length timestamps
    SameFindings a b values instants (d.byZScore now values metric timestamps)
        (d.byZScore now values' metric timestamps) ∧
      SameFindings a b values instants (d.byFences now values metric timestamps)
        (d.byFences now values' metric timestamps) ∧
      SameFindings a b values instants (d.detect now values metric timestamps .combined)
        (d.detect now values' metric timestamps .combined) ∧
      d.changePoints values' window = d.changePoints values window := by
  intro values' instants
  refine ⟨?_, ?_, ?_, changePoints_rescale ha d b values window⟩
  · apply sameFindings_of_rescaled _ (byZScore_rescale ha hd)
    intro x hx
    exact mem_zip_of_mem (List.mem_append_left _ hx)
  · apply sameFindings_of_rescaled _ (byFences_rescale ha hd)
    intro x hx
    exact mem_zip_of_mem (List.mem_append_right _ hx)
  · apply sameFindings_of_rescaled _ (combined_rescale ha hd)
    intro x hx
    rw [detect_combined_eq] at hx
    exact mem_zip_of_mem ((firstPerInstant_sublist [] _).subset hx)

/-- Two values, of which the drop becomes a spike and the spike a drop. -/
theorem rescaled_findings_mirror :
    let _ := nearestWhole
    let d : Detector ℝ := ⟨1, 1.5, 2⟩
    let found := d.byZScore .epoch [-1, 1] "latency" none
    let found' := d.byZScore .epoch ([-1, 1].map fun x ↦ -2 * x + 5) "latency" none
    (-2 : ℝ) ≠ 0 ∧ ((-2 : ℝ) < 0 → d.validate = .ok ()) ∧
      found.map (·.kind) = [.drop, .spike] ∧ found'.map (·.kind) = [.spike, .drop] := by
  intro text d found found'
  have ha : (-2 : ℝ) ≠ 0 := by norm_num
  have hd : d.validate = .ok () := by
    rw [validate_eq_ok_iff]
    norm_num [d, PositiveThreshold, Scalar.isFinite]
  obtain ⟨⟨hfound, -⟩, -⟩ :=
    rescaled_findings ha (fun _ ↦ hd) 5 .epoch [-1, 1] "latency" none 1
  have hmean : Stats.mean [-1, 1] = (0 : ℝ) := by
    norm_num [Stats.mean, Stats.sum_eq]
  have hstdDev : Stats.populationStdDev [-1, 1] = (1 : ℝ) := by
    norm_num [Stats.populationStdDev, Stats.populationVariance, Stats.squaredDeviations, hmean,
      Stats.square, Stats.sum_eq, scalar_sqrt]
  have hkinds : found.map (·.kind) = [.drop, .spike] := by
    norm_num [found, byZScore, scorePoint?, resolveTimestamps, List.range_succ, hmean, hstdDev, d,
      isZero_iff, scalar_abs, Anomaly.ofPoint]
    norm_num [List.filterMap_cons]
  have hkinds' : found'.map (·.kind) = (found.map (·.kind)).map (·.mirrored) := by
    rw [List.map_map, ← List.forall₂_eq_eq_eq, List.forall₂_map_left_iff,
      List.forall₂_map_right_iff]
    refine hfound.flip.imp fun y x h ↦ ?_
    rw [h.kind, if_neg (by norm_num), Function.comp_apply]
  refine ⟨ha, fun _ ↦ hd, hkinds, ?_⟩
  rw [hkinds', hkinds]
  rfl

end Detector

end MetricWatch
