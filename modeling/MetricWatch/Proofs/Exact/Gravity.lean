import Mathlib.Algebra.Order.Group.Pointwise.Interval
import MetricWatch.Proofs.Bands
import MetricWatch.Proofs.Detection.Thresholds
import MetricWatch.Proofs.Exact.Summary
import MetricWatch.Proofs.Regression.Verdict

namespace MetricWatch

open Exact

variable {x y c : ℝ} {centres : List ℝ}

def SameSide (centres : List ℝ) (x y : ℝ) : Prop :=
  (∀ c ∈ centres, c ≤ x ∧ c ≤ y) ∨ ∀ c ∈ centres, x ≤ c ∧ y ≤ c

theorem SameSide.outer (h : SameSide centres x y) (hc : c ∈ centres)
    (hfar : |x - c| ≤ |y - c|) :
    (∀ c ∈ centres, c ≤ x ∧ x ≤ y) ∨ ∀ c ∈ centres, y ≤ x ∧ x ≤ c := by
  rcases h with h | h
  · obtain ⟨hx, hy⟩ := h c hc
    rw [abs_of_nonneg (sub_nonneg.2 hx), abs_of_nonneg (sub_nonneg.2 hy),
      sub_le_sub_iff_right] at hfar
    exact .inl fun c hc ↦ ⟨(h c hc).1, hfar⟩
  · obtain ⟨hx, hy⟩ := h c hc
    rw [abs_of_nonpos (sub_nonpos.2 hx), abs_of_nonpos (sub_nonpos.2 hy), neg_le_neg_iff,
      sub_le_sub_iff_right] at hfar
    exact .inr fun c hc ↦ ⟨hfar, (h c hc).1⟩

theorem SameSide.farther (h : SameSide centres x y) (hc : c ∈ centres)
    (hfar : |x - c| ≤ |y - c|) : ∀ c ∈ centres, |x - c| ≤ |y - c| := by
  intro c' hc'
  rcases h.outer hc hfar with h | h
  · obtain ⟨hx, hxy⟩ := h c' hc'
    exact Set.abs_sub_left_of_mem_uIcc (Set.mem_uIcc.2 (.inl ⟨hx, hxy⟩))
  · obtain ⟨hyx, hx⟩ := h c' hc'
    exact Set.abs_sub_left_of_mem_uIcc (Set.mem_uIcc.2 (.inr ⟨hyx, hx⟩))

namespace Severity

noncomputable def inBands (critical high medium low size : ℝ) : Severity :=
  if critical ≤ size then .critical
  else if high ≤ size then .high
  else if medium ≤ size then .medium
  else if low ≤ size then .low
  else .info

theorem inBands_mono (critical high medium low : ℝ) (h : x ≤ y) :
    inBands critical high medium low x ≤ inBands critical high medium low y := by
  have hreached (limit : ℝ) (hx : limit ≤ x) : limit ≤ y := hx.trans h
  unfold inBands
  refine ite_le_ite (hreached _) (le_critical _) (ite_le_ite (hreached _) ?_
    (ite_le_ite (hreached _) ?_ (ite_le_ite (hreached _) ?_ ?_)))
  · split_ifs <;> decide
  · split_ifs <;> decide
  · decide
  · decide

theorem ofZScore_mono (h : |x| ≤ |y|) : ofZScore x ≤ ofZScore y := inBands_mono 5.0 4.0 3.0 2.0 h

theorem ofFenceDistance_mono (h : x ≤ y) : ofFenceDistance x ≤ ofFenceDistance y :=
  inBands_mono 3.0 2.0 1.5 1.0 h

theorem severityOf_mono (c : Comparator ℝ) (h : |x| ≤ |y|) : c.severityOf x ≤ c.severityOf y :=
  inBands_mono c.critical c.high c.significance (c.significance / 2.0) h

end Severity

theorem Confidence.saturate_smaller_mono (limit : ℝ) (h : x ≤ y) :
    (saturate (Scalar.smaller x limit)).value ≤ (saturate (Scalar.smaller y limit)).value := by
  rw [Gate.saturate_value le_rfl, Gate.saturate_value le_rfl, smaller_eq_min, smaller_eq_min]
  exact clamp_mono (by norm_num) (min_le_min_right limit h)

theorem Detector.scoreConfidence_mono (h : |x| ≤ |y|) :
    (scoreConfidence x).value ≤ (scoreConfidence y).value := by
  apply Confidence.saturate_smaller_mono
  rw [scalar_exp, scalar_exp, scalar_abs, scalar_abs, sub_le_sub_iff_left, Real.exp_le_exp]
  linarith

theorem abs_score_le (spread : ℝ) (h : |x - c| ≤ |y - c|) :
    |(x - c) / spread| ≤ |(y - c) / spread| := by
  rw [abs_div, abs_div]
  gcongr

theorem Baseline.abs_zScore_le (b : Baseline ℝ) (h : |x - b.mean| ≤ |y - b.mean|) :
    |b.zScore x| ≤ |b.zScore y| := by
  unfold zScore
  split
  · exact abs_score_le b.stdDev h
  · exact le_rfl

theorem Stats.abs_changePercent_le (h : |x - c| ≤ |y - c|) :
    |changePercent c x| ≤ |changePercent c y| := by
  unfold changePercent
  simp only [isZero_iff]
  split
  · rename_i hc
    rw [hc, sub_zero, sub_zero] at h
    split
    · rw [zero_literal, abs_zero]
      exact abs_nonneg _
    · rename_i hx
      have hy : y ≠ 0 := abs_pos.1 ((abs_pos.2 hx).trans_le h)
      rw [if_neg hy]
  · rw [abs_mul, abs_mul]
    exact mul_le_mul_of_nonneg_right (abs_score_le |c| h) (abs_nonneg _)

namespace Detector.Fences

variable {f : Fences ℝ} {kind kind' : AnomalyKind} {excess excess' : ℝ}

theorem excess?_above (hx : f.lower ≤ x) (h : f.excess? x = some (kind, excess)) :
    excess = x - f.upper := by
  unfold excess? at h
  split_ifs at h with habove hbelow
  · exact (congrArg Prod.snd (Option.some.inj h)).symm
  · exact absurd hbelow (not_lt.2 hx)

theorem excess?_below (hx : x ≤ f.upper) (h : f.excess? x = some (kind, excess)) :
    excess = f.lower - x := by
  unfold excess? at h
  split_ifs at h with habove hbelow
  · exact absurd habove (not_lt.2 hx)
  · exact (congrArg Prod.snd (Option.some.inj h)).symm

theorem inRanges_mono (h : x ≤ y) : f.inRanges x ≤ f.inRanges y := by
  unfold inRanges
  split
  · rename_i hiqr
    rw [zero_literal] at hiqr
    gcongr
  · exact le_rfl

end Detector.Fences

/-- The one finding is neither graver nor surer than the other. -/
def Anomaly.NoGraver (a a' : Anomaly ℝ) : Prop :=
  a.severity ≤ a'.severity ∧ a.confidence.value ≤ a'.confidence.value

/-- Of two findings on one side of the centres the farther one is no less grave and no less sure. -/
def GrowsFrom (centres : List ℝ) (found : List (Anomaly ℝ)) : Prop :=
  ∀ a ∈ found, ∀ a' ∈ found, SameSide centres a.actual a'.actual →
    (∃ c ∈ centres, |a.actual - c| ≤ |a'.actual - c|) → a.NoGraver a'

section Findings

variable [NumberText ℝ] {d : Detector ℝ} {now : Instant} {values : List ℝ} {metric : String}
  {timestamps : Option (List Instant)} {b : Baseline ℝ} {k : Comparator ℝ} {a a' : Anomaly ℝ}

theorem Detector.noGraver_byZScore (ha : a ∈ d.byZScore now values metric timestamps)
    (ha' : a' ∈ d.byZScore now values metric timestamps)
    (hfar : |a.actual - Stats.mean values| ≤ |a'.actual - Stats.mean values|) : a.NoGraver a' := by
  obtain ⟨v, t, hfind⟩ := find_of_mem_byZScore ha
  obtain ⟨v', t', hfind'⟩ := find_of_mem_byZScore ha'
  obtain ⟨hactual, -⟩ := scorePoint?_eq_some hfind
  obtain ⟨hactual', -⟩ := scorePoint?_eq_some hfind'
  obtain ⟨hseverity, hconfidence⟩ := scorePoint?_grade hfind
  obtain ⟨hseverity', hconfidence'⟩ := scorePoint?_grade hfind'
  rw [hactual, hactual'] at hfar
  have hscore := abs_score_le (Stats.populationStdDev values) hfar
  rw [Anomaly.NoGraver, hseverity, hseverity', hconfidence, hconfidence']
  exact ⟨Severity.ofZScore_mono hscore, scoreConfidence_mono hscore⟩

theorem Detector.growsFrom_byFences (hd : d.validate = .ok ()) :
    GrowsFrom [(d.fences values).median] (d.byFences now values metric timestamps) := by
  intro a ha a' ha' hside ⟨c, hc, hfar⟩
  obtain ⟨v, t, hfind⟩ := find_of_mem_byFences ha
  obtain ⟨v', t', hfind'⟩ := find_of_mem_byFences ha'
  obtain ⟨rfl, -⟩ := Fences.point?_eq_some hfind
  obtain ⟨rfl, -⟩ := Fences.point?_eq_some hfind'
  obtain ⟨kind, excess, hexcess, hseverity, hconfidence⟩ := Fences.point?_grade hfind
  obtain ⟨kind', excess', hexcess', hseverity', hconfidence'⟩ := Fences.point?_grade hfind'
  obtain ⟨⟨hlower, hq1, hq3, hupper⟩, -⟩ := fences_ordered hd values
  have hmedian : (d.fences values).lower ≤ (d.fences values).median ∧
      (d.fences values).median ≤ (d.fences values).upper := ⟨hlower.trans hq1, hq3.trans hupper⟩
  have hmono : excess ≤ excess' := by
    rcases hside.outer hc hfar with h | h
    · obtain ⟨hx, hxy⟩ := h _ (List.mem_singleton_self _)
      rw [Fences.excess?_above (hmedian.1.trans hx) hexcess,
        Fences.excess?_above (hmedian.1.trans (hx.trans hxy)) hexcess']
      exact sub_le_sub_right hxy _
    · obtain ⟨hyx, hx⟩ := h _ (List.mem_singleton_self _)
      rw [Fences.excess?_below (hx.trans hmedian.2) hexcess,
        Fences.excess?_below (hyx.trans (hx.trans hmedian.2)) hexcess']
      exact sub_le_sub_left hyx _
  have hranges := Fences.inRanges_mono (f := d.fences values) hmono
  rw [Anomaly.NoGraver, hseverity, hseverity', hconfidence, hconfidence']
  refine ⟨Severity.ofFenceDistance_mono hranges, Confidence.saturate_smaller_mono _ ?_⟩
  linarith

theorem Detector.noGraver_againstBaseline (ha : a ∈ d.againstBaseline now values b timestamps)
    (ha' : a' ∈ d.againstBaseline now values b timestamps)
    (hmean : |a.actual - b.mean| ≤ |a'.actual - b.mean|)
    (hmedian : |a.actual - b.median| ≤ |a'.actual - b.median|) : a.NoGraver a' := by
  obtain ⟨hb, v, t, hfind⟩ := find_of_mem_againstBaseline ha
  obtain ⟨-, v', t', hfind'⟩ := find_of_mem_againstBaseline ha'
  obtain ⟨rfl, -⟩ := baselinePoint?_eq_some hfind
  obtain ⟨rfl, -⟩ := baselinePoint?_eq_some hfind'
  obtain ⟨hseverity, hconfidence⟩ := baselinePoint?_grade hfind
  obtain ⟨hseverity', hconfidence'⟩ := baselinePoint?_grade hfind'
  have hscore := b.abs_zScore_le hmean
  rw [Anomaly.NoGraver, hseverity, hseverity', hconfidence, hconfidence']
  refine ⟨Severity.graver_le_graver (Severity.ofZScore_mono hscore)
    (Severity.ofFenceDistance_mono ?_), scoreConfidence_mono hscore⟩
  split
  · rename_i hiqr
    rw [zero_literal] at hiqr
    exact div_le_div_of_nonneg_right hmedian hiqr.le
  · exact le_rfl

theorem Comparator.noGraver_compare (ha : a ∈ (k.compare now values b timestamps).anomalies)
    (ha' : a' ∈ (k.compare now values b timestamps).anomalies)
    (hmean : |a.actual - b.mean| ≤ |a'.actual - b.mean|) : a.NoGraver a' := by
  obtain ⟨-, v, t, hfind⟩ := find_of_mem_compare ha
  obtain ⟨-, v', t', hfind'⟩ := find_of_mem_compare ha'
  obtain ⟨rfl, -⟩ := point?_eq_some hfind
  obtain ⟨rfl, -⟩ := point?_eq_some hfind'
  obtain ⟨-, hseverity, hconfidence⟩ := point?_grade hfind
  obtain ⟨-, hseverity', hconfidence'⟩ := point?_grade hfind'
  rw [Anomaly.NoGraver, hseverity, hseverity', hconfidence, hconfidence']
  refine ⟨Severity.severityOf_mono k (Stats.abs_changePercent_le hmean),
    Confidence.saturate_smaller_mono _ ?_⟩
  exact div_le_div_of_nonneg_right (b.abs_zScore_le hmean) (by norm_num)

end Findings

namespace Comparator

variable {k : Comparator ℝ} {meanChange meanChange' p99Change p99Change' : ℝ} {i j n : ℕ}

theorem rank_statusOf_le (hmean : |meanChange| ≤ |meanChange'|) (hp99 : |p99Change| ≤ |p99Change'|)
    (hcount : i ≤ j) :
    (k.statusOf meanChange p99Change i n).rank ≤ (k.statusOf meanChange' p99Change' j n).rank := by
  have hlargest : largestChange meanChange p99Change ≤ largestChange meanChange' p99Change' := by
    rw [largestChange, largestChange, larger_eq_max, larger_eq_max]
    exact max_le_max hmean hp99
  have hrate : (if 0 < n then (i : ℝ) / n else 0.0) ≤ if 0 < n then (j : ℝ) / n else 0.0 := by
    split
    · gcongr
    · exact le_rfl
  have hreached (limit : ℝ) : limit ≤ largestChange meanChange p99Change →
      limit ≤ largestChange meanChange' p99Change' := fun h ↦ h.trans hlargest
  unfold statusOf
  refine rank_ite_le_ite Status.rank (Or.imp (hreached _) hrate.trans_lt') (Status.rank_le_three _)
    (rank_ite_le_ite Status.rank (Or.imp (hreached _) hrate.trans_lt') ?_
      (rank_ite_le_ite Status.rank (hreached _) ?_ (Nat.le_refl _)))
  · split <;> decide
  · decide

theorem rank_status_le [NumberText ℝ] {now now' : Instant} {values values' : List ℝ}
    {b b' : Baseline ℝ} {timestamps timestamps' : Option (List Instant)} :
    let r := k.compare now values b timestamps
    let r' := k.compare now' values' b' timestamps'
    r.sampleCount = r'.sampleCount → |r.meanChange| ≤ |r'.meanChange| →
      |r.p99Change| ≤ |r'.p99Change| → r.anomalies.length ≤ r'.anomalies.length →
        r.status.rank ≤ r'.status.rank := by
  intro r r' hsamples hmean hp99 hcount
  have hlength : values.length = values'.length := by
    rw [← compare_sampleCount timestamps, ← compare_sampleCount timestamps']
    exact hsamples
  rcases eq_or_ne values [] with rfl | hne
  · exact Nat.zero_le _
  · have hne' : values' ≠ [] := by
      rintro rfl
      exact hne (List.length_eq_zero_iff.1 hlength)
    rw [compare_status hne, compare_status hne', ← hsamples]
    exact rank_statusOf_le hmean hp99 hcount

end Comparator

/-- The farther one of two findings is no less grave and no less sure, each method by its own
centres; and a status is none the milder for larger changes or more findings. Of the comparator no
order of the thresholds is asked. -/
theorem gravity_grows [NumberText ℝ] (d : Detector ℝ) (hd : d.validate = .ok ())
    (k : Comparator ℝ) :
    (∀ now values metric timestamps,
      GrowsFrom [Stats.mean values] (d.byZScore now values metric timestamps) ∧
        GrowsFrom [Stats.median (Stats.sorted values)] (d.byFences now values metric timestamps)) ∧
      (∀ now values b timestamps,
        GrowsFrom [b.mean] (k.compare now values b timestamps).anomalies ∧
          GrowsFrom [b.mean, b.median] (d.againstBaseline now values b timestamps) ∧
          ∀ a ∈ d.againstBaseline now values b timestamps,
            ∀ a' ∈ d.againstBaseline now values b timestamps,
              |a.actual - b.mean| ≤ |a'.actual - b.mean| →
                |a.actual - b.median| ≤ |a'.actual - b.median| → a.NoGraver a') ∧
      (∀ meanChange meanChange' p99Change p99Change' i j n, |meanChange| ≤ |meanChange'| →
        |p99Change| ≤ |p99Change'| → i ≤ j →
          (k.statusOf meanChange p99Change i n).rank ≤
            (k.statusOf meanChange' p99Change' j n).rank) ∧
      ∀ now now' values values' b b' timestamps timestamps',
        let r := k.compare now values b timestamps
        let r' := k.compare now' values' b' timestamps'
        r.sampleCount = r'.sampleCount → |r.meanChange| ≤ |r'.meanChange| →
          |r.p99Change| ≤ |r'.p99Change| → r.anomalies.length ≤ r'.anomalies.length →
            r.status.rank ≤ r'.status.rank := by
  refine ⟨fun now values metric timestamps ↦ ⟨?_, Detector.growsFrom_byFences hd⟩,
    fun now values b timestamps ↦ ⟨?_, ?_, fun a ha a' ha' ↦
      Detector.noGraver_againstBaseline ha ha'⟩,
    fun _ _ _ _ _ _ _ ↦ Comparator.rank_statusOf_le, fun _ _ _ _ _ _ _ _ ↦
      Comparator.rank_status_le⟩
  · intro a ha a' ha' hside ⟨c, hc, hfar⟩
    exact Detector.noGraver_byZScore ha ha' (hside.farther hc hfar _ List.mem_cons_self)
  · intro a ha a' ha' hside ⟨c, hc, hfar⟩
    exact Comparator.noGraver_compare ha ha' (hside.farther hc hfar _ List.mem_cons_self)
  · intro a ha a' ha' hside ⟨c, hc, hfar⟩
    have hboth := hside.farther hc hfar
    exact Detector.noGraver_againstBaseline ha ha' (hboth _ List.mem_cons_self)
      (hboth _ (List.mem_cons_of_mem _ List.mem_cons_self))

/-- Two values above both centres of a baseline, and a comparator whose threshold of significance is
the highest of all. -/
theorem gravity_grows_above :
    let _ := nearestWhole
    let d : Detector ℝ := .standard
    let k : Comparator ℝ := { Comparator.standard with significance := 60 }
    let b : Baseline ℝ := { Baseline.empty .epoch "latency" 7 with
      sampleCount := 10, mean := 1, median := 2, stdDev := 1, iqr := 1
      lowerFence := -2, upperFence := 2 }
    d.validate = .ok () ∧ k.validate = .ok () ∧
      (∃ a ∈ d.againstBaseline .epoch [3, 9] b none,
        ∃ a' ∈ d.againstBaseline .epoch [3, 9] b none,
          (a.actual = 3 ∧ a'.actual = 9) ∧ SameSide [b.mean, b.median] a.actual a'.actual ∧
            (a.severity = .low ∧ a'.severity = .critical) ∧ a.NoGraver a') ∧
      (k.statusOf 5 (-30) 0 10).rank ≤ (k.statusOf (-40) 55 2 10).rank := by
  intro text d k b
  have hd : d.validate = .ok () := Detector.validate_standard
  have hk : k.validate = .ok () := by
    rw [Comparator.validate_eq_ok_iff]
    norm_num [k, Comparator.standard, Comparator.thresholds, PositiveThreshold, Scalar.isFinite]
  have hb : b.Valid := ⟨Nat.le_refl 10, by norm_num [b]⟩
  obtain ⟨-, hbaseline, hstatus, -⟩ := gravity_grows d hd k
  obtain ⟨-, hgrows, -⟩ := hbaseline .epoch [3, 9] b none
  have hfound (v : ℝ) (t : Instant)
      (hpoint : (v, t) ∈ [3, 9].zip (resolveTimestamps .epoch 2 none))
      (hv : 2 < v) : ∃ a ∈ d.againstBaseline .epoch [3, 9] b none, a.actual = v := by
    obtain ⟨a, ha, hactual, -⟩ := (Detector.selectsWhere_againstBaseline none).exists_mem_iff.2
      ⟨hpoint, hb, .inr (.inr hv)⟩
    exact ⟨a, ha, hactual⟩
  have hseverity (a : Anomaly ℝ) (ha : a ∈ d.againstBaseline .epoch [3, 9] b none) :
      a.severity = (Severity.ofZScore (b.zScore a.actual)).graver (.ofFenceDistance
        (if 0.0 < b.iqr then Scalar.abs (a.actual - b.median) / b.iqr else 0.0)) := by
    obtain ⟨-, v, t, hfind⟩ := Detector.find_of_mem_againstBaseline ha
    obtain ⟨rfl, -⟩ := Detector.baselinePoint?_eq_some hfind
    exact (Detector.baselinePoint?_grade hfind).1
  obtain ⟨a, ha, hactual⟩ := hfound 3 _ List.mem_cons_self (by norm_num)
  obtain ⟨a', ha', hactual'⟩ := hfound 9 _ (List.mem_cons_of_mem _ List.mem_cons_self) (by norm_num)
  have hside : SameSide [b.mean, b.median] a.actual a'.actual := by
    left
    norm_num [hactual, hactual', b]
  refine ⟨hd, hk, ⟨a, ha, a', ha', ⟨hactual, hactual'⟩, hside, ⟨?_, ?_⟩,
    hgrows a ha a' ha' hside ?_⟩, ?_⟩
  · rw [hseverity a ha, hactual]
    norm_num [b, Baseline.zScore, Severity.ofZScore, Severity.ofFenceDistance, scalar_abs,
      Severity.graver, abs_of_pos]
  · rw [hseverity a' ha', hactual']
    norm_num [b, Baseline.zScore, Severity.ofZScore, Severity.ofFenceDistance, scalar_abs,
      Severity.graver, abs_of_pos]
  · refine ⟨b.mean, List.mem_cons_self, ?_⟩
    norm_num [hactual, hactual', b, abs_of_pos]
  · exact hstatus _ _ _ _ _ _ _ (by norm_num [abs_of_pos, abs_of_neg])
      (by norm_num [abs_of_pos, abs_of_neg]) (by decide)

end MetricWatch
