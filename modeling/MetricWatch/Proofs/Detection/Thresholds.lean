import MetricWatch.Proofs.Bands
import MetricWatch.Proofs.Comparison.Significance
import MetricWatch.Proofs.Detection.Combined
import MetricWatch.Proofs.Detection.Locality
import MetricWatch.Proofs.Stats.Quartiles
import MetricWatch.Proofs.Validation

namespace MetricWatch

theorem filterMap_sublist_filterMap {β γ : Type} {f g : β → Option γ} {l : List β}
    (h : ∀ b c, g b = some c → f b = some c) : (l.filterMap g).Sublist (l.filterMap f) := by
  induction l with
  | nil => exact .slnil
  | cons b rest ih =>
    rw [List.filterMap_cons, List.filterMap_cons]
    cases hg : g b with
    | none =>
      cases hf : f b with
      | none => exact ih
      | some c => exact ih.cons c
    | some c =>
      rw [h b c hg]
      exact ih.cons_cons c

def Status.rank : Status → Nat
  | normal => 0
  | changed => 1
  | degraded => 2
  | critical => 3
  | noData => 0

theorem Status.rank_le_three (s : Status) : s.rank ≤ 3 := by
  cases s <;> decide

def Anomaly.point {α : Type} [Scalar α] (a : Anomaly α) : α × Instant := (a.actual, a.timestamp)

variable {values : List Binary64} {now t : Instant} {metric : String} {b : Baseline Binary64}
  {timestamps : Option (List Instant)} {mean stdDev v z z' : Binary64} {a : Anomaly Binary64}

theorem not_lt_of_raised (hz : z ≤ z') (h : ¬ v < z') : ¬ v < z :=
  fun hlt ↦ h (Binary64.lt_of_lt_of_le hlt hz)

theorem Baseline.flags_of_raised (hz : z ≤ z') (h : b.Flags z' v) : b.Flags z v :=
  h.imp_left (not_lt_of_raised hz)

namespace SelectsWhere

variable {p q : Binary64 → Prop} [DecidablePred p] [DecidablePred q] {instants : List Instant}
  {found found' : List (Anomaly Binary64)}

theorem sublist (hp : SelectsWhere p values instants found)
    (hq : SelectsWhere q values instants found') (h : ∀ v, p v → q v) :
    (found.map Anomaly.point).Sublist (found'.map Anomaly.point) := by
  rw [show found.map Anomaly.point = _ from selectsWhere_iff.1 hp,
    show found'.map Anomaly.point = _ from selectsWhere_iff.1 hq]
  exact List.monotone_filter_right _ fun point hpoint ↦
    decide_eq_true (h _ (of_decide_eq_true hpoint))

theorem mem_zip (hp : SelectsWhere p values instants found) (ha : a ∈ found) :
    a.point ∈ values.zip instants := by
  have hpoint : a.point ∈ found.map fun a ↦ (a.actual, a.timestamp) := List.mem_map_of_mem ha
  rw [selectsWhere_iff.1 hp] at hpoint
  exact (List.mem_filter.1 hpoint).1

end SelectsWhere

namespace Detector

variable {d : Detector Binary64} {k : Binary64}

theorem byZScore_raised (hz : d.zThreshold ≤ z) :
    (({ d with zThreshold := z } : Detector Binary64).byZScore now values metric timestamps).Sublist
      (d.byZScore now values metric timestamps) := by
  unfold byZScore
  dsimp only
  split
  · exact .slnil
  · refine filterMap_sublist_filterMap fun (v, t) a h ↦ ?_
    unfold scorePoint? at h ⊢
    dsimp only at h ⊢
    split at h
    · cases h
    · rename_i hflagged
      rw [if_neg fun hor ↦ hflagged (hor.imp_left fun hlt ↦ Binary64.lt_of_lt_of_le hlt hz)]
      exact h

theorem againstBaseline_raised (hz : d.zThreshold ≤ z) :
    (({ d with zThreshold := z } : Detector Binary64).againstBaseline now values b
      timestamps).Sublist (d.againstBaseline now values b timestamps) := by
  unfold againstBaseline
  split
  · refine filterMap_sublist_filterMap fun (v, t) a h ↦ ?_
    unfold baselinePoint? at h ⊢
    dsimp only at h ⊢
    split at h
    · rename_i hflags
      rw [if_pos (Baseline.flags_of_raised hz hflags)]
      exact h
    · cases h
  · exact .slnil

theorem changePoints_raised (hz : d.zThreshold ≤ z) (window : Nat) :
    (({ d with zThreshold := z } : Detector Binary64).changePoints values window).Sublist
      (d.changePoints values window) := by
  unfold changePoints changePoints?
  cases (boundaries values window).mapM (windowsAt? values window) with
  | none => exact .slnil
  | some windows =>
    refine filterMap_sublist_filterMap fun (place, before, after) point h ↦ ?_
    obtain ⟨hplace, hshift, hreach⟩ := point?_eq_some_iff.1 h
    exact point?_eq_some_iff.2 ⟨hplace, hshift, Binary64.le_trans hz hreach⟩

theorem fences_raised (hd : PositiveThreshold d.iqrMultiplier) (hk : PositiveThreshold k)
    (hle : d.iqrMultiplier ≤ k) (values : List Binary64) (v : Binary64) :
    let f := d.fences values
    let f' := ({ d with iqrMultiplier := k } : Detector Binary64).fences values
    f'.upper < v ∨ v < f'.lower → f.upper < v ∨ v < f.lower := by
  intro f f'
  cases hiqr : f.iqr.isFinite with
  | true =>
    obtain ⟨hupper, hlower⟩ := Binary64.isFinite_of_sub hiqr
    have hnonneg : (0.0 : Binary64) ≤ f.iqr :=
      Binary64.sub_nonneg hupper hlower (Stats.quartiles_le hlower hupper)
    have hdistance : d.iqrMultiplier * f.iqr ≤ k * f.iqr :=
      Binary64.mul_le_mul_right (Binary64.le_of_lt (zero_lt_of_positive hd)) hle hk.1 hnonneg hiqr
    refine Or.imp (fun h ↦ ?_) fun h ↦ ?_
    · exact Binary64.lt_of_le_of_lt (Binary64.add_le_add_left hupper hdistance) h
    · exact Binary64.lt_of_lt_of_le h (Binary64.sub_le_sub_left hlower hdistance)
  | false =>
    have hsame : k * f.iqr = d.iqrMultiplier * f.iqr :=
      Binary64.mul_of_not_isFinite (zero_lt_of_positive hk) (zero_lt_of_positive hd) hiqr
    have hupper : f'.upper = f.upper := congrArg (f.q3 + ·) hsame
    have hlower : f'.lower = f.lower := congrArg (f.q1 - ·) hsame
    rw [hupper, hlower]
    exact id

theorem byFences_raised (hd : PositiveThreshold d.iqrMultiplier) (hk : PositiveThreshold k)
    (hle : d.iqrMultiplier ≤ k) :
    ((({ d with iqrMultiplier := k } : Detector Binary64).byFences now values metric
      timestamps).map Anomaly.point).Sublist
        ((d.byFences now values metric timestamps).map Anomaly.point) :=
  (selectsWhere_byFences timestamps).sublist (selectsWhere_byFences timestamps) fun v ↦
    And.imp_right (fences_raised hd hk hle values v)

theorem mem_points_combined (h : (resolveTimestamps now values.length timestamps).Nodup)
    {point : Binary64 × Instant} :
    point ∈ (d.detect now values metric timestamps .combined).map Anomaly.point ↔
      point ∈ (d.byZScore now values metric timestamps).map Anomaly.point ∨
        point ∈ (d.byFences now values metric timestamps).map Anomaly.point := by
  rw [detect_combined_of_nodup timestamps h, List.map_append, List.mem_append]
  refine or_congr_right' fun hnot ↦ ⟨fun hmem ↦ ?_, fun hmem ↦ ?_⟩
  · obtain ⟨a, ha, rfl⟩ := List.mem_map.1 hmem
    exact List.mem_map_of_mem (List.mem_filter.1 ha).1
  · obtain ⟨a, ha, rfl⟩ := List.mem_map.1 hmem
    refine List.mem_map_of_mem (List.mem_filter.2 ⟨ha, decide_eq_true fun hinstant ↦ hnot ?_⟩)
    obtain ⟨s, hs, heq⟩ := List.mem_map.1 hinstant
    have hscored : (s.actual, s.timestamp) ∈ _ := (selectsWhere_byZScore timestamps).mem_zip hs
    have hfenced : (a.actual, a.timestamp) ∈ _ := (selectsWhere_byFences timestamps).mem_zip ha
    rw [heq] at hscored
    have hsame : s.point = a.point :=
      Prod.ext (value_eq_of_mem_zip h hscored hfenced) heq
    exact hsame ▸ List.mem_map_of_mem hs

theorem combined_raised (hd : PositiveThreshold d.iqrMultiplier) (hk : PositiveThreshold k)
    (hz : d.zThreshold ≤ z) (hle : d.iqrMultiplier ≤ k)
    (h : (resolveTimestamps now values.length timestamps).Nodup) :
    (({ d with zThreshold := z, iqrMultiplier := k } : Detector Binary64).detect now values metric
      timestamps .combined).map Anomaly.point ⊆
        (d.detect now values metric timestamps .combined).map Anomaly.point := by
  intro point hpoint
  refine (mem_points_combined h).2 (((mem_points_combined h).1 hpoint).imp ?_ ?_)
  · exact fun hmem ↦ ((byZScore_raised hz).map Anomaly.point).subset hmem
  · exact fun hmem ↦ (byFences_raised hd hk hle).subset hmem

end Detector

namespace Comparator

variable {c : Comparator Binary64} {meanChange p99Change : Binary64}

theorem anomalies_raised (hz : c.zThreshold ≤ z) :
    (({ c with zThreshold := z } : Comparator Binary64).anomalies now values b timestamps).Sublist
      (c.anomalies now values b timestamps) := by
  unfold anomalies
  split
  · refine filterMap_sublist_filterMap fun (v, t) a h ↦ ?_
    dsimp only at h ⊢
    rw [point?_eq] at h ⊢
    split at h
    · rename_i hflags
      rw [if_pos (Baseline.flags_of_raised hz hflags)]
      exact h
    · cases h
  · exact .slnil

theorem lt_rate_mono {x : Binary64} {m n p : Nat} (hx : (0.0 : Binary64) < x) (hmn : m ≤ n)
    (hnp : n ≤ p) (h : x < if 0 < p then (m : Binary64) / (p : Binary64) else 0.0) :
    x < if 0 < p then (n : Binary64) / (p : Binary64) else 0.0 := by
  split
  · rename_i hpos
    rw [if_pos hpos] at h
    exact Binary64.lt_ratio_mono hx hmn hnp hpos h
  · rename_i hzero
    rwa [if_neg hzero] at h

theorem rank_statusOf_mono {m n p : Nat} (hmn : m ≤ n) (hnp : n ≤ p) :
    (c.statusOf meanChange p99Change m p).rank ≤ (c.statusOf meanChange p99Change n p).rank := by
  obtain ⟨hpos, hrates⟩ := rates_ordered
  have hdegraded := lt_rate_mono hpos hmn hnp
  have hcritical := lt_rate_mono (Binary64.lt_of_lt_of_le hpos (Binary64.le_of_lt hrates)) hmn hnp
  unfold statusOf
  dsimp only
  generalize (if 0 < p then (m : Binary64) / (p : Binary64) else 0.0) = rate at *
  generalize (if 0 < p then (n : Binary64) / (p : Binary64) else 0.0) = rate' at *
  generalize largestChange meanChange p99Change = largest
  refine rank_ite_le_ite Status.rank (Or.imp_right hcritical) (Status.rank_le_three _)
    (rank_ite_le_ite Status.rank (Or.imp_right hdegraded) ?_ (Nat.le_refl _))
  split <;> decide

theorem compare_raised (hz : c.zThreshold ≤ z) :
    let raised := ({ c with zThreshold := z } : Comparator Binary64).compare now values b timestamps
    let compared := c.compare now values b timestamps
    raised.anomalies.Sublist compared.anomalies ∧ raised.status.rank ≤ compared.status.rank := by
  intro raised compared
  rcases eq_or_ne values [] with rfl | hne
  · exact ⟨List.Sublist.refl _, Nat.le_refl _⟩
  have hsub : raised.anomalies.Sublist compared.anomalies := by
    rw [compare_anomalies hne, compare_anomalies hne]
    exact anomalies_raised hz
  have hmean : raised.meanChange = compared.meanChange := by
    simp [raised, compared, compare, hne]
  have hp99 : raised.p99Change = compared.p99Change := by
    simp [raised, compared, compare, hne]
  have hcount : raised.sampleCount = compared.sampleCount :=
    (compare_sampleCount timestamps).trans (compare_sampleCount timestamps).symm
  refine ⟨hsub, ?_⟩
  rw [compare_status hne, compare_status hne, hmean, hp99, hcount]
  exact rank_statusOf_mono hsub.length_le (length_compare_le timestamps)

end Comparator

/-- The raised settings may leave either threshold as it is. A finding of the combined method may
change from a score to a distance, so that only its point stays. -/
theorem raised_thresholds {d : Detector Binary64} {c : Comparator Binary64} {k zc : Binary64}
    (hd : d.validate = .ok ())
    (hraised :
      ({ d with zThreshold := z, iqrMultiplier := k } : Detector Binary64).validate = .ok ())
    (hz : d.zThreshold ≤ z) (hk : d.iqrMultiplier ≤ k) (hc : c.zThreshold ≤ zc) (now : Instant)
    (values : List Binary64) (metric : String) (b : Baseline Binary64) (window : Nat)
    (timestamps : Option (List Instant)) :
    let raised : Detector Binary64 := { d with zThreshold := z, iqrMultiplier := k }
    let compared := c.compare now values b timestamps
    let comparedRaised :=
      ({ c with zThreshold := zc } : Comparator Binary64).compare now values b timestamps
    (raised.byZScore now values metric timestamps).Sublist
        (d.byZScore now values metric timestamps) ∧
      (raised.againstBaseline now values b timestamps).Sublist
        (d.againstBaseline now values b timestamps) ∧
      (raised.changePoints values window).Sublist (d.changePoints values window) ∧
      comparedRaised.anomalies.Sublist compared.anomalies ∧
      comparedRaised.status.rank ≤ compared.status.rank ∧
      ((raised.byFences now values metric timestamps).map Anomaly.point).Sublist
        ((d.byFences now values metric timestamps).map Anomaly.point) ∧
      ((resolveTimestamps now values.length timestamps).Nodup →
        (raised.detect now values metric timestamps .combined).map Anomaly.point ⊆
          (d.detect now values metric timestamps .combined).map Anomaly.point) := by
  intro raised compared comparedRaised
  obtain ⟨-, hpositive, -⟩ := Detector.validate_eq_ok_iff.1 hd
  obtain ⟨-, hpositive', -⟩ := Detector.validate_eq_ok_iff.1 hraised
  obtain ⟨hanomalies, hstatus⟩ := Comparator.compare_raised hc
  exact ⟨Detector.byZScore_raised hz, Detector.againstBaseline_raised hz,
    Detector.changePoints_raised hz window, hanomalies, hstatus,
    Detector.byFences_raised hpositive hpositive' hk,
    Detector.combined_raised hpositive hpositive' hz hk⟩

theorem raised_thresholds_spike :
    let d : Detector Binary64 := .standard
    let raised : Detector Binary64 := { d with zThreshold := 3.5, iqrMultiplier := 3.0 }
    let values : List Binary64 := List.replicate 10 1.0 ++ [100.0]
    (d.byZScore .epoch values "latency" none).length = 1 ∧
      raised.byZScore .epoch values "latency" none = [] ∧
      (raised.detect .epoch values "latency" none .combined).map Anomaly.point ⊆
        (d.detect .epoch values "latency" none .combined).map Anomaly.point := by
  intro d raised values
  have hd : d.validate = .ok () := Detector.validate_eq_ok_iff.2 (by decide +kernel)
  have hraised : raised.validate = .ok () := Detector.validate_eq_ok_iff.2 (by decide +kernel)
  have hdistinct : (resolveTimestamps .epoch values.length none).Nodup :=
    nodup_resolveTimestamps (by decide +kernel)
  obtain ⟨-, -, -, -, -, -, hcombined⟩ := raised_thresholds hd hraised (by decide +kernel)
    (by decide +kernel) (by decide +kernel : Comparator.standard.zThreshold ≤ (3.0 : Binary64))
    .epoch values "latency" (Baseline.empty .epoch "latency" 7) 10 none
  exact ⟨by decide +kernel, List.length_eq_zero_iff.1 (by decide +kernel), hcombined hdistinct⟩

end MetricWatch
