import Mathlib.Data.List.Perm.Subperm
import Mathlib.Data.List.Sort
import MetricWatch.Comparator
import MetricWatch.Proofs.Detection.Points

namespace MetricWatch

variable {α : Type} [Scalar α] {values : List α} {timestamps : List Instant}
  {found : List (Anomaly α)} {a : Anomaly α}

/-- The findings are at some of the points of a series, which ends with the shorter list. -/
def Selects (values : List α) (timestamps : List Instant) (found : List (Anomaly α)) : Prop :=
  ∃ indices : List (Fin (min values.length timestamps.length)), indices.Pairwise (· < ·) ∧
    found.map (fun a ↦ (a.actual, a.timestamp)) = indices.map fun i ↦ (values[i], timestamps[i])

namespace Selects

theorem timestamps_sublist (h : Selects values timestamps found) :
    (found.map (·.timestamp)).Sublist (timestamps.take values.length) := by
  obtain ⟨indices, hsorted, heq⟩ := h
  have htimestamps := congrArg (List.map Prod.snd) heq
  simp only [List.map_map, Function.comp_def] at htimestamps
  have hsub := List.map_getElem_sublist (l := timestamps.take values.length)
    (hsorted.map (Fin.cast List.length_take.symm) fun i j h ↦ h)
  simpa [List.map_map, Function.comp_def, htimestamps] using hsub

theorem length_le (h : Selects values timestamps found) :
    found.length ≤ min values.length timestamps.length := by
  have hlen := h.timestamps_sublist.length_le
  rwa [List.length_map, List.length_take] at hlen

end Selects

section Where

variable {p : α → Prop} [DecidablePred p]

/-- The findings are at those points of a series whose values have a property, in the order of the
points. -/
def SelectsWhere (p : α → Prop) [DecidablePred p] (values : List α) (timestamps : List Instant)
    (found : List (Anomaly α)) : Prop :=
  found.map (fun a ↦ (a.actual, a.timestamp)) =
    ((List.finRange (min values.length timestamps.length)).filter fun i ↦ p values[i]).map
      fun i ↦ (values[i], timestamps[i])

omit [Scalar α] in
theorem zip_eq_map_finRange : values.zip timestamps =
    (List.finRange (min values.length timestamps.length)).map
      fun i ↦ (values[i], timestamps[i]) := by
  apply List.ext_getElem
  · simp
  · intro i hi hi'
    simp

theorem selectsWhere_iff : SelectsWhere p values timestamps found ↔
    found.map (fun a ↦ (a.actual, a.timestamp)) =
      (values.zip timestamps).filter fun (v, _) ↦ p v := by
  rw [SelectsWhere, zip_eq_map_finRange, List.filter_map]
  rfl

theorem selectsWhere_filterMap (find? : α → Instant → Option (Anomaly α))
    (hfind : ∀ {v t a}, find? v t = some a → a.actual = v ∧ a.timestamp = t)
    (hp : ∀ v t, (find? v t).isSome = true ↔ p v) :
    SelectsWhere p values timestamps
      ((values.zip timestamps).filterMap fun (v, t) ↦ find? v t) := by
  rw [selectsWhere_iff]
  induction values.zip timestamps with
  | nil => rfl
  | cons point rest ih =>
    obtain ⟨v, t⟩ := point
    rw [List.filterMap_cons, List.filter_cons]
    cases h : find? v t with
    | none =>
      have hv : ¬ p v := fun hv ↦ by simpa [h] using (hp v t).2 hv
      simpa only [h, decide_eq_true_eq, if_neg hv] using ih
    | some a =>
      have hv : p v := (hp v t).1 (Option.isSome_of_eq_some h)
      obtain ⟨rfl, rfl⟩ := hfind h
      simp only [h, decide_eq_true_eq, if_pos hv, List.map_cons]
      rw [ih]

theorem selectsWhere_guarded {g : Prop} [Decidable g] (find? : α → Instant → Option (Anomaly α))
    (hfind : ∀ {v t a}, find? v t = some a → a.actual = v ∧ a.timestamp = t)
    (hp : ∀ v t, (find? v t).isSome = true ↔ p v) :
    SelectsWhere (fun v ↦ g ∧ p v) values timestamps
      (if g then (values.zip timestamps).filterMap fun (v, t) ↦ find? v t else []) := by
  split
  · rename_i hg
    exact selectsWhere_filterMap find? hfind fun v t ↦ (hp v t).trans (and_iff_right hg).symm
  · rename_i hg
    simp [selectsWhere_iff, hg]

namespace SelectsWhere

theorem congr {q : α → Prop} [DecidablePred q] (h : SelectsWhere p values timestamps found)
    (hpq : ∀ v ∈ values, p v ↔ q v) : SelectsWhere q values timestamps found := by
  rw [SelectsWhere] at h ⊢
  rw [h]
  congr 1
  refine List.filter_congr fun i _ ↦ ?_
  exact decide_eq_decide.2 (hpq _ (List.getElem_mem _))

theorem of_guard {g : Prop} [Decidable g]
    (h : SelectsWhere (fun v ↦ g ∧ p v) values timestamps found) (hg : g) :
    SelectsWhere p values timestamps found := h.congr fun _ _ ↦ and_iff_right hg

theorem selects (h : SelectsWhere p values timestamps found) :
    Selects values timestamps found :=
  ⟨_, (List.sortedLT_finRange _).pairwise.filter _, h⟩

theorem eq_nil (h : SelectsWhere p values timestamps found)
    (hp : ∀ v ∈ values, ¬ p v) : found = [] := by
  have hnone : ((values.zip timestamps).filter fun (v, _) ↦ p v) = [] := by
    refine List.filter_eq_nil_iff.2 fun point hmem ↦ ?_
    simpa using hp _ (List.of_mem_zip hmem).1
  exact List.map_eq_nil_iff.1 ((selectsWhere_iff.1 h).trans hnone)

theorem length_eq (h : SelectsWhere p values timestamps found)
    (hlen : values.length ≤ timestamps.length) : found.length = values.countP fun v ↦ p v := by
  have hcount := congrArg List.length (selectsWhere_iff.1 h)
  rw [List.length_map, ← List.countP_eq_length_filter] at hcount
  conv_rhs => rw [← List.map_fst_zip hlen, List.countP_map]
  exact hcount

theorem actuals_sublist (h : SelectsWhere p values timestamps found) :
    (found.map (·.actual)).Sublist (values.filter fun v ↦ p v) := by
  have hactuals := congrArg (List.map Prod.fst) (selectsWhere_iff.1 h)
  rw [List.map_map] at hactuals
  have hzip : ((values.zip timestamps).map Prod.fst).Sublist values := by
    rw [List.zip_eq_zip_take_min, List.map_fst_zip (by simp)]
    exact List.take_sublist _ values
  have hsub := hzip.filter fun v ↦ decide (p v)
  rw [List.filter_map] at hsub
  exact hactuals ▸ hsub

theorem exists_mem_iff (h : SelectsWhere p values timestamps found) {v : α} {t : Instant} :
    (∃ a ∈ found, a.actual = v ∧ a.timestamp = t) ↔ (v, t) ∈ values.zip timestamps ∧ p v := by
  have hpoint : (∃ a ∈ found, a.actual = v ∧ a.timestamp = t) ↔
      (v, t) ∈ found.map fun a ↦ (a.actual, a.timestamp) := by
    simp only [List.mem_map, Prod.mk.injEq]
  rw [hpoint, selectsWhere_iff.1 h, List.mem_filter, decide_eq_true_eq]

end SelectsWhere

end Where

variable [NumberText α] {now : Instant} {metric : String} {b : Baseline α}

namespace Detector

variable {d : Detector α}

theorem selectsWhere_byZScore (timestamps : Option (List Instant)) :
    SelectsWhere
      (fun v ↦ (d.minSampleSize ≤ values.length ∧
          ¬ Scalar.IsZero (Stats.populationStdDev values)) ∧
        ¬ Scalar.abs (ownScore values v) < d.zThreshold ∧ Scalar.IsNumber (ownScore values v))
      values (resolveTimestamps now values.length timestamps)
      (d.byZScore now values metric timestamps) := by
  have hguard : ¬ (values.length < d.minSampleSize ∨
      Scalar.IsZero (Stats.populationStdDev values)) ↔
        d.minSampleSize ≤ values.length ∧ ¬ Scalar.IsZero (Stats.populationStdDev values) := by
    rw [not_or, Nat.not_lt]
  rw [byZScore, ← ite_not]
  simp only [hguard]
  exact selectsWhere_guarded (d.scorePoint? now metric _ _)
    (fun h ↦ ⟨(scorePoint?_eq_some h).1, (scorePoint?_eq_some h).2.1⟩)
    fun _ _ ↦ scorePoint?_isSome

theorem selectsWhere_byFences (timestamps : Option (List Instant)) :
    SelectsWhere
      (fun v ↦ d.minSampleSize ≤ values.length ∧
        ((d.fences values).upper < v ∨ v < (d.fences values).lower))
      values (resolveTimestamps now values.length timestamps)
      (d.byFences now values metric timestamps) := by
  rw [byFences, ← ite_not]
  simp only [Nat.not_lt]
  exact selectsWhere_guarded ((d.fences values).point? now metric)
    (fun h ↦ ⟨(Fences.point?_eq_some h).1, (Fences.point?_eq_some h).2.1⟩)
    fun _ _ ↦ Fences.point?_isSome

theorem selectsWhere_againstBaseline (timestamps : Option (List Instant)) :
    SelectsWhere (fun v ↦ b.Valid ∧ b.Flags d.zThreshold v) values
      (resolveTimestamps now values.length timestamps)
      (d.againstBaseline now values b timestamps) :=
  selectsWhere_guarded (d.baselinePoint? now b)
    (fun h ↦ ⟨(baselinePoint?_eq_some h).1, (baselinePoint?_eq_some h).2.1⟩)
    fun _ _ ↦ baselinePoint?_isSome

theorem selects_byZScore (timestamps : Option (List Instant)) :
    Selects values (resolveTimestamps now values.length timestamps)
      (d.byZScore now values metric timestamps) := (selectsWhere_byZScore timestamps).selects

theorem selects_byFences (timestamps : Option (List Instant)) :
    Selects values (resolveTimestamps now values.length timestamps)
      (d.byFences now values metric timestamps) := (selectsWhere_byFences timestamps).selects

theorem selects_againstBaseline (timestamps : Option (List Instant)) :
    Selects values (resolveTimestamps now values.length timestamps)
      (d.againstBaseline now values b timestamps) :=
  (selectsWhere_againstBaseline timestamps).selects

theorem length_againstBaseline (d : Detector α) (now : Instant) (values : List α) (hb : b.Valid)
    {timestamps : Option (List Instant)}
    (hlen : values.length ≤ (resolveTimestamps now values.length timestamps).length) :
    (d.againstBaseline now values b timestamps).length =
      values.countP fun v ↦ b.Flags d.zThreshold v :=
  ((selectsWhere_againstBaseline timestamps).of_guard hb).length_eq hlen

theorem timestamps_points_subset (d : Detector α) (now : Instant) (values : List α)
    (metric : String) (resolved : List Instant) :
    (d.byZScore now values metric (some resolved) ++
      d.byFences now values metric (some resolved)).map (·.timestamp) ⊆
        resolved.take values.length := by
  have hscore : Selects values resolved (d.byZScore now values metric (some resolved)) :=
    selects_byZScore (some resolved)
  have hfences : Selects values resolved (d.byFences now values metric (some resolved)) :=
    selects_byFences (some resolved)
  rw [List.map_append]
  exact List.append_subset.2 ⟨hscore.timestamps_sublist.subset, hfences.timestamps_sublist.subset⟩

theorem timestamps_detect_subset (timestamps : Option (List Instant)) (method : Method) :
    (d.detect now values metric timestamps method).map (·.timestamp) ⊆
      (resolveTimestamps now values.length timestamps).take values.length := by
  unfold detect
  dsimp only
  split
  · exact List.nil_subset _
  generalize resolveTimestamps now values.length timestamps = resolved
  have hpoints := timestamps_points_subset d now values metric resolved
  cases method with
  | zScore => exact List.Subset.trans (List.map_subset _ (List.subset_append_left _ _)) hpoints
  | iqr => exact List.Subset.trans (List.map_subset _ (List.subset_append_right _ _)) hpoints
  | combined =>
    exact List.Subset.trans (List.map_subset _ (firstPerInstant_sublist _ _).subset) hpoints

theorem length_detect_le (timestamps : Option (List Instant)) (method : Method) :
    (d.detect now values metric timestamps method).length ≤
      min values.length (resolveTimestamps now values.length timestamps).length := by
  unfold detect
  dsimp only
  split
  · exact Nat.zero_le _
  generalize resolveTimestamps now values.length timestamps = resolved
  have hscore : Selects values resolved (d.byZScore now values metric (some resolved)) :=
    selects_byZScore (some resolved)
  have hfences : Selects values resolved (d.byFences now values metric (some resolved)) :=
    selects_byFences (some resolved)
  cases method with
  | zScore => exact hscore.length_le
  | iqr => exact hfences.length_le
  | combined =>
    have hsub := List.Subset.trans
      (List.map_subset Anomaly.timestamp (firstPerInstant_sublist [] _).subset)
      (timestamps_points_subset d now values metric resolved)
    have hlen := (List.Nodup.subperm (nodup_firstPerInstant [] _) hsub).length_le
    rwa [List.length_map, List.length_take] at hlen

end Detector

namespace Comparator

variable {c : Comparator α} {v : α} {t : Instant}

theorem point?_eq_some (h : c.point? now b v t = some a) : a.actual = v ∧ a.timestamp = t := by
  rw [point?_eq] at h
  split at h
  · obtain rfl := Option.some.inj h
    exact ⟨rfl, rfl⟩
  · cases h

theorem point?_grade (h : c.point? now b v t = some a) :
    a.zScore = some (b.zScore v) ∧
      a.severity = c.severityOf (Stats.changePercent b.mean v) ∧
      a.confidence = .saturate (Scalar.smaller (Scalar.abs (b.zScore v) / 5.0) 0.99) := by
  rw [point?_eq] at h
  split at h
  · obtain rfl := Option.some.inj h
    exact ⟨rfl, rfl, rfl⟩
  · cases h

theorem compare_anomalies {timestamps : Option (List Instant)} (h : values ≠ []) :
    (c.compare now values b timestamps).anomalies = c.anomalies now values b timestamps := by
  simp [compare, h]

theorem find_of_mem_compare {timestamps : Option (List Instant)}
    (h : a ∈ (c.compare now values b timestamps).anomalies) :
    b.Valid ∧ ∃ v t, c.point? now b v t = some a := by
  rcases eq_or_ne values [] with rfl | hne
  · cases h
  rw [compare_anomalies hne, anomalies] at h
  split at h
  · rename_i hb
    obtain ⟨⟨v, t⟩, -, hfind⟩ := List.mem_filterMap.1 h
    exact ⟨hb, v, t, hfind⟩
  · cases h

theorem compare_status {timestamps : Option (List Instant)} (h : values ≠ []) :
    let comparison := c.compare now values b timestamps
    comparison.status = c.statusOf comparison.meanChange comparison.p99Change
      comparison.anomalies.length comparison.sampleCount := by
  simp [compare, h]

theorem point?_isSome : (c.point? now b v t).isSome = true ↔ b.Flags c.zThreshold v := by
  rw [point?_eq]
  split <;> simp_all

theorem selectsWhere_anomalies (timestamps : Option (List Instant)) :
    SelectsWhere (fun v ↦ b.Valid ∧ b.Flags c.zThreshold v) values
      (resolveTimestamps now values.length timestamps) (c.anomalies now values b timestamps) :=
  selectsWhere_guarded (c.point? now b) point?_eq_some fun _ _ ↦ point?_isSome

theorem selectsWhere_compare (timestamps : Option (List Instant)) :
    SelectsWhere (fun v ↦ b.Valid ∧ b.Flags c.zThreshold v) values
      (resolveTimestamps now values.length timestamps)
      (c.compare now values b timestamps).anomalies := by
  rcases eq_or_ne values [] with rfl | h
  · simp [selectsWhere_iff, compare, Comparison.noData]
  · rw [compare_anomalies h]
    exact selectsWhere_anomalies timestamps

theorem selects_compare (timestamps : Option (List Instant)) :
    Selects values (resolveTimestamps now values.length timestamps)
      (c.compare now values b timestamps).anomalies := (selectsWhere_compare timestamps).selects

theorem length_anomalies (hb : b.Valid) : (c.anomalies now values b none).length =
    values.countP fun v ↦ b.Flags c.zThreshold v :=
  ((selectsWhere_anomalies none).of_guard hb).length_eq (by simp [resolveTimestamps])

theorem compare_sampleCount (timestamps : Option (List Instant)) :
    (c.compare now values b timestamps).sampleCount = values.length := by
  unfold compare
  split
  · rename_i h
    rw [List.isEmpty_iff.1 h]
    rfl
  · rfl

theorem length_compare_le (timestamps : Option (List Instant)) :
    (c.compare now values b timestamps).anomalies.length ≤
      (c.compare now values b timestamps).sampleCount := by
  rw [compare_sampleCount]
  exact Nat.le_trans (selects_compare timestamps).length_le (Nat.min_le_left _ _)

end Comparator

end MetricWatch
