import Mathlib.Tactic.SplitIfs
import MetricWatch.Binary64.Text
import MetricWatch.Proofs.Detection.Selection
import MetricWatch.Proofs.Instant.Order

namespace MetricWatch

theorem nodup_resolveTimestamps {now : Instant} {length : Nat}
    (h : (length : Int) ≤ now.second - Instant.earliest.second + 1) :
    (resolveTimestamps now length none).Nodup := by
  refine List.Nodup.map_on (fun i hi j hj heq ↦ ?_) List.nodup_range
  have hi := List.mem_range.1 hi
  have hj := List.mem_range.1 hj
  have hback := Instant.backBy_inj (by omega) (by omega) heq
  omega

namespace Detector

variable {α : Type} [Scalar α] {seen : List Instant} {findings scored fenced : List (Anomaly α)}
  {t : Instant}

/-- The findings with no earlier one at the same instant. -/
def firstOccurrences (findings : List (Anomaly α)) : List (Anomaly α) :=
  (findings.zipIdx.filter fun (a, i) ↦
    a.timestamp ∉ (findings.take i).map (·.timestamp)).map (·.1)

theorem firstPerInstant_eq_filter (passed rest : List (Anomaly α))
    (hseen : ∀ t, t ∈ seen ↔ t ∈ passed.map (·.timestamp)) :
    firstPerInstant seen rest = ((rest.zipIdx passed.length).filter fun (a, i) ↦
      a.timestamp ∉ ((passed ++ rest).take i).map (·.timestamp)).map (·.1) := by
  -- Each step moves one anomaly from `rest` to `passed`, whose instants are those in `seen`.
  induction rest generalizing seen passed with
  | nil => rfl
  | cons a rest ih =>
    have hnext : passed ++ a :: rest = (passed ++ [a]) ++ rest := by simp
    have hlength : passed.length + 1 = (passed ++ [a]).length := by simp
    rw [firstPerInstant, List.zipIdx_cons, List.filter_cons]
    simp only [List.take_left, ← hseen]
    by_cases h : a.timestamp ∈ seen
    · rw [if_pos h, if_neg (by simpa using h), hnext, hlength]
      refine ih (passed ++ [a]) fun t ↦ ?_
      rw [hseen, List.map_append, List.mem_append]
      refine ⟨.inl, Or.rec id fun ht ↦ ?_⟩
      rw [List.map_singleton, List.mem_singleton] at ht
      exact (hseen t).1 (ht ▸ h)
    · rw [if_neg h, if_pos (by simpa using h), hnext, hlength, List.map_cons]
      congr 1
      refine ih (passed ++ [a]) fun t ↦ ?_
      rw [List.mem_cons, hseen, List.map_append, List.mem_append, or_comm, List.map_singleton,
        List.mem_singleton]

theorem firstPerInstant_eq_firstOccurrences :
    firstPerInstant [] findings = firstOccurrences findings :=
  firstPerInstant_eq_filter [] findings fun _ ↦ Iff.rfl

theorem firstPerInstant_append {seen : List Instant} (h : (scored.map (·.timestamp)).Nodup)
    (hnew : ∀ t ∈ scored.map (·.timestamp), t ∉ seen) :
    firstPerInstant seen (scored ++ fenced) =
      scored ++ firstPerInstant ((scored.map (·.timestamp)).reverse ++ seen) fenced := by
  induction scored generalizing seen with
  | nil => rfl
  | cons a rest ih =>
    rw [List.map_cons] at h hnew
    obtain ⟨ha, hrest⟩ := List.nodup_cons.1 h
    rw [List.cons_append, firstPerInstant, if_neg (hnew _ List.mem_cons_self), ih hrest]
    · rw [List.map_cons, List.reverse_cons, List.append_assoc, List.singleton_append,
        List.cons_append]
    · intro t ht hseen
      rcases List.mem_cons.1 hseen with rfl | hseen
      · exact ha ht
      · exact hnew t (List.mem_cons_of_mem _ ht) hseen

theorem firstPerInstant_of_nodup (h : (findings.map (·.timestamp)).Nodup) :
    firstPerInstant seen findings = findings.filter fun a ↦ a.timestamp ∉ seen := by
  induction findings generalizing seen with
  | nil => rfl
  | cons a rest ih =>
    rw [List.map_cons] at h
    obtain ⟨ha, hrest⟩ := List.nodup_cons.1 h
    rw [firstPerInstant, List.filter_cons]
    split_ifs with hseen hnot hnot
    · simp_all
    · exact ih hrest
    · rw [ih hrest]
      congr 1
      refine List.filter_congr fun b hb ↦ ?_
      have hne : b.timestamp ≠ a.timestamp := fun heq ↦
        ha (heq ▸ List.mem_map_of_mem (f := fun a : Anomaly α ↦ a.timestamp) hb)
      simp [hne]
    · simp_all

variable [NumberText α] {d : Detector α} {now : Instant} {metric : String} {values : List α}

theorem detect_combined_eq (timestamps : Option (List Instant)) :
    d.detect now values metric timestamps .combined =
      firstPerInstant [] (d.byZScore now values metric timestamps ++
        d.byFences now values metric timestamps) := by
  by_cases h : values.length < d.minSampleSize
  · rw [detect, byZScore, byFences, if_pos h, if_pos h, if_pos (.inl h)]
    rfl
  · exact if_neg h

theorem detect_combined_of_nodup (timestamps : Option (List Instant))
    (h : (resolveTimestamps now values.length timestamps).Nodup) :
    let scored := d.byZScore now values metric timestamps
    let fenced := d.byFences now values metric timestamps
    d.detect now values metric timestamps .combined =
      scored ++ fenced.filter fun a ↦ a.timestamp ∉ scored.map (·.timestamp) := by
  intro scored fenced
  have hinstants : ((resolveTimestamps now values.length timestamps).take values.length).Nodup :=
    h.sublist (List.take_sublist _ _)
  have hscored : (scored.map (·.timestamp)).Nodup :=
    hinstants.sublist (selects_byZScore timestamps).timestamps_sublist
  have hfenced : (fenced.map (·.timestamp)).Nodup :=
    hinstants.sublist (selects_byFences timestamps).timestamps_sublist
  rw [detect_combined_eq, firstPerInstant_append hscored fun _ _ ↦ List.not_mem_nil,
    firstPerInstant_of_nodup hfenced]
  simp only [List.append_nil, List.mem_reverse, scored, fenced]

/-- Too short a series needs no case of its own. Seconds before the first instant do not exist. -/
theorem combined_first_occurrences (d : Detector α) (now : Instant) (values : List α)
    (metric : String) (timestamps : Option (List Instant)) :
    let scored := d.byZScore now values metric timestamps
    let fenced := d.byFences now values metric timestamps
    let combined := d.detect now values metric timestamps .combined
    combined = firstOccurrences (scored ++ fenced) ∧
      (combined.map (·.timestamp)).Nodup ∧
      (∀ t, t ∈ combined.map (·.timestamp) ↔
        t ∈ scored.map (·.timestamp) ∨ t ∈ fenced.map (·.timestamp)) ∧
      ((resolveTimestamps now values.length timestamps).Nodup →
        (∀ t, t ∈ scored.map (·.timestamp) ∨ t ∈ fenced.map (·.timestamp) →
          (combined.map (·.timestamp)).count t = 1) ∧
        (∀ a ∈ combined, if a.timestamp ∈ scored.map (·.timestamp) then a ∈ scored
          else a ∈ fenced) ∧
        combined = scored ++ fenced.filter fun a ↦ a.timestamp ∉ scored.map (·.timestamp)) ∧
      ((values.length : Int) ≤ now.second - Instant.earliest.second + 1 →
        (resolveTimestamps now values.length none).Nodup) := by
  intro scored fenced combined
  have hcombined : combined = firstPerInstant [] (scored ++ fenced) := detect_combined_eq timestamps
  have hnodup : (combined.map (·.timestamp)).Nodup := by
    rw [hcombined]
    exact nodup_firstPerInstant [] _
  have hmem (t : Instant) : t ∈ combined.map (·.timestamp) ↔
      t ∈ scored.map (·.timestamp) ∨ t ∈ fenced.map (·.timestamp) := by
    rw [hcombined, mem_timestamps_firstPerInstant, List.map_append, List.mem_append]
    exact and_iff_left List.not_mem_nil
  refine ⟨hcombined.trans firstPerInstant_eq_firstOccurrences, hnodup, hmem, fun h ↦ ?_,
    nodup_resolveTimestamps⟩
  have hsplit : combined = scored ++ fenced.filter fun a ↦
      a.timestamp ∉ scored.map (·.timestamp) := detect_combined_of_nodup timestamps h
  refine ⟨fun t ht ↦ List.count_eq_one_of_mem hnodup ((hmem t).2 ht), fun a ha ↦ ?_, hsplit⟩
  rw [hsplit] at ha
  rcases List.mem_append.1 ha with ha | ha
  · rw [if_pos (List.mem_map_of_mem ha)]
    exact ha
  · obtain ⟨ha, hnot⟩ := List.mem_filter.1 ha
    rw [if_neg (of_decide_eq_true hnot)]
    exact ha

theorem combined_first_occurrences_spike :
    let d : Detector Binary64 := .standard
    let values : List Binary64 := List.replicate 10 1.0 ++ [100.0]
    let combined := d.detect .epoch values "latency" none .combined
    (resolveTimestamps .epoch values.length none).Nodup ∧
      (combined.map (·.timestamp)).count .epoch = 1 := by
  intro d values combined
  have h := combined_first_occurrences d .epoch values "latency" none
  have hdistinct : (resolveTimestamps .epoch values.length none).Nodup :=
    h.2.2.2.2 (by decide +kernel)
  have hscored : Instant.epoch ∈ (d.byZScore .epoch values "latency" none).map (·.timestamp) := by
    decide +kernel
  exact ⟨hdistinct, (h.2.2.2.1 hdistinct).1 .epoch (.inl hscored)⟩

end Detector

end MetricWatch
