import MetricWatch.Comparator
import Mathlib.Data.List.Nodup

namespace MetricWatch

variable {α : Type} [Scalar α]

namespace Detector

theorem mem_timestamps_filterMap (find? : α → Instant → Option (Anomaly α))
    (hfind : ∀ {v t a}, find? v t = some a → a.timestamp = t)
    {points : List (α × Instant)} {t : Instant} :
    t ∈ (points.filterMap fun (v, t) ↦ find? v t).map (·.timestamp) ↔
      ∃ v, (v, t) ∈ points ∧ (find? v t).isSome = true := by
  constructor
  · intro h
    obtain ⟨a, ha, rfl⟩ := List.mem_map.1 h
    obtain ⟨⟨v, t⟩, hp, hf⟩ := List.mem_filterMap.1 ha
    rw [hfind hf]
    exact ⟨v, hp, Option.isSome_of_eq_some hf⟩
  · rintro ⟨v, hp, hf⟩
    obtain ⟨a, ha⟩ := Option.isSome_iff_exists.1 hf
    exact List.mem_map.2 ⟨a, List.mem_filterMap.2 ⟨(v, t), hp, ha⟩, hfind ha⟩

omit [Scalar α] in
theorem value_eq_of_mem_zip {values : List α} {timestamps : List Instant} (h : timestamps.Nodup)
    {v w : α} {t : Instant} (hv : (v, t) ∈ values.zip timestamps)
    (hw : (w, t) ∈ values.zip timestamps) : v = w := by
  obtain ⟨i, hi, ei⟩ := List.mem_iff_getElem.1 hv
  obtain ⟨j, hj, ej⟩ := List.mem_iff_getElem.1 hw
  rw [List.getElem_zip, Prod.mk.injEq] at ei ej
  have hij : i = j := h.getElem_inj_iff.1 (ei.2.trans ej.2.symm)
  subst hij
  exact ei.1.symm.trans ej.1

theorem firstPerInstant_sublist (seen : List Instant) (findings : List (Anomaly α)) :
    (firstPerInstant seen findings).Sublist findings := by
  induction findings generalizing seen with
  | nil => exact .slnil
  | cons a rest ih =>
    rw [firstPerInstant]
    split
    · exact (ih seen).cons a
    · exact (ih _).cons_cons a

theorem mem_timestamps_firstPerInstant {seen : List Instant} {findings : List (Anomaly α)}
    {t : Instant} :
    t ∈ (firstPerInstant seen findings).map (·.timestamp) ↔
      t ∈ findings.map (·.timestamp) ∧ t ∉ seen := by
  induction findings generalizing seen with
  | nil => simp [firstPerInstant]
  | cons a rest ih =>
    rw [firstPerInstant]
    split
    · rename_i hseen
      rw [ih, List.map_cons, List.mem_cons]
      constructor
      · rintro ⟨ht, hs⟩
        exact ⟨.inr ht, hs⟩
      · rintro ⟨rfl | ht, hs⟩
        · exact absurd hseen hs
        · exact ⟨ht, hs⟩
    · rename_i hseen
      rw [List.map_cons, List.mem_cons, ih, List.map_cons, List.mem_cons, List.mem_cons]
      by_cases h : t = a.timestamp
      · subst h
        simp [hseen]
      · simp [h]

theorem nodup_firstPerInstant (seen : List Instant) (findings : List (Anomaly α)) :
    ((firstPerInstant seen findings).map (·.timestamp)).Nodup := by
  induction findings generalizing seen with
  | nil => exact .nil
  | cons a rest ih =>
    rw [firstPerInstant]
    split
    · exact ih seen
    · refine List.nodup_cons.2 ⟨fun h ↦ ?_, ih _⟩
      exact (mem_timestamps_firstPerInstant.1 h).2 List.mem_cons_self

variable [NumberText α] {d : Detector α} {now : Instant} {metric : String} {mean stdDev v : α}
  {t : Instant} {a : Anomaly α}

theorem scorePoint?_isSome :
    (d.scorePoint? now metric mean stdDev v t).isSome = true ↔
      ¬ Scalar.abs ((v - mean) / stdDev) < d.zThreshold ∧
        Scalar.IsNumber ((v - mean) / stdDev) := by
  simp only [scorePoint?]
  split
  · rename_i h
    simp only [Option.isSome_none, Bool.false_eq_true, false_iff, not_and]
    exact fun hz hn ↦ h.elim hz (absurd hn)
  · rename_i h
    simpa only [Option.isSome_some, true_iff, not_or, not_not] using h

theorem scorePoint?_eq_some (h : d.scorePoint? now metric mean stdDev v t = some a) :
    a.actual = v ∧ a.timestamp = t ∧ a.zScore = some ((v - mean) / stdDev) := by
  simp only [scorePoint?] at h
  split at h
  · cases h
  · obtain rfl := Option.some.inj h
    exact ⟨rfl, rfl, rfl⟩

theorem scorePoint?_grade (h : d.scorePoint? now metric mean stdDev v t = some a) :
    a.severity = .ofZScore ((v - mean) / stdDev) ∧
      a.confidence = scoreConfidence ((v - mean) / stdDev) := by
  simp only [scorePoint?] at h
  split at h
  · cases h
  · obtain rfl := Option.some.inj h
    exact ⟨rfl, rfl⟩

theorem Fences.point?_isSome {f : Fences α} :
    (f.point? now metric v t).isSome = true ↔ f.upper < v ∨ v < f.lower := by
  simp only [point?, excess?, Option.isSome_map]
  split
  · simp_all
  · split <;> simp_all

theorem Fences.point?_eq_some {f : Fences α} (h : f.point? now metric v t = some a) :
    a.actual = v ∧ a.timestamp = t ∧ a.zScore = none := by
  simp only [point?] at h
  obtain ⟨_, -, rfl⟩ := Option.map_eq_some_iff.1 h
  exact ⟨rfl, rfl, rfl⟩

theorem Fences.point?_grade {f : Fences α} (h : f.point? now metric v t = some a) :
    ∃ kind excess, f.excess? v = some (kind, excess) ∧
      a.severity = .ofFenceDistance (f.inRanges excess) ∧
      a.confidence = .saturate (Scalar.smaller (0.5 + f.inRanges excess * 0.1) 0.99) := by
  obtain ⟨⟨kind, excess⟩, hexcess, rfl⟩ := Option.map_eq_some_iff.1 h
  exact ⟨kind, excess, hexcess, rfl, rfl⟩

variable {b : Baseline α}

theorem baselinePoint?_isSome :
    (d.baselinePoint? now b v t).isSome = true ↔ b.Flags d.zThreshold v := by
  simp only [baselinePoint?]
  split <;> simp_all

theorem baselinePoint?_eq_some (h : d.baselinePoint? now b v t = some a) :
    a.actual = v ∧ a.timestamp = t ∧ a.zScore = some (b.zScore v) := by
  simp only [baselinePoint?] at h
  split at h
  · obtain rfl := Option.some.inj h
    exact ⟨rfl, rfl, rfl⟩
  · cases h

theorem baselinePoint?_grade (h : d.baselinePoint? now b v t = some a) :
    a.severity = (Severity.ofZScore (b.zScore v)).graver (.ofFenceDistance
        (if 0.0 < b.iqr then Scalar.abs (v - b.median) / b.iqr else 0.0)) ∧
      a.confidence = scoreConfidence (b.zScore v) := by
  simp only [baselinePoint?] at h
  split at h
  · obtain rfl := Option.some.inj h
    exact ⟨rfl, rfl⟩
  · cases h

section Members

variable {values : List α} {timestamps : Option (List Instant)}

theorem find_of_mem_byZScore (h : a ∈ d.byZScore now values metric timestamps) :
    ∃ v t, d.scorePoint? now metric (Stats.mean values) (Stats.populationStdDev values) v t =
      some a := by
  simp only [byZScore] at h
  split at h
  · cases h
  · obtain ⟨⟨v, t⟩, -, hfind⟩ := List.mem_filterMap.1 h
    exact ⟨v, t, hfind⟩

theorem find_of_mem_byFences (h : a ∈ d.byFences now values metric timestamps) :
    ∃ v t, (d.fences values).point? now metric v t = some a := by
  simp only [byFences] at h
  split at h
  · cases h
  · obtain ⟨⟨v, t⟩, -, hfind⟩ := List.mem_filterMap.1 h
    exact ⟨v, t, hfind⟩

theorem find_of_mem_againstBaseline (h : a ∈ d.againstBaseline now values b timestamps) :
    b.Valid ∧ ∃ v t, d.baselinePoint? now b v t = some a := by
  simp only [againstBaseline] at h
  split at h
  · rename_i hb
    obtain ⟨⟨v, t⟩, -, hfind⟩ := List.mem_filterMap.1 h
    exact ⟨hb, v, t, hfind⟩
  · cases h

end Members

variable {values : List α} {timestamps : List Instant}

def ownScore (values : List α) (v : α) : α :=
  (v - Stats.mean values) / Stats.populationStdDev values

theorem byZScore_eq (hn : d.minSampleSize ≤ values.length)
    (hs : ¬ Scalar.IsZero (Stats.populationStdDev values)) :
    d.byZScore now values metric (some timestamps) =
      (values.zip timestamps).filterMap fun (v, t) ↦
        d.scorePoint? now metric (Stats.mean values) (Stats.populationStdDev values) v t :=
  if_neg fun h ↦ h.elim (Nat.not_lt.2 hn) hs

theorem byFences_eq (hn : d.minSampleSize ≤ values.length) :
    d.byFences now values metric (some timestamps) =
      (values.zip timestamps).filterMap fun (v, t) ↦ (d.fences values).point? now metric v t :=
  if_neg (Nat.not_lt.2 hn)

theorem againstBaseline_eq (hb : b.Valid) :
    d.againstBaseline now values b (some timestamps) =
      (values.zip timestamps).filterMap fun (v, t) ↦ d.baselinePoint? now b v t :=
  if_pos hb

theorem detect_combined (hn : d.minSampleSize ≤ values.length) :
    d.detect now values metric (some timestamps) .combined =
      firstPerInstant [] (d.byZScore now values metric (some timestamps) ++
        d.byFences now values metric (some timestamps)) :=
  if_neg (Nat.not_lt.2 hn)

theorem mem_timestamps_detect (hn : d.minSampleSize ≤ values.length)
    (hs : ¬ Scalar.IsZero (Stats.populationStdDev values)) :
    t ∈ (d.detect now values metric (some timestamps) .combined).map (·.timestamp) ↔
      ∃ v, (v, t) ∈ values.zip timestamps ∧
        ((¬ Scalar.abs (ownScore values v) < d.zThreshold ∧
            Scalar.IsNumber (ownScore values v)) ∨
          (d.fences values).upper < v ∨ v < (d.fences values).lower) := by
  rw [detect_combined hn, mem_timestamps_firstPerInstant, byZScore_eq hn hs, byFences_eq hn,
    List.map_append, List.mem_append,
    mem_timestamps_filterMap (d.scorePoint? now metric _ _) fun h ↦ (scorePoint?_eq_some h).2.1,
    mem_timestamps_filterMap ((d.fences values).point? now metric) fun h ↦
      (Fences.point?_eq_some h).2.1]
  simp only [scorePoint?_isSome, Fences.point?_isSome, List.not_mem_nil, not_false_eq_true,
    and_true, ← exists_or, ← and_or_left]
  rfl

theorem mem_timestamps_againstBaseline (hb : b.Valid) :
    t ∈ (d.againstBaseline now values b (some timestamps)).map (·.timestamp) ↔
      ∃ v, (v, t) ∈ values.zip timestamps ∧ b.Flags d.zThreshold v := by
  rw [againstBaseline_eq hb, mem_timestamps_filterMap (d.baselinePoint? now b) fun h ↦
    (baselinePoint?_eq_some h).2.1]
  simp only [baselinePoint?_isSome]

theorem exists_of_mem_detect (hn : d.minSampleSize ≤ values.length)
    (hs : ¬ Scalar.IsZero (Stats.populationStdDev values))
    (ha : a ∈ d.detect now values metric (some timestamps) .combined)
    (hz : a.zScore.isSome = true) :
    ∃ v, (v, a.timestamp) ∈ values.zip timestamps ∧ a.zScore = some (ownScore values v) := by
  rw [detect_combined hn, byZScore_eq hn hs, byFences_eq hn] at ha
  rcases List.mem_append.1 ((firstPerInstant_sublist _ _).subset ha) with h | h
  · obtain ⟨⟨v, t⟩, hp, hf⟩ := List.mem_filterMap.1 h
    obtain ⟨-, rfl, hscore⟩ := scorePoint?_eq_some hf
    exact ⟨v, hp, hscore⟩
  · obtain ⟨⟨v, t⟩, -, hf⟩ := List.mem_filterMap.1 h
    rw [(Fences.point?_eq_some hf).2.2] at hz
    cases hz

theorem exists_of_mem_againstBaseline (hb : b.Valid)
    (ha : a ∈ d.againstBaseline now values b (some timestamps)) :
    ∃ v, (v, a.timestamp) ∈ values.zip timestamps ∧ a.zScore = some (b.zScore v) := by
  rw [againstBaseline_eq hb] at ha
  obtain ⟨⟨v, t⟩, hp, hf⟩ := List.mem_filterMap.1 ha
  obtain ⟨-, rfl, hscore⟩ := baselinePoint?_eq_some hf
  exact ⟨v, hp, hscore⟩

end Detector

namespace Comparator

variable {c : Comparator α} {b : Baseline α} {v : α} {t : Instant}

theorem not_flags_iff : ¬ b.Flags c.zThreshold v ↔
    Scalar.abs (b.zScore v) < c.zThreshold ∧ ¬ (v < b.lowerFence ∨ b.upperFence < v) := by
  rw [Baseline.Flags, not_or, not_not]

theorem point?_eq [NumberText α] (now : Instant) (b : Baseline α) (v : α) (t : Instant) :
    c.point? now b v t =
      if b.Flags c.zThreshold v then
        let change := Stats.changePercent b.mean v
        some { Anomaly.ofPoint now b.metric (b.kindOf v) (c.severityOf change) v b.mean t with
          deviationPercent := Scalar.abs change
          zScore := some (b.zScore v)
          confidence := .saturate (Scalar.smaller (Scalar.abs (b.zScore v) / 5.0) 0.99)
          description := s!"Deviation from baseline: {NumberText.signed 1 change}%" }
      else none := by
  rw [← ite_not]
  simp only [not_flags_iff]
  rfl

end Comparator

end MetricWatch
