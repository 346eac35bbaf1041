import MetricWatch.Binary64.Text
import MetricWatch.Proofs.Detection.Selection
import MetricWatch.Proofs.Regression.Verdict

namespace MetricWatch

namespace Confidence

variable {α : Type} [Scalar α] {x : α}

abbrev InRange (x : α) : Prop := (0.0 : α) ≤ x ∧ x ≤ 1.0

theorem ofValue?_of_inRange (h : InRange x) : ofValue? x = some ⟨x, h.1, h.2⟩ := dif_pos h

theorem ofValue?_of_not_inRange (h : ¬ InRange x) : ofValue? x = none := dif_neg h

structure Nearest (x : Binary64) (c : Confidence Binary64) : Prop where
  inside : InRange x → c.value = x
  below : x < 0.0 → c.value = 0.0
  above : 1.0 < x → c.value = 1.0
  gap : ¬ Scalar.IsNumber x → c.value = 0.0

theorem nearest_saturate (x : Binary64) : Nearest x (saturate x) := by
  by_cases hx : Scalar.IsNumber x
  · have hvalue := Gate.saturate_value hx
    refine ⟨fun h ↦ ?_, fun h ↦ ?_, fun h ↦ ?_, fun h ↦ absurd hx h⟩
    · have hlow : ¬ x < 0.0 := fun hlt ↦ Binary64.not_le_of_lt hlt h.1
      have hhigh : ¬ 1.0 < x := fun hlt ↦ Binary64.not_le_of_lt hlt h.2
      rw [hvalue, Scalar.clamp, if_neg hlow, if_neg hhigh]
    · rw [hvalue, Scalar.clamp, if_pos h]
    · have hlow : ¬ x < 0.0 := fun hlt ↦ Binary64.not_le_of_lt hlt
        (Binary64.le_trans Scalar.zero_le_one (Binary64.le_of_lt h))
      rw [hvalue, Scalar.clamp, if_neg hlow, if_pos h]
  · rw [saturate, dif_neg hx]
    exact ⟨fun h ↦ absurd (Scalar.le_self_left h.2) hx, fun _ ↦ rfl,
      fun h ↦ absurd (Scalar.le_self_right (Binary64.le_of_lt h)) hx, fun _ ↦ rfl⟩

end Confidence

open Confidence

namespace Anomaly

variable {α : Type} [Scalar α]

/-- What can be set of a finding after it was made. The last one is left to the detectors. -/
inductive Setting (α : Type) where
  | zScore (z : α)
  | deviationPercent (percent : α)
  | context (name : String) (value : α)
  | description (text : String)
  | confidence (x : α)
  | boundedConfidence (x : α)

def set (a : Anomaly α) : Setting α → Except (Failure α) (Anomaly α)
  | .zScore z => .ok { a with zScore := some z }
  | .deviationPercent percent => .ok { a with deviationPercent := percent }
  | .context name value => .ok { a with context := a.context.insert name value }
  | .description text => .ok { a with description := text }
  | .confidence x => a.withConfidence x
  | .boundedConfidence x => .ok { a with confidence := .saturate x }

/-- Sets one after the other. What is refused changes nothing. -/
def setAll (a : Anomaly α) (settings : List (Setting α)) : Anomaly α :=
  settings.foldl (fun a s ↦ (a.set s).toOption.getD a) a

/-- The confidence that a setting leads to, if it is one of the confidence and is not refused. -/
def Setting.confidence? : Setting α → Option α
  | .confidence x => if InRange x then some x else none
  | .boundedConfidence x => some (Confidence.saturate x).value
  | _ => none

theorem withConfidence_of_inRange (a : Anomaly α) {x : α} (h : InRange x) :
    a.withConfidence x = .ok { a with confidence := ⟨x, h.1, h.2⟩ } := by
  rw [withConfidence, ofValue?_of_inRange h]

theorem withConfidence_of_not_inRange (a : Anomaly α) {x : α} (h : ¬ InRange x) :
    a.withConfidence x = .error (.confidenceOutOfRange x) := by
  rw [withConfidence, ofValue?_of_not_inRange h]

theorem confidence_set (a : Anomaly α) (s : Setting α) :
    ((a.set s).toOption.getD a).confidence.value = s.confidence?.getD a.confidence.value := by
  cases s with
  | confidence x =>
    rw [set, Setting.confidence?]
    by_cases h : InRange x
    · rw [withConfidence_of_inRange a h, if_pos h]
      rfl
    · rw [withConfidence_of_not_inRange a h, if_neg h]
      rfl
  | _ => rfl

theorem confidence_setAll (a : Anomaly α) (settings : List (Setting α)) :
    (a.setAll settings).confidence.value =
      (settings.filterMap Setting.confidence?).getLastD a.confidence.value := by
  induction settings generalizing a with
  | nil => rfl
  | cons s settings ih =>
    rw [setAll, List.foldl_cons, ← setAll, ih, confidence_set, List.filterMap_cons]
    cases s.confidence? with
    | none => rfl
    | some x => rw [List.getLastD_cons]; rfl

theorem exists_set_iff (a : Anomaly α) (s : Setting α) :
    (∃ a', a.set s = .ok a') ↔ ∀ x, s = .confidence x → InRange x := by
  cases s with
  | confidence x =>
    rw [set]
    by_cases h : InRange x
    · rw [withConfidence_of_inRange a h]
      exact iff_of_true ⟨_, rfl⟩ fun _ hs ↦ Setting.confidence.inj hs ▸ h
    · rw [withConfidence_of_not_inRange a h]
      refine iff_of_false ?_ fun hs ↦ h (hs x rfl)
      rintro ⟨_, hset⟩
      cases hset
  | _ => exact iff_of_true ⟨_, rfl⟩ nofun

/-- The confidence of a finding follows from its score. -/
def SureBy (raw : α → α) (a : Anomaly α) : Prop :=
  ∃ z, a.zScore = some z ∧ a.confidence = .saturate (raw z)

/-- The confidence of a finding follows from a distance from the fences, which it does not keep. -/
def SureByFences (a : Anomaly α) : Prop :=
  a.zScore = none ∧
    ∃ distance, a.confidence = .saturate (Scalar.smaller (0.5 + distance * 0.1) 0.99)

end Anomaly

namespace Regression

variable {α : Type} [Scalar α]

theorem withConfidence_of_inRange (r : Regression α) {x : α} (h : InRange x) :
    r.withConfidence x = .ok { r with confidence := ⟨x, h.1, h.2⟩ } := by
  rw [withConfidence, ofValue?_of_inRange h]

theorem withConfidence_of_not_inRange (r : Regression α) {x : α} (h : ¬ InRange x) :
    r.withConfidence x = .error (.confidenceOutOfRange x) := by
  rw [withConfidence, ofValue?_of_not_inRange h]

end Regression

section Found

variable {α : Type} [Scalar α] [NumberText α] {d : Detector α} {c : Comparator α} {now : Instant}
  {values : List α} {metric : String} {timestamps : Option (List Instant)} {b : Baseline α}
  {a : Anomaly α}

/-- The confidence in a score, before it is brought between the bounds. -/
def Detector.rawConfidence (z : α) : α :=
  Scalar.smaller (1.0 - Scalar.exp (-0.5 * Scalar.abs z)) 0.99

theorem Detector.sureBy_byZScore (h : a ∈ d.byZScore now values metric timestamps) :
    a.SureBy rawConfidence := by
  obtain ⟨v, t, hfind⟩ := find_of_mem_byZScore h
  exact ⟨_, (scorePoint?_eq_some hfind).2.2, (scorePoint?_grade hfind).2⟩

theorem Detector.sureBy_againstBaseline (h : a ∈ d.againstBaseline now values b timestamps) :
    a.SureBy rawConfidence := by
  obtain ⟨-, v, t, hfind⟩ := find_of_mem_againstBaseline h
  exact ⟨_, (baselinePoint?_eq_some hfind).2.2, (baselinePoint?_grade hfind).2⟩

theorem Detector.sureByFences_byFences (h : a ∈ d.byFences now values metric timestamps) :
    a.SureByFences := by
  obtain ⟨v, t, hfind⟩ := find_of_mem_byFences h
  obtain ⟨-, excess, -, -, hconfidence⟩ := Fences.point?_grade hfind
  exact ⟨(Fences.point?_eq_some hfind).2.2, _, hconfidence⟩

theorem Detector.mem_detect {method : Method}
    (h : a ∈ d.detect now values metric timestamps method) :
    ∃ resolved, a ∈ d.byZScore now values metric resolved ∨
      a ∈ d.byFences now values metric resolved := by
  simp only [detect] at h
  split at h
  · cases h
  cases method with
  | zScore => exact ⟨_, .inl h⟩
  | iqr => exact ⟨_, .inr h⟩
  | combined => exact ⟨_, List.mem_append.1 ((firstPerInstant_sublist _ _).subset h)⟩

def Comparator.rawConfidence (z : α) : α := Scalar.smaller (Scalar.abs z / 5.0) 0.99

theorem Comparator.sureBy_compare (h : a ∈ (c.compare now values b timestamps).anomalies) :
    a.SureBy rawConfidence := by
  obtain ⟨-, v, t, hfind⟩ := find_of_mem_compare h
  obtain ⟨hscore, -, hconfidence⟩ := point?_grade hfind
  exact ⟨_, hscore, hconfidence⟩

def Gate.rawConfidence (g : Gate α) (t : SignificanceTest α) : α :=
  if t.pValue < g.significanceLevel then
    0.6 * (1.0 - t.pValue) + 0.4 * Scalar.smaller (Scalar.abs t.effectSize / 0.8) 1.0
  else 0.0

theorem Gate.confidence_detect (g : Gate α) (now : Instant) (before after : List α)
    (metric : String) :
    let r := g.detect now before after metric
    r.test = none ∧ r.confidence = .zero ∨
      ∃ t, r.test = some t ∧ r.confidence = .saturate (g.rawConfidence t) := by
  intro r
  by_cases hempty : before = [] ∨ after = []
  · have hr : r = .insufficient now metric := detectBy_of_empty hempty
    rw [hr]
    exact .inl ⟨rfl, rfl⟩
  · obtain ⟨hb, ha⟩ := not_or.1 hempty
    have hr : r = g.judge Tail.pValue now before after metric := detectBy_of_ne_nil hb ha
    obtain ⟨t, htest, hconfidence, -⟩ := judge_cases g Tail.pValue now before after metric
    rw [← hr] at htest hconfidence
    exact .inr ⟨t, htest, hconfidence⟩

end Found

structure ConfidenceSettings : Prop where
  last : ∀ (a : Anomaly Binary64) (settings : List (Anomaly.Setting Binary64)),
    (a.setAll settings).confidence.value =
      (settings.filterMap Anomaly.Setting.confidence?).getLastD a.confidence.value
  set_iff : ∀ (a : Anomaly Binary64) (s : Anomaly.Setting Binary64),
    (∃ a', a.set s = .ok a') ↔ ∀ x, s = .confidence x → InRange x
  withConfidence_iff : ∀ (r : Regression Binary64) (x : Binary64),
    (∃ r', r.withConfidence x = .ok r') ↔ InRange x

theorem confidenceSettings : ConfidenceSettings where
  last := Anomaly.confidence_setAll
  set_iff := Anomaly.exists_set_iff
  withConfidence_iff r x := by
    by_cases h : InRange x
    · exact iff_of_true ⟨_, r.withConfidence_of_inRange h⟩ h
    · rw [r.withConfidence_of_not_inRange h]
      refine iff_of_false ?_ h
      rintro ⟨_, hset⟩
      cases hset

/-- What the detectors make of their raw confidences, which need not be numbers at all. -/
structure ConfidencesFound : Prop where
  byZScore : ∀ (d : Detector Binary64) (now : Instant) (values : List Binary64) (metric : String)
    (timestamps : Option (List Instant)), ∀ a ∈ d.byZScore now values metric timestamps,
      a.SureBy Detector.rawConfidence
  byFences : ∀ (d : Detector Binary64) (now : Instant) (values : List Binary64) (metric : String)
    (timestamps : Option (List Instant)), ∀ a ∈ d.byFences now values metric timestamps,
      a.SureByFences
  detect : ∀ (d : Detector Binary64) (now : Instant) (values : List Binary64) (metric : String)
    (timestamps : Option (List Instant)) (method : Method),
    ∀ a ∈ d.detect now values metric timestamps method,
      a.SureBy Detector.rawConfidence ∨ a.SureByFences
  againstBaseline : ∀ (d : Detector Binary64) (now : Instant) (values : List Binary64)
    (b : Baseline Binary64) (timestamps : Option (List Instant)),
    ∀ a ∈ d.againstBaseline now values b timestamps, a.SureBy Detector.rawConfidence
  compare : ∀ (c : Comparator Binary64) (now : Instant) (values : List Binary64)
    (b : Baseline Binary64) (timestamps : Option (List Instant)),
    ∀ a ∈ (c.compare now values b timestamps).anomalies, a.SureBy Comparator.rawConfidence
  regression : ∀ (g : Gate Binary64) (now : Instant) (before after : List Binary64)
    (metric : String),
    let r := g.detect now before after metric
    r.test = none ∧ r.confidence = .zero ∨
      ∃ t, r.test = some t ∧ r.confidence = .saturate (g.rawConfidence t)

theorem confidencesFound : ConfidencesFound where
  byZScore _ _ _ _ _ _ h := Detector.sureBy_byZScore h
  byFences _ _ _ _ _ _ h := Detector.sureByFences_byFences h
  detect _ _ _ _ _ _ _ h := by
    obtain ⟨resolved, h | h⟩ := Detector.mem_detect h
    · exact .inl (Detector.sureBy_byZScore h)
    · exact .inr (Detector.sureByFences_byFences h)
  againstBaseline _ _ _ _ _ _ h := Detector.sureBy_againstBaseline h
  compare _ _ _ _ _ _ h := Comparator.sureBy_compare h
  regression := Gate.confidence_detect

end MetricWatch
