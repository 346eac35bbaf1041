import MetricWatch.Proofs.Confidence
import MetricWatch.Proofs.Document.Report
import MetricWatch.Proofs.Json.RoundTrip
import MetricWatch.Proofs.Node.Place

namespace MetricWatch

open Node Confidence

theorem Node.readConfidence_eq {n : Node} {x : Binary64} (h : readReal n = .ok x) :
    readConfidence n =
      if h : InRange x then .ok ⟨x, h.1, h.2⟩ else .error (.confidence x) := by
  simp only [readConfidence, h, bind, Except.bind]
  by_cases hx : InRange x
  · rw [ofValue?_of_inRange hx, dif_pos hx]
  · rw [ofValue?_of_not_inRange hx, dif_neg hx]

theorem Node.exists_readConfidence_iff {n : Node} :
    (∃ c, readConfidence n = .ok c) ↔ ∃ x, readReal n = .ok x ∧ InRange x := by
  cases h : readReal n with
  | error fault => simp [readConfidence, h, bind, Except.bind]
  | ok x =>
    rw [readConfidence_eq h]
    constructor
    · rintro ⟨c, hc⟩
      by_cases hx : InRange x
      · exact ⟨x, rfl, hx⟩
      · rw [dif_neg hx] at hc
        cases hc
    · rintro ⟨_, ⟨⟩, hx⟩
      exact ⟨_, dif_pos hx⟩

namespace Anomaly

abbrev ConfidencePlace : (Node → Node) → Prop := MemberPlace slots.names "confidence"

theorem hosts_confidence (place : Node → Node) (h : ConfidencePlace place) :
    Hosts reader readConfidence place := by
  have hslot : slots.Holds "confidence" readConfidence := by
    repeat refine Slots.holds_there (by decide) ?_
    exact Slots.holds_here
  exact (Hosts.member hslot h).parts parts fun _ ↦ rfl

end Anomaly

namespace Regression

abbrev ConfidencePlace : (Node → Node) → Prop := MemberPlace slots.names "confidence"

theorem hosts_confidence (place : Node → Node) (h : ConfidencePlace place) :
    Hosts reader readConfidence place := by
  have hslot : slots.Holds "confidence" readConfidence := by
    repeat refine Slots.holds_there (by decide) ?_
    exact Slots.holds_here
  exact (Hosts.member hslot h).parts parts fun _ ↦ rfl

end Regression

namespace Comparison

abbrev ConfidencePlace : (Node → Node) → Prop :=
  ListedPlace slots.names "anomalies_detected" Anomaly.ConfidencePlace

theorem hosts_confidence (place : Node → Node) (h : ConfidencePlace place) :
    Hosts reader readConfidence place := by
  have hslot : slots.Holds "anomalies_detected" (readList Anomaly.reader) := by
    repeat refine Slots.holds_there (by decide) ?_
    exact Slots.holds_here
  exact (Hosts.listed hslot Anomaly.hosts_confidence h).parts parts fun _ ↦ rfl

end Comparison

namespace Report

/-- A report holds findings of its own, those of comparisons, and regressions. -/
inductive ConfidencePlace : (Node → Node) → Prop where
  | anomaly {place : Node → Node}
      (h : ListedPlace slots.names "anomalies" Anomaly.ConfidencePlace place) :
      ConfidencePlace place
  | comparison {place : Node → Node}
      (h : ListedPlace slots.names "baseline_comparisons" Comparison.ConfidencePlace place) :
      ConfidencePlace place
  | regression {place : Node → Node}
      (h : ListedPlace slots.names "regressions" Regression.ConfidencePlace place) :
      ConfidencePlace place

theorem hosts_confidence (place : Node → Node) (h : ConfidencePlace place) :
    Hosts reader readConfidence place := by
  cases h with
  | anomaly h =>
    have hslot : slots.Holds "anomalies" (readList Anomaly.reader) := by
      repeat refine Slots.holds_there (by decide) ?_
      exact Slots.holds_here
    exact (Hosts.listed hslot Anomaly.hosts_confidence h).parts parts fun _ ↦ rfl
  | comparison h =>
    have hslot : slots.Holds "baseline_comparisons" (readList Comparison.reader) := by
      repeat refine Slots.holds_there (by decide) ?_
      exact Slots.holds_here
    exact (Hosts.listed hslot Comparison.hosts_confidence h).parts parts fun _ ↦ rfl
  | regression h =>
    have hslot : slots.Holds "regressions" (readList Regression.reader) := by
      repeat refine Slots.holds_there (by decide) ?_
      exact Slots.holds_here
    exact (Hosts.listed hslot Regression.hosts_confidence h).parts parts fun _ ↦ rfl

def confidences (r : Report Binary64) : List (Confidence Binary64) :=
  r.allAnomalies.map (·.confidence) ++ r.regressions.map (·.confidence)

end Report

/-- Texts that can be read stay so exactly with numbers from zero to one at certain places. -/
def ChecksConfidence {β : Type} (reader : Reader β) (Place : (Node → Node) → Prop) : Prop :=
  ∀ place, Place place → ∀ text n v, Json.parse? text = some (place n) →
    Json.decode reader text = .ok v → ∀ text' n', Json.parse? text' = some (place n') →
      ((∃ v', Json.decode reader text' = .ok v') ↔ ∃ x, readReal n' = .ok x ∧ InRange x) ∧
        ∀ x, readReal n' = .ok x → ¬ InRange x →
          Json.decode reader text' = .error (.confidence x)

theorem checksConfidence {β : Type} {reader : Reader β} {Place : (Node → Node) → Prop}
    (h : ∀ place, Place place → Hosts reader readConfidence place) :
    ChecksConfidence reader Place := by
  intro place hplace text n v hparse hv text' n' hparse'
  rw [Json.decode_of_parse? hparse] at hv
  obtain ⟨set, hset⟩ := h place hplace n v hv
  rw [Json.decode_of_parse? hparse', hset n']
  constructor
  · rw [← exists_readConfidence_iff]
    cases readConfidence n' with
    | error fault =>
      refine iff_of_false ?_ ?_
      · rintro ⟨_, hc⟩
        cases hc
      · rintro ⟨_, hc⟩
        cases hc
    | ok c => exact iff_of_true ⟨_, rfl⟩ ⟨_, rfl⟩
  · intro x hx hrange
    rw [readConfidence_eq hx, dif_neg hrange]
    rfl

theorem confidence_inRange :
    ((∀ a : Anomaly Binary64, a.confidence.value.isNaN = false ∧ InRange a.confidence.value) ∧
      (∀ r : Regression Binary64, r.confidence.value.isNaN = false ∧ InRange r.confidence.value) ∧
      ∀ r : Report Binary64, ∀ c ∈ r.confidences, c.value.isNaN = false ∧ InRange c.value) ∧
    ConfidenceSettings ∧ (∀ x : Binary64, Nearest x (saturate x)) ∧ ConfidencesFound ∧
    ChecksConfidence Anomaly.reader Anomaly.ConfidencePlace ∧
      ChecksConfidence Regression.reader Regression.ConfidencePlace ∧
      ChecksConfidence Comparison.reader Comparison.ConfidencePlace ∧
      ChecksConfidence Report.reader Report.ConfidencePlace := by
  have hrange (c : Confidence Binary64) : c.value.isNaN = false ∧ InRange c.value :=
    ⟨c.nonneg.2.1, c.nonneg, c.le_one⟩
  refine ⟨⟨fun a ↦ hrange _, fun r ↦ hrange _, fun r c _ ↦ hrange c⟩, confidenceSettings,
    nearest_saturate, confidencesFound, ?_, ?_, ?_, ?_⟩
  · exact checksConfidence Anomaly.hosts_confidence
  · exact checksConfidence Regression.hosts_confidence
  · exact checksConfidence Comparison.hosts_confidence
  · exact checksConfidence Report.hosts_confidence

theorem confidence_inRange_two :
    let instant := Instant.epoch.node
    let place (n : Node) : Node :=
      .list ([instant, instant, AnomalyKind.spike.node, Severity.high.node, .text "latency",
        .integer 2, .integer 1, .integer 1, .integer 100, .null] ++ n :: [.record [], .text ""])
    Anomaly.ConfidencePlace place ∧
      (∃ a, Json.decode Anomaly.reader (Json.compact (place (.integer 1))) = .ok a) ∧
      Json.decode Anomaly.reader (Json.compact (place (.integer 2))) =
        .error (.confidence (.ofInt 2)) := by
  intro instant place
  have hplace : Anomaly.ConfidencePlace place := .list _ _ (by decide)
  have hone : Json.parse? (Json.compact (place (.integer 1))) = some (place (.integer 1)) :=
    Json.parse?_compact _
  have htwo : Json.parse? (Json.compact (place (.integer 2))) = some (place (.integer 2)) :=
    Json.parse?_compact _
  obtain ⟨-, -, -, -, hchecks, -⟩ := confidence_inRange
  cases hread : Json.decode Anomaly.reader (Json.compact (place (.integer 1))) with
  | error fault =>
    have hok : (Anomaly.reader (place (.integer 1))).isOk = true := by decide +kernel
    rw [(Json.decode_of_parse? hone).symm.trans hread] at hok
    cases hok
  | ok a =>
    have hrefused := (hchecks place hplace _ _ a hone hread _ _ htwo).2
    exact ⟨hplace, ⟨a, rfl⟩, hrefused (.ofInt 2) rfl (by decide +kernel)⟩

end MetricWatch
