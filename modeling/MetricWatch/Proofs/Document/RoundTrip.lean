import MetricWatch.Proofs.Document.Report

namespace MetricWatch

variable {β : Type}

open Json

/-- How values of a type survive, written on one line or indented. -/
structure RoundTrips (write : β → Node) (reader : Node.Reader β) (Storable : β → Prop) : Prop where
  restored : ∀ print ∈ [compact, pretty], ∀ v, Storable v → decode reader (print (write v)) = .ok v
  /-- What was read from any text at all is written once and for all. -/
  settled : ∀ print ∈ [compact, pretty], ∀ text v, decode reader text = .ok v →
    ∃ v', decode reader (print (write v)) = .ok v' ∧ v' = v ∧ print (write v') = print (write v)

theorem Node.Faithful.roundTrips {write : β → Node} {reader : Node.Reader β}
    {Fits Storable : β → Prop} {kept : β → β} (hf : Faithful write reader Fits kept)
    (hstorable : ∀ v, Storable v → Fits v ∧ kept v = v) : RoundTrips write reader Storable := by
  classical
  have hread : ∀ print ∈ [compact, pretty], ∀ v, Fits v ∧ kept v = v →
      decode reader (print (write v)) = .ok v := by
    intro print hprint v hv
    rw [hf.decode_print hprint, if_pos hv.1, hv.2]
  constructor
  · intro print hprint v hv
    exact hread print hprint v (hstorable v hv)
  · intro print hprint text v hv
    exact ⟨v, hread print hprint v (hf.of_decode hv), rfl, rfl⟩

theorem documents_roundTrip :
    RoundTrips Report.node Report.reader Report.Storable ∧
      RoundTrips Comparison.node Comparison.reader Comparison.Storable ∧
      RoundTrips Regression.node Regression.reader Regression.Storable ∧
      RoundTrips Anomaly.node Anomaly.reader Anomaly.Storable := by
  refine ⟨?_, ?_, ?_, ?_⟩
  · exact Report.faithful.roundTrips fun r ↦ Report.accepted_of_storable
  · exact Comparison.faithful.roundTrips fun c ↦ Comparison.accepted_of_storable
  · exact Regression.faithful.roundTrips fun g hg ↦ ⟨hg, rfl⟩
  · exact Anomaly.faithful.roundTrips fun a ↦ Anomaly.accepted_of_storable

theorem documents_roundTrip_spike :
    let point : Anomaly Binary64 :=
      { Anomaly.ofPoint .epoch "latency" .spike .high 2.0 1.0 .epoch with
        zScore := some (.zero true) }
    let r : Report Binary64 := (Report.new .epoch .epoch .epoch).addAnomalies 10 [point]
    r.Storable ∧ decode Report.reader (pretty r.node) = .ok r := by
  intro point r
  have hr : r.Storable := by
    unfold Report.Storable
    decide +kernel
  exact ⟨hr, documents_roundTrip.1.restored pretty (by simp) r hr⟩

end MetricWatch
