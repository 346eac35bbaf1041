import MetricWatch.Proofs.Document.Baseline
import MetricWatch.Store

namespace MetricWatch.Store

theorem loadBaseline_saveBaseline (b : Baseline Binary64) :
    loadBaseline (saveBaseline b) = if b.Storable then .ok b else .error .malformed :=
  Baseline.faithful.decode_print (by simp : Json.pretty ∈ [Json.compact, Json.pretty]) b

/-- Counts always fit in a running program, so that what decides is whether the numbers are
finite. -/
theorem load_save :
    (∀ b : Baseline Binary64, loadBaseline (saveBaseline b) =
      if b.CountsFit ∧ ∀ x ∈ b.numbers, x.isFinite = true then .ok b else .error .malformed) ∧
    ∀ history : List (Baseline Binary64), loadHistory (saveHistory history) =
      if ∀ b ∈ history, b.CountsFit ∧ ∀ x ∈ b.numbers, x.isFinite = true then .ok history
      else .error .malformed := by
  have hpretty : Json.pretty ∈ [Json.compact, Json.pretty] := by simp
  constructor
  · intro b
    exact Baseline.faithful.decode_print hpretty b
  · intro history
    have h := Baseline.faithful.list.decode_print hpretty history
    rw [List.map_id] at h
    exact h

theorem load_save_zero :
    let b : Baseline Binary64 := { Baseline.empty .epoch "latency" 7 with mean := .zero true }
    let c : Baseline Binary64 := { b with p99 := .nan false }
    loadBaseline (saveBaseline b) = .ok b ∧ loadHistory (saveHistory [b, b]) = .ok [b, b] ∧
      loadBaseline (saveBaseline c) = .error .malformed ∧
      loadHistory (saveHistory [b, c]) = .error .malformed := by
  intro b c
  have hb : b.Storable := by decide +kernel
  have hc : ¬ c.Storable := by decide +kernel
  refine ⟨?_, ?_, ?_, ?_⟩
  · rw [load_save.1, if_pos hb]
  · rw [load_save.2, if_pos]
    intro d hd
    obtain rfl : d = b := by simpa using hd
    exact hb
  · rw [load_save.1, if_neg hc]
  · rw [load_save.2, if_neg]
    intro hall
    exact hc (hall c (by simp))

end MetricWatch.Store
