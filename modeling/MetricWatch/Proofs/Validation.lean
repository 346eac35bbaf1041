import MetricWatch.Comparator
import MetricWatch.Proofs.Binary64.Order
import MetricWatch.Regression.Gate

namespace MetricWatch

theorem guard_eq_ok_iff {ε : Type} {p : Prop} [Decidable p] {e : ε} {rest : Except ε Unit} :
    (if p then .error e else rest) = .ok () ↔ ¬ p ∧ rest = .ok () := by
  split <;> simp_all

theorem zero_lt_of_positive {x : Binary64} (h : PositiveThreshold x) : (0.0 : Binary64) < x :=
  Binary64.lt_of_not_le (Binary64.isFinite_iff.1 h.1).1 (by decide) h.2

theorem positiveThreshold_iff {x : Binary64} :
    PositiveThreshold x ↔ x.isFinite = true ∧ (0.0 : Binary64) < x :=
  ⟨fun h ↦ ⟨h.1, zero_lt_of_positive h⟩, fun h ↦ ⟨h.1, Binary64.not_le_of_lt h.2⟩⟩

variable {α : Type} [Scalar α]

theorem Gate.validate_eq_ok_iff {g : Gate α} :
    g.validate = .ok () ↔
      (0.0 < g.significanceLevel ∧ g.significanceLevel < 1.0) ∧
        (Scalar.isFinite g.minEffectSize = true ∧ ¬ g.minEffectSize < 0.0) ∧
        PositiveThreshold g.threshold ∧
        Scalar.isFinite g.critical = true ∧ ¬ g.critical < g.threshold := by
  simp only [validate, guard_eq_ok_iff, not_or, Decidable.not_not, and_true]

theorem Detector.validate_eq_ok_iff {d : Detector α} :
    d.validate = .ok () ↔ PositiveThreshold d.zThreshold ∧ PositiveThreshold d.iqrMultiplier ∧
      2 ≤ d.minSampleSize := by
  simp only [validate, guard_eq_ok_iff, Decidable.not_not, Nat.not_lt, and_true]

theorem Comparator.validate_eq_ok_iff {c : Comparator α} :
    c.validate = .ok () ↔
      (∀ t ∈ c.thresholds, PositiveThreshold t.2) ∧ ¬ c.critical < c.high := by
  unfold validate
  split
  · rename_i name value h
    have hrefused := List.find?_some h
    exact iff_of_false nofun fun hall ↦
      of_decide_eq_true hrefused (hall.1 _ (List.mem_of_find?_eq_some h))
  · rename_i h
    have hall : ∀ t ∈ c.thresholds, PositiveThreshold t.2 := by simpa using h
    rw [guard_eq_ok_iff, and_iff_left rfl, and_iff_right hall]

end MetricWatch
