import MetricWatch.Proofs.Binary64.Finite
import MetricWatch.Stats

namespace MetricWatch.Stats

variable {values : List Binary64} {v : Binary64}

theorem isFinite_of_foldl {a : Binary64} (h : (values.foldl (· + ·) a).isFinite = true) :
    a.isFinite = true ∧ ∀ v ∈ values, v.isFinite = true := by
  induction values generalizing a with
  | nil => exact ⟨h, fun _ hv ↦ absurd hv List.not_mem_nil⟩
  | cons x rest ih =>
    obtain ⟨hsum, hrest⟩ := ih h
    obtain ⟨ha, hx⟩ := Binary64.isFinite_of_add hsum
    exact ⟨ha, List.forall_mem_cons.2 ⟨hx, hrest⟩⟩

theorem isFinite_of_sum (h : (sum values).isFinite = true) (hv : v ∈ values) :
    v.isFinite = true := (isFinite_of_foldl h).2 v hv

theorem isFinite_square_sub_mean (h : (populationStdDev values).isFinite = true)
    (hv : v ∈ values) : (square (v - mean values)).isFinite = true := by
  have hne : values.isEmpty = false := by
    cases values
    · exact absurd hv List.not_mem_nil
    · rfl
  simp only [populationStdDev, populationVariance, hne, Bool.false_eq_true, if_false] at h
  have hsum : (squaredDeviations values).isFinite = true :=
    Binary64.isFinite_of_div (Binary64.isFinite_of_sqrt h)
  exact isFinite_of_sum hsum (List.mem_map_of_mem hv)

theorem isFinite_sub_mean (h : (populationStdDev values).isFinite = true) (hv : v ∈ values) :
    (v - mean values).isFinite = true :=
  (Binary64.isFinite_of_mul (isFinite_square_sub_mean h hv)).1

theorem isNumber_score (h : (populationStdDev values).isFinite = true)
    (hpos : 0.0 < populationStdDev values) (hv : v ∈ values) :
    Scalar.IsNumber ((v - mean values) / populationStdDev values) :=
  Binary64.isNumber_iff.2 (Binary64.isNaN_div (isFinite_sub_mean h hv) hpos)

theorem foldl_isNaN {a : Binary64} (h : a.isNaN = true ∨ ∃ v ∈ values, v.isNaN = true) :
    (values.foldl (· + ·) a).isNaN = true := by
  induction values generalizing a with
  | nil =>
    rcases h with h | ⟨v, hv, -⟩
    · exact h
    · exact absurd hv List.not_mem_nil
  | cons x rest ih =>
    apply ih
    rcases h with h | ⟨v, hv, hn⟩
    · exact .inl (Binary64.add_isNaN (.inl h))
    · rcases List.mem_cons.1 hv with rfl | hv
      · exact .inl (Binary64.add_isNaN (.inr hn))
      · exact .inr ⟨v, hv, hn⟩

theorem mean_isNaN (hv : v ∈ values) (h : v.isNaN = true) : (mean values).isNaN = true := by
  have hne : ¬ values.isEmpty = true := by
    rw [List.isEmpty_iff]
    exact List.ne_nil_of_mem hv
  rw [mean, if_neg hne]
  exact Binary64.div_isNaN_of_left (foldl_isNaN (.inr ⟨v, hv, h⟩))

theorem changePercent_isNaN {base current : Binary64} (hbase : ¬ Scalar.IsZero base)
    (h : current.isNaN = true ∨ base.isNaN = true) : (changePercent base current).isNaN = true := by
  rw [changePercent, if_neg hbase]
  exact Binary64.mul_isNaN_of_left (Binary64.div_isNaN_of_left (Binary64.sub_isNaN h))

end MetricWatch.Stats
