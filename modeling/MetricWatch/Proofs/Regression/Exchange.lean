import MetricWatch.Proofs.Binary64.Opposite
import MetricWatch.Proofs.Regression.Verdict

namespace MetricWatch

namespace Welch

open Binary64

variable (before after : Sample Binary64)

theorem pooledFreedom_comm : pooledFreedom after before = pooledFreedom before after := by
  rw [pooledFreedom, pooledFreedom, Int.add_comm]

/-- Where the errors add up to no number, the degrees of freedom are those of both samples
together. -/
theorem freedom_of_isNaN {before after : Sample Binary64}
    (h : before.squaredError.isNaN = true ∨ after.squaredError.isNaN = true) :
    freedom before after = pooledFreedom before after := by
  unfold freedom
  dsimp only
  split
  · rfl
  · refine if_neg (not_zero_lt_of_isNaN (add_isNaN (h.imp (fun h ↦ ?_) fun h ↦ ?_)))
    · exact div_isNaN_of_left (mul_isNaN_of_left h)
    · exact div_isNaN_of_left (mul_isNaN_of_left h)

theorem freedom_comm : freedom after before = freedom before after := by
  by_cases hnan : before.squaredError.isNaN = true ∧ after.squaredError.isNaN = true
  · rw [freedom_of_isNaN (.inl hnan.1), freedom_of_isNaN (.inl hnan.2), pooledFreedom_comm]
  · unfold freedom
    dsimp only
    rw [pooledFreedom_comm before after, add_comm_of_number hnan]
    simp only [or_comm (a := Scalar.IsZero after.squaredError)]
    split
    · rfl
    · rcases add_comm_or
        (before.squaredError * before.squaredError / ((before.size : Binary64) - 1.0))
        (after.squaredError * after.squaredError / ((after.size : Binary64) - 1.0)) with h | ⟨h, h'⟩
      · rw [h]
      · rw [if_neg (not_zero_lt_of_isNaN h), if_neg (not_zero_lt_of_isNaN h')]

/-- All that is known of a test when its samples are exchanged. -/
structure Exchanged (r r' : WelchTest Binary64) : Prop where
  pValue : r'.pValue = r.pValue
  degreesOfFreedom : r'.degreesOfFreedom = r.degreesOfFreedom
  tStatistic : Same r'.tStatistic r.tStatistic.neg

theorem pValue_of_isNaN {t : Binary64} (df : Binary64) (h : t.isNaN = true) :
    Tail.pValue (Scalar.abs t) df = 1.0 := by
  have hnumber : ¬ Scalar.IsNumber (Scalar.abs t) := fun hn ↦ by
    have hfalse : t.isNaN = false := (isNaN_abs t).symm.trans (isNumber_iff.1 hn)
    rw [h] at hfalse
    cases hfalse
  exact if_pos (.inr hnumber)

theorem pValue_same_neg {t t' df : Binary64} (h : Same t' t.neg) :
    Tail.pValue (Scalar.abs t') df = Tail.pValue (Scalar.abs t) df := by
  cases ht : t'.isNaN with
  | true =>
    rcases same_neg_cases h with ⟨-, ht'⟩ | ⟨hnot, -⟩
    · rw [pValue_of_isNaN df ht, pValue_of_isNaN df ht']
    · rw [ht] at hnot
      cases hnot
  | false => rw [abs_eq_of_same_neg h ht]

theorem same_neg_zero : Same (0.0 : Binary64) (0.0 : Binary64).neg :=
  .inl ⟨by decide, by decide⟩

theorem test_exchanged : Exchanged (test before after) (test after before) := by
  simp only [test, testBy, or_comm (a := after.size < 2) (b := before.size < 2),
    and_comm (a := Scalar.IsZero after.stdDev) (b := Scalar.IsZero before.stdDev),
    pooledFreedom_comm before after, freedom_comm before after]
  split
  · exact ⟨rfl, rfl, same_neg_zero⟩
  split
  · simp only [Scalar.NumEq, and_comm (a := after.mean ≤ before.mean)]
    exact ⟨rfl, rfl, same_neg_zero⟩
  rcases add_comm_or before.squaredError after.squaredError with herror | ⟨herror, herror'⟩
  · rw [← herror]
    split
    · exact ⟨rfl, rfl, same_neg_zero⟩
    · have ht := div_same_neg (sub_same_neg before.mean after.mean)
        (Scalar.sqrt (before.squaredError + after.squaredError))
      exact ⟨pValue_same_neg ht, rfl, ht⟩
  · rw [if_neg (not_isZero_of_isNaN herror), if_neg (not_isZero_of_isNaN herror')]
    have ht := div_isNaN_of_right (x := after.mean - before.mean) (sqrt_isNaN herror)
    have ht' := div_isNaN_of_right (x := before.mean - after.mean) (sqrt_isNaN herror')
    have hsame := same_of_isNaN ht' ((isNaN_neg _).trans ht)
    exact ⟨pValue_same_neg hsame, rfl, hsame⟩

theorem effectSize_exchanged : Same (effectSize after before) (effectSize before after).neg := by
  have hsizes : (after.size : Binary64) + (before.size : Binary64) =
      (before.size : Binary64) + (after.size : Binary64) := add_comm_of_number fun h ↦ by
    rw [isNaN_natCast] at h
    exact Bool.false_ne_true h.1
  simp only [effectSize, or_comm (a := after.size < 2) (b := before.size < 2), hsizes]
  split
  · exact same_neg_zero
  rcases add_comm_or
    (((before.size : Binary64) - 1.0) * before.stdDev * before.stdDev)
    (((after.size : Binary64) - 1.0) * after.stdDev * after.stdDev) with hsum | ⟨hsum, hsum'⟩
  · rw [← hsum]
    split
    · exact same_neg_zero
    · exact div_same_neg (sub_same_neg before.mean after.mean) _
  · have hpooled {x : Binary64} (h : x.isNaN = true) (d : Binary64) :
        (Scalar.sqrt (x / d)).isNaN = true := sqrt_isNaN (div_isNaN_of_left h)
    rw [if_neg (not_isZero_of_isNaN (hpooled hsum _)),
      if_neg (not_isZero_of_isNaN (hpooled hsum' _))]
    exact same_of_isNaN (div_isNaN_of_right (hpooled hsum' _))
      ((isNaN_neg _).trans (div_isNaN_of_right (hpooled hsum _)))

end Welch

namespace Gate

variable (g : Gate Binary64) (now : Instant) (before after : List Binary64) (metric : String)

theorem pValue_exchanged :
    (g.detect now after before metric).test.map (·.pValue) =
      (g.detect now before after metric).test.map (·.pValue) := by
  by_cases hempty : before = [] ∨ after = []
  · rw [detect, detect, detectBy_of_empty hempty, detectBy_of_empty hempty.symm]
  · obtain ⟨hb, ha⟩ := not_or.1 hempty
    rw [detect, detect, detectBy_of_ne_nil hb ha, detectBy_of_ne_nil ha hb]
    exact congrArg some (Welch.test_exchanged (.ofValues before) (.ofValues after)).pValue

theorem not_isRegression_both : ¬ ((g.detect now before after metric).isRegression = true ∧
    (g.detect now after before metric).isRegression = true) := by
  rintro ⟨h, h'⟩
  obtain ⟨-, -, -, -, hrise, -⟩ := isRegression_iff.1 h
  obtain ⟨-, -, -, -, hfall, -⟩ := isRegression_iff.1 h'
  exact Binary64.not_le_of_lt hrise (Binary64.le_of_lt hfall)

end Gate

open Binary64 in
/-- The probability and the degrees of freedom are the same to the last bit, infinite operands and
such that are no numbers included, and no setting is asked to be valid. -/
theorem exchanged_samples :
    (∀ before after : Sample Binary64,
      let r := Welch.test before after
      let r' := Welch.test after before
      r'.pValue = r.pValue ∧ r'.degreesOfFreedom = r.degreesOfFreedom ∧
        Same r'.tStatistic (-r.tStatistic) ∧
        Same (Welch.effectSize after before) (-(Welch.effectSize before after))) ∧
    ∀ (g : Gate Binary64) (now : Instant) (before after : List Binary64) (metric : String),
      let r := g.detect now before after metric
      let r' := g.detect now after before metric
      r'.test.map (·.pValue) = r.test.map (·.pValue) ∧
        ¬ (r.isRegression = true ∧ r'.isRegression = true) := by
  refine ⟨fun before after ↦ ?_, fun g now before after metric ↦ ?_⟩
  · have h := Welch.test_exchanged before after
    exact ⟨h.pValue, h.degreesOfFreedom, h.tStatistic, Welch.effectSize_exchanged before after⟩
  · exact ⟨g.pValue_exchanged now before after metric,
      g.not_isRegression_both now before after metric⟩

end MetricWatch
