import MetricWatch.Proofs.Binary64.Leeway

namespace MetricWatch.Binary64

variable {f : Float → Float} {x y low high : Binary64}

theorem native_cases (f : Float → Float) (low high x : Binary64) :
    native f low high x = zero false ∨
      low ≤ native f low high x ∧ native f low high x ≤ high := by
  unfold native
  dsimp only
  split
  · rename_i h
    exact .inr h
  · exact .inl rfl

theorem native_bounds (hlow : low ≤ 0.0) (hhigh : 0.0 ≤ high) :
    low ≤ native f low high x ∧ native f low high x ≤ high := by
  rcases native_cases f low high x with h | h
  · have hzero : (0.0 : Binary64) = zero false := by decide
    rw [h, ← hzero]
    exact ⟨hlow, hhigh⟩
  · exact h

theorem natAbs_position (x : Binary64) : x.position.natAbs = x.magnitude := by
  unfold position
  split <;> omega

theorem isFinite_of_bounds (hlow : low.isFinite = true) (hhigh : high.isFinite = true)
    (h : low ≤ y) (h' : y ≤ high) : y.isFinite = true := by
  have hl : low.magnitude < infiniteMagnitude := of_decide_eq_true hlow
  have hh : high.magnitude < infiniteMagnitude := of_decide_eq_true hhigh
  have hpos := h.2.2
  have hpos' := h'.2.2
  refine decide_eq_true ?_
  rw [← natAbs_position] at hl hh ⊢
  omega

theorem bounded_of_le {u : ℝ} (hlow : low.isFinite = true) (hhigh : high.isFinite = true)
    (hl : -u ≤ low.value) (hh : high.value ≤ u) (h : low ≤ y) (h' : y ≤ high) : Bounded u y :=
  ⟨isFinite_of_bounds hlow hhigh h h',
    abs_le.2 ⟨hl.trans (value_le_value h), (value_le_value h').trans hh⟩⟩

theorem bounded_ln (hf : x.isFinite = true) (hx : 0 < x.value) : Bounded 745 (Scalar.ln x) := by
  obtain ⟨hn, hi⟩ := isFinite_iff.1 hf
  have hm := Nat.ne_of_gt (magnitude_pos_of_value_ne hx.ne')
  have hln : Scalar.ln x = native Float.log (ofInt (-745)) (ofInt 745) x := by
    change ln x = _
    simp only [ln, hn, hi, negative_of_value_pos hx, hm, Bool.false_eq_true, if_false]
  obtain ⟨h, h'⟩ := native_bounds (f := Float.log) (x := x)
    (by decide +kernel : ofInt (-745) ≤ 0.0) (by decide +kernel : 0.0 ≤ ofInt 745)
  have hvalue : (ofInt 745).value = 745 :=
    (value_of_signedUnits (k := 745) (by decide +kernel)).trans (by norm_num)
  have hvalue' : (ofInt (-745)).value = -745 :=
    (value_of_signedUnits (k := -745) (by decide +kernel)).trans (by norm_num)
  rw [hln]
  exact bounded_of_le (by decide +kernel) (by decide +kernel) hvalue'.ge hvalue.le h h'

/-- The exponential of a number is one, and is not negative. -/
theorem zero_le_exp (h : x.isNaN = false) : (0.0 : Binary64) ≤ Scalar.exp x := by
  have hexp : Scalar.exp x = native Float.exp (zero false)
      (if x.negative then ofNat 1 else infinity false) x := by
    change exp x = _
    rw [exp, h]
    rfl
  have hhigh : (0.0 : Binary64) ≤ if x.negative then ofNat 1 else infinity false := by
    cases x.negative <;> decide +kernel
  rw [hexp]
  exact (native_bounds (by decide) hhigh).1

theorem exp_le_one (h : x.isNaN = false) (hs : x.negative = true) :
    Scalar.exp x ≤ (1.0 : Binary64) := by
  have hexp : Scalar.exp x = native Float.exp (zero false) (ofNat 1) x := by
    change exp x = _
    rw [exp, h, hs]
    rfl
  have hone : ofNat 1 = (1.0 : Binary64) := by decide +kernel
  rw [hexp, hone]
  exact (native_bounds (by decide) (by decide +kernel)).2

/-- Between one half and three the sine is a positive number, or has been set to zero. -/
theorem sin_cases (h : ofDecimal false 5 (-1) ≤ x) (h' : x ≤ ofNat 3) :
    Scalar.sin x = zero false ∨ (0.1 : Binary64) ≤ Scalar.sin x ∧ Scalar.sin x ≤ 1.0 := by
  have hf := isFinite_of_bounds (by decide +kernel) (by decide +kernel) h h'
  obtain ⟨hn, hi⟩ := isFinite_iff.1 hf
  have hsin : Scalar.sin x = native Float.sin (ofDecimal false 1 (-1)) (ofInt 1) x := by
    change sin x = _
    rw [sin, hn, hi]
    simp only [Bool.false_eq_true, if_false, h, h', and_self, if_true]
  have hone : ofInt 1 = (1.0 : Binary64) := by decide +kernel
  rw [hsin, hone]
  exact native_cases _ _ _ _

end MetricWatch.Binary64
