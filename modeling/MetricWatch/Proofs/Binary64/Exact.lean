import MetricWatch.Proofs.Binary64.Lower

namespace MetricWatch.Binary64

variable {x y : Binary64} {d n u : Nat} {negative : Bool}

theorem eq_of_units (hs : x.negative = y.negative) (hu : x.units = y.units) : x = y := by
  rw [← ofMagnitude_self x, ← ofMagnitude_self y, hs, unitsOf_strictMono.injective hu]

theorem units_zero (negative : Bool) : (zero negative).units = 0 :=
  units_eq_zero (magnitude_zero negative)

theorem units_two : (0.0 : Binary64) ≤ 2.0 ∧ (2.0 : Binary64).units = 2 * unit ∧
    0 < (2.0 : Binary64).magnitude := by decide +kernel

theorem isZero_zero_mul : Scalar.IsZero (zero false * zero false) := by decide +kernel

theorem sub_self (h : x.isFinite = true) : x - x = zero false := by
  have hneg : x.neg.isFinite = true := (isFinite_neg x).trans h
  rw [sub_eq h h, add_eq h hneg, addFinite, signedUnits_neg, Int.add_right_neg, if_pos rfl,
    negative_neg, Bool.and_not_self]

theorem sub_self_isNaN (h : x.isFinite = false) : (x - x).isNaN = true := by
  change (sub x x).isNaN = true
  cases hn : x.isNaN with
  | true =>
    rw [sub, if_pos hn]
    exact hn
  | false =>
    have hi : x.isInfinite = true := by simpa [← Bool.not_eq_true, isFinite_iff, hn] using h
    simp only [sub, add, isNaN_neg, isInfinite_neg, negative_neg, hn, hi, Bool.false_eq_true,
      if_false, if_true, Bool.true_and]
    rw [if_pos (by cases x.negative <;> rfl)]
    exact invalid_isNaN

theorem ofQuotient_exact (hu : IsSize u) (hd : 0 < d) (h : n = u * d) :
    (ofQuotient negative n d).isFinite = true ∧ (ofQuotient negative n d).units = u := by
  have hmost : AtMost u (ofQuotient negative n d) := atMost_ofQuotient hu hd h.le
  exact ⟨hmost.isFinite, hmost.units_le.antisymm (le_units_ofQuotient hu hd h.ge)⟩

theorem decide_signedUnits_lt (h : 0 < x.units) : decide (x.signedUnits < 0) = x.negative := by
  unfold signedUnits
  cases x.negative
  · exact decide_eq_false (by simp)
  · exact decide_eq_true (by simpa using h)

/-- The negative zero changes nothing, not even the sign of a zero. -/
theorem zero_add_exact (hy : y.isFinite = true) : zero true + y = y := by
  have hz : (zero true).isFinite = true := (atMost_zero true 0).isFinite
  have hsum : (zero true).signedUnits + y.signedUnits = y.signedUnits := by
    simp [signedUnits, units_zero]
  rw [add_eq hz hy, addFinite, hsum, negative_zero, Bool.true_and]
  rcases Nat.eq_zero_or_pos y.units with hzero | hpos
  · rw [if_pos (by simp [signedUnits, hzero])]
    exact eq_of_units (negative_zero _) ((units_zero _).trans hzero.symm)
  · have hne : y.signedUnits ≠ 0 := by
      have habs := natAbs_signedUnits y
      omega
    rw [if_neg hne, decide_signedUnits_lt hpos, natAbs_signedUnits]
    have hexact : _ ∧ (ofQuotient y.negative y.units 1).units = _ :=
      ofQuotient_exact (isSize_units hy) Nat.one_pos (Nat.mul_one _).symm
    exact eq_of_units (negative_ofQuotient _ _ _) hexact.2

theorem addFinite_of_same_sign (hs : x.negative = y.negative) (hpos : 0 < x.units + y.units) :
    addFinite x y = ofQuotient x.negative (x.units + y.units) 1 := by
  unfold addFinite signedUnits
  rw [← hs]
  cases x.negative
  · simp only [Bool.false_eq_true, if_false]
    rw [if_neg (by omega), decide_eq_false (by omega)]
    rfl
  · simp only [if_true]
    rw [if_neg (by omega), decide_eq_true (by omega),
      show (-(x.units : Int) + -(y.units : Int)).natAbs = x.units + y.units by omega]

theorem add_exact (hx : x.isFinite = true) (hy : y.isFinite = true)
    (hs : x.negative = y.negative) (hu : IsSize (x.units + y.units)) :
    (x + y).isFinite = true ∧ (x + y).negative = x.negative ∧
      (x + y).units = x.units + y.units := by
  rw [add_eq hx hy]
  rcases Nat.eq_zero_or_pos (x.units + y.units) with hzero | hpos
  · have hxu : x.units = 0 := by omega
    have hyu : y.units = 0 := by omega
    have hsum : x.signedUnits + y.signedUnits = 0 := by simp [signedUnits, hxu, hyu]
    rw [addFinite, hsum, if_pos rfl, ← hs, Bool.and_self, hzero]
    exact ⟨(atMost_zero _ 0).isFinite, negative_zero _, units_zero _⟩
  · rw [addFinite_of_same_sign hs hpos]
    obtain ⟨hf, hunits⟩ : _ ∧ (ofQuotient x.negative (x.units + y.units) 1).units = _ :=
      ofQuotient_exact hu Nat.one_pos (Nat.mul_one _).symm
    exact ⟨hf, negative_ofQuotient _ _ _, hunits⟩

end MetricWatch.Binary64
