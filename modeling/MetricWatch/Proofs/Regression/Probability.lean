import MetricWatch.Proofs.Regression.Fraction
import MetricWatch.Proofs.Regression.Gamma

namespace MetricWatch

namespace Tail

open Binary64 (Bounded Near Roomy Spread leeway near_literal near_one near_two value_half value_one
  bounded_half)

variable {x a b t df : Binary64}

theorem bounded_literal {m e : Nat} (hm : 0 < m) (he : 0 < e) (he' : e ≤ 30) {u : ℝ}
    (h : 1 / 10 ^ 12 ≤ (m : ℝ) / 10 ^ e) (h' : (m : ℝ) / 10 ^ e ≤ 10 ^ 12)
    (hu : (m : ℝ) / 10 ^ e * leeway ≤ u) :
    Bounded u (OfScientific.ofScientific m true e : Binary64) := by
  have hnear := near_literal hm he he' ⟨h, h'⟩
  refine (hnear.bounded (LT.lt.trans_le (by norm_num) h)).mono ?_
  rw [pow_one]
  exact hu

theorem bounded_erfcPolynomial (ht : Bounded 1 t) :
    Bounded 8 (((((1.061405429 * t + -1.453152027) * t + 1.421413741) * t + -0.284496736) * t +
      0.254829592) * t) := by
  have hroomy {w : ℝ} : 1 ≤ w → w ≤ 10 ^ 5 → Roomy w := Binary64.roomy_of_one_le
  have h₅ : Bounded (11 / 10) (1.061405429 : Binary64) := bounded_literal (by decide) (by decide)
    (by decide) (by norm_num) (by norm_num) (by norm_num [leeway])
  have h₄ : Bounded (3 / 2) (1.453152027 : Binary64) := bounded_literal (by decide) (by decide)
    (by decide) (by norm_num) (by norm_num) (by norm_num [leeway])
  have h₃ : Bounded (3 / 2) (1.421413741 : Binary64) := bounded_literal (by decide) (by decide)
    (by decide) (by norm_num) (by norm_num) (by norm_num [leeway])
  have h₂ : Bounded (1 / 2) (0.284496736 : Binary64) := bounded_literal (by decide) (by decide)
    (by decide) (by norm_num) (by norm_num) (by norm_num [leeway])
  have h₁ : Bounded (1 / 2) (0.254829592 : Binary64) := bounded_literal (by decide) (by decide)
    (by decide) (by norm_num) (by norm_num) (by norm_num [leeway])
  have hstep {p c : Binary64} {u v w : ℝ} (hp : Bounded u p) (hc : Bounded v c) (hu : 1 ≤ u)
      (hu' : u ≤ 8) (hw : 1 ≤ w) (hw' : w ≤ 8) (h : (u * leeway + v) * leeway ≤ w) :
      Bounded w (p * t + c) := by
    have hproduct := hp.mul ht (w := u * leeway) (hroomy (by rw [leeway]; linarith)
      (by rw [leeway]; linarith)) (by rw [mul_one])
    exact hproduct.add hc (hroomy hw (by linarith)) h
  have hfourth := hstep h₅ h₄.neg (w := 3) (by norm_num) (by norm_num) (by norm_num) (by norm_num)
    (by norm_num [leeway])
  have hthird := hstep hfourth h₃ (w := 5) (by norm_num) (by norm_num) (by norm_num) (by norm_num)
    (by norm_num [leeway])
  have hsecond := hstep hthird h₂.neg (w := 6) (by norm_num) (by norm_num) (by norm_num)
    (by norm_num) (by norm_num [leeway])
  have hfirst := hstep hsecond h₁ (w := 7) (by norm_num) (by norm_num) (by norm_num) (by norm_num)
    (by norm_num [leeway])
  exact hfirst.mul ht (hroomy (by norm_num) (by norm_num)) (by norm_num [leeway])

theorem isNaN_erfc (h : (0.0 : Binary64) ≤ x) : (erfc x).isNaN = false := by
  have hlarger : Scalar.larger x 0.0 = x := by
    rw [Scalar.larger, if_neg fun hlt ↦ Binary64.not_le_of_lt hlt h,
      if_pos (Binary64.isNumber_iff.2 h.2.1)]
  have hscaled := Binary64.mul_nonneg (x := 0.3275911) (by decide +kernel) (by decide +kernel) h
  have hone : (1.0 : Binary64) ≤ 1.0 + 0.3275911 * x := by
    have hle := Binary64.add_le_add_left Binary64.isFinite_one hscaled
    rwa [show (1.0 : Binary64) + 0.0 = 1.0 by decide +kernel] at hle
  have hpoly := bounded_erfcPolynomial (Binary64.bounded_inv hone)
  obtain ⟨hn, hs⟩ := Binary64.neg_mul_self h.2.1
  have hexp : Bounded 1 (Scalar.exp (-x * x)) :=
    Binary64.bounded_of_le (by decide : (0.0 : Binary64).isFinite = true) Binary64.isFinite_one
      (by rw [Binary64.value_nought]; norm_num) value_one.le (Binary64.zero_le_exp hn)
      (Binary64.exp_le_one hn hs)
  unfold erfc
  rw [hlarger]
  exact (hpoly.mul hexp (w := 9) ⟨by norm_num, by norm_num⟩ (by norm_num [leeway])).isNaN

/-- Half of at least half a degree of freedom and of thirty at most, with room for rounding. The
other parameter is then one half. -/
structure Freedom (a : Binary64) : Prop where
  isFinite : a.isFinite = true
  low : 6 / 25 ≤ a.value
  high : a.value ≤ 31 / 2

theorem Freedom.parameter (h : Freedom a) : Parameter a :=
  ⟨h.isFinite, LE.le.trans (by norm_num) h.low, h.high.trans (by norm_num)⟩

theorem parameter_half : Parameter (0.5 : Binary64) := by
  refine ⟨by decide +kernel, ?_, ?_⟩ <;> rw [value_half] <;> norm_num

/-- The logarithm of the beta function may be infinite, but only above. -/
theorem isNaN_lnBeta (ha : Freedom a) :
    (lnGamma a + lnGamma 0.5 - lnGamma (a + 0.5)).isNaN = false := by
  have hlow := ha.low
  have hhigh := ha.high
  obtain ⟨hsf, hsl, hsr⟩ := Binary64.within_of_rounds (u := 16)
    (Binary64.rounds_add ha.isFinite parameter_half.isFinite)
    (abs_le.2 ⟨by rw [value_half]; linarith, by rw [value_half]; linarith⟩) (by norm_num)
    (by norm_num)
  rw [value_half] at hsl hsr
  have hself := bounded_lnGamma (x := 0.5) parameter_half.isFinite (by decide +kernel)
    (by rw [value_half]; norm_num)
  have hlarger : (0.5 : Binary64) ≤ a + 0.5 := by
    refine Binary64.le_of_value_le (by decide +kernel) (Binary64.isFinite_iff.1 hsf).1 ?_
    rw [value_half]
    linarith
  have hboth := bounded_lnGamma hsf hlarger (by linarith)
  exact Binary64.isNaN_sub (Binary64.isNaN_add (isNaN_lnGamma ha.isFinite hlow (by linarith))
    hself.isNaN (.inr hself.isFinite)) hboth.isNaN (.inr hboth.isFinite)

/-- The point where the fraction is used in the other order. -/
theorem near_peak (ha : Freedom a) : Near 4 ((a.value + 1) / (a.value + 1 / 2 + 2))
    ((a + 1.0) / (a + 0.5 + 2.0)) := by
  have hlow := ha.low
  have hhigh := ha.high
  have hself := Binary64.near_of_value ha.isFinite rfl
  have hnumerator := hself.add near_one (by decide) ⟨by linarith, by linarith⟩
  have hsum := hself.add (Binary64.near_of_value parameter_half.isFinite value_half) (by decide)
    ⟨by linarith, by linarith⟩
  have hdivisor := hsum.add (near_two.mono two_pos (by decide)) (by decide)
    ⟨by linarith, by linarith⟩
  refine hnumerator.div hdivisor (by linarith) (by linarith) (by decide) ⟨?_, ?_⟩
  · rw [le_div_iff₀ (by linarith)]
    linarith
  · rw [div_le_iff₀ (by linarith)]
    linarith

section Argument

variable (ha : Freedom a) (hx : x.isFinite = true) (hpos : 0 < x.value)
include ha hx hpos

theorem converges_of_lt (h : x < (a + 1.0) / (a + 0.5 + 2.0)) : Converges x a 0.5 := by
  have hlow := ha.low
  have hpeak := near_peak ha
  have hle := (Binary64.value_lt_value h).le.trans hpeak.le
  have hsum : 0 < a.value + 1 / 2 + 2 := by linarith
  have hpow := Binary64.leeway_pow_le (k := 4) (by decide)
  refine ⟨hx, hpos, ?_⟩
  rw [value_half]
  rw [div_mul_eq_mul_div, le_div_iff₀ hsum] at hle
  refine hle.trans (mul_le_mul_of_nonneg_left (hpow.trans ?_) (by linarith))
  norm_num

theorem converges_of_le (hone : x < (1.0 : Binary64))
    (h : (a + 1.0) / (a + 0.5 + 2.0) ≤ x) : Converges (1.0 - x) 0.5 a := by
  have hlow := ha.low
  have hhigh := ha.high
  have hvalue := Binary64.value_lt_value hone
  rw [value_one] at hvalue
  have hpeak := near_peak ha
  have hsum : 0 < a.value + 1 / 2 + 2 := by linarith
  have hge := hpeak.ge.trans (mul_le_mul_of_nonneg_right (Binary64.value_le_value h)
    (Binary64.leeway_pow_pos 4).le)
  rw [div_le_iff₀ hsum] at hge
  obtain ⟨hrf, hrl, hrr⟩ := Binary64.within_of_rounds (u := 1)
    (Binary64.rounds_sub Binary64.isFinite_one hx)
    (abs_le.2 ⟨by rw [value_one]; linarith, by rw [value_one]; linarith⟩) (by norm_num)
    (by norm_num)
  rw [value_one] at hrl hrr
  refine ⟨hrf, ?_, ?_⟩
  · have hfirst := (Binary64.one_sub_pos hone).1
    have hvalue := Binary64.value_lt_value hfirst
    rwa [Binary64.value_nought] at hvalue
  · have hpow : leeway ^ 4 ≤ 1 + 1 / 10 ^ 8 := by norm_num [leeway]
    have hprod : x.value * (a.value + 1 / 2 + 2) ≤ a.value + 1 / 2 + 2 :=
      mul_le_of_le_one_left hsum.le hvalue.le
    have hslack := mul_le_mul_of_nonneg_left hpow (Left.mul_nonneg hpos.le hsum.le)
    have hrest := mul_le_mul_of_nonneg_right hrr hsum.le
    rw [value_half]
    linarith

end Argument

/-- The factor in front of the fraction is a number, if an infinite one. -/
theorem isNaN_front (ha : Freedom a) (hx : x.isFinite = true) (hpos : 0 < x.value)
    (hx' : ((1.0 : Binary64) - x).isFinite = true) (hpos' : 0 < ((1.0 : Binary64) - x).value) :
    (Scalar.exp (a * Scalar.ln x + 0.5 * Scalar.ln (1.0 - x) -
      (lnGamma a + lnGamma 0.5 - lnGamma (a + 0.5)))).isNaN = false := by
  have hroomy {w : ℝ} : 1 ≤ w → w ≤ 10 ^ 5 → Roomy w := Binary64.roomy_of_one_le
  have hlow := ha.low
  have ha' : Bounded 16 a := ⟨ha.isFinite, abs_le.2 ⟨by linarith, by linarith [ha.high]⟩⟩
  have hfirst := ha'.mul (Binary64.bounded_ln hx hpos) (w := 12000)
    (hroomy (by norm_num) (by norm_num)) (by norm_num [leeway])
  have hsecond := bounded_half.mul (Binary64.bounded_ln hx' hpos') (w := 800)
    (hroomy (by norm_num) (by norm_num)) (by norm_num [leeway])
  have hsum := hfirst.add hsecond (w := 13000) (hroomy (by norm_num) (by norm_num))
    (by norm_num [leeway])
  have hexponent := Binary64.isNaN_sub hsum.isNaN (isNaN_lnBeta ha) (.inl hsum.isFinite)
  exact (Binary64.zero_le_exp hexponent).2.1

theorem isNaN_incompleteBeta (ha : Freedom a) (hx : x.isNaN = false) :
    (incompleteBeta x a 0.5).isNaN = false := by
  unfold incompleteBeta
  split
  · decide
  split
  · decide +kernel
  rename_i hzero hone
  have hlower := Binary64.lt_of_not_le hx (by decide) hzero
  have hupper := Binary64.lt_of_not_le (by decide +kernel) hx hone
  have hf := Binary64.isFinite_of_le_one (Binary64.le_of_lt hlower) (Binary64.le_of_lt hupper)
  have hpos : 0 < x.value := Binary64.value_nought ▸ Binary64.value_lt_value hlower
  have hrest := (Binary64.one_sub_pos hupper).1
  have hrestle := Binary64.sub_le_sub_left Binary64.isFinite_one (Binary64.le_of_lt hlower)
  rw [show (1.0 : Binary64) - 0.0 = 1.0 by decide +kernel] at hrestle
  have hrestf := Binary64.isFinite_of_le_one (Binary64.le_of_lt hrest) hrestle
  have hrestpos : 0 < ((1.0 : Binary64) - x).value :=
    Binary64.value_nought ▸ Binary64.value_lt_value hrest
  have hfront := isNaN_front ha hf hpos hrestf hrestpos
  have hfraction {y c d : Binary64} (hy : Spread (10 ^ 240) (10 ^ 240) y) (hd : Parameter d)
      (hc : c.isNaN = false) : (c * y / d).isNaN = false := by
    have hproduct := Binary64.isNaN_mul hc hy.isFinite
      (Binary64.magnitude_pos_of_value_ne (hy.pos (by norm_num)).ne')
    refine Binary64.isNaN_div_of_isFinite hproduct (Binary64.lt_of_value_lt (by decide)
      (Binary64.isFinite_iff.1 hd.isFinite).1 ?_) hd.isFinite
    rw [Binary64.value_nought]
    exact LT.lt.trans_le (by norm_num) hd.low
  dsimp only
  split
  · rename_i hlt
    exact hfraction (betaFraction_spread ha.parameter parameter_half (.inr value_half)
      (converges_of_lt ha hf hpos hlt)) ha.parameter hfront
  · -- From the peak on the parameters change places, and one half is the first of them.
    rename_i hlt
    have hpeak := (Binary64.isFinite_iff.1 (near_peak ha).isFinite).1
    have hle := Binary64.le_of_not_lt hx hpeak hlt
    have hnumber := hfraction (betaFraction_spread parameter_half ha.parameter (.inl value_half)
      (converges_of_le ha hf hpos hupper hle)) parameter_half hfront
    exact Binary64.isNaN_sub (by decide +kernel) hnumber (.inl Binary64.isFinite_one)

theorem freedom_half (h : (0.5 : Binary64) ≤ df) (h' : df ≤ (30.0 : Binary64)) :
    Freedom (df / 2.0) := by
  have hf := Binary64.isFinite_of_bounds (by decide +kernel) (by decide +kernel) h h'
  have hlow := Binary64.value_le_value h
  have hhigh := Binary64.value_le_value h'
  have hthirty : (30.0 : Binary64).value = 30 :=
    (Binary64.value_of_signedUnits (k := 30) (by decide +kernel)).trans (by norm_num)
  rw [value_half] at hlow
  rw [hthirty] at hhigh
  have hnear := (Binary64.near_of_value hf rfl).div near_two (by linarith) two_pos (by decide)
    ⟨by linarith, by linarith⟩
  have hle := hnear.le
  have hge := hnear.ge
  rw [leeway] at hle hge
  exact ⟨hnear.isFinite, by linarith, by linarith⟩

/-- Whatever the statistic is, there is a probability with at least half a degree of freedom, and
there is one without any. -/
theorem pValue_inRange (h : df ≤ (0.0 : Binary64) ∨ (0.5 : Binary64) ≤ df) :
    (0.0 : Binary64) ≤ pValue t df ∧ pValue t df ≤ (1.0 : Binary64) := by
  have hzero : (0.0 : Binary64) ≤ 1.0 := Scalar.zero_le_one
  have hone : (1.0 : Binary64) ≤ 1.0 := Scalar.le_self_right hzero
  unfold pValue
  split
  · exact ⟨hzero, hone⟩
  rename_i hcases
  rw [not_or, not_not] at hcases
  obtain ⟨hdf, ht⟩ := hcases
  have hhalf := h.resolve_left hdf
  have habs := Binary64.zero_le_abs (Binary64.isNumber_iff.2
    ((Binary64.isNaN_abs t).trans (Binary64.isNumber_iff.1 ht)))
  refine Scalar.clamp_bounds hzero (Binary64.isNumber_iff.2 ?_)
  split
  · exact isNaN_erfc (Binary64.div_nonneg habs (by decide +kernel) (by decide +kernel))
  · rename_i hnormal
    have hle := Binary64.le_of_not_lt (by decide +kernel) hhalf.2.1 hnormal
    have hf := Binary64.isFinite_of_bounds (by decide +kernel) (by decide +kernel) hhalf hle
    have hpos : (0.0 : Binary64) < df := Binary64.lt_of_lt_of_le (by decide +kernel) hhalf
    have hsquare := Binary64.zero_le_mul_self habs.2.1
    exact isNaN_incompleteBeta (freedom_half hhalf hle)
      (Binary64.isNaN_div hf (Binary64.add_pos hpos hsquare))

theorem incompleteBeta_isNaN (hx : x.isNaN = true) (ha : a.isNaN = true) :
    (incompleteBeta x a b).isNaN = true := by
  have hexp {y : Binary64} (h : y.isNaN = true) : (Scalar.exp y).isNaN = true := by
    have hself : Scalar.exp y = y := if_pos h
    rw [hself, h]
  unfold incompleteBeta
  rw [if_neg (Binary64.not_le_of_isNaN hx).1, if_neg (Binary64.not_le_of_isNaN hx).2]
  dsimp only
  rw [if_neg (Binary64.not_lt_of_isNaN hx).1]
  exact Binary64.sub_isNaN (.inr (Binary64.div_isNaN_of_left (Binary64.mul_isNaN_of_left (hexp
    (Binary64.sub_isNaN (.inl (Binary64.add_isNaN (.inl (Binary64.mul_isNaN_of_left ha)))))))))

theorem pValue_isNaN (ht : Scalar.IsNumber t) (h : df.isNaN = true) :
    (pValue t df).isNaN = true := by
  have hbeta := incompleteBeta_isNaN (b := 0.5)
    (Binary64.div_isNaN_of_left (y := df + Scalar.abs t * Scalar.abs t) h)
    (Binary64.div_isNaN_of_left (y := 2.0) h)
  unfold pValue
  rw [if_neg (not_or.2 ⟨(Binary64.not_le_of_isNaN h).1, not_not.2 ht⟩)]
  dsimp only
  rw [if_neg (Binary64.not_lt_of_isNaN h).2, Scalar.clamp,
    if_neg (Binary64.not_lt_of_isNaN hbeta).1, if_neg (Binary64.not_lt_of_isNaN hbeta).2]
  exact hbeta

end Tail

end MetricWatch
