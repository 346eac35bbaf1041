import MetricWatch.Proofs.Exact.Arithmetic
import MetricWatch.Proofs.Binary64.Native
import MetricWatch.Regression.Tail

namespace MetricWatch.Tail

open Binary64 (Bounded Near near_literal near_two value_half value_one bounded_half leeway)

variable {x y c : Binary64} {k l u l' u' : ℝ} {i : Nat}

structure Above (l u : ℝ) (x : Binary64) : Prop where
  isFinite : x.isFinite = true
  low : l ≤ x.value
  size : |x.value| ≤ u

theorem Above.add (hx : Above l u x) (hy : Above l' u' y) (h : u + u' ≤ 10 ^ 5) :
    Above (l + l' - 1 / 10 ^ 6) (u + u' + 1 / 10 ^ 6) (x + y) := by
  have hsize : |x.value + y.value| ≤ u + u' :=
    (abs_add_le _ _).trans (add_le_add hx.size hy.size)
  obtain ⟨hf, hl, hr⟩ := Binary64.within_of_rounds (Binary64.rounds_add hx.isFinite hy.isFinite)
    (hsize.trans h) (by norm_num) (by norm_num)
  have hlow := hx.low
  have hlow' := hy.low
  obtain ⟨hsl, hsr⟩ := abs_le.1 hsize
  exact ⟨hf, by linarith, abs_le.2 ⟨by linarith, by linarith⟩⟩

theorem lanczosSum_eq {α : Type} [Scalar α] (x : α) : lanczosSum x =
    0.9999999999998099 + 676.5203681218851 / (x + 1.0 + (0 : Nat)) +
      -1259.1392167224028 / (x + 1.0 + (1 : Nat)) + 771.3234287776531 / (x + 1.0 + (2 : Nat)) +
      -176.6150291621406 / (x + 1.0 + (3 : Nat)) + 12.507343278686905 / (x + 1.0 + (4 : Nat)) +
      -0.13857109526572012 / (x + 1.0 + (5 : Nat)) +
      9.984369578019572e-6 / (x + 1.0 + (6 : Nat)) +
      1.5056327351493116e-7 / (x + 1.0 + (7 : Nat)) := rfl

/-- The series with coefficients that are rounded down to whole numbers. Over a common divisor all
coefficients are positive. -/
theorem half_le_lanczos {r : ℝ} (hr : 0 < r) :
    1 / 2 ≤ 9 / 10 + 676 / r - 1260 / (r + 1) + 771 / (r + 2) - 177 / (r + 3) + 12 / (r + 4) -
      1 / (r + 5) := by
  have h : 9 / 10 + 676 / r - 1260 / (r + 1) + 771 / (r + 2) - 177 / (r + 3) + 12 / (r + 4) -
      1 / (r + 5) - 1 / 2 = (81120 + 73588 * r + 137713 / 5 * r ^ 2 + 5363 * r ^ 3 + 555 * r ^ 4 +
        27 * r ^ 5 + 2 / 5 * r ^ 6) /
          (r * (r + 1) * (r + 2) * (r + 3) * (r + 4) * (r + 5)) := by
    field_simp
    ring
  have hpos : 0 ≤ (81120 + 73588 * r + 137713 / 5 * r ^ 2 + 5363 * r ^ 3 + 555 * r ^ 4 +
      27 * r ^ 5 + 2 / 5 * r ^ 6) / (r * (r + 1) * (r + 2) * (r + 3) * (r + 4) * (r + 5)) := by
    positivity
  linarith

section Terms

variable (hy : y.isFinite = true) (hlow : 2 / 5 ≤ y.value) (hhigh : y.value ≤ 18) (hi : i ≤ 7)
include hy hlow hhigh hi

theorem near_divisor : 0 < y.value + i ∧ Near 1 (y.value + i) (y + (i : Binary64)) := by
  have hir : (0 : ℝ) ≤ i := Nat.cast_nonneg i
  have hir' : (i : ℝ) ≤ 7 := by exact_mod_cast hi
  exact ⟨by linarith, (Binary64.near_of_value hy rfl).add
    (Binary64.near_natCast (hi.trans (by decide))) (by decide) ⟨by linarith, by linarith⟩⟩

theorem term_bounds (hc : Near 1 k c) (hk : 1 / 10 ^ 7 ≤ k) (hk' : k ≤ 1300) :
    (c / (y + (i : Binary64))).isFinite = true ∧
      k / (y.value + i) ≤ (c / (y + (i : Binary64))).value * (1 + 1 / 10 ^ 7) ∧
      (c / (y + (i : Binary64))).value ≤ k / (y.value + i) * (1 + 1 / 10 ^ 7) ∧
      |(c / (y + (i : Binary64))).value| ≤ 4000 := by
  obtain ⟨hpos, hdivisor⟩ := near_divisor hy hlow hhigh hi
  have hir : (0 : ℝ) ≤ i := Nat.cast_nonneg i
  have hir' : (i : ℝ) ≤ 7 := by exact_mod_cast hi
  have hsize : k / (y.value + i) ≤ 3250 := by
    rw [div_le_iff₀ hpos]
    linarith
  have hterm := hc.div hdivisor (by linarith) hpos (by decide)
    ⟨by rw [le_div_iff₀ hpos]; linarith, by linarith⟩
  have hpow := Binary64.leeway_pow_le (k := 3) (by decide)
  have hquotient : 0 < k / (y.value + i) := div_pos (by linarith) hpos
  have hvalue := hterm.value_pos hquotient
  have hle := hterm.le.trans (mul_le_mul_of_nonneg_left hpow hquotient.le)
  refine ⟨hterm.isFinite, hterm.ge.trans (mul_le_mul_of_nonneg_left hpow hvalue.le), hle, ?_⟩
  rw [abs_of_pos hvalue]
  linarith

theorem above_term (hc : Near 1 k c) (hk : 1 / 10 ^ 7 ≤ k) (hk' : k ≤ 1300)
    (hlk : l * (1 + 1 / 10 ^ 7) ≤ k) :
    Above (l / (y.value + i)) 4000 (c / (y + (i : Binary64))) := by
  obtain ⟨hf, hle, -, hsize⟩ := term_bounds hy hlow hhigh hi hc hk hk'
  refine ⟨hf, le_of_mul_le_mul_right (LE.le.trans ?_ hle) (by norm_num), hsize⟩
  rw [div_mul_eq_mul_div]
  exact div_le_div_of_nonneg_right hlk (near_divisor hy hlow hhigh hi).1.le

theorem above_neg_term (hc : Near 1 k c) (hk : 1 / 10 ^ 7 ≤ k) (hk' : k ≤ 1300)
    (hkl : k * (1 + 1 / 10 ^ 7) ≤ l) :
    Above (-(l / (y.value + i))) 4000 (-c / (y + (i : Binary64))) := by
  obtain ⟨hpos, hdivisor⟩ := near_divisor hy hlow hhigh hi
  obtain ⟨hf, -, hle, hsize⟩ := term_bounds hy hlow hhigh hi hc hk hk'
  rw [Binary64.neg_div_eq hc.isFinite hdivisor.isFinite (hdivisor.value_pos hpos).ne']
  refine ⟨(Binary64.isFinite_neg _).trans hf, ?_, by rwa [Binary64.value_neg, abs_neg]⟩
  rw [Binary64.value_neg, neg_le_neg_iff]
  refine hle.trans ?_
  rw [div_mul_eq_mul_div]
  exact div_le_div_of_nonneg_right hkl hpos.le

variable {m e : Nat} (hm : 0 < m) (he : 0 < e) (he' : e ≤ 30)
  (hk : 1 / 10 ^ 7 ≤ (m : ℝ) / 10 ^ e) (hk' : (m : ℝ) / 10 ^ e ≤ 1300)
include hm he he' hk hk'

theorem above_literal (hl : l * (1 + 1 / 10 ^ 7) ≤ (m : ℝ) / 10 ^ e) :
    Above (l / (y.value + i)) 4000
      ((OfScientific.ofScientific m true e : Binary64) / (y + (i : Binary64))) :=
  above_term hy hlow hhigh hi (near_literal hm he he' ⟨by linarith, by linarith⟩) hk hk' hl

theorem above_neg_literal (hl : (m : ℝ) / 10 ^ e * (1 + 1 / 10 ^ 7) ≤ l) :
    Above (-(l / (y.value + i))) 4000
      (-(OfScientific.ofScientific m true e : Binary64) / (y + (i : Binary64))) :=
  above_neg_term hy hlow hhigh hi (near_literal hm he he' ⟨by linarith, by linarith⟩) hk hk' hl

end Terms

theorem above_lanczosSum (hy : (x + 1.0).isFinite = true) (hlow : 2 / 5 ≤ (x + 1.0).value)
    (hhigh : (x + 1.0).value ≤ 18) : Above (2 / 5) (10 ^ 5) (lanczosSum x) := by
  rw [lanczosSum_eq]
  generalize x + 1.0 = y at hy hlow hhigh ⊢
  have hstart : Above (9 / 10) 2 (0.9999999999998099 : Binary64) := by
    have h := near_literal (m := 9999999999998099) (e := 16) (by decide) (by decide) (by decide)
      ⟨by norm_num, by norm_num⟩
    have hsize := (h.bounded (by norm_num)).abs_le
    have hge := h.ge
    rw [pow_one, leeway] at hsize hge
    exact ⟨h.isFinite, by linarith, by linarith⟩
  have h₀ := above_literal (i := 0) (m := 6765203681218851) (e := 13) (l := 676) hy hlow hhigh
    (by decide) (by decide) (by decide) (by decide) (by norm_num) (by norm_num) (by norm_num)
  have h₁ := above_neg_literal (i := 1) (m := 12591392167224028) (e := 13) (l := 1260) hy hlow hhigh
    (by decide) (by decide) (by decide) (by decide) (by norm_num) (by norm_num) (by norm_num)
  have h₂ := above_literal (i := 2) (m := 7713234287776531) (e := 13) (l := 771) hy hlow hhigh
    (by decide) (by decide) (by decide) (by decide) (by norm_num) (by norm_num) (by norm_num)
  have h₃ := above_neg_literal (i := 3) (m := 1766150291621406) (e := 13) (l := 177) hy hlow hhigh
    (by decide) (by decide) (by decide) (by decide) (by norm_num) (by norm_num) (by norm_num)
  have h₄ := above_literal (i := 4) (m := 12507343278686905) (e := 15) (l := 12) hy hlow hhigh
    (by decide) (by decide) (by decide) (by decide) (by norm_num) (by norm_num) (by norm_num)
  have h₅ := above_neg_literal (i := 5) (m := 13857109526572012) (e := 17) (l := 1) hy hlow hhigh
    (by decide) (by decide) (by decide) (by decide) (by norm_num) (by norm_num) (by norm_num)
  have h₆ := above_literal (i := 6) (m := 9984369578019572) (e := 21) (l := 0) hy hlow hhigh
    (by decide) (by decide) (by decide) (by decide) (by norm_num) (by norm_num) (by norm_num)
  have h₇ := above_literal (i := 7) (m := 15056327351493116) (e := 23) (l := 0) hy hlow hhigh
    (by decide) (by decide) (by decide) (by decide) (by norm_num) (by norm_num) (by norm_num)
  have h := (((((((hstart.add h₀ (by norm_num)).add h₁ (by norm_num)).add h₂ (by norm_num)).add h₃
    (by norm_num)).add h₄ (by norm_num)).add h₅ (by norm_num)).add h₆ (by norm_num)).add h₇
      (by norm_num)
  have hexact := half_le_lanczos (r := y.value) (by linarith)
  refine ⟨h.isFinite, LE.le.trans ?_ h.low, h.size.trans (by norm_num)⟩
  push_cast
  rw [add_zero, zero_div, zero_div]
  linarith

theorem near_pi : Near 1 ((3141592653589793 : Nat) / 10 ^ 15 : ℝ) (pi : Binary64) :=
  near_literal (by decide) (by decide) (by decide) ⟨by norm_num, by norm_num⟩

theorem pi_bounds : 3 ≤ (pi : Binary64).value ∧ (pi : Binary64).value ≤ 22 / 7 := by
  have hle := near_pi.le
  have hge := near_pi.ge
  rw [pow_one, leeway] at hle hge
  push_cast at hle hge
  exact ⟨by linarith, by linarith⟩

theorem lnGammaUpper_eq {α : Type} [Scalar α] (x : α) : lnGammaUpper x =
    0.5 * Scalar.ln (2.0 * pi) + (x - 1.0 + 0.5) * Scalar.ln (x - 1.0 + 7.5) - (x - 1.0 + 7.5) +
      Scalar.ln (lanczosSum (x - 1.0)) := rfl

theorem bounded_lnTwoPi : Bounded 745 (Scalar.ln (2.0 * pi : Binary64)) := by
  have h := near_two.mul near_pi two_pos (by norm_num) (by decide) ⟨by norm_num, by norm_num⟩
  exact Binary64.bounded_ln h.isFinite (h.value_pos (by norm_num))

theorem bounded_lnGammaUpper (hf : x.isFinite = true) (hlow : 9 / 20 ≤ x.value)
    (hhigh : x.value ≤ 17) : Bounded 20000 (lnGammaUpper x) := by
  have hroomy {w : ℝ} : 1 ≤ w → w ≤ 10 ^ 5 → Binary64.Roomy w := Binary64.roomy_of_one_le
  obtain ⟨hyf, hyl, hyr⟩ := Binary64.within_of_rounds (u := 16)
    (Binary64.rounds_sub hf Binary64.isFinite_one)
    (abs_le.2 ⟨by rw [value_one]; linarith, by rw [value_one]; linarith⟩) (by norm_num)
    (by norm_num)
  rw [value_one] at hyl hyr
  rw [lnGammaUpper_eq]
  generalize x - 1.0 = y at hyf hyl hyr ⊢
  have hy : Bounded 17 y := ⟨hyf, abs_le.2 ⟨by linarith, by linarith⟩⟩
  have hsum : Bounded 745 (Scalar.ln (lanczosSum y)) := by
    obtain ⟨hxf, hxl, hxr⟩ := Binary64.within_of_rounds (u := 18)
      (Binary64.rounds_add hyf Binary64.isFinite_one)
      (abs_le.2 ⟨by rw [value_one]; linarith, by rw [value_one]; linarith⟩) (by norm_num)
      (by norm_num)
    rw [value_one] at hxl hxr
    have h := above_lanczosSum hxf (by linarith) (by linarith)
    exact Binary64.bounded_ln h.isFinite (LT.lt.trans_le (by norm_num) h.low)
  have hshift := near_literal (m := 75) (e := 1) (by decide) (by decide) (by decide)
    ⟨by norm_num, by norm_num⟩
  have hshift' : 7 ≤ (7.5 : Binary64).value ∧ (7.5 : Binary64).value ≤ 8 := by
    have hle := hshift.le
    have hge := hshift.ge
    rw [pow_one, leeway] at hle hge
    push_cast at hle hge
    exact ⟨by linarith, by linarith⟩
  obtain ⟨htf, htl, htr⟩ := Binary64.within_of_rounds (u := 25)
    (Binary64.rounds_add hyf hshift.isFinite) (abs_le.2 ⟨by linarith, by linarith⟩) (by norm_num)
    (by norm_num)
  have ht : Bounded 26 (y + 7.5) := ⟨htf, abs_le.2 ⟨by linarith, by linarith⟩⟩
  have hconstant := bounded_half.mul bounded_lnTwoPi (w := 800)
    (hroomy (by norm_num) (by norm_num)) (by norm_num [leeway])
  have hfactor := hy.add bounded_half (w := 20) (hroomy (by norm_num) (by norm_num))
    (by norm_num [leeway])
  have hproduct := hfactor.mul (Binary64.bounded_ln htf (by linarith)) (w := 15000)
    (hroomy (by norm_num) (by norm_num)) (by norm_num [leeway])
  have hfirst := hconstant.add hproduct (w := 16000) (hroomy (by norm_num) (by norm_num))
    (by norm_num [leeway])
  have hsecond := hfirst.sub ht (w := 17000) (hroomy (by norm_num) (by norm_num))
    (by norm_num [leeway])
  exact hsecond.add hsum (hroomy (by norm_num) (by norm_num)) (by norm_num [leeway])

theorem bounded_lnGamma (hf : x.isFinite = true) (hlow : (0.5 : Binary64) ≤ x)
    (hhigh : x.value ≤ 17) : Bounded 20000 (lnGamma x) := by
  have hvalue := Binary64.value_le_value hlow
  rw [value_half] at hvalue
  rw [lnGamma, if_neg fun hlt ↦ Binary64.not_le_of_lt hlt hlow]
  exact bounded_lnGammaUpper hf (by linarith) hhigh

/-- The sine of what is reflected is divided by; its size keeps the quotient finite. -/
theorem bounded_ln_pi_div {s : Binary64} (hs : (0.1 : Binary64) ≤ s) (hs' : s ≤ (1.0 : Binary64)) :
    Bounded 745 (Scalar.ln (pi / s)) := by
  have hf := Binary64.isFinite_of_bounds (by decide +kernel) Binary64.isFinite_one hs hs'
  have htenth := near_literal (m := 1) (e := 1) (by decide) (by decide) (by decide)
    ⟨by norm_num, by norm_num⟩
  have hge := htenth.ge
  rw [pow_one, leeway] at hge
  push_cast at hge
  have hlow := Binary64.value_le_value hs
  have hhigh := Binary64.value_le_value hs'
  rw [value_one] at hhigh
  obtain ⟨hpi, hpi'⟩ := pi_bounds
  have hpos : 0 < s.value := by linarith
  have hquotient : 3 ≤ (pi : Binary64).value / s.value := by
    rw [le_div_iff₀ hpos]
    linarith
  have hquotient' : (pi : Binary64).value / s.value ≤ 100 := by
    rw [div_le_iff₀ hpos]
    linarith
  obtain ⟨hqf, hql, -⟩ := Binary64.within_of_rounds (u := 100)
    (Binary64.rounds_div near_pi.isFinite hf hpos.ne') (abs_le.2 ⟨by linarith, hquotient'⟩)
    (by norm_num) (by norm_num)
  exact Binary64.bounded_ln hqf (by linarith)

/-- Reflection divides by a sine, which is positive here. Where it has been set to zero, the
logarithm is infinite. -/
theorem isNaN_reflection (hlow : 1 / 2 ≤ y.value) (hhigh : y.value ≤ 3) (hy : y.isNaN = false) :
    (Scalar.ln (pi / Scalar.sin y)).isNaN = false := by
  have hthree : ((3 : Nat) : Binary64).value = 3 :=
    (Binary64.value_natCast (by decide)).trans (Nat.cast_ofNat)
  have hinner : Binary64.ofDecimal false 5 (-1) ≤ y :=
    Binary64.le_of_value_le (x := 0.5) (by decide +kernel) hy (by rw [value_half]; exact hlow)
  have hinner' : y ≤ Binary64.ofNat 3 :=
    Binary64.le_of_value_le (y := ((3 : Nat) : Binary64)) hy (by decide +kernel)
      (by rw [hthree]; exact hhigh)
  rcases Binary64.sin_cases hinner hinner' with h | ⟨h, h'⟩
  · rw [h]
    decide +kernel
  · exact (bounded_ln_pi_div h h').isNaN

theorem isNaN_lnGamma (hf : x.isFinite = true) (hlow : 6 / 25 ≤ x.value) (hhigh : x.value ≤ 17) :
    (lnGamma x).isNaN = false := by
  have hn := (Binary64.isFinite_iff.1 hf).1
  rw [lnGamma]
  split
  · rename_i hlt
    have hvalue := Binary64.value_lt_value hlt
    rw [value_half] at hvalue
    obtain ⟨hpi, hpi'⟩ := pi_bounds
    have hl : 3 * (6 / 25) ≤ (pi : Binary64).value * x.value :=
      mul_le_mul hpi hlow (by norm_num) (by linarith)
    have hr : (pi : Binary64).value * x.value ≤ 22 / 7 * (1 / 2) :=
      mul_le_mul hpi' hvalue.le (by linarith) (by norm_num)
    obtain ⟨hpf, hpl, hpr⟩ := Binary64.within_of_rounds (u := 2)
      (Binary64.rounds_mul near_pi.isFinite hf) (abs_le.2 ⟨by linarith, by linarith⟩)
      (by norm_num) (by norm_num)
    have hreflection := isNaN_reflection (y := pi * x) (by linarith) (by linarith)
      (Binary64.isFinite_iff.1 hpf).1
    obtain ⟨hrf, hrl, hrr⟩ := Binary64.within_of_rounds (u := 1)
      (Binary64.rounds_sub Binary64.isFinite_one hf)
      (abs_le.2 ⟨by rw [value_one]; linarith, by rw [value_one]; linarith⟩) (by norm_num)
      (by norm_num)
    rw [value_one] at hrl hrr
    have hupper := bounded_lnGammaUpper hrf (by linarith) (by linarith)
    exact Binary64.isNaN_sub hreflection hupper.isNaN (.inr hupper.isFinite)
  · rename_i hlt
    have hhalf := Binary64.value_le_value (Binary64.le_of_not_lt hn (by decide +kernel) hlt)
    rw [value_half] at hhalf
    exact (bounded_lnGammaUpper hf (by linarith) hhigh).isNaN

end MetricWatch.Tail
