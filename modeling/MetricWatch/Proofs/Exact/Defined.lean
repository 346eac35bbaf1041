import MetricWatch.Proofs.Exact.Partial
import MetricWatch.Proofs.Regression.Fraction
import MetricWatch.Proofs.Regression.Gamma

namespace MetricWatch.Tail

open Exact PartialReal

variable {x y a b k t df : ℝ} {m : Nat}

theorem foldl_terms_of (h : ∀ i : Nat, y + i ≠ 0) (l : List (ℝ × Nat)) (s : ℝ) :
    (l.map (Prod.map of id)).foldl (fun sum (c, i) ↦ sum + c / (of y + (i : PartialReal))) (of s) =
      of (l.foldl (fun sum (c, i) ↦ sum + c / (y + (i : ℝ))) s) := by
  induction l generalizing s with
  | nil => rfl
  | cons term l ih =>
    rw [List.map_cons, List.foldl_cons, List.foldl_cons, ← ih]
    simp only [Prod.map, id, natCast_eq, of_add, of_div (h _)]

theorem lanczosSum_of (h : 0 < x + 1.0) : lanczosSum (of x) = of (lanczosSum x) :=
  foldl_terms_of (fun i ↦ by positivity) lanczosCoefficients.zipIdx _

theorem lanczosSum_pos (h : 0 < x + 1.0) : 0 < lanczosSum x := by
  have hlow := half_le_lanczos h
  rw [lanczosSum_eq]
  generalize x + 1.0 = r at h hlow ⊢
  -- each coefficient is rounded down to the whole number beside it
  have hterm {p q : ℝ} (hpq : p ≤ q) (i : ℝ) (hi : 0 ≤ i) : p / (r + i) ≤ q / (r + i) :=
    div_le_div_of_nonneg_right hpq (by linarith)
  have h₀ := hterm (p := 676) (q := 676.5203681218851) (by norm_num) 0 le_rfl
  have h₁ := hterm (p := -1260) (q := -1259.1392167224028) (by norm_num) 1 (by norm_num)
  have h₂ := hterm (p := 771) (q := 771.3234287776531) (by norm_num) 2 (by norm_num)
  have h₃ := hterm (p := -177) (q := -176.6150291621406) (by norm_num) 3 (by norm_num)
  have h₄ := hterm (p := 12) (q := 12.507343278686905) (by norm_num) 4 (by norm_num)
  have h₅ := hterm (p := -1) (q := -0.13857109526572012) (by norm_num) 5 (by norm_num)
  have h₆ := hterm (p := 0) (q := 9.984369578019572e-6) (by norm_num) 6 (by norm_num)
  have h₇ := hterm (p := 0) (q := 1.5056327351493116e-7) (by norm_num) 7 (by norm_num)
  simp only [neg_div, zero_div, add_zero] at h₀ h₁ h₃ h₅ h₆ h₇
  push_cast
  simp only [neg_div, add_zero]
  linarith

theorem pi_of : (pi : PartialReal) = of pi := rfl

theorem lnGamma_of (h : 1 / 2 ≤ x) :
    lnGamma (of x) = of (lnGamma x) ∧ 0 < lanczosSum (x - 1.0) := by
  have hhalf : ¬ x < 0.5 := by norm_num; linarith
  have hone : 0 < x - 1.0 + 1.0 := by linarith
  have hsum := lanczosSum_pos hone
  have hpi : 0 < 2.0 * (pi : ℝ) := by norm_num [pi]
  have hshift : 0 < x - 1.0 + 7.5 := by norm_num; linarith
  refine ⟨?_, hsum⟩
  rw [lnGamma, lnGamma, if_neg hhalf, literal_eq, if_neg (of_lt_of.not.2 hhalf), lnGammaUpper_eq,
    lnGammaUpper_eq]
  simp only [literal_eq, pi_of, of_sub, of_add, of_mul, lanczosSum_of hone, ln_of hsum, ln_of hpi,
    ln_of hshift]

theorem guard_of (x : ℝ) : guard (of x) = of (guard x) := by
  simp only [guard, abs_of, literal_eq, of_lt_of]
  split <;> rfl

theorem guard_ne_zero (x : ℝ) : guard x ≠ 0 := by
  rw [guard]
  split
  · norm_num
  · rename_i h
    rintro rfl
    exact h (by norm_num [scalar_abs])

theorem inverse_guard_ne_zero (x : ℝ) : 1.0 / guard x ≠ 0 :=
  div_ne_zero (by norm_num) (guard_ne_zero x)

def Fraction.map {α β : Type} (g : α → β) (f : Fraction α) : Fraction β :=
  ⟨g f.c, g f.d, g f.value⟩

/-- What is divided by next is not zero, nor is the value so far. -/
structure Fraction.NonZero (f : Fraction ℝ) : Prop where
  c : f.c ≠ 0
  d : f.d ≠ 0
  value : f.value ≠ 0

variable {f : Fraction ℝ}

theorem advance_of (hf : f.NonZero) (k : ℝ) :
    advance (of k) (f.map of) = (advance k f).map of ∧ (advance k f).NonZero := by
  have hd := inverse_guard_ne_zero (1.0 + k * f.d)
  have hc := guard_ne_zero (1.0 + k / f.c)
  refine ⟨?_, hc, hd, mul_ne_zero hf.value (mul_ne_zero hc hd)⟩
  simp only [advance, Fraction.map, literal_eq, of_mul, of_add, guard_of, of_div (guard_ne_zero _),
    of_div hf.c]

theorem evenCoefficient_of (ha : 0 < a) (hm : 1 ≤ m) :
    evenCoefficient (of x) (of a) (of b) (m : PartialReal) = of (evenCoefficient x a b m) := by
  have hindex : (1 : ℝ) ≤ m := by exact_mod_cast hm
  have h : (a + 2.0 * m - 1.0) * (a + 2.0 * m) ≠ 0 :=
    (mul_pos (by norm_num; linarith) (by positivity)).ne'
  simp only [evenCoefficient, natCast_eq, literal_eq, of_sub, of_mul, of_add, of_div h]

theorem oddCoefficient_of (ha : 0 < a) :
    oddCoefficient (of x) (of a) (of b) (m : PartialReal) = of (oddCoefficient x a b m) := by
  have h : (a + 2.0 * m) * (a + 2.0 * m + 1.0) ≠ 0 := by positivity
  simp only [oddCoefficient, natCast_eq, literal_eq, of_neg, of_mul, of_add, of_div h]

theorem fractionStart_of (ha : 0 < a) :
    fractionStart (of x) (of a) (of b) = (fractionStart x a b).map of ∧
      (fractionStart x a b).NonZero := by
  have h : a + 1.0 ≠ 0 := by positivity
  have hd := inverse_guard_ne_zero (1.0 - (a + b) * x / (a + 1.0))
  refine ⟨?_, (by norm_num : (1.0 : ℝ) ≠ 0), hd, hd⟩
  simp only [fractionStart, Fraction.map, literal_eq, of_add, of_mul, of_sub, of_div h, guard_of,
    of_div (guard_ne_zero _)]

theorem pair_of (ha : 0 < a) (hm : 1 ≤ m) (hf : f.NonZero) :
    oddStep (of x) (of a) (of b) (m : PartialReal)
        (evenStep (of x) (of a) (of b) (m : PartialReal) (f.map of)) =
      (oddStep x a b (m : ℝ) (evenStep x a b (m : ℝ) f)).map of ∧
      (oddStep x a b (m : ℝ) (evenStep x a b (m : ℝ) f)).NonZero := by
  obtain ⟨heven, hf⟩ := advance_of hf (evenCoefficient x a b m)
  obtain ⟨hodd, hf⟩ := advance_of hf (oddCoefficient x a b m)
  rw [evenStep_eq, oddStep_eq, evenCoefficient_of ha hm, oddCoefficient_of ha, heven, hodd]
  exact ⟨rfl, hf⟩

theorem fractionFrom_of (ha : 0 < a) {fuel : Nat} (hm : 1 ≤ m) (hf : f.NonZero) :
    fractionFrom (of x) (of a) (of b) m fuel (f.map of) = of (fractionFrom x a b m fuel f) ∧
      fractionFrom x a b m fuel f ≠ 0 := by
  induction fuel generalizing m f with
  | zero => exact ⟨rfl, hf.value⟩
  | succ fuel ih =>
    obtain ⟨hpair, hnext⟩ := pair_of (x := x) (b := b) ha hm hf
    unfold fractionFrom
    rw [hpair]
    generalize oddStep x a b (m : ℝ) (evenStep x a b (m : ℝ) f) = g at hnext ⊢
    simp only [Fraction.map, literal_eq, of_mul, of_sub, abs_of, of_lt_of]
    split
    · exact ⟨rfl, hnext.value⟩
    · exact ih (by omega) hnext

/-- The continued fraction, broken off after `n` pairs of steps. -/
def fractionAfter {α : Type} [Scalar α] (x a b : α) (n : Nat) : α :=
  fractionFrom x a b 1 n (fractionStart x a b)

theorem betaFraction_eq {α : Type} [Scalar α] (x a b : α) :
    betaFraction x a b = fractionAfter x a b 300 := rfl

theorem fractionAfter_of (ha : 0 < a) (x b : ℝ) (n : Nat) :
    fractionAfter (of x) (of a) (of b) n = of (fractionAfter x a b n) ∧
      fractionAfter x a b n ≠ 0 := by
  obtain ⟨hstart, hf⟩ := fractionStart_of (x := x) (b := b) ha
  rw [fractionAfter, hstart]
  exact fractionFrom_of ha le_rfl hf

theorem incompleteBeta_of (hx : 0 < x) (hx' : 0 < 1.0 - x) (ha : 1 / 2 ≤ a) (hb : 1 / 2 ≤ b) :
    incompleteBeta (of x) (of a) (of b) = of (incompleteBeta x a b) := by
  have hzero : ¬ x ≤ 0.0 := by rw [zero_literal]; exact hx.not_ge
  have hone : ¬ 1.0 ≤ x := by linarith
  have hapos : 0 < a := by linarith
  have hbpos : 0 < b := by linarith
  have hsum : 1 / 2 ≤ a + b := by linarith
  have hpeak : a + b + 2.0 ≠ 0 := by positivity
  unfold incompleteBeta
  simp only [betaFraction_eq, literal_eq, of_le_of, if_neg hzero, if_neg hone, of_lt_of, of_add,
    of_sub, of_mul, exp_of, (lnGamma_of ha).1, (lnGamma_of hb).1, (lnGamma_of hsum).1, ln_of hx,
    ln_of hx', of_div hpeak, (fractionAfter_of hapos _ _ _).1, (fractionAfter_of hbpos _ _ _).1,
    of_div hapos.ne', of_div hbpos.ne']
  split <;> rfl

theorem share_bounds (hdf : 0 < df) (ht : t ≠ 0) :
    0 < df / (df + t * t) ∧ 0 < 1.0 - df / (df + t * t) := by
  have hsquare : 0 < t * t := mul_self_pos.2 ht
  have hsum : 0 < df + t * t := add_pos hdf hsquare
  refine ⟨div_pos hdf hsum, ?_⟩
  have hlt : df / (df + t * t) < 1 := (div_lt_one hsum).2 (lt_add_of_pos_right df hsquare)
  linarith

theorem pValue_of (hdf : 1 ≤ df) (hdf' : df ≤ 30) (ht : t ≠ 0) :
    pValue (of t) (of df) = of (pValue t df) := by
  have hpos : 0 < df := by linarith
  have hzero : ¬ (df ≤ 0.0 ∨ ¬ Scalar.IsNumber t) := by
    rw [zero_literal, not_or, not_not]
    exact ⟨hpos.not_ge, le_refl t⟩
  have hfew : ¬ normalFrom < df := by norm_num [normalFrom]; exact hdf'
  have hsquare : |t| ≠ 0 := abs_ne_zero.2 ht
  have hsum : df + |t| * |t| ≠ 0 := (add_pos hpos (mul_self_pos.2 hsquare)).ne'
  obtain ⟨hx, hx'⟩ := share_bounds hpos hsquare
  have hbeta := incompleteBeta_of hx hx' (a := df / 2.0) (b := 0.5) (by linarith) (by norm_num)
  have hnormal : (normalFrom : PartialReal) = of normalFrom := rfl
  unfold pValue
  rw [if_neg hzero, if_neg (show ¬ (of df ≤ 0.0 ∨ ¬ Scalar.IsNumber (of t)) from hzero)]
  simp only [abs_of, scalar_abs, hnormal, of_lt_of, if_neg hfew, literal_eq, of_mul, of_add,
    of_div hsum, of_div (show (2.0 : ℝ) ≠ 0 by norm_num), hbeta, clamp_of]

/-- A tail probability of at most thirty degrees of freedom is worked out without a division by
zero and without the logarithm of what is not positive. That goes for the continued fraction in
both orders of the parameters and after any number of its steps, and its value is never zero. -/
theorem tail_defined (hdf : 1 ≤ df) (hdf' : df ≤ 30) (ht : t ≠ 0) :
    pValue (of t) (of df) = of (pValue t df) ∧
    let x := df / (df + t * t)
    let a := df / 2.0
    incompleteBeta (of x) (of a) (of 0.5) = of (incompleteBeta x a 0.5) ∧
    0 < x ∧ 0 < 1.0 - x ∧
    (∀ y ∈ [a, 0.5, a + 0.5], lnGamma (of y) = of (lnGamma y) ∧ 0 < lanczosSum (y - 1.0)) ∧
    (∀ n, fractionAfter (of x) (of a) (of 0.5) n = of (fractionAfter x a 0.5 n) ∧
      fractionAfter x a 0.5 n ≠ 0) ∧
    ∀ n, fractionAfter (of (1.0 - x)) (of 0.5) (of a) n = of (fractionAfter (1.0 - x) 0.5 a n) ∧
      fractionAfter (1.0 - x) 0.5 a n ≠ 0 := by
  have ha : 1 / 2 ≤ df / 2.0 := by linarith
  have hhalf : (1 : ℝ) / 2 ≤ 0.5 := by norm_num
  have hsum : 1 / 2 ≤ df / 2.0 + 0.5 := by linarith
  have hgamma : ∀ y ∈ [df / 2.0, 0.5, df / 2.0 + 0.5],
      lnGamma (of y) = of (lnGamma y) ∧ 0 < lanczosSum (y - 1.0) := by
    simpa using ⟨lnGamma_of ha, lnGamma_of hhalf, lnGamma_of hsum⟩
  have hpos : 0 < df := by linarith
  obtain ⟨hx, hx'⟩ := share_bounds hpos ht
  exact ⟨pValue_of hdf hdf' ht, incompleteBeta_of hx hx' ha hhalf, hx, hx', hgamma,
    fun n ↦ fractionAfter_of (by linarith) _ _ n, fun n ↦ fractionAfter_of (by norm_num) _ _ n⟩

theorem tail_defined_three : ((1 : ℝ) ≤ 3 ∧ (3 : ℝ) ≤ 30 ∧ (2 : ℝ) ≠ 0) ∧
    (∀ n, fractionAfter (3 / (3 + 2 * 2) : ℝ) (3 / 2.0) 0.5 n ≠ 0) ∧
    pValue (of 2) (of 3) = of (pValue 2 3) := by
  have h : (1 : ℝ) ≤ 3 ∧ (3 : ℝ) ≤ 30 ∧ (2 : ℝ) ≠ 0 := by norm_num
  obtain ⟨hvalue, -, -, -, -, hfraction, -⟩ := tail_defined h.1 h.2.1 h.2.2
  exact ⟨h, fun n ↦ (hfraction n).2, hvalue⟩

end MetricWatch.Tail
