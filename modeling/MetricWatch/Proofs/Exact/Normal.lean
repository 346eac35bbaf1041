import Mathlib.Analysis.Calculus.Deriv.MeanValue
import Mathlib.Analysis.Calculus.Deriv.Mul
import Mathlib.Tactic.GCongr
import Mathlib.Tactic.Positivity
import MetricWatch.Proofs.Exact.Arithmetic
import MetricWatch.Regression.Tail

namespace MetricWatch

/-- The real numbers with any function in place of the exponential one. -/
@[reducible] noncomputable def realWithExp (e : ℝ → ℝ) : Scalar ℝ :=
  { (inferInstance : Scalar ℝ) with exp := e }

namespace Tail

open Exact

/-- The polynomial in the complementary error function. -/
noncomputable def erfcPolynomial (t : ℝ) : ℝ :=
  ((((1.061405429 * t + -1.453152027) * t + 1.421413741) * t + -0.284496736) * t +
    0.254829592) * t

/-- Its coefficients alternate, but its slope is positive everywhere: the parts of even degree
outweigh those of odd degree between them. -/
theorem erfcPolynomial_strictMono : StrictMono erfcPolynomial := by
  have hderiv (t : ℝ) : HasDerivAt erfcPolynomial
      (5.307027145 * t ^ 4 - 5.812608108 * t ^ 3 + 4.264241223 * t ^ 2 - 0.568993472 * t +
        0.254829592) t := by
    have hid := hasDerivAt_id t
    refine (((((((((hid.const_mul 1.061405429).add_const (-1.453152027)).mul hid).add_const
      1.421413741).mul hid).add_const (-0.284496736)).mul hid).add_const
      0.254829592).mul hid).congr_deriv ?_
    simp only [id, Pi.mul_apply]
    ring
  refine strictMono_of_deriv_pos fun t ↦ ?_
  rw [(hderiv t).deriv]
  nlinarith [sq_nonneg (t ^ 2 - t), sq_nonneg t, sq_nonneg (t - 1)]

theorem erfcPolynomial_zero : erfcPolynomial 0 = 0 := mul_zero _

theorem erfcPolynomial_one : erfcPolynomial 1 = 0.999999999 := by norm_num [erfcPolynomial]

noncomputable def erfcArgument (x : ℝ) : ℝ := 1 / (1 + 0.3275911 * x)

theorem erfcArgument_pos {x : ℝ} (hx : 0 ≤ x) : 0 < erfcArgument x := by
  unfold erfcArgument
  positivity

theorem erfcArgument_anti {x y : ℝ} (hx : 0 ≤ x) (h : x ≤ y) : erfcArgument y ≤ erfcArgument x := by
  unfold erfcArgument
  gcongr

theorem erfcArgument_zero : erfcArgument 0 = 1 := by norm_num [erfcArgument]

section AnyExponential

variable {e : ℝ → ℝ} {x y t t' df df' : ℝ}

theorem erfc_eq (hx : 0 ≤ x) :
    @erfc ℝ (realWithExp e) x = erfcPolynomial (erfcArgument x) * e (-(x * x)) := by
  have hlarger : @Scalar.larger ℝ (realWithExp e) x 0.0 = x := by
    change (if x < 0.0 then (0.0 : ℝ) else if x ≤ x then x else 0.0) = x
    rw [if_neg (by rw [zero_literal]; exact hx.not_gt), if_pos le_rfl]
  have hargument : erfcArgument x = 1.0 / (1.0 + 0.3275911 * x) := by
    norm_num [erfcArgument]
  rw [hargument, ← neg_mul, @erfc.eq_1 ℝ (realWithExp e), hlarger]
  rfl

variable (hpos : ∀ x, 0 < e x) (hmono : Monotone e) (hone : e 0 = 1)
include hpos

theorem erfc_pos (hx : 0 ≤ x) : 0 < @erfc ℝ (realWithExp e) x := by
  rw [erfc_eq hx]
  refine mul_pos ?_ (hpos _)
  rw [← erfcPolynomial_zero]
  exact erfcPolynomial_strictMono (erfcArgument_pos hx)

include hmono

theorem erfc_anti (hx : 0 ≤ x) (h : x ≤ y) :
    @erfc ℝ (realWithExp e) y ≤ @erfc ℝ (realWithExp e) x := by
  rw [erfc_eq hx, erfc_eq (hx.trans h)]
  refine mul_le_mul (erfcPolynomial_strictMono.monotone (erfcArgument_anti hx h)) (hmono ?_)
    (hpos _).le ?_
  · exact neg_le_neg (mul_self_le_mul_self hx h)
  · rw [← erfcPolynomial_zero]
    exact erfcPolynomial_strictMono.monotone (erfcArgument_pos hx).le

include hone

theorem erfc_lt_one (hx : 0 ≤ x) : @erfc ℝ (realWithExp e) x < 1 := by
  refine (erfc_anti hpos hmono le_rfl hx).trans_lt ?_
  rw [erfc_eq le_rfl, erfcArgument_zero, erfcPolynomial_one, mul_zero, neg_zero, hone]
  norm_num

end AnyExponential

section Probabilities

variable {e : ℝ → ℝ} {x y t t' df : ℝ}

theorem sqrtTwo_pos : (0 : ℝ) < sqrtTwo := by norm_num [sqrtTwo]

theorem div_sqrtTwo_nonneg (hx : 0 ≤ x) : 0 ≤ x / sqrtTwo := div_nonneg hx sqrtTwo_pos.le

theorem div_sqrtTwo_mono (h : x ≤ y) : x / sqrtTwo ≤ y / sqrtTwo :=
  div_le_div_of_nonneg_right h sqrtTwo_pos.le

variable (hpos : ∀ x, 0 < e x) (hmono : Monotone e) (hone : e 0 = 1)
include hpos hmono hone

theorem pValue_of_lt (hdf : 30 < df) :
    @pValue ℝ (realWithExp e) t df = @erfc ℝ (realWithExp e) (|t| / sqrtTwo) := by
  have hx := div_sqrtTwo_nonneg (abs_nonneg t)
  have hworked : ¬ (df ≤ 0.0 ∨ ¬ t ≤ t) := by
    rw [zero_literal, not_or, not_not]
    exact ⟨by linarith, le_rfl⟩
  have hnormal : (30.0 : ℝ) < df := by linarith
  have hclamp (p : ℝ) (hp : 0 ≤ p) (hp' : p ≤ 1) :
      (if p < 0.0 then (0.0 : ℝ) else if 1.0 < p then 1.0 else p) = p := by
    rw [if_neg (by linarith), if_neg (by linarith)]
  rw [@pValue.eq_1 ℝ (realWithExp e)]
  refine (if_neg hworked).trans ?_
  refine Eq.trans ?_ (hclamp _ (erfc_pos hpos hx).le (erfc_lt_one hpos hmono hone hx).le)
  refine congrArg (@Scalar.clamp ℝ (realWithExp e) 0.0 1.0) ?_
  exact if_pos hnormal

theorem pValue_bounds (hdf : 30 < df) :
    0 < @pValue ℝ (realWithExp e) t df ∧ @pValue ℝ (realWithExp e) t df < 1 := by
  rw [pValue_of_lt hpos hmono hone hdf]
  have hx := div_sqrtTwo_nonneg (abs_nonneg t)
  exact ⟨erfc_pos hpos hx, erfc_lt_one hpos hmono hone hx⟩

theorem pValue_anti (hdf : 30 < df) (h : |t| ≤ |t'|) :
    @pValue ℝ (realWithExp e) t' df ≤ @pValue ℝ (realWithExp e) t df := by
  rw [pValue_of_lt hpos hmono hone hdf, pValue_of_lt hpos hmono hone hdf]
  exact erfc_anti hpos hmono (div_sqrtTwo_nonneg (abs_nonneg t)) (div_sqrtTwo_mono h)

omit hpos hmono hone

theorem normalCdf_of_nonneg (hx : 0 ≤ x) : @normalCdf ℝ (realWithExp e) x =
    1 - 1 / 2 * @erfc ℝ (realWithExp e) (x / sqrtTwo) := by
  have hhalf : (1 : ℝ) / 2 = 0.5 := by norm_num
  have hone : (1 : ℝ) = 1.0 := by norm_num
  rw [@normalCdf.eq_1 ℝ (realWithExp e), hhalf, hone]
  exact if_pos (zero_literal.trans_le hx)

theorem normalCdf_of_neg (hx : x < 0) : @normalCdf ℝ (realWithExp e) x =
    1 / 2 * @erfc ℝ (realWithExp e) (-x / sqrtTwo) := by
  have hhalf : (1 : ℝ) / 2 = 0.5 := by norm_num
  rw [@normalCdf.eq_1 ℝ (realWithExp e), hhalf]
  exact if_neg (by rw [zero_literal]; exact hx.not_ge)

theorem normalCdf_add_neg (hx : x ≠ 0) :
    @normalCdf ℝ (realWithExp e) x + @normalCdf ℝ (realWithExp e) (-x) = 1 := by
  rcases hx.lt_or_gt with h | h
  · rw [normalCdf_of_neg h, normalCdf_of_nonneg (by linarith)]
    ring
  · rw [normalCdf_of_nonneg h.le, normalCdf_of_neg (by linarith), neg_neg]
    ring

include hpos hmono hone

theorem normalCdf_half : (x < 0 → 0 < @normalCdf ℝ (realWithExp e) x ∧
      @normalCdf ℝ (realWithExp e) x < 1 / 2) ∧
    (0 ≤ x → 1 / 2 < @normalCdf ℝ (realWithExp e) x ∧ @normalCdf ℝ (realWithExp e) x < 1) := by
  constructor
  · intro hx
    have harg := div_sqrtTwo_nonneg (x := -x) (by linarith)
    have hlow := erfc_pos hpos harg
    have hhigh := erfc_lt_one hpos hmono hone harg
    rw [normalCdf_of_neg hx]
    constructor <;> linarith
  · intro hx
    have harg := div_sqrtTwo_nonneg hx
    have hlow := erfc_pos hpos harg
    have hhigh := erfc_lt_one hpos hmono hone harg
    rw [normalCdf_of_nonneg hx]
    constructor <;> linarith

theorem normalCdf_mono : Monotone (@normalCdf ℝ (realWithExp e)) := by
  intro x y h
  rcases lt_or_ge x 0 with hx | hx
  · rcases lt_or_ge y 0 with hy | hy
    · rw [normalCdf_of_neg hx, normalCdf_of_neg hy]
      have harg := div_sqrtTwo_nonneg (x := -y) (by linarith)
      have hanti := erfc_anti hpos hmono harg (div_sqrtTwo_mono (neg_le_neg h))
      linarith
    · have hlow := ((normalCdf_half hpos hmono hone).1 hx).2
      have hhigh := ((normalCdf_half hpos hmono hone).2 hy).1
      linarith
  · have hy := hx.trans h
    rw [normalCdf_of_nonneg hx, normalCdf_of_nonneg hy]
    have hanti := erfc_anti hpos hmono (div_sqrtTwo_nonneg hx) (div_sqrtTwo_mono h)
    linarith

theorem normalCdf_bounds (x : ℝ) :
    0 < @normalCdf ℝ (realWithExp e) x ∧ @normalCdf ℝ (realWithExp e) x < 1 := by
  rcases lt_or_ge x 0 with hx | hx
  · obtain ⟨hlow, hhigh⟩ := (normalCdf_half hpos hmono hone).1 hx
    exact ⟨hlow, by linarith⟩
  · obtain ⟨hlow, hhigh⟩ := (normalCdf_half hpos hmono hone).2 hx
    exact ⟨by linarith, hhigh⟩

end Probabilities

/-- The first four parts say of the tail probability that it has nothing to do with the degrees of
freedom beyond thirty, nor with the sign of the statistic, that it falls with the distance from zero,
and that its last step changes nothing. The other three are about the distribution function, which
has no step down at zero. -/
theorem normal_tail {e : ℝ → ℝ} (hpos : ∀ x, 0 < e x) (hmono : Monotone e) (hone : e 0 = 1) :
    (∀ t df df', 30 < df → 30 < df' →
        @pValue ℝ (realWithExp e) t df = @pValue ℝ (realWithExp e) t df') ∧
      (∀ t df, 30 < df → @pValue ℝ (realWithExp e) (-t) df = @pValue ℝ (realWithExp e) t df) ∧
      (∀ t t' df, 30 < df → |t| ≤ |t'| →
        @pValue ℝ (realWithExp e) t' df ≤ @pValue ℝ (realWithExp e) t df) ∧
      (∀ t df, 30 < df →
        0 < @pValue ℝ (realWithExp e) t df ∧ @pValue ℝ (realWithExp e) t df < 1 ∧
          @pValue ℝ (realWithExp e) t df = @erfc ℝ (realWithExp e) (|t| / sqrtTwo)) ∧
      Monotone (@normalCdf ℝ (realWithExp e)) ∧
      (∀ x, 0 < @normalCdf ℝ (realWithExp e) x ∧ @normalCdf ℝ (realWithExp e) x < 1) ∧
      ∀ x, x ≠ 0 → @normalCdf ℝ (realWithExp e) x + @normalCdf ℝ (realWithExp e) (-x) = 1 := by
  have hvalue (t df : ℝ) (h : 30 < df) := pValue_of_lt (t := t) hpos hmono hone h
  refine ⟨fun t df df' h h' ↦ (hvalue t df h).trans (hvalue t df' h').symm, fun t df h ↦ ?_,
    fun t t' df h ↦ pValue_anti hpos hmono hone h, fun t df h ↦ ?_,
    normalCdf_mono hpos hmono hone, normalCdf_bounds hpos hmono hone, fun x ↦ normalCdf_add_neg⟩
  · have heven := hvalue (-t) df h
    rw [abs_neg] at heven
    exact heven.trans (hvalue t df h).symm
  · obtain ⟨hlow, hhigh⟩ := pValue_bounds (t := t) hpos hmono hone h
    exact ⟨hlow, hhigh, hvalue t df h⟩

theorem normal_tail_exp :
    ((∀ x, 0 < Real.exp x) ∧ Monotone Real.exp ∧ Real.exp 0 = 1) ∧
      pValue (-2 : ℝ) 31 = pValue 2 1000 ∧ pValue (2 : ℝ) 31 ≤ pValue (-1) 31 ∧
      normalCdf (-1 : ℝ) ≤ normalCdf 0 ∧ normalCdf (1 : ℝ) + normalCdf (-1) = 1 := by
  obtain ⟨hfreedom, heven, hanti, -, hcdf, -, hsum⟩ :=
    normal_tail Real.exp_pos Real.exp_monotone Real.exp_zero
  refine ⟨⟨Real.exp_pos, Real.exp_monotone, Real.exp_zero⟩, ?_, ?_, ?_, hsum 1 one_ne_zero⟩
  · exact (heven 2 31 (by norm_num)).trans (hfreedom 2 31 1000 (by norm_num) (by norm_num))
  · exact hanti (-1) 2 31 (by norm_num) (by norm_num)
  · exact hcdf (by norm_num)

end Tail

end MetricWatch
