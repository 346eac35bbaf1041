import MetricWatch.Proofs.Regression.Fraction.Run

namespace MetricWatch.Tail

open Binary64 (leeway)

variable {x a b : Binary64} {m : Nat} {f : Fraction Binary64}

theorem cancel {g p q c l r : ℝ} (hg : g ≠ 0) (hp : p ≠ 0) :
    r * g * c / (p * q) * l * (p / g) = c * l * r / q := by
  field_simp

/-- What is left of one covers the error of three operations. -/
theorem leeway_div_le {p y z : ℝ} (hp : 0 ≤ p) (hy : 0 < y) (hz : 0 < z)
    (h : (1 + 1 / 10 ^ 7) * y ≤ z) : leeway ^ 3 / (z / p) ≤ p / y := by
  have hpow := mul_le_mul_of_nonneg_right (Binary64.leeway_pow_le (k := 3) (by decide)) hy.le
  rw [div_div_eq_mul_div, div_le_div_iff₀ hz hy]
  calc leeway ^ 3 * p * y = leeway ^ 3 * y * p := by ring
    _ ≤ z * p := mul_le_mul_of_nonneg_right (hpow.trans h) hp
    _ = p * z := mul_comm z p

theorem factor_eq (p q y z r : ℝ) :
    (1 + 0) / (y / p) / (z / q) * r = p * q * r / (y * z) := by
  rw [add_zero, one_div_div, div_div_eq_mul_div, div_mul_eq_mul_div, div_mul_eq_mul_div,
    div_mul_eq_mul_div, div_div]

/-- The factors of one pair with an argument of one, compared with the growth of the bound. -/
theorem directPair_growth {A M : ℝ} (hA : 0 ≤ A) (hA' : A ≤ 16) (hM : 1 ≤ M) :
    M ^ 2 * ((A + 2 * M) * (A + 2 * M + 1)) * (1 + 1 / 10 ^ 7) ≤
      6 * (M + 1) ^ 2 * ((A + M) * (M + 1 / 2)) := by
  obtain ⟨n, rfl⟩ : ∃ n, M = 1 + n := ⟨M - 1, by ring⟩
  have hn : 0 ≤ n := by linarith
  have hsq : A * A ≤ 16 * A := mul_le_mul_of_nonneg_right hA' hA
  have hsq₁ : A * A * n ≤ 16 * A * n := mul_le_mul_of_nonneg_right hsq hn
  have hsq₂ : A * A * n ^ 2 ≤ 16 * A * n ^ 2 := mul_le_mul_of_nonneg_right hsq (sq_nonneg n)
  have h₁ : 0 ≤ A * n := by positivity
  have h₂ : 0 ≤ A * n ^ 2 := by positivity
  have h₃ : 0 ≤ A * n ^ 3 := by positivity
  have h₄ : 0 ≤ n ^ 2 := by positivity
  have h₅ : 0 ≤ n ^ 3 := by positivity
  have h₆ : 0 ≤ n ^ 4 := by positivity
  linarith

theorem directPair_factor {A M : ℝ} (hA : 0 ≤ A) (hA' : A ≤ 16) (hM : 1 ≤ M) :
    M ^ 2 * ((1 + 0) / ((A + 107 / 100 * M) / (A + 2 * M)) /
      ((7 / 100 * A + 107 / 100 * M + 107 / 200) / (A + 2 * M + 1)) * leeway ^ 14) ≤
      6 * (M + 1) ^ 2 := by
  have hgrowth := directPair_growth hA hA' hM
  have hy : A + M ≤ A + 107 / 100 * M := by linarith
  have hz : M + 1 / 2 ≤ 7 / 100 * A + 107 / 100 * M + 107 / 200 := by linarith
  have hyz := mul_le_mul hy hz (by linarith) (by linarith)
  have hyz' := mul_le_mul_of_nonneg_left hyz (by positivity : 0 ≤ 6 * (M + 1) ^ 2)
  have hpq : 0 ≤ M ^ 2 * ((A + 2 * M) * (A + 2 * M + 1)) := by positivity
  have hpow := mul_le_mul_of_nonneg_left (Binary64.leeway_pow_le (k := 14) (by decide)) hpq
  rw [factor_eq, mul_div_assoc', div_le_iff₀ (by positivity)]
  linarith

section Direct

variable (ha : Parameter a) (hb : Parameter b) (hhalf : b.value = 1 / 2) (hx : Converges x a b)
  (hm : 1 ≤ m) (hm' : m ≤ 300)
include ha hb hhalf hx hm hm'

theorem directEven_bounds : (evenCoefficient x a b m).isFinite = true ∧
    (evenCoefficient x a b m).value ≤ 0 ∧
      -(93 / 100 * m / (a.value + 2 * m)) ≤
        (evenCoefficient x a b m).value * ((a.value + 2 * m - 1) / (m - 1 / 2)) := by
  have hlow := ha.low
  obtain ⟨hmr, hmr'⟩ := index_bounds hm hm'
  have heven := evenCoefficient_bounded ha hm hm' hb.isFinite
    (bounded_directArgument ha hhalf hx) (by norm_num) (by norm_num)
    (g := m - 1 / 2) (by rw [hhalf, abs_le]; constructor <;> linarith) (by linarith) (by linarith)
  have hless : 0 < a.value + 2 * m - 1 := by linarith
  have hgap : (0 : ℝ) < m - 1 / 2 := by linarith
  have hpow := Binary64.leeway_pow_le (k := 12) (by decide)
  refine ⟨heven.isFinite, Binary64.value_nonpos_of_negative ?_, ?_⟩
  · rw [evenCoefficient_negative ha hm hm' hb hx.pos heven.isNaN, hhalf]
    exact decide_eq_true (by linarith)
  · refine (neg_le_of_abs_le (bounded_mul_le heven (div_pos hless hgap).le)).trans' ?_
    rw [neg_le_neg_iff]
    calc m * (m - 1 / 2) * (92 / 100) / ((a.value + 2 * m - 1) * (a.value + 2 * m)) *
          leeway ^ 12 * ((a.value + 2 * m - 1) / (m - 1 / 2)) =
          92 / 100 * leeway ^ 12 * m / (a.value + 2 * m) := cancel hgap.ne' hless.ne'
      _ ≤ 93 / 100 * m / (a.value + 2 * m) := by
          gcongr
          linarith

theorem directOdd_bounds : (oddCoefficient x a b m).isFinite = true ∧
    (oddCoefficient x a b m).value ≤ 0 ∧
      -(93 / 100 * (a.value + m + 1 / 2) / (a.value + 2 * m + 1)) ≤
        (oddCoefficient x a b m).value * ((a.value + 2 * m) / (a.value + m)) := by
  have hlow := ha.low
  obtain ⟨hmr, hmr'⟩ := index_bounds hm hm'
  have hodd := oddCoefficient_bounded ha hm hm' hb
    (bounded_directArgument ha hhalf hx) (by norm_num) (by norm_num)
  have hfirst : 0 < a.value + 2 * m := by linarith
  have hsum : 0 < a.value + m := by linarith
  have hpow := Binary64.leeway_pow_le (k := 12) (by decide)
  refine ⟨hodd.isFinite, oddCoefficient_nonpos ha hm hm' hb hx.pos hodd.isNaN, ?_⟩
  rw [hhalf] at hodd
  refine (neg_le_of_abs_le (bounded_mul_le hodd (div_pos hfirst hsum).le)).trans' ?_
  rw [neg_le_neg_iff]
  calc (a.value + m) * (a.value + 1 / 2 + m) * (92 / 100) /
        ((a.value + 2 * m) * (a.value + 2 * m + 1)) * leeway ^ 12 *
        ((a.value + 2 * m) / (a.value + m)) =
        92 / 100 * leeway ^ 12 * (a.value + m + 1 / 2) / (a.value + 2 * m + 1) := by
          rw [mul_comm (a.value + (m : ℝ)), cancel hsum.ne' hfirst.ne', add_right_comm]
    _ ≤ 93 / 100 * (a.value + m + 1 / 2) / (a.value + 2 * m + 1) := by
        gcongr
        linarith

/-- A second parameter of one half: the coefficients are at their largest with an argument of one,
and that of an argument below has room for rounding. -/
theorem directPair (hf : Ready ((a.value + 2 * m - 1) / (m - 1 / 2)) (valueBound m) f) :
    Ready ((a.value + 2 * (m + 1) - 1) / (m + 1 - 1 / 2)) (valueBound (m + 1))
      (oddStep x a b (m : Binary64) (evenStep x a b (m : Binary64) f)) := by
  have hlow := ha.low
  have hhigh := ha.high
  obtain ⟨hmr, hmr'⟩ := index_bounds hm hm'
  obtain ⟨hpf, hp, hp'⟩ := directEven_bounds ha hb hhalf hx hm hm'
  obtain ⟨hqf, hq, hq'⟩ := directOdd_bounds ha hb hhalf hx hm hm'
  have hfirst : 0 < a.value + 2 * m := by linarith
  have hless : 0 < a.value + 2 * m - 1 := by linarith
  have hmore : 0 < a.value + 2 * m + 1 := by linarith
  have hsum : 0 < a.value + m := by linarith
  have hgap : (0 : ℝ) < m - 1 / 2 := by linarith
  have hs : 93 / 100 * m / (a.value + 2 * m) ≤ 99 / 100 := by
    rw [div_le_iff₀ hfirst]
    linarith
  have hs' : 93 / 100 * (a.value + m + 1 / 2) / (a.value + 2 * m + 1) ≤ 99 / 100 := by
    rw [div_le_iff₀ hmore]
    linarith
  -- What the coefficients leave of one, each as a single quotient.
  have hrest : 1 - 93 / 100 * m / (a.value + 2 * m) =
      (a.value + 107 / 100 * m) / (a.value + 2 * m) := by
    field_simp
    ring
  have hrest' : 1 - 93 / 100 * (a.value + m + 1 / 2) / (a.value + 2 * m + 1) =
      (7 / 100 * a.value + 107 / 100 * m + 107 / 200) / (a.value + 2 * m + 1) := by
    field_simp
    ring
  have hw : leeway ^ 3 / (1 - 93 / 100 * m / (a.value + 2 * m)) ≤
      (a.value + 2 * m) / (a.value + m) := by
    rw [hrest]
    exact leeway_div_le hfirst.le hsum (by linarith) (by linarith)
  rw [evenStep_eq, oddStep_eq]
  have h := hf.pair hpf hqf (by positivity) hs le_rfl (by norm_num) hp'
    (mul_nonpos_of_nonpos_of_nonneg hp (div_pos hless hgap).le) hw (by positivity) hs' hq' hq
    (valueBound_pos hm) (valueBound_le (by omega))
  rw [hrest, hrest'] at h
  refine h.mono ?_ ?_ (valueBound_step ?_)
  · refine mul_pos (valueBound_pos hm) (mul_pos ?_ (Binary64.leeway_pow_pos 14))
    positivity
  · rw [show a.value + 2 * (m + 1) - 1 = a.value + 2 * m + 1 by ring]
    exact leeway_div_le hmore.le (by linarith) (by linarith) (by linarith)
  · exact directPair_factor (by linarith) hhigh hmr

end Direct

end MetricWatch.Tail
