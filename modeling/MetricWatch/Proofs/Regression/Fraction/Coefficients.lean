import MetricWatch.Proofs.Regression.Fraction.Division

namespace MetricWatch.Tail

open Binary64 (Bounded Near Roomy Middling leeway leeway_pos one_lt_leeway near_one near_two)

section Steps

variable {α : Type} [Scalar α]

def evenCoefficient (x a b m : α) : α :=
  m * (b - m) * x / ((a + 2.0 * m - 1.0) * (a + 2.0 * m))

def oddCoefficient (x a b m : α) : α :=
  -(a + m) * (a + b + m) * x / ((a + 2.0 * m) * (a + 2.0 * m + 1.0))

theorem evenStep_eq (x a b m : α) (f : Fraction α) :
    evenStep x a b m f = advance (evenCoefficient x a b m) f := rfl

theorem oddStep_eq (x a b m : α) (f : Fraction α) :
    oddStep x a b m f = advance (oddCoefficient x a b m) f := rfl

end Steps

/-- A parameter of the incomplete beta function, with at most thirty degrees of freedom. -/
structure Parameter (a : Binary64) : Prop where
  isFinite : a.isFinite = true
  low : 1 / 5 ≤ a.value
  high : a.value ≤ 16

section Coefficients

variable {x a b : Binary64} {m : Nat}

theorem index_bounds (hm : 1 ≤ m) (hm' : m ≤ 300) : (1 : ℝ) ≤ m ∧ (m : ℝ) ≤ 300 :=
  ⟨by exact_mod_cast hm, by exact_mod_cast hm'⟩

theorem near_index (hm : m ≤ 300) : Near 0 (m : ℝ) (m : Binary64) :=
  Binary64.near_natCast (hm.trans (by decide))

theorem middling_mul {p q : ℝ} (hp : 1 ≤ p) (hp' : p ≤ 1000) (hq : 1 ≤ q) (hq' : q ≤ 1000) :
    Middling (p * q) :=
  ⟨(by norm_num : (1 : ℝ) / 10 ^ 12 ≤ 1).trans (one_le_mul_of_one_le_of_one_le hp hq),
    (mul_le_mul hp' hq' (by linarith) (by norm_num)).trans (by norm_num)⟩

theorem bounded_coefficient {p q y : Binary64} {P Q ξ D : ℝ} {j : Nat} (hp : Bounded P p)
    (hq : Bounded Q q) (hx : Bounded ξ x) (hy : Near j D y) (hP : 1 / 10 ^ 10 ≤ P)
    (hP' : P ≤ 10 ^ 4) (hQ : 1 / 10 ^ 10 ≤ Q) (hQ' : Q ≤ 10 ^ 4) (hξ : 1 / 10 ^ 10 ≤ ξ)
    (hξ' : ξ ≤ 1) (hD : 1 ≤ D) (hD' : D ≤ 10 ^ 6) (hj : j ≤ 20) :
    Bounded (P * Q * ξ / D * leeway ^ (j + 3)) (p * q * x / y) := by
  have hPQ : 1 / 10 ^ 10 * (1 / 10 ^ 10) ≤ P * Q :=
    mul_le_mul hP hQ (by norm_num) (by linarith)
  have hPQ' : P * Q ≤ 10 ^ 4 * 10 ^ 4 := mul_le_mul hP' hQ' (by linarith) (by norm_num)
  have hPQξ : 1 / 10 ^ 10 * (1 / 10 ^ 10) * (1 / 10 ^ 10) ≤ P * Q * ξ :=
    mul_le_mul hPQ hξ (by norm_num) (by linarith)
  have hPQξ' : P * Q * ξ ≤ P * Q := mul_le_of_le_one_right (by linarith) hξ'
  have hDpos : 0 < D := one_pos.trans_le hD
  have hall : 1 / 10 ^ 36 ≤ P * Q * ξ / D := by
    rw [le_div_iff₀ hDpos]
    linarith
  have hall' : P * Q * ξ / D ≤ 10 ^ 8 := by
    rw [div_le_iff₀ hDpos]
    linarith
  have hroomy {w : ℝ} (hw : 1 / 10 ^ 36 ≤ w) (hw' : w ≤ 10 ^ 8) (i : Nat) (hi : i ≤ 32) :
      Roomy (w * leeway ^ i) := by
    have hpos : 0 ≤ w := LE.le.trans (by norm_num) hw
    have hone : w ≤ w * leeway ^ i := le_mul_of_one_le_right hpos (one_le_pow₀ one_lt_leeway.le)
    have htwo : w * leeway ^ i ≤ w * (1 + 1 / 10 ^ 7) :=
      mul_le_mul_of_nonneg_left (Binary64.leeway_pow_le hi) hpos
    exact ⟨by linarith, by linarith⟩
  have hpq := hp.mul hq (hroomy (w := P * Q) (by linarith) (by linarith) 1 (by decide))
    (by rw [pow_one])
  have hpqx := hpq.mul hx (hroomy (w := P * Q * ξ) (by linarith) (by linarith) 2 (by decide))
    (le_of_eq (by ring))
  exact hpqx.div_near hy hDpos (hroomy hall hall' (j + 3) (by omega)) (le_of_eq (by ring))

theorem negative_coefficient {p q y : Binary64} (hx : 0 < x.value) (hy : 0 < y.value)
    (hn : (p * q * x / y).isNaN = false) :
    (p * q * x / y).negative = (p.negative != q.negative) := by
  have hn₁ := Binary64.isNaN_eq_false Binary64.div_isNaN_of_left hn
  have hn₂ := Binary64.isNaN_eq_false Binary64.mul_isNaN_of_left hn₁
  rw [Binary64.negative_div hn, Binary64.negative_mul hn₁, Binary64.negative_mul hn₂,
    Binary64.negative_of_value_pos hx, Binary64.negative_of_value_pos hy, Bool.bne_false,
    Bool.bne_false]

variable (ha : Parameter a) (hm : 1 ≤ m) (hm' : m ≤ 300)
include ha hm hm'

theorem near_add_double : Near 2 (a.value + 2 * m) (a + 2.0 * (m : Binary64)) := by
  have hlow := ha.low
  have hhigh := ha.high
  obtain ⟨hmr, hmr'⟩ := index_bounds hm hm'
  have hdouble := near_two.mul (near_index hm') two_pos (by linarith) (by decide)
    ⟨by linarith, by linarith⟩
  have hself : Near 1 a.value a :=
    (Binary64.near_of_value ha.isFinite rfl).mono (by linarith) (by decide)
  exact hself.add hdouble (by decide) ⟨by linarith, by linarith⟩

theorem near_evenDivisor : Near 8 ((a.value + 2 * m - 1) * (a.value + 2 * m))
    ((a + 2.0 * (m : Binary64) - 1.0) * (a + 2.0 * (m : Binary64))) := by
  have hlow := ha.low
  have hhigh := ha.high
  obtain ⟨hmr, hmr'⟩ := index_bounds hm hm'
  have hsum := near_add_double ha hm hm'
  have hless := hsum.sub_one Binary64.isFinite_one Binary64.value_one (by decide) (by linarith)
    ⟨by linarith, by linarith⟩
  exact hless.mul hsum (by linarith) (by linarith) (by decide)
    (middling_mul (by linarith) (by linarith) (by linarith) (by linarith))

theorem near_oddDivisor : Near 6 ((a.value + 2 * m) * (a.value + 2 * m + 1))
    ((a + 2.0 * (m : Binary64)) * (a + 2.0 * (m : Binary64) + 1.0)) := by
  have hlow := ha.low
  have hhigh := ha.high
  obtain ⟨hmr, hmr'⟩ := index_bounds hm hm'
  have hsum := near_add_double ha hm hm'
  have hmore := hsum.add (near_one.mono one_pos (by decide)) (by decide)
    ⟨by linarith, by linarith⟩
  exact hsum.mul hmore (by linarith) (by linarith) (by decide)
    (middling_mul (by linarith) (by linarith) (by linarith) (by linarith))

theorem evenCoefficient_bounded {g ξ : ℝ} (hb : b.isFinite = true) (hx : Bounded ξ x)
    (hξ : 1 / 10 ^ 10 ≤ ξ) (hξ' : ξ ≤ 1) (hbm : |b.value - m| ≤ g) (hg : 1 / 10 ^ 10 ≤ g)
    (hg' : g ≤ 1000) :
    Bounded (m * g * ξ / ((a.value + 2 * m - 1) * (a.value + 2 * m)) * leeway ^ 12)
      (evenCoefficient x a b m) := by
  have hlow := ha.low
  have hhigh := ha.high
  obtain ⟨hmr, hmr'⟩ := index_bounds hm hm'
  have hindex := near_index hm'
  have hdiff : Bounded (g * leeway) (b - (m : Binary64)) := by
    have hvalue : (m : Binary64).value = m := Binary64.value_natCast (hm'.trans (by decide))
    refine Binary64.bounded_of_rounds (Binary64.rounds_sub hb hindex.isFinite) ?_ ?_
    · rw [hvalue]
      exact mul_le_mul_of_nonneg_right hbm leeway_pos.le
    · constructor <;> rw [leeway] <;> linarith
  have h := bounded_coefficient (hindex.bounded (by linarith)) hdiff hx
    (near_evenDivisor ha hm hm') (by linarith) (by linarith) (by rw [leeway]; linarith)
    (by rw [leeway]; linarith) hξ hξ' (by nlinarith) (by nlinarith) (by decide)
  rw [evenCoefficient]
  exact h.mono (le_of_eq (by ring))

theorem near_add_index : Near 1 (a.value + m) (a + (m : Binary64)) := by
  have hlow := ha.low
  have hhigh := ha.high
  obtain ⟨hmr, hmr'⟩ := index_bounds hm hm'
  exact (Binary64.near_of_value ha.isFinite rfl).add (near_index hm') (by decide)
    ⟨by linarith, by linarith⟩

theorem near_sum (hb : Parameter b) :
    Near 2 (a.value + b.value + m) (a + b + (m : Binary64)) := by
  have hlow := ha.low
  have hhigh := ha.high
  have hblow := hb.low
  have hbhigh := hb.high
  obtain ⟨hmr, hmr'⟩ := index_bounds hm hm'
  have hsum := (Binary64.near_of_value ha.isFinite rfl).add
    (Binary64.near_of_value hb.isFinite rfl) (by decide) ⟨by linarith, by linarith⟩
  exact hsum.add ((near_index hm').mono (by linarith) (by decide)) (by decide)
    ⟨by linarith, by linarith⟩

theorem oddCoefficient_bounded {ξ : ℝ} (hb : Parameter b) (hx : Bounded ξ x)
    (hξ : 1 / 10 ^ 10 ≤ ξ) (hξ' : ξ ≤ 1) :
    Bounded ((a.value + m) * (a.value + b.value + m) * ξ /
      ((a.value + 2 * m) * (a.value + 2 * m + 1)) * leeway ^ 12) (oddCoefficient x a b m) := by
  have hlow := ha.low
  have hhigh := ha.high
  have hblow := hb.low
  have hbhigh := hb.high
  obtain ⟨hmr, hmr'⟩ := index_bounds hm hm'
  have h := bounded_coefficient ((near_add_index ha hm hm').bounded (by linarith)).neg
    ((near_sum ha hm hm' hb).bounded (by linarith)) hx (near_oddDivisor ha hm hm')
    (by rw [leeway]; linarith) (by rw [leeway]; linarith) (by rw [leeway]; linarith)
    (by rw [leeway]; linarith) hξ hξ' (by nlinarith) (by nlinarith) (by decide)
  exact h.mono (le_of_eq (by ring))

theorem evenCoefficient_negative (hb : Parameter b) (hx : 0 < x.value)
    (hn : (evenCoefficient x a b m).isNaN = false) :
    (evenCoefficient x a b m).negative = decide (b.value < m) := by
  have hlow := ha.low
  have hmr : (1 : ℝ) ≤ m := by exact_mod_cast hm
  have hbpos : 0 < b.value := LT.lt.trans_le (by norm_num) hb.low
  have hvalue : (m : Binary64).value = m := Binary64.value_natCast (hm'.trans (by decide))
  have hdivisor := (near_evenDivisor ha hm hm').value_pos
    (mul_pos (by linarith) (by linarith))
  rw [evenCoefficient] at hn ⊢
  rw [negative_coefficient hx hdivisor hn, Binary64.negative_natCast, Bool.false_bne,
    Binary64.negative_sub hb.isFinite (near_index hm').isFinite
      (Binary64.negative_of_value_pos hbpos), hvalue]

theorem oddCoefficient_nonpos (hb : Parameter b) (hx : 0 < x.value)
    (hn : (oddCoefficient x a b m).isNaN = false) : (oddCoefficient x a b m).value ≤ 0 := by
  have hlow := ha.low
  have hhigh := ha.high
  have hblow := hb.low
  have hbhigh := hb.high
  obtain ⟨hmr, hmr'⟩ := index_bounds hm hm'
  have hdivisor := (near_oddDivisor ha hm hm').value_pos (mul_pos (by linarith) (by linarith))
  have hneg : (-(a + (m : Binary64))).negative = !(a + (m : Binary64)).negative :=
    Binary64.negative_neg _
  refine Binary64.value_nonpos_of_negative ?_
  rw [oddCoefficient] at hn ⊢
  rw [negative_coefficient hx hdivisor hn, hneg,
    Binary64.negative_of_value_pos ((near_add_index ha hm hm').value_pos (by linarith)),
    Binary64.negative_of_value_pos ((near_sum ha hm hm' hb).value_pos (by linarith))]
  rfl

end Coefficients

end MetricWatch.Tail
