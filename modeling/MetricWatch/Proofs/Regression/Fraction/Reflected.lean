import MetricWatch.Proofs.Regression.Fraction.Run

namespace MetricWatch.Tail

open Binary64 (leeway)

variable {x a b : Binary64} {m : Nat} {f : Fraction Binary64} {t u : ℝ}

theorem reflected_eq (r s c e p q l w : ℝ) :
    r * s * (c / e) / (p * q) * l * w = c * w * (l * (r * s)) / (e * (p * q)) := by
  ring

theorem reflectedOdd_le {B M : ℝ} (hB : 0 ≤ B) (hM : 1 ≤ M) :
    3 / 2 * (1 + 1 / 10 ^ 6) * (141 / 100) *
        ((1 + 1 / 10 ^ 7) * ((1 / 2 + M) * (1 / 2 + B + M))) ≤
      37 / 100 * ((B + 5 / 2) * ((1 / 2 + 2 * M) * (1 / 2 + 2 * M + 1))) := by
  obtain ⟨n, rfl⟩ : ∃ n, M = 1 + n := ⟨M - 1, by ring⟩
  have hn : 0 ≤ n := by linarith
  have h₁ : 0 ≤ B * n := by positivity
  have h₂ : 0 ≤ B * n ^ 2 := by positivity
  have h₃ : 0 ≤ n ^ 2 := by positivity
  linarith

/-- A first parameter of one half: the argument is small against the second one, and so are the
coefficients but for the first. -/
theorem reflectedPair (ha : Parameter a) (hb : Parameter b) (hhalf : a.value = 1 / 2)
    (hx : Converges x a b) (hm : 1 ≤ m) (hm' : m ≤ 300) (hf : Ready u (valueBound m) f)
    (hp : (evenCoefficient x a b m).isFinite = true)
    (hp₁ : -(29 / 100) ≤ (evenCoefficient x a b m).value * u)
    (hp₂ : (evenCoefficient x a b m).value * u ≤ t) (ht : 0 ≤ t) (ht' : t ≤ 10)
    (hgrowth : (m : ℝ) ^ 2 * (3 * (1 + t)) ≤ 6 * ((m : ℝ) + 1) ^ 2) :
    Ready 2 (valueBound (m + 1))
      (oddStep x a b (m : Binary64) (evenStep x a b (m : Binary64) f)) := by
  have hlow := hb.low
  have hhigh := hb.high
  have hmr : (1 : ℝ) ≤ m := by exact_mod_cast hm
  obtain ⟨hξ, hξ'⟩ := reflectedPeak_bounds hlow hhigh
  have hodd := oddCoefficient_bounded ha hm hm' hb (bounded_of_reflected hb hhalf hx)
    (by linarith) hξ'
  have hoddSign := oddCoefficient_nonpos ha hm hm' hb hx.pos hodd.isNaN
  have hpow := Binary64.leeway_pow_le (k := 12) (by decide)
  have hpow' := Binary64.leeway_pow_le (k := 14) (by decide)
  have hpow'' := Binary64.leeway_pow_le (k := 3) (by decide)
  have hq : -(37 / 100) ≤ (oddCoefficient x a b m).value * (141 / 100) := by
    refine (neg_le_of_abs_le (bounded_mul_le hodd (by norm_num))).trans' ?_
    rw [neg_le_neg_iff, hhalf, reflectedPeak_eq, reflected_eq, div_le_iff₀ (by positivity)]
    have hnum : 0 ≤ (1 / 2 + (m : ℝ)) * (1 / 2 + b.value + m) := by positivity
    have hscaled := mul_le_mul_of_nonneg_right hpow hnum
    have hgap := reflectedOdd_le (by linarith) hmr (B := b.value)
    linarith
  rw [evenStep_eq, oddStep_eq]
  have h := hf.pair hp hodd.isFinite (by norm_num) (by norm_num) ht ht' hp₁ hp₂
    (w := 141 / 100) (by rw [div_le_iff₀ (by norm_num)]; linarith) (by norm_num) (by norm_num) hq
    hoddSign (valueBound_pos hm) (valueBound_le (by omega))
  refine h.mono ?_ ?_ (valueBound_step (hgrowth.trans' ?_))
  · refine mul_pos (valueBound_pos hm) (mul_pos ?_ (Binary64.leeway_pow_pos 14))
    norm_num
    positivity
  · rw [div_le_iff₀ (by norm_num)]
    linarith
  · refine mul_le_mul_of_nonneg_left ?_ (by positivity)
    have hscaled := mul_le_mul_of_nonneg_left hpow' (by linarith : 0 ≤ 1 + t)
    rw [div_div, div_mul_eq_mul_div, div_le_iff₀ (by norm_num)]
    linarith

/-- The even coefficient with a bound, in terms of what the second parameter is off the index by. -/
theorem reflectedEven_mul_le (ha : Parameter a) (hb : Parameter b) (hhalf : a.value = 1 / 2)
    (hx : Converges x a b) (hm : 1 ≤ m) (hm' : m ≤ 300) (hu : 0 ≤ u) {r : ℝ}
    (hr : |b.value - m| + 1 / 10 ^ 9 ≤ r) (hr' : r ≤ 1000) :
    (evenCoefficient x a b m).isFinite = true ∧
      |(evenCoefficient x a b m).value * u| ≤
        m * r * (reflectedPeak b.value * (1 + 1 / 10 ^ 6)) / ((2 * m - 1 / 2) * (2 * m + 1 / 2)) *
          (1 + 1 / 10 ^ 7) * u := by
  obtain ⟨hξ, hξ'⟩ := reflectedPeak_bounds hb.low hb.high
  have hpos := abs_nonneg (b.value - m)
  have hmr : (1 : ℝ) ≤ m := by exact_mod_cast hm
  have heven := evenCoefficient_bounded ha hm hm' hb.isFinite
    (bounded_of_reflected hb hhalf hx) (by linarith) hξ' (g := r) (by linarith) (by linarith)
    hr'
  refine ⟨heven.isFinite, (bounded_mul_le heven hu).trans ?_⟩
  have hpow := Binary64.leeway_pow_le (k := 12) (by decide)
  have hden : (a.value + 2 * m - 1) * (a.value + 2 * m) = (2 * m - 1 / 2) * (2 * m + 1 / 2) := by
    rw [hhalf]
    ring
  have hhalf' : (0 : ℝ) < 2 * m - 1 / 2 := by linarith
  have hrpos : 0 ≤ r := by linarith
  rw [hden]
  gcongr

/-- Below the second parameter the even coefficient is not negative, and may be larger. -/
theorem reflectedEven_bounds (ha : Parameter a) (hb : Parameter b) (hhalf : a.value = 1 / 2)
    (hx : Converges x a b) (hm : 1 ≤ m) (hm' : m ≤ 300) (hu : 0 ≤ u) (ht : 29 / 100 ≤ t)
    (hbelow : b.value ≤ m →
      m * (m - b.value + 1 / 10 ^ 9) * (reflectedPeak b.value * (1 + 1 / 10 ^ 6)) /
        ((2 * m - 1 / 2) * (2 * m + 1 / 2)) * (1 + 1 / 10 ^ 7) * u ≤ 29 / 100)
    (habove : m ≤ b.value →
      m * (b.value - m + 1 / 10 ^ 9) * (reflectedPeak b.value * (1 + 1 / 10 ^ 6)) /
        ((2 * m - 1 / 2) * (2 * m + 1 / 2)) * (1 + 1 / 10 ^ 7) * u ≤ t) :
    (evenCoefficient x a b m).isFinite = true ∧
      -(29 / 100) ≤ (evenCoefficient x a b m).value * u ∧
        (evenCoefficient x a b m).value * u ≤ t := by
  have hhigh := hb.high
  have hlow := hb.low
  obtain ⟨hmr, hmr'⟩ := index_bounds hm hm'
  rcases le_total b.value m with h | h
  · have habs : |b.value - m| = m - b.value := by
      rw [abs_sub_comm, abs_of_nonneg (by linarith)]
    obtain ⟨hf, hle⟩ := reflectedEven_mul_le ha hb hhalf hx hm hm' hu
      (r := m - b.value + 1 / 10 ^ 9) (by rw [habs]) (by linarith)
    obtain ⟨hl, hr⟩ := abs_le.1 (hle.trans (hbelow h))
    exact ⟨hf, hl, hr.trans ht⟩
  · have habs : |b.value - m| = b.value - m := abs_of_nonneg (by linarith)
    obtain ⟨hf, hle⟩ := reflectedEven_mul_le ha hb hhalf hx hm hm' hu
      (r := b.value - m + 1 / 10 ^ 9) (by rw [habs]) (by linarith)
    have hsign : 0 ≤ (evenCoefficient x a b m).value := by
      refine Binary64.value_nonneg_of_negative ?_
      rw [evenCoefficient_negative ha hm hm' hb hx.pos (Binary64.isFinite_iff.1 hf).1]
      exact decide_eq_false h.not_gt
    exact ⟨hf, (by norm_num : -(29 / 100 : ℝ) ≤ 0).trans (mul_nonneg hsign hu),
      (abs_le.1 (hle.trans (habove h))).2⟩

/-- The bound of the divisors before a pair of index `m`. Only the first may be large. -/
def reflectedBound (first later : ℝ) (m : Nat) : ℝ := if m = 1 then first else later

theorem reflectedPair_first (ha : Parameter a) (hb : Parameter b) (hhalf : a.value = 1 / 2)
    (hx : Converges x a b)
    (hf : Ready ((b.value + 5 / 2) / 2 * (1 + 1 / 10 ^ 3)) (valueBound 1) f) :
    Ready 2 (valueBound 2) (oddStep x a b (1 : Nat) (evenStep x a b (1 : Nat) f)) := by
  have hlow := hb.low
  have hhigh := hb.high
  have hden : 0 < b.value + 5 / 2 := by linarith
  have hcancel (r : ℝ) : (1 : Nat) * r * (reflectedPeak b.value * (1 + 1 / 10 ^ 6)) /
      ((2 * (1 : Nat) - 1 / 2) * (2 * (1 : Nat) + 1 / 2)) * (1 + 1 / 10 ^ 7) *
        ((b.value + 5 / 2) / 2 * (1 + 1 / 10 ^ 3)) =
      r * (2 / 15 * (3 / 2 * (1 + 1 / 10 ^ 6)) * (1 + 1 / 10 ^ 7) * (1 + 1 / 10 ^ 3)) := by
    rw [reflectedPeak_eq]
    push_cast
    field_simp
    ring
  obtain ⟨hp, hp₁, hp₂⟩ := reflectedEven_bounds ha hb hhalf hx le_rfl (by decide)
    (u := (b.value + 5 / 2) / 2 * (1 + 1 / 10 ^ 3)) (t := 301 / 100) (by positivity)
    (by norm_num) (fun h ↦ by rw [hcancel]; linarith) (fun h ↦ by rw [hcancel]; linarith)
  exact reflectedPair ha hb hhalf hx le_rfl (by decide) hf hp hp₁ hp₂ (by norm_num) (by norm_num)
    (by norm_num)

theorem reflectedEven_below {B M : ℝ} (hB : 1 / 5 ≤ B) (hM : 2 ≤ M) :
    3 / 2 * (1 + 1 / 10 ^ 6) * 2 * ((1 + 1 / 10 ^ 7) * (M * (M - B + 1 / 10 ^ 9))) ≤
      29 / 100 * ((B + 5 / 2) * ((2 * M - 1 / 2) * (2 * M + 1 / 2))) := by
  obtain ⟨n, rfl⟩ : ∃ n, M = 2 + n := ⟨M - 2, by ring⟩
  obtain ⟨c, rfl⟩ : ∃ c, B = 1 / 5 + c := ⟨B - 1 / 5, by ring⟩
  have hn : 0 ≤ n := by linarith
  have hc : 0 ≤ c := by linarith
  have h₁ : 0 ≤ c * n := by positivity
  have h₂ : 0 ≤ c * n ^ 2 := by positivity
  have h₃ : 0 ≤ n ^ 2 := by positivity
  linarith

theorem reflectedEven_above {B M : ℝ} (hB : B ≤ 16) (hM : 2 ≤ M) (h : M ≤ B) :
    3 / 2 * (1 + 1 / 10 ^ 6) * 2 * ((1 + 1 / 10 ^ 7) * (M * (B - M + 1 / 10 ^ 9))) ≤
      3 / 10 * ((B + 5 / 2) * ((2 * M - 1 / 2) * (2 * M + 1 / 2))) := by
  obtain ⟨n, rfl⟩ : ∃ n, M = 2 + n := ⟨M - 2, by ring⟩
  obtain ⟨c, rfl⟩ : ∃ c, B = 16 - c := ⟨16 - B, by ring⟩
  have hn : 0 ≤ n := by linarith
  have hc : 0 ≤ c := by linarith
  have h₁ : 0 ≤ c * n := by positivity
  have hc' : c ≤ 14 := by linarith
  have h₂ : c * n ≤ 14 * n := mul_le_mul_of_nonneg_right hc' hn
  have h₃ : c * n ^ 2 ≤ 14 * n ^ 2 := mul_le_mul_of_nonneg_right hc' (sq_nonneg n)
  have h₄ : 0 ≤ n ^ 2 := by positivity
  linarith

theorem reflectedPair_later (ha : Parameter a) (hb : Parameter b) (hhalf : a.value = 1 / 2)
    (hx : Converges x a b) (hm : 2 ≤ m) (hm' : m ≤ 300) (hf : Ready 2 (valueBound m) f) :
    Ready 2 (valueBound (m + 1))
      (oddStep x a b (m : Binary64) (evenStep x a b (m : Binary64) f)) := by
  have hlow := hb.low
  have hhigh := hb.high
  have hmr : (2 : ℝ) ≤ m := by exact_mod_cast hm
  have hpos : 0 < (b.value + 5 / 2) * ((2 * m - 1 / 2) * (2 * m + 1 / 2) : ℝ) :=
    mul_pos (by linarith) (mul_pos (by linarith) (by linarith))
  have hle (r T : ℝ)
      (h : 3 / 2 * (1 + 1 / 10 ^ 6) * 2 * ((1 + 1 / 10 ^ 7) * (m * r)) ≤
        T * ((b.value + 5 / 2) * ((2 * m - 1 / 2) * (2 * m + 1 / 2)))) :
      m * r * (reflectedPeak b.value * (1 + 1 / 10 ^ 6)) / ((2 * m - 1 / 2) * (2 * m + 1 / 2)) *
        (1 + 1 / 10 ^ 7) * 2 ≤ T := by
    rw [reflectedPeak_eq, reflected_eq, div_le_iff₀ hpos]
    exact h
  obtain ⟨hp, hp₁, hp₂⟩ := reflectedEven_bounds ha hb hhalf hx (by omega) hm' (u := 2)
    (t := 3 / 10) two_pos.le (by norm_num) (fun _ ↦ hle _ _ (reflectedEven_below hlow hmr))
    (fun h ↦ hle _ _ (reflectedEven_above hhigh hmr h))
  exact reflectedPair ha hb hhalf hx (by omega) hm' hf hp hp₁ hp₂ (by norm_num) (by norm_num)
    (by nlinarith)

end MetricWatch.Tail
