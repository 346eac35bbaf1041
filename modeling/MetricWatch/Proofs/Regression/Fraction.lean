import MetricWatch.Proofs.Regression.Fraction.Direct
import MetricWatch.Proofs.Regression.Fraction.Reflected

namespace MetricWatch.Tail

open Binary64 (Bounded Near Spread leeway leeway_pos one_lt_leeway near_one value_one)

variable {x a b : Binary64}

theorem bounded_fractionStart (ha : Parameter a) (hb : Parameter b) (hx : Converges x a b) :
    Bounded ((a.value + b.value) / (a.value + b.value + 2) * (1 + 1 / 10 ^ 5))
      ((a + b) * x / (a + 1.0)) := by
  have halow := ha.low
  have hahigh := ha.high
  have hblow := hb.low
  have hbhigh := hb.high
  have hnear := Binary64.near_of_value ha.isFinite rfl
  have hsum := (hnear.add (Binary64.near_of_value hb.isFinite rfl) (by decide)
    ⟨by linarith, by linarith⟩).bounded (by linarith)
  have hdivisor := hnear.add near_one (by decide) ⟨by linarith, by linarith⟩
  -- The peak with its room for rounding; its numerator cancels against the divisor.
  obtain ⟨ξ, hξ⟩ : ∃ ξ, ξ = (a.value + 1) * (1 + 1 / 10 ^ 6) / (a.value + b.value + 2) := ⟨_, rfl⟩
  have hxξ : Bounded ξ x := by
    refine bounded_of_converges hx (by linarith) (le_of_eq ?_)
    rw [hξ]
    field_simp
  have hξlow : 1 / 100 ≤ ξ := by
    rw [hξ, le_div_iff₀ (by linarith)]
    linarith
  have hξhigh : ξ ≤ 2 := by
    rw [hξ, div_le_iff₀ (by linarith)]
    linarith
  have hproduct := hsum.mul hxξ (w := (a.value + b.value) * ξ * leeway ^ 2)
    ⟨by rw [leeway]; nlinarith, by rw [leeway]; nlinarith⟩ (le_of_eq (by ring))
  have hshare : 1 / 10 ≤ (a.value + b.value) / (a.value + b.value + 2) := by
    rw [le_div_iff₀ (by linarith)]
    linarith
  have hshare' : (a.value + b.value) / (a.value + b.value + 2) ≤ 1 := by
    rw [div_le_iff₀ (by linarith)]
    linarith
  refine hproduct.div_near hdivisor (by linarith) ⟨by linarith, by linarith⟩ ?_
  have hpow := Binary64.leeway_pow_le (k := 4) (by decide)
  calc (a.value + b.value) * ξ * leeway ^ 2 / (a.value + 1) * leeway ^ (0 + 1 + 1) =
        (a.value + b.value) / (a.value + b.value + 2) * ((1 + 1 / 10 ^ 6) * leeway ^ 4) := by
          rw [hξ]
          field_simp
          ring
    _ ≤ (a.value + b.value) / (a.value + b.value + 2) * (1 + 1 / 10 ^ 5) := by
          gcongr
          linarith

theorem spread_startDivisor (ha : Parameter a) (hb : Parameter b) (hx : Converges x a b) :
    Spread ((a.value + b.value + 2) / 2 * (1 + 1 / 10 ^ 3) / leeway) (2 * leeway)
      (guard (1.0 - (a + b) * x / (a + 1.0))) := by
  have halow := ha.low
  have hahigh := ha.high
  have hblow := hb.low
  have hbhigh := hb.high
  have hbounded := bounded_fractionStart ha hb hx
  obtain ⟨w, hw⟩ : ∃ w, w = a.value + b.value + 2 := ⟨_, rfl⟩
  have hwpos : 0 < w := by linarith
  -- What is taken away from one is `1 - e` at most, so that the divisor is no less than `e`.
  obtain ⟨e, he⟩ : ∃ e, e = (2 - (w - 2) / 10 ^ 5) / w := ⟨_, rfl⟩
  have hrest : (a.value + b.value) / w * (1 + 1 / 10 ^ 5) = 1 - e := by
    rw [he, show a.value + b.value = w - 2 by linarith]
    field_simp
    ring
  have helow : 1 / 20 ≤ e := by
    rw [he, le_div_iff₀ hwpos]
    linarith
  have hepos : 0 < e := by linarith
  have hlarge : leeway / e ≤ 20 * leeway := by
    rw [div_le_iff₀ hepos]
    have hpos := leeway_pos
    nlinarith
  have hbound : leeway / e ≤ w / 2 * (1 + 1 / 10 ^ 3) / leeway := by
    rw [le_div_iff₀ leeway_pos, he, div_div_eq_mul_div, div_mul_eq_mul_div,
      div_le_iff₀ (by linarith), leeway]
    nlinarith
  rw [← hw, hrest] at hbounded
  obtain ⟨hplow, hphigh⟩ := abs_le.1 hbounded.abs_le
  have hspread := Binary64.spread_of_rounds (l := 1 / e) (u := 2)
    (Binary64.rounds_sub Binary64.isFinite_one hbounded.isFinite) (one_div_pos.2 hepos)
    ((one_div_le_one_div_of_le (by norm_num) helow).trans (by norm_num)) (by norm_num) ?_ ?_
  · rw [one_div_mul_eq_div] at hspread
    have hl := div_pos leeway_pos hepos
    have hlow := (hspread.mono hl hlarge le_rfl).low
    rw [leeway] at hlow
    rw [guard_eq (by linarith), ← hw]
    exact hspread.mono hl hbound le_rfl
  · rw [value_one, one_div_mul_eq_div, one_le_div hepos]
    linarith
  · rw [value_one]
    linarith

theorem fractionStart_eq (x a b : Binary64) : fractionStart x a b =
    ⟨1.0, 1.0 / guard (1.0 - (a + b) * x / (a + 1.0)),
      1.0 / guard (1.0 - (a + b) * x / (a + 1.0))⟩ := rfl

theorem ready_fractionStart (ha : Parameter a) (hb : Parameter b) (hx : Converges x a b) :
    Ready ((a.value + b.value + 2) / 2 * (1 + 1 / 10 ^ 3)) (valueBound 1)
      (fractionStart x a b) := by
  have halow := ha.low
  have hahigh := ha.high
  have hblow := hb.low
  have hbhigh := hb.high
  have hdivisor := spread_startDivisor ha hb hx
  obtain ⟨u, hu⟩ : ∃ u, u = (a.value + b.value + 2) / 2 * (1 + 1 / 10 ^ 3) := ⟨_, rfl⟩
  have hulow : 1 ≤ u := by linarith
  have huhigh : u ≤ 18 := by linarith
  have hl : 0 < u / leeway := div_pos (by linarith) leeway_pos
  have hl' : u / leeway ≤ 18 := (div_le_self (by linarith) one_lt_leeway.le).trans huhigh
  rw [← hu] at hdivisor ⊢
  have hd := hdivisor.inv hl (by linarith) (by rw [leeway]; linarith)
  rw [div_mul_cancel₀ u leeway_pos.ne'] at hd
  have hpos : 0 < 2 * leeway * leeway := mul_pos (mul_pos two_pos leeway_pos) leeway_pos
  have hsmall : 2 * leeway * leeway ≤ 18 := by norm_num [leeway]
  have hvalue : valueBound 1 = 18 := by norm_num [valueBound]
  have hone : Spread 1 1 (1.0 : Binary64) :=
    ⟨Binary64.isFinite_one, by rw [value_one, one_mul], value_one.le⟩
  rw [fractionStart_eq, hvalue]
  exact Ready.of_spread hone hd one_pos hpos hulow (hd.mono hpos hsmall huhigh)

theorem betaFraction_spread (ha : Parameter a) (hb : Parameter b)
    (hhalf : a.value = 1 / 2 ∨ b.value = 1 / 2) (hx : Converges x a b) :
    Spread (10 ^ 240) (10 ^ 240) (betaFraction x a b) := by
  have hlow := hb.low
  have halow := ha.low
  have hstart := ready_fractionStart ha hb hx
  rcases hhalf with hhalf | hhalf
  · refine fractionFrom_spread (reflectedBound ((b.value + 5 / 2) / 2 * (1 + 1 / 10 ^ 3)) 2)
      (fun m f hm hm' hf ↦ ?_) le_rfl (by decide) ?_
    · rw [reflectedBound, if_neg (by omega : ¬ m + 1 = 1)]
      rcases Nat.lt_or_eq_of_le hm with hlt | rfl
      · rw [reflectedBound, if_neg (by omega)] at hf
        exact reflectedPair_later ha hb hhalf hx hlt hm' hf
      · rw [reflectedBound, if_pos rfl] at hf
        exact reflectedPair_first ha hb hhalf hx hf
    · rw [reflectedBound, if_pos rfl]
      refine hstart.mono (valueBound_pos le_rfl) (le_of_eq ?_) le_rfl
      rw [hhalf]
      ring
  · refine fractionFrom_spread (fun m ↦ (a.value + 2 * m - 1) / (m - 1 / 2))
      (fun m f hm hm' hf ↦ ?_) le_rfl (by decide) (hstart.mono (valueBound_pos le_rfl) ?_ le_rfl)
    · have h := directPair ha hb hhalf hx hm hm' hf
      push_cast
      exact h
    · rw [hhalf]
      norm_num
      linarith

end MetricWatch.Tail
