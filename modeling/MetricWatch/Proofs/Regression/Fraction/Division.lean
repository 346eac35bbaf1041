import MetricWatch.Proofs.Exact.Arithmetic
import MetricWatch.Proofs.Binary64.Leeway
import MetricWatch.Regression.Tail

namespace MetricWatch.Tail

open Binary64 (Bounded Rounds Spread leeway leeway_pos one_lt_leeway)

variable {k y : Binary64} {f : Fraction Binary64} {s t u v : ℝ}

def advance {α : Type} [Scalar α] (k : α) (f : Fraction α) : Fraction α :=
  let d := 1.0 / guard (1.0 + k * f.d)
  let c := guard (1.0 + k / f.c)
  ⟨c, d, f.value * (c * d)⟩

theorem advance_eq : advance k f = ⟨guard (1.0 + k / f.c), 1.0 / guard (1.0 + k * f.d),
    f.value * (guard (1.0 + k / f.c) * (1.0 / guard (1.0 + k * f.d)))⟩ := rfl

theorem guard_eq (h : 1 / 10 ^ 3 ≤ y.value) : guard y = y := by
  have hliteral := Binary64.rounds_literal (m := 1) (e := 30) (by decide) (by decide) (by decide)
    (by norm_num)
  have hbound := Binary64.bounded_of_rounds (u := 1 / 10 ^ 29) (fun _ ↦ hliteral)
    (by norm_num [leeway]) ⟨by norm_num, by norm_num⟩
  refine if_neg fun hlt ↦ ?_
  have hvalue := Binary64.value_lt_value hlt
  rw [Binary64.value_abs] at hvalue
  have hsmall : y.value < 1 / 10 ^ 29 :=
    (le_abs_self _).trans_lt (hvalue.trans_le ((le_abs_self _).trans hbound.abs_le))
  have hlarge : (1 : ℝ) / 10 ^ 29 < 1 / 10 ^ 3 := by norm_num
  linarith

theorem spread_guard {p : Binary64} {w : ℝ} (hp : Rounds w p) (hs : s ≤ 99 / 100) (ht : 0 ≤ t)
    (ht' : t ≤ 10) (hlow : -s ≤ w) (hhigh : w ≤ t) :
    Spread (leeway ^ 2 / (1 - s)) ((1 + t) * leeway ^ 2) (guard (1.0 + p)) := by
  obtain ⟨hpf, hpl, hpr⟩ := Binary64.within_of_rounds (u := 10) (fun _ ↦ hp)
    (abs_le.2 ⟨by linarith, by linarith⟩) (by norm_num) (by norm_num)
  have hpos : 0 < 1 - s := by linarith
  have hl : leeway / (1 - s) ≤ 200 := by
    rw [div_le_iff₀ hpos, leeway]
    linarith
  have hspread := Binary64.spread_of_rounds (l := leeway / (1 - s)) (u := (1 + t) * leeway)
    (Binary64.rounds_add Binary64.isFinite_one hpf) (div_pos leeway_pos hpos)
    (hl.trans (by norm_num)) ?_ ?_ ?_
  · have hq := hspread.mono (mul_pos (div_pos leeway_pos hpos) leeway_pos)
      (mul_le_mul_of_nonneg_right hl leeway_pos.le) le_rfl
    have hlarge : 1 / 10 ^ 3 ≤ (1.0 + p).value := by
      have hlow := hq.low
      rw [leeway] at hlow
      linarith
    rw [guard_eq hlarge]
    convert hspread using 1 <;> ring
  · rw [leeway]
    linarith
  · rw [Binary64.value_one, div_mul_eq_mul_div, le_div_iff₀ hpos, leeway]
    linarith
  · rw [Binary64.value_one, leeway]
    linarith

theorem spread_factor {c g : Binary64} {p q : ℝ} (hc : Spread p q c) (hg : Spread p q g)
    (hp : 0 < p) (hp' : p ≤ 200) (hq : 0 < q) (hq' : q ≤ 12) :
    Spread (p * (q * leeway) * leeway) (p * (q * leeway) * leeway) (c * (1.0 / g)) := by
  have hpq : p * q ≤ 200 * 12 := mul_le_mul hp' hq' hq.le (by norm_num)
  have hroom : p * (q * leeway) ≤ 10 ^ 250 := by
    rw [leeway]
    linarith
  have hswap : q * (p * leeway) = p * (q * leeway) := by ring
  have h := hc.mul (hg.inv hp (by linarith) (by linarith)) hp (mul_pos hq leeway_pos) hroom
    (hswap.trans_le hroom)
  rwa [hswap] at h

/-- What is known of the fraction before a division: a bound of `d` that is one of `1 / c` as well,
and a bound of the value from both sides. -/
structure Ready (u v : ℝ) (f : Fraction Binary64) : Prop where
  c_isFinite : f.c.isFinite = true
  c_low : 1 ≤ u * f.c.value
  d_isFinite : f.d.isFinite = true
  d_pos : 0 < f.d.value
  d_high : f.d.value ≤ u
  value : Spread v v f.value

namespace Ready

theorem of_spread {c d value : Binary64} {l p q : ℝ} (hc : Spread p q c) (hd : Spread l u d)
    (hp : 0 < p) (hl : 0 < l) (hpu : p ≤ u) (hvalue : Spread v v value) :
    Ready u v ⟨c, d, value⟩ where
  c_isFinite := hc.isFinite
  c_low := hc.low.trans (mul_le_mul_of_nonneg_right hpu (hc.pos hp).le)
  d_isFinite := hd.isFinite
  d_pos := hd.pos hl
  d_high := hd.high
  value := hvalue

theorem mono {u' v' : ℝ} (h : Ready u v f) (hv : 0 < v) (huu : u ≤ u') (hvv : v ≤ v') :
    Ready u' v' f := by
  have hu : 0 < u := h.d_pos.trans_le h.d_high
  have hc : 0 < f.c.value := pos_of_mul_pos_right (one_pos.trans_le h.c_low) hu.le
  exact ⟨h.c_isFinite, h.c_low.trans (mul_le_mul_of_nonneg_right huu hc.le), h.d_isFinite, h.d_pos,
    h.d_high.trans huu, h.value.mono hv hvv hvv⟩

/-- A coefficient is bounded together with the numbers that it is multiplied with. -/
theorem coefficient_mul {a b x : ℝ} (hs : 0 ≤ s) (ht : 0 ≤ t) (hlow : -s ≤ b * u)
    (hhigh : b * u ≤ t) (hx : 0 < x) (hxu : x ≤ u) (ha : a = b * x) : -s ≤ a ∧ a ≤ t := by
  have hu : 0 < u := hx.trans_le hxu
  rw [ha]
  rcases le_total 0 b with hb | hb
  · exact ⟨(neg_nonpos.2 hs).trans (mul_nonneg hb hx.le),
      (mul_le_mul_of_nonneg_left hxu hb).trans hhigh⟩
  · exact ⟨hlow.trans (mul_le_mul_of_nonpos_left hxu hb),
      (mul_nonpos_of_nonpos_of_nonneg hb hx.le).trans ht⟩

/-- What is known after a division whose coefficient takes away `s` at most and adds `t` at most. -/
theorem after (h : Ready u v f) (hk : k.isFinite = true) (hs : 0 ≤ s) (hs' : s ≤ 99 / 100)
    (ht : 0 ≤ t) (ht' : t ≤ 10) (hlow : -s ≤ k.value * u) (hhigh : k.value * u ≤ t) (hv : 0 < v)
    (hv' : v ≤ 10 ^ 245) :
    Ready (leeway ^ 3 / (1 - s)) (v * ((1 + t) / (1 - s) * leeway ^ 7)) (advance k f) := by
  have hu : 0 < u := h.d_pos.trans_le h.d_high
  have hc₀ : 0 < f.c.value := pos_of_mul_pos_right (one_pos.trans_le h.c_low) hu.le
  have hcu : 1 / f.c.value ≤ u := (div_le_iff₀ hc₀).2 h.c_low
  have hfar {a : ℝ} (ha : -s ≤ a ∧ a ≤ t) : |a| ≤ 10 ^ 255 := abs_le.2 ⟨by linarith, by linarith⟩
  -- Both divisors are one and a product of the coefficient with something up to `u`.
  have hkd := coefficient_mul hs ht hlow hhigh h.d_pos h.d_high rfl
  have hkc := coefficient_mul hs ht hlow hhigh (one_div_pos.2 hc₀) hcu (div_eq_mul_one_div _ _)
  have hpos : 0 < 1 - s := by linarith
  -- The bounds get names that keep their powers and quotients out of the arithmetic.
  obtain ⟨p, hp⟩ : ∃ p, p = leeway ^ 2 / (1 - s) := ⟨_, rfl⟩
  obtain ⟨q, hq⟩ : ∃ q, q = (1 + t) * leeway ^ 2 := ⟨_, rfl⟩
  have hppos : 0 < p := hp ▸ div_pos (Binary64.leeway_pow_pos 2) hpos
  have hqpos : 0 < q := hq ▸ mul_pos (by linarith) (Binary64.leeway_pow_pos 2)
  have hple : p ≤ 200 := by
    rw [hp, div_le_iff₀ hpos, leeway]
    linarith
  have hqle : q ≤ 12 := by
    rw [hq, leeway]
    linarith
  have hc := spread_guard (Binary64.rounds_div hk h.c_isFinite hc₀.ne' (hfar hkc)) hs' ht ht'
    hkc.1 hkc.2
  have hd := spread_guard (Binary64.rounds_mul hk h.d_isFinite (hfar hkd)) hs' ht ht' hkd.1 hkd.2
  rw [← hp, ← hq] at hc hd
  have hpq : p * q ≤ 200 * 12 := mul_le_mul hple hqle hqpos.le (by norm_num)
  have hvroom : v * (p * (q * leeway) * leeway) ≤ 10 ^ 250 := by
    have hroom : p * (q * leeway) * leeway ≤ 10 ^ 4 := by
      rw [leeway]
      linarith
    have hmul := mul_le_mul_of_nonneg_left hroom hv.le
    linarith
  have hqpos' : 0 < q * leeway := mul_pos hqpos leeway_pos
  have hvalue := h.value.mul (spread_factor hc hd hppos hple hqpos hqle) hv
    (mul_pos (mul_pos hppos hqpos') leeway_pos) hvroom hvroom
  have hfactor : v * (p * (q * leeway) * leeway) * leeway =
      v * ((1 + t) / (1 - s) * leeway ^ 7) := by
    rw [hp, hq]
    ring
  have hbound : p * leeway = leeway ^ 3 / (1 - s) := by
    rw [hp]
    ring
  rw [advance_eq, ← hfactor, ← hbound]
  exact of_spread hc (hd.inv hppos (by linarith) (by linarith)) hppos hqpos'
    (le_mul_of_one_le_right hppos.le one_lt_leeway.le) hvalue

end Ready

theorem bounded_mul_le {p : Binary64} (h : Bounded v p) (hu : 0 ≤ u) : |p.value * u| ≤ v * u := by
  rw [abs_mul, abs_of_nonneg hu]
  exact mul_le_mul_of_nonneg_right h.abs_le hu

end MetricWatch.Tail
