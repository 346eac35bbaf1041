import Mathlib.Tactic.GCongr
import MetricWatch.Proofs.Binary64.Quotient
import MetricWatch.Proofs.Binary64.Value

namespace MetricWatch.Binary64

variable {x y : Binary64} {j k m n : Nat} {l u v w : ℝ}

theorem leastNormal_le : leastNormal ≤ 1 / 10 ^ 255 := by
  have h : binade * 10 ^ 255 ≤ unit := by decide +kernel
  rw [leastNormal, div_le_div_iff₀ unit_real_pos (by norm_num), one_mul]
  exact_mod_cast h

theorem Rounds.abs_sub_le (h : Rounds v x) (hv : |v| ≤ u) (hu : 1 / 10 ^ 255 ≤ u) :
    |x.value - v| ≤ u / 2 ^ 53 := by
  refine h.error.trans (div_le_div_of_nonneg_right ?_ (by norm_num))
  exact max_le hv (leastNormal_le.trans hu)

/-- What a result is off by from an exact one that is no further from zero than `u`. -/
theorem within_of_rounds (h : |v| ≤ 10 ^ 255 → Rounds v x) (hv : |v| ≤ u) (hu : 1 / 10 ^ 255 ≤ u)
    (hu' : u ≤ 10 ^ 255) :
    x.isFinite = true ∧ v - u / 2 ^ 53 ≤ x.value ∧ x.value ≤ v + u / 2 ^ 53 := by
  have hrounds := h (hv.trans hu')
  have herror := abs_le.1 (hrounds.abs_sub_le hv hu)
  exact ⟨hrounds.isFinite, by linarith, by linarith⟩

noncomputable def leeway : ℝ := 1 + 1 / 10 ^ 9

theorem one_lt_leeway : 1 < leeway := by norm_num [leeway]

theorem leeway_pos : 0 < leeway := one_pos.trans one_lt_leeway

theorem leeway_pow_mono (h : j ≤ k) : leeway ^ j ≤ leeway ^ k :=
  pow_le_pow_right₀ one_lt_leeway.le h

theorem leeway_pow_le (h : k ≤ 32) : leeway ^ k ≤ 1 + 1 / 10 ^ 7 :=
  (leeway_pow_mono h).trans (by norm_num [leeway])

theorem leeway_pow_pos (k : Nat) : 0 < leeway ^ k := pow_pos leeway_pos k

/-- Finite, and no further from zero than `u`. -/
structure Bounded (u : ℝ) (x : Binary64) : Prop where
  isFinite : x.isFinite = true
  abs_le : |x.value| ≤ u

/-- A bound with room for rounding on both sides. -/
structure Roomy (u : ℝ) : Prop where
  low : 1 / 10 ^ 250 ≤ u
  high : u ≤ 10 ^ 255

theorem Roomy.pos (hu : Roomy u) : 0 < u := by
  have hlow := hu.low
  refine LT.lt.trans_le ?_ hlow
  norm_num

theorem roomy_of_one_le (h : 1 ≤ u) (h' : u ≤ 10 ^ 5) : Roomy u :=
  ⟨(by norm_num : (1 : ℝ) / 10 ^ 250 ≤ 1).trans h, h'.trans (by norm_num)⟩

theorem bounded_of_rounds (h : |v| ≤ 10 ^ 255 → Rounds v x) (hv : |v| * leeway ≤ u)
    (hu : Roomy u) : Bounded u x := by
  have hle : |v| ≤ |v| * leeway := le_mul_of_one_le_right (abs_nonneg v) one_lt_leeway.le
  have hrounds := h ((hle.trans hv).trans hu.high)
  have hv' : |v| ≤ u / leeway := (le_div_iff₀ leeway_pos).2 hv
  have hlow : 1 / 10 ^ 255 ≤ u / leeway := by
    have hlow := hu.low
    rw [leeway, le_div_iff₀ (by norm_num)]
    refine LE.le.trans ?_ hlow
    norm_num
  have herror := hrounds.abs_sub_le hv' hlow
  have htri : |x.value| ≤ |x.value - v| + |v| := by
    simpa using abs_add_le (x.value - v) v
  have hshare : u / leeway / 2 ^ 53 + u / leeway ≤ u := by
    have hpos := hu.pos
    have hone : 1 / leeway / 2 ^ 53 + 1 / leeway ≤ 1 := by norm_num [leeway]
    calc u / leeway / 2 ^ 53 + u / leeway = u * (1 / leeway / 2 ^ 53 + 1 / leeway) := by ring
      _ ≤ u * 1 := mul_le_mul_of_nonneg_left hone hpos.le
      _ = u := mul_one u
  exact ⟨hrounds.isFinite, by linarith⟩

namespace Bounded

theorem mono (h : Bounded u x) (huv : u ≤ v) : Bounded v x := ⟨h.isFinite, h.abs_le.trans huv⟩

theorem isNaN (h : Bounded u x) : x.isNaN = false := (isFinite_iff.1 h.isFinite).1

theorem bound_nonneg (h : Bounded u x) : 0 ≤ u := (abs_nonneg _).trans h.abs_le

theorem neg (h : Bounded u x) : Bounded u (-x) := by
  refine ⟨(isFinite_neg x).trans h.isFinite, ?_⟩
  rw [value_neg, abs_neg]
  exact h.abs_le

theorem add (hx : Bounded u x) (hy : Bounded v y) (hw : Roomy w) (h : (u + v) * leeway ≤ w) :
    Bounded w (x + y) := by
  refine bounded_of_rounds (rounds_add hx.isFinite hy.isFinite) (LE.le.trans ?_ h) hw
  refine mul_le_mul_of_nonneg_right ?_ leeway_pos.le
  exact (abs_add_le _ _).trans (add_le_add hx.abs_le hy.abs_le)

theorem sub (hx : Bounded u x) (hy : Bounded v y) (hw : Roomy w) (h : (u + v) * leeway ≤ w) :
    Bounded w (x - y) := by
  refine bounded_of_rounds (rounds_sub hx.isFinite hy.isFinite) (LE.le.trans ?_ h) hw
  refine mul_le_mul_of_nonneg_right ?_ leeway_pos.le
  exact (abs_sub _ _).trans (add_le_add hx.abs_le hy.abs_le)

theorem mul (hx : Bounded u x) (hy : Bounded v y) (hw : Roomy w) (h : u * v * leeway ≤ w) :
    Bounded w (x * y) := by
  refine bounded_of_rounds (rounds_mul hx.isFinite hy.isFinite) (LE.le.trans ?_ h) hw
  refine mul_le_mul_of_nonneg_right ?_ leeway_pos.le
  rw [abs_mul]
  exact mul_le_mul hx.abs_le hy.abs_le (abs_nonneg _) hx.bound_nonneg

theorem div (hx : Bounded u x) (hy : y.isFinite = true) (hv : 0 < v) (hvy : v ≤ y.value)
    (hw : Roomy w) (h : u / v * leeway ≤ w) : Bounded w (x / y) := by
  have hpos : 0 < y.value := hv.trans_le hvy
  refine bounded_of_rounds (rounds_div hx.isFinite hy hpos.ne') (LE.le.trans ?_ h) hw
  refine mul_le_mul_of_nonneg_right ?_ leeway_pos.le
  rw [abs_div, abs_of_pos hpos]
  exact div_le_div₀ hx.bound_nonneg hx.abs_le hv hvy

end Bounded

theorem bounded_of_atMost (h : AtMost unit x) : Bounded 1 x := by
  have hpos := unit_real_pos
  have hle : (x.units : ℝ) ≤ unit := Nat.cast_le.2 h.units_le
  refine ⟨h.isFinite, ?_⟩
  rw [value_eq, abs_div, abs_of_pos hpos, div_le_one hpos]
  cases x.negative <;> simpa using hle

theorem bounded_inv (h : (1.0 : Binary64) ≤ x) : Bounded 1 (1.0 / x) := by
  have hone : ((1 : Nat) : Binary64) = 1.0 := by decide +kernel
  refine bounded_of_atMost (atMost_div (k := 1) ⟨isFinite_one, ?_⟩ ?_ (by decide) Nat.one_pos ?_)
  · rw [units_one, Nat.one_mul]
  · exact units_one ▸ isSize_units isFinite_one
  · rwa [hone]

theorem bounded_half : Bounded 1 (0.5 : Binary64) := by
  refine ⟨by decide +kernel, ?_⟩
  rw [value_half]
  norm_num

/-- A finite value that is off from the positive number `v` by `k` factors at most. -/
structure Near (k : Nat) (v : ℝ) (x : Binary64) : Prop where
  isFinite : x.isFinite = true
  le : x.value ≤ v * leeway ^ k
  ge : v ≤ x.value * leeway ^ k

/-- A positive number with room for any error. -/
structure Middling (v : ℝ) : Prop where
  low : 1 / 10 ^ 12 ≤ v
  high : v ≤ 10 ^ 12

theorem Middling.pos (h : Middling v) : 0 < v := by
  have hlow := h.low
  refine LT.lt.trans_le ?_ hlow
  norm_num

theorem near_of_rounds (h : |w| ≤ 10 ^ 255 → Rounds w x) (hk : k ≤ 31) (hv : Middling v)
    (hwv : w ≤ v * leeway ^ k) (hvw : v ≤ w * leeway ^ k) : Near (k + 1) v x := by
  have hpow := leeway_pow_pos k
  have hpow' : leeway ^ k ≤ 2 := (leeway_pow_le (by omega)).trans (by norm_num)
  have hw : 0 < w := pos_of_mul_pos_left (hv.pos.trans_le hvw) hpow.le
  have hlow := hv.low
  have hhigh := hv.high
  have hwhigh : w ≤ 10 ^ 255 := by
    have hle := mul_le_mul_of_nonneg_left hpow' hv.pos.le
    linarith
  have hwlow : 1 / 10 ^ 255 ≤ w := by
    have hle := mul_le_mul_of_nonneg_left hpow' hw.le
    linarith
  have hrounds := h ((abs_of_pos hw).trans_le hwhigh)
  have herror := abs_le.1 (hrounds.abs_sub_le (abs_of_pos hw).le hwlow)
  have hupper : x.value ≤ w * leeway := by
    rw [leeway]
    linarith
  have hlower : w ≤ x.value * leeway := by
    rw [leeway]
    linarith
  refine ⟨hrounds.isFinite, ?_, ?_⟩
  · calc x.value ≤ w * leeway := hupper
      _ ≤ v * leeway ^ k * leeway := mul_le_mul_of_nonneg_right hwv leeway_pos.le
      _ = v * leeway ^ (k + 1) := by rw [pow_succ, mul_assoc]
  · calc v ≤ w * leeway ^ k := hvw
      _ ≤ x.value * leeway * leeway ^ k := mul_le_mul_of_nonneg_right hlower hpow.le
      _ = x.value * leeway ^ (k + 1) := by rw [pow_succ, mul_assoc, mul_comm leeway]

namespace Near

theorem value_pos (h : Near k v x) (hv : 0 < v) : 0 < x.value :=
  pos_of_mul_pos_left (hv.trans_le h.ge) (leeway_pow_pos k).le

theorem mono (h : Near j v x) (hv : 0 < v) (hjk : j ≤ k) : Near k v x := by
  have hpow := leeway_pow_mono hjk
  refine ⟨h.isFinite, h.le.trans ?_, h.ge.trans ?_⟩
  · exact mul_le_mul_of_nonneg_left hpow hv.le
  · exact mul_le_mul_of_nonneg_left hpow (h.value_pos hv).le

theorem add (hx : Near k u x) (hy : Near k v y) (hk : k ≤ 31) (h : Middling (u + v)) :
    Near (k + 1) (u + v) (x + y) := by
  refine near_of_rounds (rounds_add hx.isFinite hy.isFinite) hk h ?_ ?_
  · rw [add_mul]
    exact add_le_add hx.le hy.le
  · rw [add_mul]
    exact add_le_add hx.ge hy.ge

theorem mul (hx : Near j u x) (hy : Near k v y) (hu : 0 < u) (hv : 0 < v) (hk : j + k ≤ 31)
    (h : Middling (u * v)) : Near (j + k + 1) (u * v) (x * y) := by
  have hxpos := hx.value_pos hu
  have hypos := hy.value_pos hv
  refine near_of_rounds (rounds_mul hx.isFinite hy.isFinite) hk h ?_ ?_
  · rw [pow_add, mul_mul_mul_comm]
    exact mul_le_mul hx.le hy.le hypos.le (hxpos.le.trans hx.le)
  · rw [pow_add, mul_mul_mul_comm]
    exact mul_le_mul hx.ge hy.ge hv.le (hu.le.trans hx.ge)

theorem div (hx : Near j u x) (hy : Near k v y) (hu : 0 < u) (hv : 0 < v) (hk : j + k ≤ 31)
    (h : Middling (u / v)) : Near (j + k + 1) (u / v) (x / y) := by
  have hxpos := hx.value_pos hu
  have hypos := hy.value_pos hv
  have hpow := leeway_pow_pos k
  refine near_of_rounds (rounds_div hx.isFinite hy.isFinite hypos.ne') hk h ?_ ?_
  · rw [pow_add, div_mul_eq_mul_div, div_le_div_iff₀ hypos hv, ← mul_assoc]
    calc x.value * v ≤ u * leeway ^ j * (y.value * leeway ^ k) :=
          mul_le_mul hx.le hy.ge hv.le (hxpos.le.trans hx.le)
      _ = u * leeway ^ j * leeway ^ k * y.value := by ring
  · rw [pow_add, div_mul_eq_mul_div, div_le_div_iff₀ hv hypos, ← mul_assoc]
    calc u * y.value ≤ x.value * leeway ^ j * (v * leeway ^ k) :=
          mul_le_mul hx.ge hy.le hypos.le (hu.le.trans hx.ge)
      _ = x.value * leeway ^ j * leeway ^ k * v := by ring

theorem sub_one (hx : Near k v x) (hone : y.isFinite = true) (hy : y.value = 1) (hk : k ≤ 15)
    (hv : 2.01 ≤ v) (h : Middling (v - 1)) : Near (2 * k + 1) (v - 1) (x - y) := by
  have hpow := leeway_pow_le (k := k) (by omega)
  have hpow' : 1 ≤ leeway ^ k := one_le_pow₀ one_lt_leeway.le
  have hle := hx.le
  have hge := hx.ge
  have hone' : 0 ≤ leeway ^ k - 1 := by linarith
  refine near_of_rounds (rounds_sub hx.isFinite hone) (by omega) h ?_ ?_
  · have hrest : 0 ≤ (v - 1) * leeway ^ k - 1 := by nlinarith
    have hmore := Left.mul_nonneg hone' hrest
    rw [hy, two_mul, pow_add]
    linarith
  · have hrest : 0 ≤ v - leeway ^ k - 1 := by linarith
    have hmore := Left.mul_nonneg hone' hrest
    have hscaled := mul_le_mul_of_nonneg_right hge (leeway_pow_pos k).le
    rw [hy, two_mul, pow_add]
    linarith

end Near

theorem near_of_value (hf : x.isFinite = true) (h : x.value = v) : Near 0 v x := by
  refine ⟨hf, ?_, ?_⟩ <;> rw [pow_zero, mul_one, h]

theorem near_natCast (h : n ≤ 2 * binade) : Near 0 n (n : Binary64) :=
  near_of_value (isFinite_natCast_of_le h) (value_natCast h)

theorem near_one : Near 0 1 (1.0 : Binary64) := near_of_value isFinite_one value_one

theorem near_two : Near 0 2 (2.0 : Binary64) := near_of_value (by decide +kernel) value_two

theorem near_literal {e : Nat} (hm : 0 < m) (he : 0 < e) (he' : e ≤ 30)
    (h : Middling ((m : ℝ) / 10 ^ e)) :
    Near 1 ((m : ℝ) / 10 ^ e) (OfScientific.ofScientific m true e : Binary64) :=
  near_of_rounds (k := 0)
    (fun _ ↦ rounds_literal hm he (he'.trans (by decide)) (h.high.trans (by norm_num)))
    (by decide) h (by rw [pow_zero, mul_one]) (by rw [pow_zero, mul_one])

theorem Near.bounded (h : Near k v x) (hv : 0 < v) : Bounded (v * leeway ^ k) x :=
  ⟨h.isFinite, (abs_of_pos (h.value_pos hv)).trans_le h.le⟩

theorem Bounded.div_near (hx : Bounded u x) (hy : Near k v y) (hv : 0 < v) (hw : Roomy w)
    (h : u / v * leeway ^ (k + 1) ≤ w) : Bounded w (x / y) := by
  have hpow := leeway_pow_pos k
  refine hx.div hy.isFinite (div_pos hv hpow) ((div_le_iff₀ hpow).2 hy.ge) hw (LE.le.trans ?_ h)
  rw [div_div_eq_mul_div, pow_succ]
  exact le_of_eq (by ring)

/-- A finite positive value between `1 / l` and `u`. -/
structure Spread (l u : ℝ) (x : Binary64) : Prop where
  isFinite : x.isFinite = true
  low : 1 ≤ l * x.value
  high : x.value ≤ u

theorem spread_of_rounds (h : |w| ≤ 10 ^ 255 → Rounds w x) (hl : 0 < l) (hl' : l ≤ 10 ^ 250)
    (hu : u ≤ 10 ^ 250) (hlow : 1 ≤ l * w) (hhigh : w ≤ u) :
    Spread (l * leeway) (u * leeway) x := by
  have hw : 0 < w := pos_of_mul_pos_right (one_pos.trans_le hlow) hl.le
  have hwlow : 1 / 10 ^ 255 ≤ w := by
    have hle := hlow.trans (mul_le_mul_of_nonneg_right hl' hw.le)
    rw [div_le_iff₀ (by norm_num)]
    linarith
  have hrounds := h ((abs_of_pos hw).trans_le (by linarith))
  have herror := abs_le.1 (hrounds.abs_sub_le (abs_of_pos hw).le hwlow)
  have hupper : x.value ≤ w * leeway := by
    rw [leeway]
    linarith
  have hlower : w ≤ leeway * x.value := by
    rw [leeway]
    linarith
  refine ⟨hrounds.isFinite, ?_, ?_⟩
  · rw [mul_assoc]
    exact hlow.trans (mul_le_mul_of_nonneg_left hlower hl.le)
  · exact hupper.trans (mul_le_mul_of_nonneg_right hhigh leeway_pos.le)

namespace Spread

variable {l l' u' : ℝ}

theorem pos (h : Spread l u x) (hl : 0 < l) : 0 < x.value :=
  pos_of_mul_pos_right (one_pos.trans_le h.low) hl.le

theorem mono (h : Spread l u x) (hl : 0 < l) (hll : l ≤ l') (huu : u ≤ u') : Spread l' u' x :=
  ⟨h.isFinite, h.low.trans (mul_le_mul_of_nonneg_right hll (h.pos hl).le), h.high.trans huu⟩

theorem mul (hx : Spread l u x) (hy : Spread l' u' y) (hl : 0 < l) (hl' : 0 < l')
    (hll : l * l' ≤ 10 ^ 250) (huu : u * u' ≤ 10 ^ 250) :
    Spread (l * l' * leeway) (u * u' * leeway) (x * y) := by
  have hxpos := hx.pos hl
  have hypos := hy.pos hl'
  refine spread_of_rounds (rounds_mul hx.isFinite hy.isFinite) (Left.mul_pos hl hl') hll huu ?_ ?_
  · rw [mul_mul_mul_comm]
    exact one_le_mul_of_one_le_of_one_le hx.low hy.low
  · exact mul_le_mul hx.high hy.high hypos.le (hxpos.le.trans hx.high)

theorem inv (hx : Spread l u x) (hl : 0 < l) (hl' : l ≤ 10 ^ 250) (hu : u ≤ 10 ^ 250) :
    Spread (u * leeway) (l * leeway) (1.0 / x) := by
  have hxpos := hx.pos hl
  refine spread_of_rounds (rounds_div isFinite_one hx.isFinite hxpos.ne') ?_ hu hl' ?_ ?_
  · exact hxpos.trans_le hx.high
  · rw [value_one, mul_one_div, one_le_div hxpos]
    exact hx.high
  · rw [value_one, div_le_iff₀ hxpos]
    exact hx.low

end Spread

end MetricWatch.Binary64
