import MetricWatch.Proofs.Regression.Fraction.Coefficients

namespace MetricWatch.Tail

open Binary64 (Bounded Spread leeway)

variable {x a b : Binary64} {m : Nat} {f : Fraction Binary64} {s s' t u v w : ℝ}

/-- The fraction converges: its argument does not pass the peak of the distribution by more than
rounding. -/
structure Converges (x a b : Binary64) : Prop where
  isFinite : x.isFinite = true
  pos : 0 < x.value
  small : x.value * (a.value + b.value + 2) ≤ (a.value + 1) * (1 + 1 / 10 ^ 6)

theorem bounded_of_converges (hx : Converges x a b) {ξ : ℝ} (hab : 0 < a.value + b.value + 2)
    (h : (a.value + 1) * (1 + 1 / 10 ^ 6) ≤ ξ * (a.value + b.value + 2)) : Bounded ξ x :=
  ⟨hx.isFinite, (abs_of_pos hx.pos).trans_le (le_of_mul_le_mul_right (hx.small.trans h) hab)⟩

theorem bounded_directArgument (ha : Parameter a) (hhalf : b.value = 1 / 2)
    (hx : Converges x a b) : Bounded (92 / 100) x := by
  have hlow := ha.low
  have hhigh := ha.high
  exact bounded_of_converges hx (by linarith) (by rw [hhalf]; linarith)

noncomputable def reflectedPeak (B : ℝ) : ℝ := 3 / (B + B + 5)

theorem reflectedPeak_eq (B : ℝ) : reflectedPeak B * (1 + 1 / 10 ^ 6) =
    3 / 2 * (1 + 1 / 10 ^ 6) / (B + 5 / 2) := by
  rw [reflectedPeak, show B + B + 5 = 2 * (B + 5 / 2) by ring, div_mul_eq_div_div]
  ring

theorem reflectedPeak_bounds {B : ℝ} (hB : 1 / 5 ≤ B) (hB' : B ≤ 16) :
    1 / 20 ≤ reflectedPeak B * (1 + 1 / 10 ^ 6) ∧ reflectedPeak B * (1 + 1 / 10 ^ 6) ≤ 1 := by
  have hden : 0 < B + 5 / 2 := by linarith
  rw [reflectedPeak_eq, le_div_iff₀ hden, div_le_iff₀ hden]
  constructor <;> linarith

theorem bounded_of_reflected (hb : Parameter b) (hhalf : a.value = 1 / 2)
    (hx : Converges x a b) : Bounded (reflectedPeak b.value * (1 + 1 / 10 ^ 6)) x := by
  have hlow := hb.low
  have hden : 0 < b.value + 5 / 2 := by linarith
  refine bounded_of_converges hx (by linarith) (le_of_eq ?_)
  rw [reflectedPeak_eq, hhalf]
  field_simp
  ring

noncomputable def valueBound (m : Nat) : ℝ := 3 * (m : ℝ) ^ 2 * 6 ^ m

theorem valueBound_pos (hm : 1 ≤ m) : 0 < valueBound m := by
  have hmr : (1 : ℝ) ≤ m := by exact_mod_cast hm
  unfold valueBound
  positivity

theorem valueBound_le (hm : m ≤ 301) : valueBound m ≤ 10 ^ 240 := by
  have hmr : (m : ℝ) ≤ 301 := by exact_mod_cast hm
  calc valueBound m ≤ 3 * 301 ^ 2 * 6 ^ 301 := by
        unfold valueBound
        gcongr
        norm_num
    _ = 3 * 301 ^ 2 * (6 ^ 150 * 6 ^ 151) := by rw [← pow_add]
    _ ≤ 10 ^ 240 := by norm_num

/-- The bound of a value over a pair of divisions, from that of their factors. -/
theorem valueBound_step {r : ℝ} (h : (m : ℝ) ^ 2 * r ≤ 6 * ((m : ℝ) + 1) ^ 2) :
    valueBound m * r ≤ valueBound (m + 1) := by
  have hpow : (0 : ℝ) ≤ 3 * 6 ^ m := by positivity
  have hle := mul_le_mul_of_nonneg_left h hpow
  unfold valueBound
  push_cast
  rw [pow_succ (6 : ℝ)]
  linarith

theorem Ready.pair (h : Ready u v f) {p q : Binary64} (hp : p.isFinite = true)
    (hq : q.isFinite = true) (hs : 0 ≤ s) (hs₁ : s ≤ 99 / 100) (ht : 0 ≤ t) (ht₁ : t ≤ 10)
    (hp₁ : -s ≤ p.value * u) (hp₂ : p.value * u ≤ t) (hw : leeway ^ 3 / (1 - s) ≤ w)
    (hs' : 0 ≤ s') (hs'₁ : s' ≤ 99 / 100) (hq₁ : -s' ≤ q.value * w) (hq₂ : q.value ≤ 0)
    (hv : 0 < v) (hv' : v ≤ 10 ^ 240) :
    Ready (leeway ^ 3 / (1 - s')) (v * ((1 + t) / (1 - s) / (1 - s') * leeway ^ 14))
      (advance q (advance p f)) := by
  have hpos : 0 < 1 - s := by linarith
  have hpow := Binary64.leeway_pow_pos 7
  have hfactor : 0 < (1 + t) / (1 - s) * leeway ^ 7 := by positivity
  have hfactor' : (1 + t) / (1 - s) * leeway ^ 7 ≤ 10 ^ 4 := by
    rw [div_mul_eq_mul_div, div_le_iff₀ hpos, leeway]
    linarith
  have hfirst := h.after hp hs hs₁ ht ht₁ hp₁ hp₂ hv (by linarith)
  have hsecond := (hfirst.mono (mul_pos hv hfactor) hw le_rfl).after (t := 0) hq hs' hs'₁ le_rfl
    (by norm_num) hq₁ ?_ (mul_pos hv hfactor) ?_
  · convert hsecond using 1
    ring
  · have hwpos : 0 < w := (div_pos (Binary64.leeway_pow_pos 3) hpos).trans_le hw
    exact mul_nonpos_of_nonpos_of_nonneg hq₂ hwpos.le
  · have hmul := mul_le_mul_of_nonneg_left hfactor' hv.le
    linarith

/-- What each pair of divisions has to keep: the bound `bound m` of the divisors. -/
theorem fractionFrom_spread (bound : Nat → ℝ)
    (hpair : ∀ m f, 1 ≤ m → m ≤ 300 → Ready (bound m) (valueBound m) f →
      Ready (bound (m + 1)) (valueBound (m + 1))
        (oddStep x a b (m : Binary64) (evenStep x a b (m : Binary64) f)))
    {fuel : Nat} (hm : 1 ≤ m) (hfuel : m + fuel ≤ 301) (hf : Ready (bound m) (valueBound m) f) :
    Spread (10 ^ 240) (10 ^ 240) (fractionFrom x a b m fuel f) := by
  -- The bounds are those of the index, which rises as the divisions that are left become fewer.
  induction fuel generalizing m f with
  | zero => exact hf.value.mono (valueBound_pos hm) (valueBound_le hfuel) (valueBound_le hfuel)
  | succ fuel ih =>
    have hnext := hpair m f hm (by omega) hf
    have hle := valueBound_le (m := m + 1) (by omega)
    unfold fractionFrom
    dsimp only
    split
    · exact hnext.value.mono (valueBound_pos (by omega)) hle hle
    · exact ih (by omega) (by omega) hnext

end MetricWatch.Tail
