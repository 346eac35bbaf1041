import Mathlib.Tactic.FieldSimp
import Mathlib.Tactic.Linarith
import MetricWatch.Proofs.Exact.Regression

namespace MetricWatch

open Exact

namespace Tail

section Calls

variable {α : Type} [Scalar α]

/-- The incomplete beta function by a logarithm of the gamma function that need not be given
everywhere. Where it asks for a value that is missing, it has none. -/
def incompleteBeta? (lnGamma? : α → Option α) (x a b : α) : Option α :=
  if x ≤ 0.0 then some 0.0
  else if 1.0 ≤ x then some 1.0
  else do
    let lnBeta := (← lnGamma? a) + (← lnGamma? b) - (← lnGamma? (a + b))
    let front := Scalar.exp (a * Scalar.ln x + b * Scalar.ln (1.0 - x) - lnBeta)
    return if x < (a + 1.0) / (a + b + 2.0) then front * betaFraction x a b / a
      else 1.0 - front * betaFraction (1.0 - x) b a / b

/-- The tail probability by such a function, without the answer for no degrees of freedom. -/
def workedOut? (lnGamma? : α → Option α) (t df : α) : Option α :=
  if df ≤ 0.0 ∨ ¬ Scalar.IsNumber t then none
  else
    let t := Scalar.abs t
    (if normalFrom < df then some (erfc (t / sqrtTwo))
      else incompleteBeta? lnGamma? (df / (df + t * t)) (df / 2.0) 0.5).map (Scalar.clamp 0.0 1.0)

variable {f? : α → Option α} {t df x a b : α}

theorem incompleteBeta?_eq_some (ha : f? a = some (lnGamma a)) (hb : f? b = some (lnGamma b))
    (hsum : f? (a + b) = some (lnGamma (a + b))) :
    incompleteBeta? f? x a b = some (incompleteBeta x a b) := by
  rw [incompleteBeta?, incompleteBeta, ha, hb, hsum]
  split
  · rfl
  · split <;> rfl

theorem workedOut?_eq_some (h : ¬ (df ≤ 0.0 ∨ ¬ Scalar.IsNumber t))
    (hhalf : f? (df / 2.0) = some (lnGamma (df / 2.0))) (hleast : f? 0.5 = some (lnGamma 0.5))
    (hsum : f? (df / 2.0 + 0.5) = some (lnGamma (df / 2.0 + 0.5))) :
    workedOut? f? t df = some (pValue t df) := by
  simp only [workedOut?, pValue, if_neg h, incompleteBeta?_eq_some hhalf hleast hsum]
  split <;> rfl

theorem workedOut?_total (h : ¬ (df ≤ 0.0 ∨ ¬ Scalar.IsNumber t)) :
    workedOut? (fun y ↦ some (lnGamma y)) t df = some (pValue t df) :=
  workedOut?_eq_some h rfl rfl rfl

end Calls

theorem workedOut?_of_one_le {t df : ℝ} (hdf : 1 ≤ df) {lnGamma? : ℝ → Option ℝ}
    (h : ∀ x, 0.5 ≤ x → lnGamma? x = some (lnGamma x)) :
    workedOut? lnGamma? t df = some (pValue t df) := by
  refine workedOut?_eq_some ?_ (h _ ?_) (h _ le_rfl) (h _ ?_)
  · rw [zero_literal, not_or, not_not]
    exact ⟨by linarith, le_refl t⟩
  · linarith
  · linarith

end Tail

namespace Welch

variable {before after : Sample ℝ}

theorem square_sum_div_le {x y m n : ℝ} (hx : 0 < x) (hy : 0 < y) (hm : 0 < m) (hn : 0 < n) :
    (x + y) * (x + y) / (x * x / m + y * y / n) ≤ m + n := by
  have hgap : (m + n) * (x * x / m + y * y / n) - (x + y) * (x + y) =
      (n * x - m * y) ^ 2 / (m * n) := by
    field_simp
    ring
  rw [div_le_iff₀ (by positivity), ← sub_nonneg, hgap]
  positivity

theorem le_square_sum_div {x y m n k : ℝ} (hx : 0 < x) (hy : 0 < y) (hk : 0 < k) (hm : k ≤ m)
    (hn : k ≤ n) : k ≤ (x + y) * (x + y) / (x * x / m + y * y / n) := by
  have hmpos := hk.trans_le hm
  have hnpos := hk.trans_le hn
  have hleft : x * x / m ≤ x * x / k := by gcongr
  have hright : y * y / n ≤ y * y / k := by gcongr
  rw [le_div_iff₀ (by positivity)]
  calc k * (x * x / m + y * y / n) ≤ k * (x * x / k + y * y / k) := by gcongr
    _ = x * x + y * y := by field_simp
    _ ≤ (x + y) * (x + y) := by nlinarith [mul_pos hx hy]

/-- Degrees of freedom no fewer than the smaller sample has and no more than both have together. -/
structure Between (before after : Sample ℝ) (df : ℝ) : Prop where
  lower : ((min before.size after.size : ℕ) : ℝ) - 1 ≤ df
  upper : df ≤ (before.size : ℝ) + (after.size : ℝ) - 2

theorem Between.one_le {df : ℝ} (h : Between before after df) (hb : 2 ≤ before.size)
    (ha : 2 ≤ after.size) : 1 ≤ df := by
  have hmin : (2 : ℝ) ≤ (min before.size after.size : ℕ) := by exact_mod_cast le_min hb ha
  linarith [h.lower]

theorem between_pooled (hb : 2 ≤ before.size) (ha : 2 ≤ after.size) :
    Between before after (pooledFreedom before after) := by
  have hpooled : pooledFreedom before after = (before.size : ℝ) + (after.size : ℝ) - 2 := by
    rw [pooledFreedom_eq hb, Nat.cast_sub (by omega), Nat.cast_add, Nat.cast_ofNat]
  have hmin : ((min before.size after.size : ℕ) : ℝ) + 1 ≤ before.size + after.size := by
    exact_mod_cast (by omega : min before.size after.size + 1 ≤ before.size + after.size)
  rw [hpooled]
  exact ⟨by linarith, le_rfl⟩

theorem squaredError_nonneg (s : Sample ℝ) : 0 ≤ s.squaredError :=
  div_nonneg (mul_self_nonneg _) (Nat.cast_nonneg _)

theorem squaredError_eq_zero_iff {s : Sample ℝ} (hs : 2 ≤ s.size) :
    s.squaredError = 0 ↔ s.stdDev = 0 := by
  have hsize : (s.size : ℝ) ≠ 0 := Nat.cast_ne_zero.2 (by omega)
  rw [Sample.squaredError, div_eq_zero_iff, or_iff_left hsize, mul_self_eq_zero]

theorem between_freedom (hb : 2 ≤ before.size) (ha : 2 ≤ after.size) :
    Between before after (freedom before after) := by
  have hbsize : (2 : ℝ) ≤ before.size := by exact_mod_cast hb
  have hasize : (2 : ℝ) ≤ after.size := by exact_mod_cast ha
  have hone : (1.0 : ℝ) = 1 := by norm_num
  simp only [freedom, isZero_iff, zero_literal, hone]
  split_ifs with hzero hpos
  · exact between_pooled hb ha
  · obtain ⟨he₁, he₂⟩ := not_or.1 hzero
    have hx := (squaredError_nonneg before).lt_of_ne' he₁
    have hy := (squaredError_nonneg after).lt_of_ne' he₂
    have hmin : (2 : ℝ) ≤ (min before.size after.size : ℕ) := by exact_mod_cast le_min hb ha
    have hleft : ((min before.size after.size : ℕ) : ℝ) ≤ before.size :=
      Nat.cast_le.2 (min_le_left _ _)
    have hright : ((min before.size after.size : ℕ) : ℝ) ≤ after.size :=
      Nat.cast_le.2 (min_le_right _ _)
    constructor
    · exact le_square_sum_div hx hy (by linarith) (by linarith) (by linarith)
    · refine (square_sum_div_le hx hy (by linarith) (by linarith)).trans_eq ?_
      ring
  · exact between_pooled hb ha

theorem test_of_spread (hb : 2 ≤ before.size) (ha : 2 ≤ after.size)
    (h : before.stdDev ≠ 0 ∨ after.stdDev ≠ 0) :
    let r := test before after
    r.degreesOfFreedom = freedom before after ∧
      r.pValue = Tail.pValue (Scalar.abs r.tStatistic) r.degreesOfFreedom := by
  intro r
  have hsizes : ¬ (before.size < 2 ∨ after.size < 2) := by omega
  have hspread : ¬ (Scalar.IsZero before.stdDev ∧ Scalar.IsZero after.stdDev) := by
    rw [isZero_iff, isZero_iff]
    exact not_and_or.2 h
  have herror : ¬ Scalar.IsZero (before.squaredError + after.squaredError) := by
    rw [isZero_iff, add_eq_zero_iff_of_nonneg (squaredError_nonneg before)
      (squaredError_nonneg after), squaredError_eq_zero_iff hb, squaredError_eq_zero_iff ha]
    exact not_and_or.2 h
  simp only [r, test, testBy, if_neg hsizes, if_neg hspread, if_neg herror, and_self]

theorem test_of_no_spread (hb : 2 ≤ before.size) (ha : 2 ≤ after.size) (h₁ : before.stdDev = 0)
    (h₂ : after.stdDev = 0) :
    (test before after).degreesOfFreedom = pooledFreedom before after := by
  have hsizes : ¬ (before.size < 2 ∨ after.size < 2) := by omega
  rw [test, testBy, if_neg hsizes, if_pos ⟨isZero_iff.2 h₁, isZero_iff.2 h₂⟩]

theorem between_test (hb : 2 ≤ before.size) (ha : 2 ≤ after.size) :
    Between before after (test before after).degreesOfFreedom := by
  by_cases h : before.stdDev ≠ 0 ∨ after.stdDev ≠ 0
  · rw [(test_of_spread hb ha h).1]
    exact between_freedom hb ha
  · simp only [not_or, not_not] at h
    rw [test_of_no_spread hb ha h.1 h.2]
    exact between_pooled hb ha

/-- The last part says that the probability of two samples with any spread is worked out, and by
values of the logarithm of the gamma function from one half on. -/
theorem freedom_bounds {before after : Sample ℝ} (hb : 2 ≤ before.size) (ha : 2 ≤ after.size) :
    let r := test before after
    let df := r.degreesOfFreedom
    ((min before.size after.size : ℕ) : ℝ) - 1 ≤ df ∧
      df ≤ (before.size : ℝ) + (after.size : ℝ) - 2 ∧ 1 ≤ df ∧
      (before.stdDev ≠ 0 ∨ after.stdDev ≠ 0 →
        ∀ lnGamma? : ℝ → Option ℝ, (∀ x, 0.5 ≤ x → lnGamma? x = some (Tail.lnGamma x)) →
          Tail.workedOut? lnGamma? (Scalar.abs r.tStatistic) df = some r.pValue) := by
  intro r df
  have hdf := between_test hb ha
  have hone : 1 ≤ df := hdf.one_le hb ha
  refine ⟨hdf.lower, hdf.upper, hone, fun hspread lnGamma? h ↦ ?_⟩
  rw [(test_of_spread hb ha hspread).2]
  exact Tail.workedOut?_of_one_le hone h

/-- A pair against a dozen, with a logarithm of the gamma function that has nothing below one half. -/
theorem freedom_bounds_uneven :
    let before : Sample ℝ := ⟨10, 1, 2⟩
    let after : Sample ℝ := ⟨12, 3, 12⟩
    let r := test before after
    let lnGamma? (x : ℝ) := if 0.5 ≤ x then some (Tail.lnGamma x) else none
    (2 ≤ before.size ∧ 2 ≤ after.size) ∧ (before.stdDev ≠ 0 ∨ after.stdDev ≠ 0) ∧
      (∀ x, 0.5 ≤ x → lnGamma? x = some (Tail.lnGamma x)) ∧
      (1 ≤ r.degreesOfFreedom ∧ r.degreesOfFreedom ≤ 12) ∧
      Tail.workedOut? lnGamma? (Scalar.abs r.tStatistic) r.degreesOfFreedom = some r.pValue := by
  intro before after r lnGamma?
  have hb : 2 ≤ before.size := le_rfl
  have ha : 2 ≤ after.size := by decide
  have hspread : before.stdDev ≠ 0 ∨ after.stdDev ≠ 0 := .inl one_ne_zero
  have hgiven (x : ℝ) (hx : 0.5 ≤ x) : lnGamma? x = some (Tail.lnGamma x) := if_pos hx
  obtain ⟨-, hupper, hone, hworked⟩ := freedom_bounds hb ha
  have htwelve : (before.size : ℝ) + (after.size : ℝ) - 2 = 12 := by norm_num [before, after]
  exact ⟨⟨hb, ha⟩, hspread, hgiven, ⟨hone, htwelve ▸ hupper⟩, hworked hspread lnGamma? hgiven⟩

end Welch

end MetricWatch
