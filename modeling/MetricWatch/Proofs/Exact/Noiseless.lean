import MetricWatch.Proofs.Exact.Regression
import MetricWatch.Proofs.Exact.Spread
import MetricWatch.Proofs.Regression.Verdict

namespace MetricWatch

open Exact

section Level

variable {n : ℕ} {level : ℝ}

theorem level_ne_nil (hn : 2 ≤ n) : List.replicate n level ≠ [] := by
  rw [Ne, List.replicate_eq_nil_iff]
  omega

theorem Stats.mean_level (hn : 2 ≤ n) : mean (List.replicate n level) = level := by
  have hlevel : ∀ x ∈ List.replicate n level, level ≤ x ∧ x ≤ level := by
    intro x hx
    rw [List.eq_of_mem_replicate hx]
    exact ⟨le_rfl, le_rfl⟩
  obtain ⟨hlow, hhigh⟩ := mean_bounds (level_ne_nil hn) hlevel
  exact le_antisymm hhigh hlow

theorem Stats.sampleStdDev_level (hn : 2 ≤ n) : sampleStdDev (List.replicate n level) = 0 := by
  have hsquares : squaredDeviations (List.replicate n level) = 0 := by
    rw [squaredDeviations_eq, mean_level hn]
    simp
  rw [sampleStdDev, List.length_replicate, if_neg (by omega), hsquares, zero_div, scalar_sqrt,
    Real.sqrt_zero]

theorem Sample.ofValues_level (hn : 2 ≤ n) :
    ofValues (List.replicate n level) = ⟨level, 0, n⟩ := by
  rw [ofValues, Stats.mean_level hn, Stats.sampleStdDev_level hn, List.length_replicate]

end Level

namespace Welch

variable {before after : Sample ℝ}

theorem testBy_of_levels (hb : 2 ≤ before.size) (ha : 2 ≤ after.size) (h₁ : before.stdDev = 0)
    (h₂ : after.stdDev = 0) (hmeans : before.mean ≠ after.mean) (tail : (t df : ℝ) → ℝ) :
    testBy tail before after = ⟨0, 0, pooledFreedom before after⟩ := by
  have hsizes : ¬ (before.size < 2 ∨ after.size < 2) := by omega
  rw [testBy, if_neg hsizes, if_pos ⟨isZero_iff.2 h₁, isZero_iff.2 h₂⟩,
    if_neg (mt numEq_iff.1 hmeans), zero_literal]

theorem effectSize_of_levels (h₁ : before.stdDev = 0) (h₂ : after.stdDev = 0) :
    effectSize before after = 0 := by
  have hpooled (m n d : ℝ) : (m * 0 * 0 + n * 0 * 0) / d = 0 := by ring
  simp only [effectSize, h₁, h₂, hpooled, scalar_sqrt, Real.sqrt_zero, isZero_iff, if_true,
    zero_literal, ite_self]

end Welch

section Step

variable {m n : ℕ} {low high : ℝ}

theorem Welch.testBy_step (hm : 2 ≤ m) (hn : 2 ≤ n) (hrise : low < high)
    (tail : (t df : ℝ) → ℝ) :
    testBy tail (Sample.ofValues (List.replicate m low)) (Sample.ofValues (List.replicate n high)) =
      ⟨0, 0, (m + n - 2 : ℕ)⟩ := by
  rw [Sample.ofValues_level hm, Sample.ofValues_level hn,
    testBy_of_levels hm hn rfl rfl hrise.ne tail, pooledFreedom_eq hm]

theorem Welch.effectSize_step (hm : 2 ≤ m) (hn : 2 ≤ n) :
    effectSize (Sample.ofValues (List.replicate m low)) (Sample.ofValues (List.replicate n high)) =
      0 := by
  rw [Sample.ofValues_level hm, Sample.ofValues_level hn]
  exact effectSize_of_levels rfl rfl

end Step

namespace Gate

variable {g : Gate ℝ} {before after : Sample ℝ}

theorem minEffectSize_nonneg (hg : g.validate = .ok ()) : 0 ≤ g.minEffectSize := by
  obtain ⟨-, ⟨-, hnonneg⟩, -⟩ := validate_eq_ok_iff.1 hg
  rwa [zero_literal, not_lt] at hnonneg

theorem cleared_of_certain_iff (hg : g.validate = .ok ()) (hrise : before.mean < after.mean)
    (hchange : g.threshold ≤ Stats.changePercent before.mean after.mean) :
    g.Cleared before after 0 0 ↔ g.minEffectSize = 0 := by
  obtain ⟨⟨hlevel, -⟩, -⟩ := validate_eq_ok_iff.1 hg
  rw [zero_literal] at hlevel
  have heffect : g.minEffectSize ≤ Scalar.abs 0 ↔ g.minEffectSize = 0 := by
    rw [scalar_abs, abs_zero]
    exact (minEffectSize_nonneg hg).ge_iff_eq'
  rw [Cleared, and_iff_right hlevel, heffect, and_iff_left ⟨hrise, hchange⟩]

section Detect

variable [NumberText ℝ] {now : Instant} {metric : String} {m n : ℕ} {low high : ℝ}

theorem isRegression_step_iff (hg : g.validate = .ok ()) (hm : 2 ≤ m) (hn : 2 ≤ n)
    (hrise : low < high) (hchange : g.threshold ≤ Stats.changePercent low high) :
    (g.detect now (List.replicate m low) (List.replicate n high) metric).isRegression = true ↔
      g.minEffectSize = 0 := by
  rw [detect, isRegression_iff, and_iff_right (level_ne_nil hm),
    and_iff_right (level_ne_nil hn), Welch.testBy_step hm hn hrise, Welch.effectSize_step hm hn,
    Sample.ofValues_level hm, Sample.ofValues_level hn]
  exact cleared_of_certain_iff hg hrise hchange

theorem test_step (hm : 2 ≤ m) (hn : 2 ≤ n) (hrise : low < high) :
    (g.detect now (List.replicate m low) (List.replicate n high) metric).test =
      some ⟨0, 0, 0, (m + n - 2 : ℕ)⟩ := by
  rw [detect, detectBy_of_ne_nil (level_ne_nil hm) (level_ne_nil hn)]
  simp only [judge, Welch.testBy_step hm hn hrise, Welch.effectSize_step hm hn]

end Detect

/-- The test gives chance a probability of zero whatever is asked for, and the effect size is zero
as well. -/
theorem noiseless_rise [NumberText ℝ] (g : Gate ℝ) (hg : g.validate = .ok ()) (now : Instant)
    {m n : ℕ} (hm : 2 ≤ m) (hn : 2 ≤ n) {low high : ℝ} (hrise : low < high)
    (hchange : g.threshold ≤ Stats.changePercent low high) (metric : String) :
    let r := g.detect now (List.replicate m low) (List.replicate n high) metric
    r.test = some ⟨0, 0, 0, (m + n - 2 : ℕ)⟩ ∧ (r.isRegression = true ↔ g.minEffectSize = 0) :=
  ⟨test_step hm hn hrise, isRegression_step_iff hg hm hn hrise hchange⟩

theorem threshold_le_changePercent_doubled :
    (standard : Gate ℝ).threshold ≤ Stats.changePercent 1 2 := by
  norm_num [standard, Stats.changePercent, isZero_iff, scalar_abs]

theorem noiseless_rise_doubled :
    let _ := nearestWhole
    let g : Gate ℝ := { standard with minEffectSize := 0 }
    let r := g.detect .epoch (List.replicate 2 1) (List.replicate 3 2) "latency"
    (g.validate = .ok () ∧ g.threshold ≤ Stats.changePercent 1 2) ∧
      r.test = some ⟨0, 0, 0, 3⟩ ∧ r.isRegression = true := by
  intro text g r
  have hg : g.validate = .ok () := by
    rw [validate_eq_ok_iff]
    norm_num [g, standard, PositiveThreshold, Scalar.isFinite]
  have hchange : g.threshold ≤ Stats.changePercent 1 2 := threshold_le_changePercent_doubled
  obtain ⟨htest, hreg⟩ := noiseless_rise g hg .epoch (m := 2) (n := 3) le_rfl (by norm_num)
    one_lt_two hchange "latency"
  exact ⟨⟨hg, hchange⟩, by exact_mod_cast htest, hreg.2 rfl⟩

/-- With the standard settings a doubled latency is no regression, though chance is ruled out. -/
theorem noiseless_rise_unseen :
    let _ := nearestWhole
    let g : Gate ℝ := .standard
    let r := g.detect .epoch (List.replicate 2 1) (List.replicate 2 2) "latency"
    (g.validate = .ok () ∧ (1 : ℝ) < 2 ∧ g.threshold ≤ Stats.changePercent 1 2) ∧
      (∃ t, r.test = some t ∧ t.pValue = 0) ∧ r.isRegression = false := by
  intro text g r
  have hg : g.validate = .ok () := by
    rw [validate_eq_ok_iff]
    norm_num [g, standard, PositiveThreshold, Scalar.isFinite]
  have hchange : g.threshold ≤ Stats.changePercent 1 2 := threshold_le_changePercent_doubled
  refine ⟨⟨hg, one_lt_two, hchange⟩, ⟨_, test_step le_rfl le_rfl one_lt_two, rfl⟩, ?_⟩
  rw [← Bool.not_eq_true, isRegression_step_iff hg le_rfl le_rfl one_lt_two hchange]
  norm_num [g, standard]

end Gate

end MetricWatch
