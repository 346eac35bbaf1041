import MetricWatch.Proofs.Binary64.Exact
import MetricWatch.Proofs.Binary64.Quotient
import MetricWatch.Proofs.Regression.Exchange
import MetricWatch.Proofs.Stats.Finite

namespace MetricWatch

namespace Binary64

variable {v x y : Binary64}

/-- All that sums and averages can make of an infinite value: itself, or no number. -/
def Overwhelms (v x : Binary64) : Prop := x = v ∨ x.isNaN = true

theorem isNaN_of_isInfinite (h : v.isInfinite = true) : v.isNaN = false :=
  Bool.eq_false_iff.2 fun hnan ↦ not_isInfinite_of_isNaN hnan h

theorem overwhelms_add (h : v.isInfinite = true) (y : Binary64) : Overwhelms v (v + y) := by
  cases hy : y.isNaN with
  | true => exact .inr (add_isNaN (.inr hy))
  | false =>
    cases hyi : y.isInfinite with
    | false => exact .inl (add_of_isInfinite_left h (isFinite_iff.2 ⟨hy, hyi⟩))
    | true =>
      change Overwhelms v (add v y)
      simp only [add, isNaN_of_isInfinite h, hy, h, hyi, Bool.false_eq_true, if_false, if_true,
        Bool.true_and]
      split
      · exact .inr invalid_isNaN
      · exact .inl rfl

theorem overwhelms_add_left (h : v.isInfinite = true) (x : Binary64) : Overwhelms v (x + v) := by
  rw [add_comm_of_number fun hnan ↦ not_isInfinite_of_isNaN hnan.2 h]
  exact overwhelms_add h x

theorem Overwhelms.add (h : v.isInfinite = true) (hx : Overwhelms v x) (y : Binary64) :
    Overwhelms v (x + y) := by
  rcases hx with rfl | hx
  · exact overwhelms_add h y
  · exact .inr (add_isNaN (.inl hx))

theorem Overwhelms.div (h : v.isInfinite = true) (hx : Overwhelms v x) (hy : y.negative = false) :
    Overwhelms v (x / y) := by
  rcases hx with rfl | hx
  · change Overwhelms x (Binary64.div x y)
    simp only [Binary64.div, isNaN_of_isInfinite h, h, Bool.false_eq_true, if_false, if_true]
    split
    · exact .inr ‹_›
    split
    · exact .inr invalid_isNaN
    · refine .inl (eq_of_isInfinite (isInfinite_infinity _) h ?_)
      rw [negative_infinity, hy, Bool.bne_false]
  · exact .inr (div_isNaN_of_left hx)

theorem Overwhelms.sub_isNaN (h : v.isInfinite = true) (hx : Overwhelms v x) :
    (v - x).isNaN = true := by
  rcases hx with rfl | hx
  · exact sub_self_isNaN (Bool.eq_false_iff.2 fun hf ↦
      Bool.eq_false_iff.1 (isFinite_iff.1 hf).2 h)
  · exact Binary64.sub_isNaN (.inr hx)

end Binary64

namespace Stats

open Binary64

variable {values : List Binary64} {v a : Binary64}

/-- From an infinite value on, a running sum stays infinite in its direction or is no number. -/
theorem overwhelms_foldl (h : v.isInfinite = true) (hv : Overwhelms v a ∨ v ∈ values) :
    Overwhelms v (values.foldl (· + ·) a) := by
  induction values generalizing a with
  | nil => exact hv.resolve_right List.not_mem_nil
  | cons x rest ih =>
    apply ih
    rcases hv with ha | hv
    · exact .inl (ha.add h x)
    · rcases List.mem_cons.1 hv with rfl | hv
      · exact .inl (overwhelms_add_left h a)
      · exact .inr hv

theorem overwhelms_mean (hv : v ∈ values) (h : v.isInfinite = true) :
    Overwhelms v (mean values) := by
  rw [mean, if_neg (mt List.isEmpty_iff.1 (List.ne_nil_of_mem hv))]
  exact (overwhelms_foldl h (.inr hv)).div h (negative_ofQuotient _ _ _)

theorem sub_mean_isNaN (hv : v ∈ values) (h : v.isNaN = true ∨ v.isInfinite = true) :
    (v - mean values).isNaN = true := by
  rcases h with h | h
  · exact sub_isNaN (.inl h)
  · exact (overwhelms_mean hv h).sub_isNaN h

theorem sampleStdDev_isNaN (hn : 2 ≤ values.length) (hv : v ∈ values)
    (h : v.isNaN = true ∨ v.isInfinite = true) : (sampleStdDev values).isNaN = true := by
  have hsquare : (square (v - mean values)).isNaN = true :=
    mul_isNaN_of_left (sub_mean_isNaN hv h)
  have hsum : (squaredDeviations values).isNaN = true :=
    foldl_isNaN (.inr ⟨_, List.mem_map_of_mem hv, hsquare⟩)
  rw [sampleStdDev, if_neg (Nat.not_lt.2 hn)]
  exact sqrt_isNaN (div_isNaN_of_left hsum)

end Stats

namespace Welch

open Binary64

variable {before after : Sample Binary64}

theorem squaredError_isNaN {s : Sample Binary64} (h : s.stdDev.isNaN = true) :
    s.squaredError.isNaN = true := div_isNaN_of_left (mul_isNaN_of_left h)

theorem pValue_of_stdDev_isNaN (h : before.stdDev.isNaN = true ∨ after.stdDev.isNaN = true) :
    (test before after).pValue = 1.0 := by
  have herror : (before.squaredError + after.squaredError).isNaN = true :=
    add_isNaN (h.imp squaredError_isNaN squaredError_isNaN)
  unfold test testBy
  dsimp only
  split
  · rfl
  split
  · rename_i hzero
    rcases h with h | h
    · exact absurd hzero.1 (not_isZero_of_isNaN h)
    · exact absurd hzero.2 (not_isZero_of_isNaN h)
  · rw [if_neg (not_isZero_of_isNaN herror)]
    exact pValue_of_isNaN _ (div_isNaN_of_right (sqrt_isNaN herror))

theorem pValue_of_poisoned {before after : List Binary64} {v : Binary64}
    (hv : v ∈ before ++ after) (h : v.isNaN = true ∨ v.isInfinite = true) :
    (test (.ofValues before) (.ofValues after)).pValue = 1.0 := by
  by_cases hsize : before.length < 2 ∨ after.length < 2
  · have huntestable : test (.ofValues before) (.ofValues after) = untestable := if_pos hsize
    rw [huntestable]
    rfl
  · simp only [not_or, Nat.not_lt] at hsize
    apply pValue_of_stdDev_isNaN
    rcases List.mem_append.1 hv with hv | hv
    · exact .inl (Stats.sampleStdDev_isNaN hsize.1 hv h)
    · exact .inr (Stats.sampleStdDev_isNaN hsize.2 hv h)

end Welch

namespace Gate

/-- Whatever the other values are, and in whatever order they come. -/
theorem poisoned_samples {g : Gate Binary64} (hg : g.validate = .ok ())
    {before after : List Binary64} (hbefore : before ≠ []) (hafter : after ≠ [])
    (hpoisoned : ∃ v ∈ before ++ after, v.isNaN = true ∨ v.isInfinite = true) (now : Instant)
    (metric : String) :
    let r := g.detect now before after metric
    r.test.map (·.pValue) = some 1.0 ∧ r.confidence.value = 0.0 ∧ r.isRegression = false ∧
      r.severity = .info := by
  intro r
  obtain ⟨v, hv, hpoison⟩ := hpoisoned
  have hr : r = g.judge Tail.pValue now before after metric := detectBy_of_ne_nil hbefore hafter
  obtain ⟨t, htest, hconfidence, hcases⟩ := judge_cases g Tail.pValue now before after metric
  rw [← hr] at htest hconfidence hcases
  have hp : t.pValue = 1.0 := by
    rw [hr] at htest
    obtain rfl := Option.some.inj htest
    exact Welch.pValue_of_poisoned hv hpoison
  have hlevel : ¬ t.pValue < g.significanceLevel := by
    rw [hp]
    exact fun hlt ↦ Binary64.not_le_of_lt hlt (Binary64.le_of_lt (validate_eq_ok_iff.1 hg).1.2)
  refine ⟨by rw [htest, Option.map_some, hp], ?_, ?_⟩
  · rw [hconfidence, confidenceOf_of_not_lt hlevel]
    rfl
  · rcases hcases with ⟨hbars, -⟩ | ⟨-, hregression, hseverity, -⟩
    · exact absurd hbars.1 hlevel
    · exact ⟨hregression, hseverity⟩

/-- A rise to infinity. One to `1e200` is a regression. -/
theorem poisoned_samples_rise :
    let g : Gate Binary64 := .standard
    let before : List Binary64 := [1.0, 2.0]
    let after : List Binary64 := [.infinity false, .infinity false]
    let r := g.detect .epoch before after "latency"
    g.validate = .ok () ∧ before ≠ [] ∧ after ≠ [] ∧
      (∃ v ∈ before ++ after, v.isNaN = true ∨ v.isInfinite = true) ∧
      r.isRegression = false ∧ r.severity = .info := by
  intro g before after r
  have hg : g.validate = .ok () := validate_eq_ok_iff.2 (by decide +kernel)
  have hbefore : before ≠ [] := List.cons_ne_nil _ _
  have hafter : after ≠ [] := List.cons_ne_nil _ _
  have hpoisoned : ∃ v ∈ before ++ after, v.isNaN = true ∨ v.isInfinite = true :=
    ⟨.infinity false, by simp [after], .inr (Binary64.isInfinite_infinity false)⟩
  obtain ⟨-, -, hresult⟩ := poisoned_samples hg hbefore hafter hpoisoned .epoch "latency"
  exact ⟨hg, hbefore, hafter, hpoisoned, hresult⟩

end Gate

end MetricWatch
