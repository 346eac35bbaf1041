import MetricWatch.Proofs.Exact.Statistics
import MetricWatch.Proofs.Regression.Verdict

namespace MetricWatch

open Exact

namespace Stats

variable (values : List ℝ) (c : ℝ)

theorem sum_shifted : sum (values.map (· + c)) = sum values + values.length * c := by
  rw [sum_eq, sum_eq, List.sum_map_add, List.map_id', List.map_const', List.sum_replicate,
    nsmul_eq_mul]

theorem mean_shifted (h : values ≠ []) : mean (values.map (· + c)) = mean values + c := by
  have hlength : (values.length : ℝ) ≠ 0 := by simpa using h
  simp only [mean, List.isEmpty_map, List.isEmpty_iff, h, if_false, List.length_map, sum_shifted]
  rw [add_div, mul_div_cancel_left₀ _ hlength]

theorem squaredDeviations_shifted :
    squaredDeviations (values.map (· + c)) = squaredDeviations values := by
  rcases eq_or_ne values [] with rfl | h
  · rfl
  · simp only [squaredDeviations, mean_shifted values c h, List.map_map, Function.comp_def,
      add_sub_add_right_eq_sub]

theorem sampleStdDev_shifted : sampleStdDev (values.map (· + c)) = sampleStdDev values := by
  simp only [sampleStdDev, List.length_map, squaredDeviations_shifted]

theorem changePercent_mono {base current current' : ℝ} (h : base < current)
    (hle : current ≤ current') : changePercent base current ≤ changePercent base current' := by
  simp only [changePercent, isZero_iff, scalar_abs]
  split_ifs with hbase hcurrent hcurrent'
  · exact le_rfl
  · norm_num
  · order
  · exact le_rfl
  · gcongr

end Stats

noncomputable def Sample.shifted (c : ℝ) (s : Sample ℝ) : Sample ℝ := { s with mean := s.mean + c }

theorem Sample.ofValues_shifted {values : List ℝ} (h : values ≠ []) (c : ℝ) :
    ofValues (values.map (· + c)) = (ofValues values).shifted c := by
  simp only [ofValues, shifted, Stats.mean_shifted values c h, Stats.sampleStdDev_shifted,
    List.length_map]

namespace Welch

variable {before after : Sample ℝ} {c : ℝ}

theorem lt_shifted (hc : 0 ≤ c) (h : before.mean < after.mean) :
    before.mean < (after.shifted c).mean := by
  rw [Sample.shifted]
  linarith

theorem abs_rise_div_le (hc : 0 ≤ c) (h : before.mean < after.mean) (s : ℝ) :
    |(after.mean - before.mean) / s| ≤ |((after.shifted c).mean - before.mean) / s| := by
  have hrise : |after.mean - before.mean| ≤ |(after.shifted c).mean - before.mean| := by
    rw [abs_of_pos (sub_pos.2 h), abs_of_pos (sub_pos.2 (lt_shifted hc h)), Sample.shifted]
    linarith
  rw [abs_div, abs_div]
  gcongr

theorem pValue_shifted {tail : (t df : ℝ) → ℝ}
    (htail : ∀ df t t', |t| ≤ |t'| → tail t' df ≤ tail t df) (hc : 0 ≤ c)
    (h : before.mean < after.mean) :
    (testBy tail before (after.shifted c)).pValue ≤ (testBy tail before after).pValue := by
  have hstdDev : (after.shifted c).stdDev = after.stdDev := rfl
  have hsize : (after.shifted c).size = after.size := rfl
  have herror : (after.shifted c).squaredError = after.squaredError := rfl
  have hfreedom : freedom before (after.shifted c) = freedom before after := rfl
  simp only [testBy, hsize, hstdDev, herror, hfreedom, numEq_iff, h.ne, (lt_shifted hc h).ne,
    if_false]
  split_ifs
  · exact le_rfl
  · exact le_rfl
  · exact le_rfl
  · refine htail _ _ _ ?_
    rw [scalar_abs, scalar_abs, abs_abs, abs_abs]
    exact abs_rise_div_le hc h _

theorem effectSize_shifted (hc : 0 ≤ c) (h : before.mean < after.mean) :
    |effectSize before after| ≤ |effectSize before (after.shifted c)| := by
  have hstdDev : (after.shifted c).stdDev = after.stdDev := rfl
  have hsize : (after.shifted c).size = after.size := rfl
  simp only [effectSize, hsize, hstdDev]
  split_ifs
  · exact le_rfl
  · exact le_rfl
  · exact abs_rise_div_le hc h _

end Welch

namespace Gate

variable {g : Gate ℝ} {c p p' d d' : ℝ}

theorem confidenceOf_mono (hp : p < g.significanceLevel) (hle : p' ≤ p) (hd : |d| ≤ |d'|) :
    (g.confidenceOf p d).value ≤ (g.confidenceOf p' d').value := by
  rw [confidenceOf_of_lt hp, confidenceOf_of_lt (hle.trans_lt hp), saturate_value le_rfl,
    saturate_value le_rfl, smaller_eq_min, smaller_eq_min, scalar_abs, scalar_abs]
  refine clamp_mono (by norm_num) ?_
  gcongr

theorem cleared_shifted {before after : Sample ℝ} (hc : 0 ≤ c) (hle : p' ≤ p) (hd : |d| ≤ |d'|)
    (h : g.Cleared before after p d) : g.Cleared before (after.shifted c) p' d' := by
  obtain ⟨hp, heffect, hrise, hchange⟩ := h
  refine ⟨hle.trans_lt hp, heffect.trans hd, Welch.lt_shifted hc hrise, hchange.trans ?_⟩
  exact Stats.changePercent_mono hrise (le_add_of_nonneg_right hc)

/-- Nothing is asked of the tail probability but that a statistic further from zero has no higher
one. -/
theorem regression_shifted [NumberText ℝ] (g : Gate ℝ) {tail : (t df : ℝ) → ℝ}
    (htail : ∀ df t t', |t| ≤ |t'| → tail t' df ≤ tail t df) {c : ℝ} (hc : 0 ≤ c) (now : Instant)
    (before after : List ℝ) (metric : String)
    (hreg : (g.detectBy tail now before after metric).isRegression = true) :
    let r := g.detectBy tail now before after metric
    let r' := g.detectBy tail now before (after.map (· + c)) metric
    r'.isRegression = true ∧ r.confidence.value ≤ r'.confidence.value := by
  intro r r'
  obtain ⟨hb, ha, hcleared⟩ := isRegression_iff.1 hreg
  have ha' : after.map (· + c) ≠ [] := mt List.map_eq_nil_iff.1 ha
  have hrise : (Sample.ofValues before).mean < (Sample.ofValues after).mean := hcleared.2.2.1
  have hp := Welch.pValue_shifted htail hc hrise
  have hd := Welch.effectSize_shifted hc hrise
  have hsample := Sample.ofValues_shifted ha c
  refine ⟨isRegression_iff.2 ⟨hb, ha', ?_⟩, ?_⟩
  · rw [hsample]
    exact cleared_shifted hc hp hd hcleared
  · have hr : r = g.judge tail now before after metric := detectBy_of_ne_nil hb ha
    have hr' : r' = g.judge tail now before (after.map (· + c)) metric := detectBy_of_ne_nil hb ha'
    rw [← hsample] at hp hd
    rw [hr, hr']
    exact confidenceOf_mono hcleared.1 hp hd

noncomputable def tailOfTwo (t _df : ℝ) : ℝ := 1 - √(1 - 2 / (2 + t ^ 2))

theorem tailOfTwo_anti (df t t' : ℝ) (h : |t| ≤ |t'|) : tailOfTwo t' df ≤ tailOfTwo t df := by
  have hsquare : t ^ 2 ≤ t' ^ 2 := sq_le_sq.2 h
  unfold tailOfTwo
  gcongr

/-- Two samples of two values from a mean of zero on, where the change in percent cannot grow. -/
theorem regression_shifted_zero :
    let _ := nearestWhole
    let g : Gate ℝ := .standard
    let r := g.detectBy tailOfTwo .epoch [-1, 1] [8, 10] "latency"
    let r' := g.detectBy tailOfTwo .epoch [-1, 1] ([8, 10].map (· + 1)) "latency"
    (∀ df t t', |t| ≤ |t'| → tailOfTwo t' df ≤ tailOfTwo t df) ∧ (0 : ℝ) ≤ 1 ∧
      r.isRegression = true ∧ r'.isRegression = true ∧
      r.confidence.value ≤ r'.confidence.value := by
  intro text g r r'
  have hsample (x : ℝ) : Sample.ofValues [x - 1, x + 1] = ⟨x, √2, 2⟩ := by
    norm_num [Sample.ofValues, Stats.mean, Stats.sampleStdDev, Stats.squaredDeviations,
      Stats.square, Stats.sum_eq, scalar_sqrt]
  have hbefore : Sample.ofValues [-1, 1] = (⟨0, √2, 2⟩ : Sample ℝ) := by
    rw [← hsample]
    norm_num
  have hafter : Sample.ofValues [8, 10] = (⟨9, √2, 2⟩ : Sample ℝ) := by
    rw [← hsample]
    norm_num
  have hreg : r.isRegression = true := by
    refine isRegression_iff.2 ⟨List.cons_ne_nil _ _, List.cons_ne_nil _ _, ?_⟩
    rw [hbefore, hafter]
    have htest : (Welch.testBy tailOfTwo ⟨0, √2, 2⟩ ⟨9, √2, 2⟩).pValue = 1 - √(81 / 85) := by
      norm_num [Welch.testBy, isZero_iff, Sample.squaredError, scalar_sqrt, scalar_abs, tailOfTwo,
        div_pow]
    have heffect : Welch.effectSize ⟨0, √2, 2⟩ ⟨9, √2, 2⟩ = 9 / √2 := by
      norm_num [Welch.effectSize, isZero_iff, scalar_sqrt]
    have hroot : (0.95 : ℝ) < √(81 / 85) := Real.lt_sqrt_of_sq_lt (by norm_num)
    have hspread : √2 ≤ 2 := Real.sqrt_le_iff.2 (by norm_num)
    rw [htest, heffect]
    refine ⟨?_, ?_, ?_, ?_⟩
    · change 1 - √(81 / 85) < (0.05 : ℝ)
      linarith
    · change (0.2 : ℝ) ≤ |9 / √2|
      rw [abs_of_pos (by positivity), le_div_iff₀ (by positivity)]
      linarith
    · norm_num
    · norm_num [g, standard, Stats.changePercent, isZero_iff]
  exact ⟨tailOfTwo_anti, zero_le_one, hreg,
    regression_shifted g tailOfTwo_anti zero_le_one .epoch [-1, 1] [8, 10] "latency" hreg⟩

end Gate

end MetricWatch
