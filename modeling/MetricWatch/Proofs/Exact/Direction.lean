import Mathlib.Tactic.NormNum
import MetricWatch.Proofs.Comparison.Change
import MetricWatch.Proofs.Exact.Summary
import MetricWatch.Proofs.Regression.Verdict

namespace MetricWatch

open Exact

section Openings

variable {text words words' : String}

theorem startsWith_append (h : words.toList <+: words'.toList) (rest : String) :
    (words' ++ rest).startsWith words = true := by
  rw [String.startsWith_string_iff, String.toList_append]
  exact h.trans (List.prefix_append _ _)

theorem openings_comparable (h : text.startsWith words = true)
    (h' : text.startsWith words' = true) :
    words.toList <+: words'.toList ∨ words'.toList <+: words.toList := by
  rw [String.startsWith_string_iff] at h h'
  exact List.prefix_or_prefix_of_prefix h h'

theorem not_comparable_count (n : ℕ) {c : Char} (hc : words.toList.head? = some c)
    (hword : c.isDigit = false) :
    ¬ (words.toList <+: (toString n).toList ∨ (toString n).toList <+: words.toList) := by
  rw [Nat.toString_eq_repr, Nat.toList_repr]
  obtain ⟨d, digits, hdigits⟩ := List.exists_cons_of_ne_nil (Nat.toDigits_ne_nil (n := n) (b := 10))
  obtain ⟨cs, hcs⟩ := List.head?_eq_some_iff.1 hc
  have hdigit : d.isDigit = true :=
    Nat.isDigit_of_mem_toDigits (n := n) (by decide) (by decide) (hdigits ▸ List.mem_cons_self)
  have hne : c ≠ d := by
    rintro rfl
    exact Bool.false_ne_true (hword.symm.trans hdigit)
  rw [hdigits, hcs, List.cons_prefix_cons, List.cons_prefix_cons]
  exact fun h ↦ h.elim (fun h ↦ hne h.1) fun h ↦ hne h.1.symm

end Openings

variable {α : Type}

/-- The words by which a verdict is known. -/
def Verdict.opening : Verdict α → String
  | regressed _ _ _ _ => "Regression detected"
  | improved _ => "Performance improved"
  | unchanged _ => "No significant regression detected"

/-- The word or the count by which an advice is known. -/
def ComparisonAdvice.opening : ComparisonAdvice α → String
  | investigate => "CRITICAL"
  | meanIncreased _ => "Mean latency increased"
  | meanDecreased _ => "Mean latency decreased"
  | tailIncreased _ => "P99 latency increased"
  | criticalAnomalies count => toString count

variable [NumberText α] {words : String}

theorem Verdict.startsWith_opening (v : Verdict α) : v.text.startsWith v.opening = true := by
  delta text opening
  cases v <;> simp only [toString, String.append_assoc] <;> exact startsWith_append (by decide) _

theorem ComparisonAdvice.startsWith_opening (a : ComparisonAdvice α) :
    a.text.startsWith a.opening = true := by
  delta text opening
  cases a with
  | criticalAnomalies count =>
    simp only [String.append_assoc]
    exact startsWith_append List.prefix_rfl _
  | _ =>
    simp only [toString, String.append_assoc]
    exact startsWith_append (by decide) _

theorem Verdict.startsWith_improved_iff (v : Verdict α) :
    v.text.startsWith "Performance improved" = true ↔ ∃ percent, v = .improved percent := by
  constructor
  · intro h
    have hcomparable := openings_comparable h v.startsWith_opening
    cases v with
    | improved percent => exact ⟨percent, rfl⟩
    | _ =>
      refine absurd hcomparable ?_
      dsimp only [opening]
      decide
  · rintro ⟨percent, rfl⟩
    exact startsWith_opening (.improved percent)

/-- No other advice opens with words on the mean, and a count with no word at all. -/
theorem ComparisonAdvice.startsWith_iff {a : ComparisonAdvice α}
    (hwords : words = "Mean latency increased" ∨ words = "Mean latency decreased") :
    a.text.startsWith words = true ↔
      words = a.opening ∧ ∃ percent, a = .meanIncreased percent ∨ a = .meanDecreased percent := by
  constructor
  · intro h
    have hcomparable := openings_comparable h a.startsWith_opening
    cases a with
    | meanIncreased percent =>
      refine ⟨?_, percent, .inl rfl⟩
      revert hcomparable
      rcases hwords with rfl | rfl <;> dsimp only [opening] <;> decide
    | meanDecreased percent =>
      refine ⟨?_, percent, .inr rfl⟩
      revert hcomparable
      rcases hwords with rfl | rfl <;> dsimp only [opening] <;> decide
    | criticalAnomalies count =>
      refine absurd hcomparable (not_comparable_count count (c := 'M') ?_ (by decide))
      rcases hwords with rfl | rfl <;> rfl
    | _ =>
      refine absurd hcomparable ?_
      rcases hwords with rfl | rfl <;> dsimp only [opening] <;> decide
  · rintro ⟨rfl, -⟩
    exact a.startsWith_opening

namespace Stats

variable {base current : ℝ}

theorem changePercent_of_ne_zero (h : base ≠ 0) :
    changePercent base current = (current - base) / |base| * 100 := by
  rw [changePercent, if_neg (mt isZero_iff.1 h), scalar_abs]
  norm_num

theorem changePercent_zero_nonneg : 0 ≤ changePercent 0 current := by
  rw [changePercent, if_pos (isZero_iff.2 rfl)]
  split_ifs <;> norm_num

theorem changePercent_neg_iff : changePercent base current < 0 ↔ base ≠ 0 ∧ current < base := by
  rcases eq_or_ne base 0 with rfl | h
  · simpa using changePercent_zero_nonneg
  · rw [changePercent_of_ne_zero h, and_iff_right h, ← not_le,
      mul_nonneg_iff_of_pos_right (by norm_num), le_div_iff₀ (abs_pos.2 h), zero_mul, sub_nonneg,
      not_le]

theorem changePercent_pos (h : 0 < changePercent base current) :
    base < current ∨ base = 0 ∧ current < 0 := by
  rcases eq_or_ne base 0 with rfl | hbase
  · rcases lt_trichotomy current 0 with hneg | rfl | hpos
    · exact .inr ⟨rfl, hneg⟩
    · simp [changePercent, isZero_iff, zero_literal] at h
    · exact .inl hpos
  · left
    rwa [changePercent_of_ne_zero hbase, mul_pos_iff_of_pos_right (by norm_num),
      div_pos_iff_of_pos_right (abs_pos.2 hbase), sub_pos] at h

end Stats

namespace Comparator

section Advice

variable {α : Type} [Scalar α] {c : Comparator α} {meanChange p99Change percent : α}
  {anomalies : List (Anomaly α)} {status : Status}

theorem meanIncreased_mem_advice :
    .meanIncreased percent ∈ c.advice meanChange p99Change anomalies status ↔
      c.high < meanChange ∧ percent = meanChange := by
  simp only [advice, List.mem_append, List.mem_ite_nil_right, List.mem_singleton, reduceCtorEq,
    and_false, false_or, or_false]
  split_ifs with hup <;> simp [hup]

theorem meanDecreased_mem_advice :
    .meanDecreased percent ∈ c.advice meanChange p99Change anomalies status ↔
      (¬ c.high < meanChange ∧ meanChange < -c.high) ∧ percent = Scalar.abs meanChange := by
  simp only [advice, List.mem_append, List.mem_ite_nil_right, List.mem_singleton, reduceCtorEq,
    and_false, false_or, or_false]
  split_ifs with hup hdown <;> simp [*]

variable [NumberText α] {now : Instant} {values : List α} {b : Baseline α}
  {timestamps : Option (List Instant)} {words : String}

theorem compare_recommendations (h : values ≠ []) :
    let q := c.compare now values b timestamps
    q.recommendations =
      (c.advice q.meanChange q.p99Change q.anomalies q.status).map (·.text) := by
  simp [compare, h]

theorem recommends_iff (h : values ≠ [])
    (hwords : words = "Mean latency increased" ∨ words = "Mean latency decreased") :
    let q := c.compare now values b timestamps
    (∃ text ∈ q.recommendations, text.startsWith words = true) ↔
      words = "Mean latency increased" ∧ c.high < q.meanChange ∨
        words = "Mean latency decreased" ∧ ¬ c.high < q.meanChange ∧ q.meanChange < -c.high := by
  intro q
  simp only [q, compare_recommendations h, List.mem_map, exists_exists_and_eq_and]
  constructor
  · rintro ⟨a, ha, hopens⟩
    obtain ⟨hopening, percent, rfl | rfl⟩ := (ComparisonAdvice.startsWith_iff hwords).1 hopens
    · exact .inl ⟨hopening, (meanIncreased_mem_advice.1 ha).1⟩
    · exact .inr ⟨hopening, (meanDecreased_mem_advice.1 ha).1⟩
  · rintro (⟨rfl, hup⟩ | ⟨rfl, hdown⟩)
    · exact ⟨_, meanIncreased_mem_advice.2 ⟨hup, rfl⟩, ComparisonAdvice.startsWith_opening _⟩
    · exact ⟨_, meanDecreased_mem_advice.2 ⟨hdown, rfl⟩, ComparisonAdvice.startsWith_opening _⟩

end Advice

section Exact

variable {c : Comparator ℝ} {now : Instant} {values : List ℝ} {b : Baseline ℝ}
  {timestamps : Option (List Instant)}

theorem high_pos (hc : c.validate = .ok ()) : 0 < c.high :=
  threshold_pos hc (t := ("high_change_percent", c.high)) (by simp [thresholds])

variable [NumberText ℝ]

theorem meanChange_eq (h : values ≠ []) :
    let q := c.compare now values b timestamps
    q.meanChange = Stats.changePercent b.mean q.mean := by
  simp [compare, h]

theorem recommended_increase (hc : c.validate = .ok ()) (h : values ≠ []) :
    let q := c.compare now values b timestamps
    (∃ text ∈ q.recommendations, text.startsWith "Mean latency increased" = true) →
      b.mean < q.mean ∨ b.mean = 0 ∧ q.mean < 0 := by
  intro q hrecommended
  rcases (recommends_iff h (.inl rfl)).1 hrecommended with ⟨-, hup⟩ | ⟨hwords, -⟩
  · rw [meanChange_eq h] at hup
    exact Stats.changePercent_pos ((high_pos hc).trans hup)
  · exact absurd hwords (by decide)

theorem recommended_decrease (hc : c.validate = .ok ()) (h : values ≠ []) :
    let q := c.compare now values b timestamps
    (∃ text ∈ q.recommendations, text.startsWith "Mean latency decreased" = true) →
      q.mean < b.mean := by
  intro q hrecommended
  rcases (recommends_iff h (.inr rfl)).1 hrecommended with ⟨hwords, -⟩ | ⟨-, -, hdown⟩
  · exact absurd hwords (by decide)
  · rw [meanChange_eq h] at hdown
    exact (Stats.changePercent_neg_iff.1 (hdown.trans (neg_neg_of_pos (high_pos hc)))).2

end Exact

end Comparator

namespace Gate

variable [NumberText ℝ] {g : Gate ℝ} {now : Instant} {before after : List ℝ} {metric : String}

omit [NumberText ℝ] in
theorem verdict_improved_iff {cleared : Bool} {meanChange p99Change pValue effectSize : ℝ} :
    (∃ percent, verdict cleared meanChange p99Change pValue effectSize = .improved percent) ↔
      cleared = false ∧ meanChange < 0 := by
  rw [verdict, zero_literal]
  split_ifs with hcleared hneg <;> simp [*]

theorem described_improved_iff (hb : before ≠ []) (ha : after ≠ []) :
    let r := g.detect now before after metric
    r.description.startsWith "Performance improved" = true ↔
      r.isRegression = false ∧ r.beforeMean ≠ 0 ∧ r.afterMean < r.beforeMean := by
  rw [detect, detectBy_of_ne_nil hb ha]
  exact (Verdict.startsWith_improved_iff _).trans
    (verdict_improved_iff.trans (and_congr_right' Stats.changePercent_neg_iff))

theorem not_isRegression_of_le (h : Stats.mean after ≤ Stats.mean before) :
    (g.detect now before after metric).isRegression = false := by
  rw [← Bool.not_eq_true, detect, isRegression_iff]
  rintro ⟨-, -, -, -, hrise, -⟩
  exact hrise.not_ge h

end Gate

/-- A mean of zero is the exception: a fall from there is reported as an increase. -/
theorem texts_tell_direction [NumberText ℝ] (g : Gate ℝ) (c : Comparator ℝ)
    (hc : c.validate = .ok ()) (now : Instant) {before after values : List ℝ} (hb : before ≠ [])
    (ha : after ≠ []) (hv : values ≠ []) (metric : String) (b : Baseline ℝ)
    (timestamps : Option (List Instant)) :
    let r := g.detect now before after metric
    let q := c.compare now values b timestamps
    (r.isRegression = false →
        (r.description.startsWith "Performance improved" = true ↔
          r.beforeMean ≠ 0 ∧ r.afterMean < r.beforeMean)) ∧
      ((∃ text ∈ q.recommendations, text.startsWith "Mean latency increased" = true) →
        b.mean < q.mean ∨ b.mean = 0 ∧ q.mean < 0) ∧
      ((∃ text ∈ q.recommendations, text.startsWith "Mean latency decreased" = true) →
        q.mean < b.mean) := by
  refine ⟨fun hr ↦ ?_, Comparator.recommended_increase hc hv,
    Comparator.recommended_decrease hc hv⟩
  exact (Gate.described_improved_iff hb ha).trans (and_iff_right hr)

theorem Stats.mean_single (x : ℝ) : mean [x] = x := by
  simp [mean, sum_eq]

theorem texts_tell_direction_halved :
    let _ := nearestWhole
    let c : Comparator ℝ := .standard
    let b := (Detector.standard : Detector ℝ).baseline .epoch [1] "latency" 7
    let r := (Gate.standard : Gate ℝ).detect .epoch [2] [1] "latency"
    let q := c.compare .epoch [2] b none
    (c.validate = .ok () ∧ [(2 : ℝ)] ≠ [] ∧ [(1 : ℝ)] ≠ []) ∧
      (r.isRegression = false ∧ r.description.startsWith "Performance improved" = true) ∧
      (∃ text ∈ q.recommendations, text.startsWith "Mean latency increased" = true) ∧
      b.mean < q.mean := by
  intro text c b r q
  have hc : c.validate = .ok () := Comparator.validate_standard
  have hone : [(1 : ℝ)] ≠ [] := List.cons_ne_nil _ _
  have htwo : [(2 : ℝ)] ≠ [] := List.cons_ne_nil _ _
  have hb : b.mean = 1 := (Detector.baseline_mean hone).trans (Stats.mean_single 1)
  obtain ⟨himproved, hincreased, -⟩ :=
    texts_tell_direction .standard c hc .epoch htwo hone htwo "latency" b none
  have hreg : r.isRegression = false :=
    Gate.not_isRegression_of_le (by rw [Stats.mean_single, Stats.mean_single]; exact one_le_two)
  have hmeans : r.beforeMean = 2 ∧ r.afterMean = 1 := ⟨Stats.mean_single 2, Stats.mean_single 1⟩
  have hup : c.high < q.meanChange := by
    have hq : q.mean = 2 := Stats.mean_single 2
    rw [Comparator.meanChange_eq htwo, hb, hq, Stats.changePercent_of_ne_zero one_ne_zero]
    norm_num [c, Comparator.standard]
  have hrecommended := (Comparator.recommends_iff htwo (.inl rfl)).2 (.inl ⟨rfl, hup⟩)
  refine ⟨⟨hc, htwo, hone⟩, ⟨hreg, (himproved hreg).2 ?_⟩, hrecommended, ?_⟩
  · rw [hmeans.1, hmeans.2]
    norm_num
  · refine (hincreased hrecommended).resolve_right fun hzero ↦ ?_
    exact one_ne_zero (hb.symm.trans hzero.1)

/-- Below a mean of zero no improvement is told, but an increase. -/
theorem texts_tell_direction_below_zero :
    let _ := nearestWhole
    let c : Comparator ℝ := .standard
    let b := (Detector.standard : Detector ℝ).baseline .epoch [0] "latency" 7
    let r := (Gate.standard : Gate ℝ).detect .epoch [0] [-5] "latency"
    let q := c.compare .epoch [-5] b none
    (r.isRegression = false ∧ r.afterMean < r.beforeMean ∧
        r.description.startsWith "Performance improved" = false) ∧
      c.validate = .ok () ∧ q.mean < b.mean ∧
      ∃ text ∈ q.recommendations, text.startsWith "Mean latency increased" = true := by
  intro text c b r q
  have hzero : [(0 : ℝ)] ≠ [] := List.cons_ne_nil _ _
  have hfall : [(-5 : ℝ)] ≠ [] := List.cons_ne_nil _ _
  have hb : b.mean = 0 := (Detector.baseline_mean hzero).trans (Stats.mean_single 0)
  have hq : q.mean = -5 := Stats.mean_single (-5)
  have hmeans : r.beforeMean = 0 ∧ r.afterMean = -5 :=
    ⟨Stats.mean_single 0, Stats.mean_single (-5)⟩
  have hup : c.high < q.meanChange := by
    rw [Comparator.meanChange_eq hfall, hb, hq]
    norm_num [c, Comparator.standard, Stats.changePercent, isZero_iff]
  refine ⟨⟨?_, ?_, ?_⟩, Comparator.validate_standard, ?_,
    (Comparator.recommends_iff hfall (.inl rfl)).2 (.inl ⟨rfl, hup⟩)⟩
  · apply Gate.not_isRegression_of_le
    rw [Stats.mean_single, Stats.mean_single]
    norm_num
  · rw [hmeans.1, hmeans.2]
    norm_num
  · rw [← Bool.not_eq_true]
    exact fun h ↦ ((Gate.described_improved_iff hzero hfall).1 h).2.1 hmeans.1
  · rw [hq, hb]
    norm_num

end MetricWatch
