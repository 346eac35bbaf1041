import MetricWatch.Binary64.Text
import MetricWatch.Proofs.Binary64.Sign
import MetricWatch.Proofs.Validation

namespace MetricWatch.Gate

variable {α : Type} [Scalar α] {g : Gate α}

theorem advice_ne_nil (severity : Severity) (meanChange p99Change : α) :
    advice severity meanChange p99Change ≠ [] := by
  simp [advice]

theorem saturate_value {x : α} (h : Scalar.IsNumber x) :
    (Confidence.saturate x).value = Scalar.clamp 0.0 1.0 x := by
  rw [Confidence.saturate, dif_pos h]

theorem confidenceOf_of_lt {p d : α} (h : p < g.significanceLevel) :
    g.confidenceOf p d =
      .saturate (0.6 * (1.0 - p) + 0.4 * Scalar.smaller (Scalar.abs d / 0.8) 1.0) := by
  rw [confidenceOf, if_pos h]

theorem confidenceOf_of_not_lt {g : Gate Binary64} {p d : Binary64}
    (h : ¬ p < g.significanceLevel) : g.confidenceOf p d = .zero := by
  rw [confidenceOf, if_neg h]
  decide +kernel

theorem zero_lt_confidenceOf {g : Gate Binary64} {p d : Binary64}
    (hlevel : g.significanceLevel < 1.0) (hp : p < g.significanceLevel)
    (hd : Scalar.IsNumber (Scalar.abs d)) : 0.0 < (g.confidenceOf p d).value := by
  obtain ⟨hpos, hunits⟩ := Binary64.one_sub_pos
    (Binary64.lt_of_lt_of_le hp (Binary64.le_of_lt hlevel))
  have hleft : 0.0 < 0.6 * (1.0 - p) := by
    refine Binary64.mul_pos (by decide +kernel) (by decide +kernel) hpos ?_
    have hsix : Binary64.unit ≤ (0.6 : Binary64).units * 2 := by decide +kernel
    exact hsix.trans (Nat.mul_le_mul_left _ hunits)
  have hshare : 0.0 ≤ Scalar.abs d / 0.8 :=
    Binary64.div_nonneg (Binary64.zero_le_abs hd) (by decide +kernel) (by decide +kernel)
  have hright : 0.0 ≤ 0.4 * Scalar.smaller (Scalar.abs d / 0.8) 1.0 :=
    Binary64.mul_nonneg (by decide +kernel) (by decide +kernel)
      (Binary64.le_smaller hshare (by decide +kernel))
  have hsum := Binary64.add_pos hleft hright
  rw [confidenceOf_of_lt hp, saturate_value (Scalar.le_self_right (Binary64.le_of_lt hsum))]
  exact Binary64.zero_lt_clamp hsum

theorem le_largestChange {x meanChange : Binary64} (h : x ≤ meanChange) (p99Change : Binary64) :
    x ≤ Scalar.larger (Scalar.abs meanChange) (Scalar.abs p99Change) := by
  have habs := Binary64.le_abs_self (Scalar.le_self_right h)
  exact Binary64.le_trans (Binary64.le_trans h habs)
    (Binary64.le_larger (Scalar.le_self_right habs))

theorem severityOf_mem {g : Gate Binary64} {meanChange p99Change d : Binary64}
    (h : g.threshold ≤ meanChange) :
    g.severityOf meanChange p99Change d ∈ [Severity.medium, .high, .critical] := by
  unfold severityOf
  dsimp only
  split
  · simp
  split
  · simp
  -- The larger change clears the bar of the medium band, so the low one is never reached.
  rw [if_pos (.inl (le_largestChange h p99Change))]
  simp

section Detect

variable [NumberText α] {tail : (t df : α) → α} {now : Instant} {before after : List α}
  {metric : String}

theorem detectBy_of_empty (h : before = [] ∨ after = []) :
    g.detectBy tail now before after metric = .insufficient now metric := by
  rw [detectBy, if_pos (by simpa using h)]

theorem detectBy_of_ne_nil (hb : before ≠ []) (ha : after ≠ []) :
    g.detectBy tail now before after metric = g.judge tail now before after metric := by
  rw [detectBy, if_neg (by simp [hb, ha])]

theorem isRegression_iff :
    (g.detectBy tail now before after metric).isRegression = true ↔
      before ≠ [] ∧ after ≠ [] ∧ g.Cleared (Sample.ofValues before) (Sample.ofValues after)
        (Welch.testBy tail (Sample.ofValues before) (Sample.ofValues after)).pValue
        (Welch.effectSize (Sample.ofValues before) (Sample.ofValues after)) := by
  by_cases hempty : before = [] ∨ after = []
  · rw [detectBy_of_empty hempty]
    exact iff_of_false nofun fun h ↦ hempty.elim h.1 h.2.1
  · obtain ⟨hb, ha⟩ := not_or.1 hempty
    rw [detectBy_of_ne_nil hb ha, and_iff_right hb, and_iff_right ha]
    exact decide_eq_true_iff

/-- The four bars, by what the result reports. -/
abbrev ClearedBy (g : Gate α) (r : Regression α) (t : SignificanceTest α) : Prop :=
  t.pValue < g.significanceLevel ∧ g.minEffectSize ≤ Scalar.abs t.effectSize ∧
    r.beforeMean < r.afterMean ∧ g.threshold ≤ r.meanChange

/-- All that a test of two samples can report: a regression with its grade and advice, or nothing
of the kind. -/
theorem judge_cases (g : Gate α) (tail : (t df : α) → α) (now : Instant) (before after : List α)
    (metric : String) :
    let r := g.judge tail now before after metric
    ∃ t, r.test = some t ∧ r.confidence = g.confidenceOf t.pValue t.effectSize ∧
      (g.ClearedBy r t ∧ r.isRegression = true ∧
          r.severity = g.severityOf r.meanChange r.p99Change t.effectSize ∧
          r.recommendations = (advice r.severity r.meanChange r.p99Change).map (·.text) ∨
        ¬ g.ClearedBy r t ∧ r.isRegression = false ∧ r.severity = .info ∧
          r.recommendations = []) := by
  intro r
  refine ⟨_, rfl, rfl, ?_⟩
  by_cases h : g.Cleared (Sample.ofValues before) (Sample.ofValues after)
      (Welch.testBy tail (Sample.ofValues before) (Sample.ofValues after)).pValue
      (Welch.effectSize (Sample.ofValues before) (Sample.ofValues after))
  · refine .inl ⟨h, decide_eq_true h, ?_, ?_⟩
    · simp only [r, judge, decide_eq_true h, if_true]
    · simp only [r, judge, decide_eq_true h, if_true]
  · refine .inr ⟨h, decide_eq_false h, ?_, ?_⟩
    · simp only [r, judge, decide_eq_false h, Bool.false_eq_true, if_false]
    · simp only [r, judge, decide_eq_false h, Bool.false_eq_true, if_false]

theorem isRegression_of_critical (g : Gate α) (tail : (t df : α) → α) (now : Instant)
    (before after : List α) (metric : String)
    (h : (g.detectBy tail now before after metric).severity = .critical) :
    (g.detectBy tail now before after metric).isRegression = true := by
  by_cases hempty : before = [] ∨ after = []
  · rw [detectBy_of_empty hempty] at h
    cases h
  · obtain ⟨hb, ha⟩ := not_or.1 hempty
    rw [detectBy_of_ne_nil hb ha] at h ⊢
    obtain ⟨t, -, -, ⟨-, hreg, -⟩ | ⟨-, -, hsev, -⟩⟩ := judge_cases g tail now before after metric
    · exact hreg
    · rw [hsev] at h
      cases h

end Detect

/-- The lower bands are empty where the critical change is not above the threshold. -/
theorem critical_of_isRegression {g : Gate Binary64} (h : g.critical ≤ g.threshold) {now : Instant}
    {before after : List Binary64} {metric : String}
    (hreg : (g.detect now before after metric).isRegression = true) :
    (g.detect now before after metric).severity = .critical := by
  obtain ⟨hb, ha, -⟩ := isRegression_iff.1 hreg
  rw [detect, detectBy_of_ne_nil hb ha] at hreg ⊢
  obtain ⟨t, -, -, ⟨hcleared, -, hsev, -⟩ | ⟨-, hnone, -⟩⟩ :=
    judge_cases g Tail.pValue now before after metric
  · rw [hsev, severityOf,
      if_pos (.inl (le_largestChange (Binary64.le_trans h hcleared.2.2.2) _))]
  · rw [hnone] at hreg
    cases hreg

theorem detect_verdict (g : Gate Binary64) (hg : g.validate = .ok ()) (now : Instant)
    (before after : List Binary64) (metric : String) :
    let r := g.detect now before after metric
    (r.test = none ↔ before = [] ∨ after = []) ∧
      (r.isRegression = true ↔ before ≠ [] ∧ after ≠ [] ∧ ∃ t, r.test = some t ∧
        t.pValue < g.significanceLevel ∧ g.minEffectSize ≤ Scalar.abs t.effectSize ∧
        r.beforeMean < r.afterMean ∧ g.threshold ≤ r.meanChange) ∧
      (r.isRegression = true →
        r.severity ∈ [Severity.medium, .high, .critical] ∧ 0.0 < r.confidence.value ∧
          r.recommendations ≠ []) ∧
      (r.isRegression = false → r.severity = .info ∧ r.recommendations = []) ∧
      ((¬ ∃ t, r.test = some t ∧ t.pValue < g.significanceLevel) → r.confidence = .zero) := by
  intro r
  have hlevel := (validate_eq_ok_iff.1 hg).1.2
  by_cases hempty : before = [] ∨ after = []
  · have hr : r = .insufficient now metric := detectBy_of_empty hempty
    have hboth : ¬ (before ≠ [] ∧ after ≠ []) := fun h ↦ hempty.elim h.1 h.2
    rw [hr]
    exact ⟨⟨fun _ ↦ hempty, fun _ ↦ rfl⟩, ⟨nofun, fun h ↦ absurd ⟨h.1, h.2.1⟩ hboth⟩, nofun,
      fun _ ↦ ⟨rfl, rfl⟩, fun _ ↦ rfl⟩
  · obtain ⟨hb, ha⟩ := not_or.1 hempty
    have hr : r = g.judge Tail.pValue now before after metric := detectBy_of_ne_nil hb ha
    obtain ⟨t, htest, hconf, hcases⟩ := judge_cases g Tail.pValue now before after metric
    rw [← hr] at htest hconf hcases
    have hsome : r.test = none ↔ before = [] ∨ after = [] := by simp [htest, hempty]
    rcases hcases with ⟨hbars, hreg, hsev, hadvice⟩ | ⟨hbars, hreg, hsev, hadvice⟩
    · refine ⟨hsome, ⟨fun _ ↦ ⟨hb, ha, t, htest, hbars⟩, fun _ ↦ hreg⟩, fun _ ↦ ⟨?_, ?_, ?_⟩,
        fun h ↦ ?_, fun h ↦ ?_⟩
      · rw [hsev]
        exact severityOf_mem hbars.2.2.2
      · rw [hconf]
        exact zero_lt_confidenceOf hlevel hbars.1 (Scalar.le_self_right hbars.2.1)
      · rw [hadvice]
        exact mt List.map_eq_nil_iff.1 (advice_ne_nil _ _ _)
      · rw [hreg] at h
        cases h
      · exact absurd ⟨t, htest, hbars.1⟩ h
    · refine ⟨hsome, ⟨fun h ↦ ?_, ?_⟩, fun h ↦ ?_, fun _ ↦ ⟨hsev, hadvice⟩, fun h ↦ ?_⟩
      · rw [hreg] at h
        cases h
      · rintro ⟨-, -, t', htest', hbars'⟩
        obtain rfl := Option.some.inj (htest.symm.trans htest')
        exact absurd hbars' hbars
      · rw [hreg] at h
        cases h
      · rw [hconf]
        exact confidenceOf_of_not_lt fun hp ↦ h ⟨t, htest, hp⟩

/-- From one or two to an enormous value: the statistic leaves the range of the numbers. -/
theorem detect_verdict_leap :
    let g : Gate Binary64 := .standard
    let r := g.detect .epoch [1.0, 2.0] [1e200, 1e200] "latency"
    g.validate = .ok () ∧ r.isRegression = true ∧
      r.severity ∈ [Severity.medium, .high, .critical] ∧ 0.0 < r.confidence.value ∧
        r.recommendations ≠ [] := by
  intro g r
  have hg : g.validate = .ok () := validate_eq_ok_iff.2 (by decide +kernel)
  have hreg : r.isRegression = true := by decide +kernel
  have hverdict := detect_verdict g hg .epoch [1.0, 2.0] [1e200, 1e200] "latency"
  exact ⟨hg, hreg, hverdict.2.2.1 hreg⟩

end MetricWatch.Gate
