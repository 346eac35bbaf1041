import MetricWatch.Proofs.Bands
import MetricWatch.Proofs.Binary64.Lower
import MetricWatch.Proofs.Binary64.Monotone
import MetricWatch.Proofs.Regression.Verdict

namespace MetricWatch

namespace Gate

variable {α : Type} [Scalar α]

structure Relaxed (g g' : Gate α) : Prop where
  significanceLevel : g.significanceLevel ≤ g'.significanceLevel
  minEffectSize : g'.minEffectSize ≤ g.minEffectSize
  threshold : g'.threshold ≤ g.threshold
  critical : g'.critical ≤ g.critical

variable {g g' : Gate Binary64} {meanChange p99Change d p : Binary64}

theorem Relaxed.clearedBy (h : g.Relaxed g') {r : Regression Binary64}
    {t : SignificanceTest Binary64} (hbars : g.ClearedBy r t) : g'.ClearedBy r t := by
  obtain ⟨hp, hd, hmean, hchange⟩ := hbars
  exact ⟨Binary64.lt_of_lt_of_le hp h.significanceLevel, Binary64.le_trans h.minEffectSize hd,
    hmean, Binary64.le_trans h.threshold hchange⟩

theorem Relaxed.confidenceOf (h : g.Relaxed g') (hp : p < g.significanceLevel) :
    g'.confidenceOf p d = g.confidenceOf p d := by
  rw [confidenceOf_of_lt hp, confidenceOf_of_lt (Binary64.lt_of_lt_of_le hp h.significanceLevel)]

theorem zero_lt_critical (h : g.validate = .ok ()) :
    (0.0 : Binary64) < g.critical ∧ g.critical.isFinite = true := by
  obtain ⟨-, -, hthreshold, hfinite, hnot⟩ := validate_eq_ok_iff.1 h
  have hle : g.threshold ≤ g.critical := Binary64.le_of_not_lt (Binary64.isFinite_iff.1 hfinite).1
    (Binary64.isFinite_iff.1 hthreshold.1).1 hnot
  exact ⟨Binary64.lt_of_lt_of_le (zero_lt_of_positive hthreshold) hle, hfinite⟩

/-- The high band starts at half of the critical change, and a half keeps the order. -/
theorem Relaxed.half_critical (h : g.Relaxed g') (hg : g.validate = .ok ())
    (hg' : g'.validate = .ok ()) : g'.critical / 2.0 ≤ g.critical / 2.0 :=
  Binary64.div_le_div_right (Binary64.le_of_lt (zero_lt_critical hg').1) h.critical
    (zero_lt_critical hg).2 (by decide +kernel) (by decide +kernel)

theorem Relaxed.severityOf (h : g.Relaxed g') (hg : g.validate = .ok ())
    (hg' : g'.validate = .ok ()) :
    g.severityOf meanChange p99Change d ≤ g'.severityOf meanChange p99Change d := by
  unfold Gate.severityOf
  dsimp only
  generalize Scalar.larger (Scalar.abs meanChange) (Scalar.abs p99Change) = change
  generalize Scalar.abs d = size
  refine Severity.ite_le_ite ?_ (Severity.le_critical _) (Severity.ite_le_ite ?_ ?_
    (Severity.ite_le_ite ?_ ?_ ?_))
  · exact Or.imp_left (Binary64.le_trans h.critical)
  · exact Or.imp_left (Binary64.le_trans (h.half_critical hg hg'))
  · split <;> decide
  · exact Or.imp_left (Binary64.le_trans h.threshold)
  · decide
  · decide

/-- Both gates see the same test, and a difference that is significant for the stricter one is as
sure for the other. -/
theorem Relaxed.judge (h : g.Relaxed g') (hg : g.validate = .ok ()) (hg' : g'.validate = .ok ())
    (tail : (t df : Binary64) → Binary64) (now : Instant) (before after : List Binary64)
    (metric : String) (hreg : (g.judge tail now before after metric).isRegression = true) :
    let r := g.judge tail now before after metric
    let r' := g'.judge tail now before after metric
    r'.isRegression = true ∧ r.severity ≤ r'.severity ∧ r'.confidence = r.confidence := by
  intro r r'
  obtain ⟨t, htest, hconf, ⟨hbars, -, hsev, -⟩ | ⟨-, hnot, -⟩⟩ :=
    judge_cases g tail now before after metric
  · obtain ⟨t', htest', hconf', hcases'⟩ := judge_cases g' tail now before after metric
    obtain rfl : t = t' := Option.some.inj (htest.symm.trans htest')
    have hbars' : g'.ClearedBy r' t := h.clearedBy hbars
    obtain ⟨-, hreg', hsev', -⟩ | ⟨hnot, -⟩ := hcases'
    · refine ⟨hreg', ?_, ?_⟩
      · rw [hsev, hsev']
        exact h.severityOf hg hg'
      · rw [hconf, hconf']
        exact h.confidenceOf hbars.1
    · exact absurd hbars' hnot
  · rw [hnot] at hreg
    cases hreg

theorem Relaxed.detect (h : g.Relaxed g') (hg : g.validate = .ok ()) (hg' : g'.validate = .ok ())
    (now : Instant) (before after : List Binary64) (metric : String)
    (hreg : (g.detect now before after metric).isRegression = true) :
    let r := g.detect now before after metric
    let r' := g'.detect now before after metric
    r'.isRegression = true ∧ r.severity ≤ r'.severity ∧ r'.confidence = r.confidence := by
  intro r r'
  obtain ⟨hb, ha, -⟩ := isRegression_iff.1 hreg
  have hr : r = g.judge Tail.pValue now before after metric := detectBy_of_ne_nil hb ha
  have hr' : r' = g'.judge Tail.pValue now before after metric := detectBy_of_ne_nil hb ha
  rw [hr, hr']
  exact h.judge hg hg' Tail.pValue now before after metric (hr ▸ hreg)

theorem validate_named :
    ∀ g ∈ [strict, standard, permissive], (g : Gate Binary64).validate = .ok () := by
  simp only [validate_eq_ok_iff]
  decide +kernel

theorem strict_relaxed : ∀ g ∈ [standard, permissive], (strict : Gate Binary64).Relaxed g := by
  have hstandard : (strict : Gate Binary64).Relaxed standard := by
    constructor <;> decide +kernel
  have hpermissive : (strict : Gate Binary64).Relaxed permissive := by
    constructor <;> decide +kernel
  exact List.forall_mem_cons.2 ⟨hstandard, List.forall_mem_singleton.2 hpermissive⟩

/-- Of two valid gates the relaxed one reports what the other one reports, as gravely at least and
just as surely. -/
theorem relaxed_reports (now : Instant) (before after : List Binary64) (metric : String) :
    (∀ g g' : Gate Binary64, g.validate = .ok () → g'.validate = .ok () → g.Relaxed g' →
      let r := g.detect now before after metric
      let r' := g'.detect now before after metric
      r.isRegression = true →
        r'.isRegression = true ∧ r.severity ≤ r'.severity ∧ r'.confidence = r.confidence) ∧
    ∀ g ∈ [standard, permissive],
      (strict.detect now before after metric).isRegression = true →
        (g.detect now before after metric).isRegression = true := by
  refine ⟨fun g g' hg hg' h ↦ h.detect hg hg' now before after metric, fun g hmem hreg ↦ ?_⟩
  have hstrict := validate_named strict List.mem_cons_self
  have hg := validate_named g (List.mem_cons_of_mem _ hmem)
  exact ((strict_relaxed g hmem).detect hstrict hg now before after metric hreg).1

/-- A rise by half is of medium severity only if it takes ten times the mean to be critical. -/
theorem relaxed_reports_half :
    let g : Gate Binary64 := ⟨0.01, 0.0, 20.0, 1000.0⟩
    let g' : Gate Binary64 := ⟨0.05, 0.0, 10.0, 50.0⟩
    let r := g.detect .epoch [100.0, 100.0] [150.0, 150.0] "latency"
    let r' := g'.detect .epoch [100.0, 100.0] [150.0, 150.0] "latency"
    (g.validate = .ok () ∧ g'.validate = .ok () ∧ g.Relaxed g' ∧ r.isRegression = true) ∧
      (r.severity = .medium ∧ r'.severity = .critical) ∧
      r'.isRegression = true ∧ r.severity ≤ r'.severity ∧ r'.confidence = r.confidence := by
  intro g g' r r'
  have hg : g.validate = .ok () := validate_eq_ok_iff.2 (by decide +kernel)
  have hg' : g'.validate = .ok () := validate_eq_ok_iff.2 (by decide +kernel)
  have h : g.Relaxed g' := by constructor <;> decide +kernel
  have hreg : r.isRegression = true := by decide +kernel
  have hbefore : Stats.sorted ([100.0, 100.0] : List Binary64) = [100.0, 100.0] :=
    List.mergeSort_of_pairwise (by decide +kernel)
  have hafter : Stats.sorted ([150.0, 150.0] : List Binary64) = [150.0, 150.0] :=
    List.mergeSort_of_pairwise (by decide +kernel)
  have hseverity : r.severity = .medium ∧ r'.severity = .critical := by
    simp only [r, r', Gate.detect, detectBy, Gate.judge, p99, hbefore, hafter]
    decide +kernel
  have hreports := relaxed_reports .epoch [100.0, 100.0] [150.0, 150.0] "latency"
  exact ⟨⟨hg, hg', h, hreg⟩, hseverity, hreports.1 g g' hg hg' h hreg⟩

end Gate

section Mean

variable {before after : List Binary64} {t : Binary64}

theorem meanRose_of_rise (hb : before ≠ []) (ha : after ≠ [])
    (hrise : Stats.mean before < Stats.mean after)
    (hchange : Scalar.IsZero (Stats.mean before) ∨
      t ≤ Stats.changePercent (Stats.mean before) (Stats.mean after)) :
    meanRose before after t = true := by
  rw [meanRose, if_neg (by simp [hb, ha])]
  dsimp only
  split
  · rename_i hzero
    exact decide_eq_true (Binary64.lt_of_le_of_lt hzero.2 hrise)
  · rename_i hzero
    have hle := hchange.resolve_left hzero
    rw [Stats.changePercent, if_neg hzero] at hle
    exact decide_eq_true hle

theorem rise_of_meanRose (ht : (0.0 : Binary64) < t) (h : meanRose before after t = true) :
    before ≠ [] ∧ after ≠ [] ∧ Stats.mean before < Stats.mean after ∧
      (Scalar.IsZero (Stats.mean before) ∨
        t ≤ Stats.changePercent (Stats.mean before) (Stats.mean after)) := by
  unfold meanRose at h
  split at h
  · cases h
  rename_i hempty
  simp only [Bool.or_eq_true, List.isEmpty_iff, not_or] at hempty
  refine ⟨hempty.1, hempty.2, ?_⟩
  dsimp only at h
  split at h
  · rename_i hzero
    exact ⟨Binary64.lt_of_le_of_lt hzero.1 (of_decide_eq_true h), .inl hzero⟩
  · rename_i hzero
    have hle := of_decide_eq_true h
    have hpos := Binary64.lt_of_lt_of_le ht hle
    refine ⟨Binary64.lt_of_zero_lt_sub ?_, .inr ?_⟩
    · have hquotient := Binary64.zero_lt_of_zero_lt_mul (by decide +kernel) hpos
      exact Binary64.zero_lt_of_zero_lt_div (Binary64.negative_abs _) hquotient
    · rwa [Stats.changePercent, if_neg hzero]

/-- The check of the mean misses no regression, whatever the means are. With a positive threshold
it is the two bars on the mean, but for the one in percent when the mean rises from zero. -/
theorem meanRose_agrees (g : Gate Binary64) (now : Instant) (before after : List Binary64)
    (metric : String) (t : Binary64) :
    let r := g.detect now before after metric
    (t ≤ g.threshold → r.isRegression = true → meanRose before after t = true) ∧
      ((0.0 : Binary64) < t → (meanRose before after t = true ↔
        before ≠ [] ∧ after ≠ [] ∧ r.beforeMean < r.afterMean ∧
          (Scalar.IsZero r.beforeMean ∨ t ≤ r.meanChange))) := by
  intro r
  refine ⟨fun ht hreg ↦ ?_, fun ht ↦ ?_⟩
  · obtain ⟨hb, ha, -, -, hrise, hchange⟩ := Gate.isRegression_iff.1 hreg
    exact meanRose_of_rise hb ha hrise (.inr (Binary64.le_trans ht hchange))
  · by_cases hempty : before = [] ∨ after = []
    · refine iff_of_false (fun h ↦ ?_) fun h ↦ hempty.elim h.1 h.2.1
      obtain ⟨hb, ha, -⟩ := rise_of_meanRose ht h
      exact hempty.elim hb ha
    · obtain ⟨hb, ha⟩ := not_or.1 hempty
      have hr : r = g.judge Tail.pValue now before after metric := Gate.detectBy_of_ne_nil hb ha
      rw [hr]
      exact ⟨rise_of_meanRose ht, fun h ↦ meanRose_of_rise hb ha h.2.2.1 h.2.2.2⟩

theorem meanRose_agrees_leap :
    let g : Gate Binary64 := .standard
    let before : List Binary64 := [-1.0, 1.0]
    let after : List Binary64 := [1e200, 1e200]
    let r := g.detect .epoch before after "latency"
    ((5.0 : Binary64) ≤ g.threshold ∧ r.isRegression = true) ∧ Scalar.IsZero r.beforeMean ∧
      meanRose before after 5.0 = true := by
  intro g before after r
  have ht : (5.0 : Binary64) ≤ g.threshold := by decide +kernel
  have hreg : r.isRegression = true := by decide +kernel
  have hagrees := meanRose_agrees g .epoch before after "latency" 5.0
  exact ⟨⟨ht, hreg⟩, by decide +kernel, hagrees.1 ht hreg⟩

end Mean

end MetricWatch
