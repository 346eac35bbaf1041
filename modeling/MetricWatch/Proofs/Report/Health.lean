import MetricWatch.Proofs.Binary64.Count
import MetricWatch.Proofs.Regression.Verdict
import MetricWatch.Proofs.Report.Consistency

namespace MetricWatch

def Health.rank : Health → Nat
  | healthy => 0
  | warning => 1
  | degraded => 2
  | critical => 3

theorem Health.eq_of_rank_lt {h h' : Health} (hlt : h'.rank < h.rank) (hc : h ≠ .critical)
    (hh : h' ≠ .healthy) : h = .degraded ∧ h' = .warning := by
  cases h <;> cases h' <;> simp_all [rank]

namespace Report

variable {α : Type} [Scalar α]

def Addition.Quiet : Addition α → Prop
  | anomalies _ found => found = []
  | comparison c => c.anomalies = [] ∧ c.status ∈ [Status.normal, .noData]
  | regression g => g.isRegression = false ∧ g.severity ≠ .critical

theorem Addition.quiet_iff {a : Addition α} :
    a.Quiet ↔ a.loose = [] ∧
      (∀ c ∈ a.comparisons, c.anomalies = [] ∧ c.status ∈ [Status.normal, .noData]) ∧
      ∀ g ∈ a.regressions, g.isRegression = false ∧ g.severity ≠ .critical := by
  cases a <;> simp [Quiet, loose, comparisons, regressions]

def CriticalCause (r : Report α) : Prop :=
  (∃ a ∈ r.allAnomalies, a.severity = .critical) ∨ (∃ g ∈ r.regressions, g.severity = .critical) ∨
    ∃ c ∈ r.comparisons, c.status = .critical

/-- What degrades a report for good. Its rate of anomalies may also degrade it for a while. -/
def DegradedCause (r : Report α) : Prop :=
  (∃ a ∈ r.allAnomalies, a.severity = .high) ∨ (∃ g ∈ r.regressions, g.isRegression = true) ∨
    ∃ c ∈ r.comparisons, c.status = .degraded

def WarningCause (r : Report α) : Prop :=
  (∃ a, a ∈ r.allAnomalies) ∨ ∃ c ∈ r.comparisons, c.status = .changed

/-- A later report has all the findings of an earlier one. -/
structure Extends (r s : Report α) : Prop where
  anomalies : r.allAnomalies ⊆ s.allAnomalies
  comparisons : r.comparisons ⊆ s.comparisons
  regressions : r.regressions ⊆ s.regressions

variable {r s : Report α}

namespace Extends

theorem criticalCause (h : r.Extends s) : r.CriticalCause → s.CriticalCause
  | .inl ⟨a, ha, hs⟩ => .inl ⟨a, h.anomalies ha, hs⟩
  | .inr (.inl ⟨g, hg, hs⟩) => .inr (.inl ⟨g, h.regressions hg, hs⟩)
  | .inr (.inr ⟨c, hc, hs⟩) => .inr (.inr ⟨c, h.comparisons hc, hs⟩)

theorem degradedCause (h : r.Extends s) : r.DegradedCause → s.DegradedCause
  | .inl ⟨a, ha, hs⟩ => .inl ⟨a, h.anomalies ha, hs⟩
  | .inr (.inl ⟨g, hg, hs⟩) => .inr (.inl ⟨g, h.regressions hg, hs⟩)
  | .inr (.inr ⟨c, hc, hs⟩) => .inr (.inr ⟨c, h.comparisons hc, hs⟩)

theorem warningCause (h : r.Extends s) : r.WarningCause → s.WarningCause
  | .inl ⟨a, ha⟩ => .inl ⟨a, h.anomalies ha⟩
  | .inr ⟨c, hc, hs⟩ => .inr ⟨c, h.comparisons hc, hs⟩

end Extends

theorem noCause_iff :
    ¬ r.CriticalCause ∧ ¬ r.DegradedCause ∧ ¬ r.WarningCause ↔
      r.anomalies = [] ∧
        (∀ c ∈ r.comparisons, c.anomalies = [] ∧ c.status ∈ [Status.normal, .noData]) ∧
        ∀ g ∈ r.regressions, g.isRegression = false ∧ g.severity ≠ .critical := by
  constructor
  · rintro ⟨hcritical, hdegraded, hwarning⟩
    have hnone : r.allAnomalies = [] :=
      List.eq_nil_iff_forall_not_mem.2 fun a ha ↦ hwarning (.inl ⟨a, ha⟩)
    obtain ⟨hloose, hinner⟩ := List.append_eq_nil_iff.1 hnone
    refine ⟨hloose, ?_, ?_⟩
    · intro c hc
      refine ⟨List.flatMap_eq_nil_iff.1 hinner c hc, ?_⟩
      -- Each of the other statuses is a cause in itself.
      cases hs : c.status with
      | normal => decide
      | noData => decide
      | changed => exact absurd (.inr ⟨c, hc, hs⟩) hwarning
      | degraded => exact absurd (.inr (.inr ⟨c, hc, hs⟩)) hdegraded
      | critical => exact absurd (.inr (.inr ⟨c, hc, hs⟩)) hcritical
    · intro g hg
      refine ⟨?_, fun hs ↦ hcritical (.inr (.inl ⟨g, hg, hs⟩))⟩
      exact Bool.eq_false_iff.2 fun h ↦ hdegraded (.inr (.inl ⟨g, hg, h⟩))
  · rintro ⟨hloose, hcomparisons, hregressions⟩
    have hnone : r.allAnomalies = [] := by
      rw [allAnomalies, hloose, List.nil_append, List.flatMap_eq_nil_iff]
      exact fun c hc ↦ (hcomparisons c hc).1
    have hstatus : ∀ c ∈ r.comparisons, c.status ∈ [Status.normal, .noData] :=
      fun c hc ↦ (hcomparisons c hc).2
    simp only [CriticalCause, DegradedCause, WarningCause, hnone]
    refine ⟨?_, ?_, ?_⟩
    · rintro (⟨a, ha, -⟩ | ⟨g, hg, hs⟩ | ⟨c, hc, hs⟩)
      · cases ha
      · exact (hregressions g hg).2 hs
      · exact absurd (hs ▸ hstatus c hc) (by decide)
    · rintro (⟨a, ha, -⟩ | ⟨g, hg, hs⟩ | ⟨c, hc, hs⟩)
      · cases ha
      · exact absurd (hs.symm.trans (hregressions g hg).1) (by decide)
      · exact absurd (hs ▸ hstatus c hc) (by decide)
    · rintro (⟨a, ha⟩ | ⟨c, hc, hs⟩)
      · cases ha
      · exact absurd (hs ▸ hstatus c hc) (by decide)

theorem occurrences_pos {severity : Severity} :
    0 < r.occurrences severity ↔ ∃ a ∈ r.allAnomalies, a.severity = severity := by
  rw [← countOf_eq, countOf, List.countP_pos_iff]
  simp

theorem anyStatus_iff {status : Status} :
    r.anyStatus status = true ↔ ∃ c ∈ r.comparisons, c.status = status := by
  simp [anyStatus]

theorem isAlarm_iff {status : Status} :
    status.isAlarm = true ↔ status = .degraded ∨ status = .critical := by
  simp [Status.isAlarm]

theorem advice_eq_nil_iff :
    r.advice = [] ↔ ¬ 0 < r.critical ∧ ¬ 0 < r.high ∧
      (¬ ∃ g ∈ r.regressions, g.isRegression = true) ∧
      (¬ ∃ c ∈ r.comparisons, c.status.isAlarm = true) ∧ ¬ degradedRate < r.anomalyRate := by
  simp [advice, List.filter_eq_nil_iff]

variable [NumberText α]

namespace Consistent

theorem hasCriticalIssues_iff (h : r.Consistent) :
    r.hasCriticalIssues = true ↔
      (∃ a ∈ r.allAnomalies, a.severity = .critical) ∨
        ∃ g ∈ r.regressions, g.severity = .critical := by
  simp [hasCriticalIssues, h.critical, occurrences_pos]

theorem total_pos (h : r.Consistent) : 0 < r.total ↔ ∃ a, a ∈ r.allAnomalies := by
  rw [h.total, ← length_allAnomalies, List.length_pos_iff_exists_mem]

/-- All that the health of a report can be, with its causes. -/
theorem health_cases (h : r.Consistent) :
    r.health = .critical ∧ r.CriticalCause ∨
    r.health = .degraded ∧ ¬ r.CriticalCause ∧
      (r.DegradedCause ∨ degradedRate < r.anomalyRate) ∨
    r.health = .warning ∧ ¬ r.CriticalCause ∧ ¬ r.DegradedCause ∧
      ¬ degradedRate < r.anomalyRate ∧ r.WarningCause ∨
    r.health = .healthy ∧ ¬ r.CriticalCause ∧ ¬ r.DegradedCause ∧
      ¬ degradedRate < r.anomalyRate ∧ ¬ r.WarningCause := by
  have hcritical : (r.hasCriticalIssues || r.anyStatus .critical) = true ↔ r.CriticalCause := by
    rw [Bool.or_eq_true, h.hasCriticalIssues_iff, anyStatus_iff, or_assoc]
    rfl
  have hdegraded : (decide (0 < r.high) || r.regressions.any (·.isRegression) ||
      r.anyStatus .degraded || decide (degradedRate < r.anomalyRate)) = true ↔
      r.DegradedCause ∨ degradedRate < r.anomalyRate := by
    simp only [Bool.or_eq_true, decide_eq_true_eq, h.high, occurrences_pos, anyStatus_iff,
      List.any_eq_true, DegradedCause, or_assoc]
  have hwarning : (decide (0 < r.total) || r.anyStatus .changed) = true ↔ r.WarningCause := by
    rw [Bool.or_eq_true, decide_eq_true_eq, h.total_pos, anyStatus_iff]
    rfl
  rw [h.health, derivedHealth]
  by_cases hc : r.CriticalCause
  · exact .inl ⟨if_pos (hcritical.2 hc), hc⟩
  rw [if_neg (mt hcritical.1 hc)]
  by_cases hd : r.DegradedCause ∨ degradedRate < r.anomalyRate
  · exact .inr (.inl ⟨if_pos (hdegraded.2 hd), hc, hd⟩)
  rw [if_neg (mt hdegraded.1 hd)]
  obtain ⟨hd, hrate⟩ := not_or.1 hd
  by_cases hw : r.WarningCause
  · exact .inr (.inr (.inl ⟨if_pos (hwarning.2 hw), hc, hd, hrate, hw⟩))
  · exact .inr (.inr (.inr ⟨if_neg (mt hwarning.1 hw), hc, hd, hrate, hw⟩))

theorem critical_iff (h : r.Consistent) : r.health = .critical ↔ r.CriticalCause := by
  rcases h.health_cases with ⟨hh, hc⟩ | ⟨hh, hc, -⟩ | ⟨hh, hc, -⟩ | ⟨hh, hc, -⟩ <;> simp [hh, hc]

theorem healthy_iff (h : r.Consistent)
    (hrate : degradedRate < r.anomalyRate → ∃ a, a ∈ r.allAnomalies) :
    r.health = .healthy ↔ ¬ r.CriticalCause ∧ ¬ r.DegradedCause ∧ ¬ r.WarningCause := by
  have hwarning : degradedRate < r.anomalyRate → r.WarningCause := fun hr ↦ .inl (hrate hr)
  rcases h.health_cases with ⟨hh, hc⟩ | ⟨hh, hc, hd⟩ | ⟨hh, hc, hd, -, hw⟩ | ⟨hh, hc, hd, -, hw⟩
  · simp [hh, hc]
  · have hcause : r.DegradedCause ∨ r.WarningCause := hd.imp_right hwarning
    simp only [hh, reduceCtorEq, false_iff]
    rintro ⟨-, hd', hw'⟩
    exact hcause.elim hd' hw'
  · simp [hh, hw]
  · simp [hh, hc, hd, hw]

/-- There is advice for every cause of a degraded or critical health, given that a regression of
critical severity is a regression. -/
theorem recommendations_eq_nil_iff (h : r.Consistent)
    (hreg : ∀ g ∈ r.regressions, g.severity = .critical → g.isRegression = true) :
    r.recommendations = [] ↔
      ¬ r.CriticalCause ∧ ¬ r.DegradedCause ∧ ¬ degradedRate < r.anomalyRate := by
  rw [h.recommendations, List.map_eq_nil_iff, advice_eq_nil_iff, h.critical, h.high,
    occurrences_pos, occurrences_pos]
  constructor
  · rintro ⟨hcritical, hhigh, hregressions, hcomparisons, hrate⟩
    refine ⟨?_, ?_, hrate⟩
    · rintro (ha | ⟨g, hg, hs⟩ | ⟨c, hc, hs⟩)
      · exact hcritical ha
      · exact hregressions ⟨g, hg, hreg g hg hs⟩
      · exact hcomparisons ⟨c, hc, by rw [hs]; rfl⟩
    · rintro (ha | hg | ⟨c, hc, hs⟩)
      · exact hhigh ha
      · exact hregressions hg
      · exact hcomparisons ⟨c, hc, by rw [hs]; rfl⟩
  · rintro ⟨hcritical, hdegraded, hrate⟩
    refine ⟨fun ha ↦ hcritical (.inl ha), fun ha ↦ hdegraded (.inl ha),
      fun hg ↦ hdegraded (.inr (.inl hg)), ?_, hrate⟩
    rintro ⟨c, hc, hs⟩
    rcases isAlarm_iff.1 hs with hs | hs
    · exact hdegraded (.inr (.inr ⟨c, hc, hs⟩))
    · exact hcritical (.inr (.inr ⟨c, hc, hs⟩))

theorem recommendations_ne_nil_iff (h : r.Consistent)
    (hreg : ∀ g ∈ r.regressions, g.severity = .critical → g.isRegression = true) :
    r.recommendations ≠ [] ↔ r.health = .degraded ∨ r.health = .critical := by
  rw [Ne, h.recommendations_eq_nil_iff hreg]
  rcases h.health_cases with ⟨hh, hc⟩ | ⟨hh, hc, hd⟩ | ⟨hh, hc, hd, hrate, -⟩ |
    ⟨hh, hc, hd, hrate, -⟩
  · simp [hh, hc]
  · simp only [hh, true_or, iff_true]
    rintro ⟨-, hd', hrate'⟩
    exact hd.elim hd' hrate'
  · simp [hh, hc, hd, hrate]
  · simp [hh, hc, hd, hrate]

theorem critical_of_extends (hr : r.Consistent) (hs : s.Consistent) (h : r.Extends s)
    (hc : r.health = .critical) : s.health = .critical :=
  hs.critical_iff.2 (h.criticalCause (hr.critical_iff.1 hc))

end Consistent

end Report

namespace Report

variable {r s : Report Binary64}

theorem zero_lt_degradedRate : (0.0 : Binary64) < degradedRate := by decide +kernel

theorem degradedRate_not_lt_of_magnitude {x : Binary64} (h : x.isNaN = false → x.magnitude = 0) :
    ¬ degradedRate < x := by
  intro hlt
  obtain ⟨-, -, hrate⟩ := Binary64.lt_iff.1 zero_lt_degradedRate
  have hstart : (0.0 : Binary64).position = 0 := by decide
  obtain ⟨-, hx, hpos⟩ := Binary64.lt_iff.1 hlt
  have hzero : x.position = 0 := by
    rw [Binary64.position, h hx]
    split <;> rfl
  omega

theorem Consistent.exists_anomaly (h : r.Consistent) (hrate : degradedRate < r.anomalyRate) :
    ∃ a, a ∈ r.allAnomalies := by
  rw [← h.total_pos]
  by_contra hzero
  have htotal : r.total = 0 := by omega
  rw [h.anomalyRate, htotal] at hrate
  refine degradedRate_not_lt_of_magnitude ?_ hrate
  split
  · intro
    decide
  · apply Binary64.magnitude_zero_div
    rw [Binary64.magnitude_natCast, Nat.zero_mul, Binary64.nearestMagnitude_zero]

theorem Consistent.unhealthy_of_extends (hr : r.Consistent) (hs : s.Consistent) (h : r.Extends s)
    (hh : r.health ≠ .healthy) : s.health ≠ .healthy := by
  rw [Ne, hr.healthy_iff hr.exists_anomaly] at hh
  rw [Ne, hs.healthy_iff hs.exists_anomaly]
  rintro ⟨hc, hd, hw⟩
  exact hh ⟨mt h.criticalCause hc, mt h.degradedCause hd, mt h.warningCause hw⟩

/-- An improvement takes a rate of anomalies that alone has degraded the report. -/
theorem Consistent.rate_of_improvement (hr : r.Consistent) (hs : s.Consistent) (h : r.Extends s)
    (hlt : s.health.rank < r.health.rank) :
    r.health = .degraded ∧ s.health = .warning ∧ degradedRate < r.anomalyRate ∧
      ¬ degradedRate < s.anomalyRate := by
  have hrc : r.health ≠ .critical := by
    intro hc
    rw [hr.critical_of_extends hs h hc, hc] at hlt
    exact Nat.lt_irrefl _ hlt
  have hsh : s.health ≠ .healthy := by
    apply hr.unhealthy_of_extends hs h
    intro hh
    rw [hh] at hlt
    exact Nat.not_lt_zero _ hlt
  obtain ⟨hrd, hsw⟩ := Health.eq_of_rank_lt hlt hrc hsh
  rcases hs.health_cases with ⟨hh, -⟩ | ⟨hh, -⟩ | ⟨-, -, hd', hrate', -⟩ | ⟨hh, -⟩
  · rw [hsw] at hh
    cases hh
  · rw [hsw] at hh
    cases hh
  · rcases hr.health_cases with ⟨hh, -⟩ | ⟨-, -, hd⟩ | ⟨hh, -⟩ | ⟨hh, -⟩
    · exact absurd hh hrc
    · exact ⟨hrd, hsw, hd.resolve_left (mt h.degradedCause hd'), hrate'⟩
    · rw [hrd] at hh
      cases hh
    · rw [hrd] at hh
      cases hh
  · exact absurd hh hsh

theorem Consistent.isNaN_anomalyRate (h : r.Consistent) (hpoints : r.dataPoints < 2 ^ 64) :
    r.anomalyRate.isNaN = false := by
  rw [h.anomalyRate]
  split
  · decide
  · apply Binary64.isNaN_div_of_isFinite (Binary64.isNaN_natCast _)
    · exact Binary64.zero_lt_natCast (by omega)
    · exact Binary64.isFinite_natCast hpoints

theorem Consistent.anomalyRate_lt (hs : s.Consistent) (hpoints : s.dataPoints < 2 ^ 64)
    (hr : degradedRate < r.anomalyRate) (hrate : ¬ degradedRate < s.anomalyRate) :
    s.anomalyRate < r.anomalyRate := by
  have hle : s.anomalyRate ≤ degradedRate :=
    Binary64.le_of_not_lt zero_lt_degradedRate.2.1 (hs.isNaN_anomalyRate hpoints) hrate
  exact Binary64.lt_of_le_of_lt hle hr

theorem extends_addAll (r : Report Binary64) (as : List (Addition Binary64)) :
    r.Extends (r.addAll as) where
  anomalies a ha := by
    rw [allAnomalies, List.mem_append, List.mem_flatMap] at ha ⊢
    rw [addAll_anomalies, addAll_comparisons]
    refine ha.imp (List.mem_append_left _) ?_
    rintro ⟨c, hc, hca⟩
    exact ⟨c, List.mem_append_left _ hc, hca⟩
  comparisons := by
    rw [addAll_comparisons]
    exact List.subset_append_left _ _
  regressions := by
    rw [addAll_regressions]
    exact List.subset_append_left _ _

theorem run_consistent (now start stop : Instant) (as : List (Addition Binary64)) :
    ((new now start stop).addAll as).Consistent :=
  addAll_induction (fun r a _ ↦ add_consistent r a) (new_consistent now start stop)

theorem quiet_iff (now start stop : Instant) (as : List (Addition Binary64)) :
    let r : Report Binary64 := (new now start stop).addAll as
    (∀ a ∈ as, a.Quiet) ↔ ¬ r.CriticalCause ∧ ¬ r.DegradedCause ∧ ¬ r.WarningCause := by
  intro r
  have hanomalies : r.anomalies = as.flatMap (·.loose) := addAll_anomalies
  have hcomparisons : r.comparisons = as.flatMap (·.comparisons) := addAll_comparisons
  have hregressions : r.regressions = as.flatMap (·.regressions) := addAll_regressions
  rw [noCause_iff, hanomalies, hcomparisons, hregressions]
  simp only [Addition.quiet_iff, List.flatMap_eq_nil_iff, List.mem_flatMap]
  constructor
  · intro h
    refine ⟨fun a ha ↦ (h a ha).1, ?_, ?_⟩
    · rintro c ⟨a, ha, hc⟩
      exact (h a ha).2.1 c hc
    · rintro g ⟨a, ha, hg⟩
      exact (h a ha).2.2 g hg
  · rintro ⟨hl, hc, hg⟩ a ha
    exact ⟨hl a ha, fun c h ↦ hc c ⟨a, ha, h⟩, fun g h ↦ hg g ⟨a, ha, h⟩⟩

/-- `as` is what has been added so far, and `later` what may follow. The last part says that the
regressions of a gate meet the condition of the part before. -/
theorem health_throughout (now start stop : Instant) (as later : List (Addition Binary64)) :
    let r : Report Binary64 := (new now start stop).addAll as
    let s := r.addAll later
    (r.health = .healthy ↔ ∀ a ∈ as, a.Quiet) ∧
      (r.health = .critical → s.health = .critical) ∧
      (r.health ≠ .healthy → s.health ≠ .healthy) ∧
      (s.health.rank < r.health.rank →
        r.health = .degraded ∧ s.health = .warning ∧ degradedRate < r.anomalyRate ∧
          ¬ degradedRate < s.anomalyRate ∧
          (s.dataPoints < 2 ^ 64 → s.anomalyRate < r.anomalyRate)) ∧
      ((∀ g, .regression g ∈ as → g.severity = .critical → g.isRegression = true) →
        (r.recommendations ≠ [] ↔ r.health = .degraded ∨ r.health = .critical)) ∧
      ∀ (g : Gate Binary64) (moment : Instant) (before after : List Binary64) (metric : String),
        (g.detect moment before after metric).severity = .critical →
          (g.detect moment before after metric).isRegression = true := by
  intro r s
  have hr : r.Consistent := run_consistent now start stop as
  have hs : s.Consistent := addAll_induction (fun r a _ ↦ add_consistent r a) hr
  have hext : r.Extends s := extends_addAll r later
  refine ⟨?_, hr.critical_of_extends hs hext, hr.unhealthy_of_extends hs hext, ?_, ?_, ?_⟩
  · rw [hr.healthy_iff hr.exists_anomaly]
    exact (quiet_iff now start stop as).symm
  · intro hlt
    obtain ⟨hrd, hsw, hrate, hrate'⟩ := hr.rate_of_improvement hs hext hlt
    exact ⟨hrd, hsw, hrate, hrate', fun hp ↦ hs.anomalyRate_lt hp hrate hrate'⟩
  · intro hreg
    apply hr.recommendations_ne_nil_iff
    intro g hg hcritical
    have hregressions : r.regressions = as.flatMap (·.regressions) := addAll_regressions
    rw [hregressions, List.mem_flatMap] at hg
    obtain ⟨a, ha, hga⟩ := hg
    cases a with
    | anomalies n found => cases hga
    | comparison c => cases hga
    | regression g' =>
      obtain rfl := List.mem_singleton.1 hga
      exact hreg _ ha hcritical
  · intro g moment before after metric
    exact g.isRegression_of_critical Tail.pValue moment before after metric

/-- Two anomalies among ten points degrade a report until there are ninety more points. -/
theorem health_throughout_relief :
    let point : Anomaly Binary64 := .ofPoint .epoch "latency" .spike .low 2.0 1.0 .epoch
    let r : Report Binary64 :=
      (new .epoch .epoch .epoch).addAll [.anomalies 10 [point, point]]
    let s := r.addAll [.anomalies 90 []]
    s.health.rank < r.health.rank ∧ r.health = .degraded ∧ s.health = .warning ∧
      s.anomalyRate < r.anomalyRate ∧ r.recommendations ≠ [] := by
  intro point r s
  have hlt : s.health.rank < r.health.rank := by decide +kernel
  obtain ⟨-, -, -, himprovement, hadvice, -⟩ := health_throughout .epoch .epoch .epoch
    [.anomalies 10 [point, point]] [.anomalies 90 []]
  obtain ⟨hr, hs, -, -, hrate⟩ := himprovement hlt
  refine ⟨hlt, hr, hs, hrate (by decide +kernel), (hadvice ?_).2 (.inl hr)⟩
  intro g hg
  cases List.mem_singleton.1 hg

end Report

end MetricWatch
