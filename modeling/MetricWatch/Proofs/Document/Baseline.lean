import MetricWatch.Document.Baseline
import MetricWatch.Proofs.Document.Finding

namespace MetricWatch

open Node

namespace Baseline

def parts : Baseline Binary64 ≃ Values [String, Instant, Nat, Nat, Binary64, Binary64, Binary64,
    Binary64, Binary64, Binary64, Binary64, Binary64, Binary64, Binary64, Binary64, Binary64,
    Binary64] where
  toFun b := (b.metric, b.calculatedAt, b.sampleCount, b.periodDays, b.mean, b.median, b.stdDev,
    b.minimum, b.maximum, b.p5, b.p25, b.p75, b.p95, b.p99, b.iqr, b.lowerFence, b.upperFence, ())
  invFun := fun (metric, calculatedAt, sampleCount, periodDays, mean, median, stdDev, minimum,
    maximum, p5, p25, p75, p95, p99, iqr, lowerFence, upperFence, ()) ↦
    ⟨metric, calculatedAt, sampleCount, periodDays, mean, median, stdDev, minimum, maximum, p5,
      p25, p75, p95, p99, iqr, lowerFence, upperFence⟩
  left_inv _ := rfl
  right_inv _ := rfl

def numbers (b : Baseline Binary64) : List Binary64 :=
  [b.mean, b.median, b.stdDev, b.minimum, b.maximum, b.p5, b.p25, b.p75, b.p95, b.p99, b.iqr,
    b.lowerFence, b.upperFence]

/-- The count of samples is a word of the machine, and the period one of half the size. -/
abbrev CountsFit (b : Baseline Binary64) : Prop :=
  b.sampleCount < 0x10000000000000000 ∧ b.periodDays < 0x100000000

abbrev Storable (b : Baseline Binary64) : Prop :=
  b.CountsFit ∧ ∀ x ∈ b.numbers, x.isFinite = true

theorem faithful : Faithful node reader Storable id := by
  have hcolumns :=
    Columns.required "metric_name" faithful_text <|
    .required "calculated_at" Instant.faithful <|
    .required "sample_count" faithful_size <|
    .required "baseline_period_days" (faithful_count (by decide : 0x100000000 ≤ _)) <|
    .required "mean" faithful_real <|
    .required "median" faithful_real <|
    .required "std_dev" faithful_real <|
    .required "min_value" faithful_real <|
    .required "max_value" faithful_real <|
    .required "p5" faithful_real <|
    .required "p25" faithful_real <|
    .required "p75" faithful_real <|
    .required "p95" faithful_real <|
    .required "p99" faithful_real <|
    .required "iqr" faithful_real <|
    .required "lower_fence" faithful_real <|
    .required "upper_fence" faithful_real .nil
  refine (hcolumns.faithful ?_).parts parts ?_ ?_ ?_ ?_
  · decide
  · intro b
    rfl
  · intro n
    rfl
  · intro b
    simp [Storable, CountsFit, numbers, parts, and_assoc]
  · intro b
    rfl

end Baseline

theorem Status.faithful : Faithful Status.node Status.reader (fun _ ↦ True) id := by
  refine faithful_name fun s ↦ ?_
  cases s
  all_goals rfl

namespace Comparison

def parts : Comparison Binary64 ≃ Values [Instant, String, Baseline Binary64, Binary64, Binary64,
    Binary64, Nat, Binary64, Binary64, Binary64, Bool, List (Anomaly Binary64), Status,
    List String] where
  toFun c := (c.comparedAt, c.metric, c.baseline, c.mean, c.median, c.p99, c.sampleCount,
    c.meanChange, c.medianChange, c.p99Change, c.significant, c.anomalies, c.status,
    c.recommendations, ())
  invFun := fun (comparedAt, metric, baseline, mean, median, p99, sampleCount, meanChange,
    medianChange, p99Change, significant, anomalies, status, recommendations, ()) ↦
    ⟨comparedAt, metric, baseline, mean, median, p99, sampleCount, meanChange, medianChange,
      p99Change, significant, anomalies, status, recommendations⟩
  left_inv _ := rfl
  right_inv _ := rfl

/-- Its own numbers, without those of the baseline and the anomalies. -/
def changes (c : Comparison Binary64) : List Binary64 :=
  [c.mean, c.median, c.p99, c.meanChange, c.medianChange, c.p99Change]

def Accepted (c : Comparison Binary64) : Prop :=
  c.baseline.Storable ∧ c.sampleCount < 0x10000000000000000 ∧
    (∀ x ∈ c.changes, x.isFinite = true) ∧ ∀ a ∈ c.anomalies, a.Accepted

def kept (c : Comparison Binary64) : Comparison Binary64 :=
  { c with anomalies := c.anomalies.map Anomaly.kept }

theorem faithful : Faithful node reader Accepted kept := by
  have hcolumns :=
    Columns.required "compared_at" Instant.faithful <|
    .required "metric_name" faithful_text <|
    .required "baseline" Baseline.faithful <|
    .required "current_mean" faithful_real <|
    .required "current_median" faithful_real <|
    .required "current_p99" faithful_real <|
    .required "sample_count" faithful_size <|
    .required "mean_change_percent" faithful_real <|
    .required "median_change_percent" faithful_real <|
    .required "p99_change_percent" faithful_real <|
    .required "is_significant" faithful_bool <|
    .required "anomalies_detected" Anomaly.faithful.list <|
    .required "overall_status" Status.faithful <|
    .required "recommendations" faithful_texts .nil
  refine (hcolumns.faithful ?_).parts parts ?_ ?_ ?_ ?_
  · decide
  · intro c
    rfl
  · intro n
    rfl
  · intro c
    simp [Accepted, changes, parts]
    grind
  · intro c
    rfl

def numbers (c : Comparison Binary64) : List Binary64 :=
  c.changes ++ c.baseline.numbers ++ c.anomalies.flatMap Anomaly.numbers

abbrev CountsFit (c : Comparison Binary64) : Prop :=
  c.sampleCount < 0x10000000000000000 ∧ c.baseline.CountsFit

def Storable (c : Comparison Binary64) : Prop :=
  c.CountsFit ∧ ∀ x ∈ c.numbers, x.isFinite = true

theorem accepted_of_storable {c : Comparison Binary64} (h : c.Storable) :
    c.Accepted ∧ c.kept = c := by
  obtain ⟨⟨hcount, hbaseline⟩, hnumbers⟩ := h
  obtain ⟨hown, hanomalies⟩ := List.forall_mem_append.1 hnumbers
  obtain ⟨hchanges, hfinite⟩ := List.forall_mem_append.1 hown
  obtain ⟨haccepted, hkept⟩ := fit_list fun a ha ↦ Anomaly.accepted_of_storable fun x hx ↦
    hanomalies x (List.mem_flatMap_of_mem ha hx)
  refine ⟨⟨⟨hbaseline, hfinite⟩, hcount, hchanges, haccepted⟩, ?_⟩
  rw [kept, hkept]

end Comparison

end MetricWatch
