import MetricWatch.Proofs.Document.Context
import MetricWatch.Proofs.Instant.Text
import MetricWatch.Proofs.Node.Columns

namespace MetricWatch

open Node

theorem Instant.faithful : Faithful Instant.node readInstant (fun _ ↦ True) id where
  reads t _ := by
    change readInstant (.text (String.ofList t.text)) = .ok t
    rw [readInstant, String.toList_ofList, read?_text]
  refuses _ h := absurd trivial h
  gives _ _ _ _ := ⟨trivial, rfl⟩

theorem faithful_size : Faithful nodeOfCount readSize (· < 0x10000000000000000) id :=
  faithful_count (Nat.le_refl _)

theorem faithful_texts :
    Faithful (fun texts ↦ .list (texts.map .text)) (readList readText) (fun _ ↦ True) id where
  reads texts _ := by
    rw [faithful_text.list.reads texts fun _ _ ↦ trivial, List.map_id_fun]
  refuses _ h := absurd trivial h
  gives _ _ _ _ := ⟨trivial, rfl⟩

theorem Severity.faithful : Faithful Severity.node Severity.reader (fun _ ↦ True) id := by
  refine faithful_name fun s ↦ ?_
  cases s
  all_goals rfl

theorem AnomalyKind.faithful : Faithful AnomalyKind.node AnomalyKind.reader (fun _ ↦ True) id := by
  refine faithful_name fun k ↦ ?_
  cases k
  all_goals rfl

namespace Anomaly

def parts : Anomaly Binary64 ≃ Values [Instant, Instant, AnomalyKind, Severity, String, Binary64,
    Binary64, Binary64, Binary64, Option Binary64, Confidence Binary64, Context Binary64,
    String] where
  toFun a := (a.detectedAt, a.timestamp, a.kind, a.severity, a.metric, a.actual, a.expected,
    a.deviation, a.deviationPercent, a.zScore, a.confidence, a.context, a.description, ())
  invFun := fun (detectedAt, timestamp, kind, severity, metric, actual, expected, deviation,
    deviationPercent, zScore, confidence, context, description, ()) ↦
    ⟨detectedAt, timestamp, kind, severity, metric, actual, expected, deviation,
      deviationPercent, zScore, confidence, context, description⟩
  left_inv _ := rfl
  right_inv _ := rfl

def Accepted (a : Anomaly Binary64) : Prop :=
  (∀ x ∈ [a.actual, a.expected, a.deviation, a.deviationPercent], x.isFinite = true) ∧
    ∀ e ∈ a.context.entries, e.2.isFinite = true

def kept (a : Anomaly Binary64) : Anomaly Binary64 :=
  { a with zScore := a.zScore.filter Binary64.isFinite }

theorem faithful : Faithful node reader Accepted kept := by
  have hcolumns :=
    Columns.required "detected_at" Instant.faithful <|
    .required "data_timestamp" Instant.faithful <|
    .required "anomaly_type" AnomalyKind.faithful <|
    .required "severity" Severity.faithful <|
    .required "metric_name" faithful_text <|
    .required "actual_value" faithful_real <|
    .required "expected_value" faithful_real <|
    .required "deviation" faithful_real <|
    .required "deviation_percent" faithful_real <|
    .optional "z_score" faithful_optionReal ⟨trivial, rfl⟩ <|
    .required "confidence" faithful_confidence <|
    .withDefault "context" Context.faithful (v := .empty) ⟨nofun, rfl⟩ <|
    .withDefault "description" faithful_text (v := "") ⟨trivial, rfl⟩ .nil
  refine (hcolumns.faithful ?_).parts parts ?_ ?_ ?_ ?_
  · decide
  · intro a
    rfl
  · intro n
    rfl
  · intro a
    simp [Accepted, parts, and_assoc]
  · intro a
    rfl

/-- All its numbers but the confidence, which is finite anyway. -/
def numbers (a : Anomaly Binary64) : List Binary64 :=
  [a.actual, a.expected, a.deviation, a.deviationPercent] ++ a.zScore.toList ++
    a.context.entries.map (·.2)

def Storable (a : Anomaly Binary64) : Prop := ∀ x ∈ a.numbers, x.isFinite = true

theorem accepted_of_storable {a : Anomaly Binary64} (h : a.Storable) : a.Accepted ∧ a.kept = a := by
  obtain ⟨hfirst, hcontext⟩ := List.forall_mem_append.1 h
  obtain ⟨hvalues, hscore⟩ := List.forall_mem_append.1 hfirst
  refine ⟨⟨hvalues, fun e he ↦ hcontext e.2 (List.mem_map_of_mem he)⟩, ?_⟩
  have hfilter : a.zScore.filter Binary64.isFinite = a.zScore := by
    cases hz : a.zScore with
    | none => rfl
    | some z => rw [Option.filter_some, if_pos (hscore z (by simp [hz]))]
  rw [kept, hfilter]

end Anomaly

namespace SignificanceTest

def parts : SignificanceTest Binary64 ≃ Values [Binary64, Binary64, Binary64, Binary64] where
  toFun t := (t.tStatistic, t.pValue, t.effectSize, t.degreesOfFreedom, ())
  invFun := fun (tStatistic, pValue, effectSize, degreesOfFreedom, ()) ↦
    ⟨tStatistic, pValue, effectSize, degreesOfFreedom⟩
  left_inv _ := rfl
  right_inv _ := rfl

def numbers (t : SignificanceTest Binary64) : List Binary64 :=
  [t.tStatistic, t.pValue, t.effectSize, t.degreesOfFreedom]

theorem faithful : Faithful node reader (fun t ↦ ∀ x ∈ t.numbers, x.isFinite = true) id := by
  have hcolumns :=
    Columns.required "t_statistic" faithful_real <|
    .required "p_value" faithful_real <|
    .required "effect_size" faithful_real <|
    .required "degrees_of_freedom" faithful_real .nil
  refine (hcolumns.faithful ?_).parts parts ?_ ?_ ?_ ?_
  · decide
  · intro t
    rfl
  · intro n
    rfl
  · intro t
    simp [numbers, parts]
  · intro t
    rfl

end SignificanceTest

namespace Regression

def parts : Regression Binary64 ≃ Values [Instant, String, Binary64, Binary64, Binary64, Binary64,
    Nat, Nat, Binary64, Binary64, Bool, Severity, Confidence Binary64,
    Option (SignificanceTest Binary64), String, List String] where
  toFun r := (r.detectedAt, r.metric, r.beforeMean, r.afterMean, r.beforeP99, r.afterP99,
    r.beforeCount, r.afterCount, r.meanChange, r.p99Change, r.isRegression, r.severity,
    r.confidence, r.test, r.description, r.recommendations, ())
  invFun := fun (detectedAt, metric, beforeMean, afterMean, beforeP99, afterP99, beforeCount,
    afterCount, meanChange, p99Change, isRegression, severity, confidence, test, description,
    recommendations, ()) ↦
    ⟨detectedAt, metric, beforeMean, afterMean, beforeP99, afterP99, beforeCount, afterCount,
      meanChange, p99Change, isRegression, severity, confidence, test, description,
      recommendations⟩
  left_inv _ := rfl
  right_inv _ := rfl

def numbers (r : Regression Binary64) : List Binary64 :=
  [r.beforeMean, r.afterMean, r.beforeP99, r.afterP99, r.meanChange, r.p99Change] ++
    r.test.toList.flatMap SignificanceTest.numbers

abbrev CountsFit (r : Regression Binary64) : Prop :=
  r.beforeCount < 0x10000000000000000 ∧ r.afterCount < 0x10000000000000000

def Storable (r : Regression Binary64) : Prop :=
  r.CountsFit ∧ ∀ x ∈ r.numbers, x.isFinite = true

theorem faithful : Faithful node reader Storable id := by
  have hcolumns :=
    Columns.required "detected_at" Instant.faithful <|
    .required "metric_name" faithful_text <|
    .required "before_mean" faithful_real <|
    .required "after_mean" faithful_real <|
    .required "before_p99" faithful_real <|
    .required "after_p99" faithful_real <|
    .required "before_sample_count" faithful_size <|
    .required "after_sample_count" faithful_size <|
    .required "mean_change_percent" faithful_real <|
    .required "p99_change_percent" faithful_real <|
    .required "is_regression" faithful_bool <|
    .required "regression_severity" Severity.faithful <|
    .required "confidence" faithful_confidence <|
    .optional "test" (SignificanceTest.faithful.option nofun) ⟨nofun, rfl⟩ <|
    .required "description" faithful_text <|
    .required "recommendations" faithful_texts .nil
  refine (hcolumns.faithful ?_).parts parts ?_ ?_ ?_ ?_
  · decide
  · intro r
    rfl
  · intro n
    rfl
  · intro r
    simp [Storable, numbers, parts]
    grind
  · intro r
    simp [parts]

end Regression

end MetricWatch
