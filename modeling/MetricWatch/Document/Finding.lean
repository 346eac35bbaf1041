import MetricWatch.Node.Reader
import MetricWatch.Regression.Finding

namespace MetricWatch

open Node

def Instant.node (t : Instant) : Node := .text (String.ofList t.text)

def nodeOfCount (n : Nat) : Node := .integer n

def Severity.node (s : Severity) : Node := .text s.name

def Severity.reader : Reader Severity := readName Severity.all Severity.name

def AnomalyKind.node (k : AnomalyKind) : Node := .text k.name

def AnomalyKind.reader : Reader AnomalyKind := readName AnomalyKind.all AnomalyKind.name

def Context.node (c : Context Binary64) : Node :=
  .record (c.entries.map fun (name, value) ↦ member name (.real value))

/-- A count that fits a word of 64 bits. -/
def readSize : Reader Nat := readCount 0x10000000000000000

namespace Anomaly

def node (a : Anomaly Binary64) : Node :=
  .record
    [member "detected_at" a.detectedAt.node,
      member "data_timestamp" a.timestamp.node,
      member "anomaly_type" a.kind.node,
      member "severity" a.severity.node,
      member "metric_name" (.text a.metric),
      member "actual_value" (.real a.actual),
      member "expected_value" (.real a.expected),
      member "deviation" (.real a.deviation),
      member "deviation_percent" (.real a.deviationPercent),
      member "z_score" (ofOption .real a.zScore),
      member "confidence" (.real a.confidence.value),
      member "context" a.context.node,
      member "description" (.text a.description)]

open Slot in
def slots : Slots [Instant, Instant, AnomalyKind, Severity, String, Binary64, Binary64, Binary64,
    Binary64, Option Binary64, Confidence Binary64, Context Binary64, String] :=
  .cons (required "detected_at" readInstant) <|
  .cons (required "data_timestamp" readInstant) <|
  .cons (required "anomaly_type" AnomalyKind.reader) <|
  .cons (required "severity" Severity.reader) <|
  .cons (required "metric_name" readText) <|
  .cons (required "actual_value" readReal) <|
  .cons (required "expected_value" readReal) <|
  .cons (required "deviation" readReal) <|
  .cons (required "deviation_percent" readReal) <|
  .cons (optional "z_score" readReal) <|
  .cons (required "confidence" readConfidence) <|
  .cons (withDefault "context" readContext .empty) <|
  .cons (withDefault "description" readText "") .nil

def reader : Reader (Anomaly Binary64) := fun n ↦ do
  let (detectedAt, timestamp, kind, severity, metric, actual, expected, deviation,
    deviationPercent, zScore, confidence, context, description, ()) ← slots.read n
  return ⟨detectedAt, timestamp, kind, severity, metric, actual, expected, deviation,
    deviationPercent, zScore, confidence, context, description⟩

end Anomaly

namespace SignificanceTest

def node (t : SignificanceTest Binary64) : Node :=
  .record
    [member "t_statistic" (.real t.tStatistic),
      member "p_value" (.real t.pValue),
      member "effect_size" (.real t.effectSize),
      member "degrees_of_freedom" (.real t.degreesOfFreedom)]

open Slot in
def slots : Slots [Binary64, Binary64, Binary64, Binary64] :=
  .cons (required "t_statistic" readReal) <|
  .cons (required "p_value" readReal) <|
  .cons (required "effect_size" readReal) <|
  .cons (required "degrees_of_freedom" readReal) .nil

def reader : Reader (SignificanceTest Binary64) := fun n ↦ do
  let (tStatistic, pValue, effectSize, degreesOfFreedom, ()) ← slots.read n
  return ⟨tStatistic, pValue, effectSize, degreesOfFreedom⟩

end SignificanceTest

namespace Regression

def node (r : Regression Binary64) : Node :=
  .record
    [member "detected_at" r.detectedAt.node,
      member "metric_name" (.text r.metric),
      member "before_mean" (.real r.beforeMean),
      member "after_mean" (.real r.afterMean),
      member "before_p99" (.real r.beforeP99),
      member "after_p99" (.real r.afterP99),
      member "before_sample_count" (nodeOfCount r.beforeCount),
      member "after_sample_count" (nodeOfCount r.afterCount),
      member "mean_change_percent" (.real r.meanChange),
      member "p99_change_percent" (.real r.p99Change),
      member "is_regression" (.bool r.isRegression),
      member "regression_severity" r.severity.node,
      member "confidence" (.real r.confidence.value),
      member "test" (ofOption SignificanceTest.node r.test),
      member "description" (.text r.description),
      member "recommendations" (.list (r.recommendations.map .text))]

open Slot in
def slots : Slots [Instant, String, Binary64, Binary64, Binary64, Binary64, Nat, Nat, Binary64,
    Binary64, Bool, Severity, Confidence Binary64, Option (SignificanceTest Binary64), String,
    List String] :=
  .cons (required "detected_at" readInstant) <|
  .cons (required "metric_name" readText) <|
  .cons (required "before_mean" readReal) <|
  .cons (required "after_mean" readReal) <|
  .cons (required "before_p99" readReal) <|
  .cons (required "after_p99" readReal) <|
  .cons (required "before_sample_count" readSize) <|
  .cons (required "after_sample_count" readSize) <|
  .cons (required "mean_change_percent" readReal) <|
  .cons (required "p99_change_percent" readReal) <|
  .cons (required "is_regression" readBool) <|
  .cons (required "regression_severity" Severity.reader) <|
  .cons (required "confidence" readConfidence) <|
  .cons (optional "test" SignificanceTest.reader) <|
  .cons (required "description" readText) <|
  .cons (required "recommendations" (readList readText)) .nil

def reader : Reader (Regression Binary64) := fun n ↦ do
  let (detectedAt, metric, beforeMean, afterMean, beforeP99, afterP99, beforeCount, afterCount,
    meanChange, p99Change, isRegression, severity, confidence, test, description,
    recommendations, ()) ← slots.read n
  return ⟨detectedAt, metric, beforeMean, afterMean, beforeP99, afterP99, beforeCount, afterCount,
    meanChange, p99Change, isRegression, severity, confidence, test, description,
    recommendations⟩

end Regression

end MetricWatch
