import MetricWatch.Document.Baseline
import MetricWatch.Report

namespace MetricWatch

open Node

def Health.node (h : Health) : Node := .text h.name

def Health.reader : Reader Health := readName Health.all Health.name

namespace Report

def node (r : Report Binary64) : Node :=
  .record
    [member "generated_at" r.generatedAt.node,
      member "analysis_period_start" r.periodStart.node,
      member "analysis_period_end" r.periodEnd.node,
      member "metrics_analyzed" (nodeOfCount r.metricCount),
      member "data_points_analyzed" (nodeOfCount r.dataPoints),
      member "anomalies" (.list (r.anomalies.map Anomaly.node)),
      member "baseline_comparisons" (.list (r.comparisons.map Comparison.node)),
      member "regressions" (.list (r.regressions.map Regression.node)),
      member "total_anomalies" (nodeOfCount r.total),
      member "critical_anomalies" (nodeOfCount r.critical),
      member "high_anomalies" (nodeOfCount r.high),
      member "medium_anomalies" (nodeOfCount r.medium),
      member "low_anomalies" (nodeOfCount r.low),
      member "anomaly_rate" (.real r.anomalyRate),
      member "health_status" r.health.node,
      member "recommendations" (.list (r.recommendations.map .text))]

open Slot in
def slots : Slots [Instant, Instant, Instant, Nat, Nat, List (Anomaly Binary64),
    List (Comparison Binary64), List (Regression Binary64), Nat, Nat, Nat, Nat, Nat, Binary64,
    Health, List String] :=
  .cons (required "generated_at" readInstant) <|
  .cons (required "analysis_period_start" readInstant) <|
  .cons (required "analysis_period_end" readInstant) <|
  .cons (required "metrics_analyzed" readSize) <|
  .cons (required "data_points_analyzed" readSize) <|
  .cons (required "anomalies" (readList Anomaly.reader)) <|
  .cons (required "baseline_comparisons" (readList Comparison.reader)) <|
  .cons (required "regressions" (readList Regression.reader)) <|
  .cons (required "total_anomalies" readSize) <|
  .cons (required "critical_anomalies" readSize) <|
  .cons (required "high_anomalies" readSize) <|
  .cons (required "medium_anomalies" readSize) <|
  .cons (required "low_anomalies" readSize) <|
  .cons (required "anomaly_rate" readReal) <|
  .cons (required "health_status" Health.reader) <|
  .cons (required "recommendations" (readList readText)) .nil

def reader : Reader (Report Binary64) := fun n ↦ do
  let (generatedAt, periodStart, periodEnd, metricCount, dataPoints, anomalies, comparisons,
    regressions, total, critical, high, medium, low, anomalyRate, health,
    recommendations, ()) ← slots.read n
  return ⟨generatedAt, periodStart, periodEnd, metricCount, dataPoints, anomalies, comparisons,
    regressions, total, critical, high, medium, low, anomalyRate, health, recommendations⟩

end Report

end MetricWatch
