import MetricWatch.Comparator
import MetricWatch.Document.Finding

namespace MetricWatch

open Node

namespace Baseline

def node (b : Baseline Binary64) : Node :=
  .record
    [member "metric_name" (.text b.metric),
      member "calculated_at" b.calculatedAt.node,
      member "sample_count" (nodeOfCount b.sampleCount),
      member "baseline_period_days" (nodeOfCount b.periodDays),
      member "mean" (.real b.mean),
      member "median" (.real b.median),
      member "std_dev" (.real b.stdDev),
      member "min_value" (.real b.minimum),
      member "max_value" (.real b.maximum),
      member "p5" (.real b.p5),
      member "p25" (.real b.p25),
      member "p75" (.real b.p75),
      member "p95" (.real b.p95),
      member "p99" (.real b.p99),
      member "iqr" (.real b.iqr),
      member "lower_fence" (.real b.lowerFence),
      member "upper_fence" (.real b.upperFence)]

open Slot in
def slots : Slots [String, Instant, Nat, Nat, Binary64, Binary64, Binary64, Binary64, Binary64,
    Binary64, Binary64, Binary64, Binary64, Binary64, Binary64, Binary64, Binary64] :=
  .cons (required "metric_name" readText) <|
  .cons (required "calculated_at" readInstant) <|
  .cons (required "sample_count" readSize) <|
  .cons (required "baseline_period_days" (readCount 0x100000000)) <|
  .cons (required "mean" readReal) <|
  .cons (required "median" readReal) <|
  .cons (required "std_dev" readReal) <|
  .cons (required "min_value" readReal) <|
  .cons (required "max_value" readReal) <|
  .cons (required "p5" readReal) <|
  .cons (required "p25" readReal) <|
  .cons (required "p75" readReal) <|
  .cons (required "p95" readReal) <|
  .cons (required "p99" readReal) <|
  .cons (required "iqr" readReal) <|
  .cons (required "lower_fence" readReal) <|
  .cons (required "upper_fence" readReal) .nil

def reader : Reader (Baseline Binary64) := fun n ↦ do
  let (metric, calculatedAt, sampleCount, periodDays, mean, median, stdDev, minimum, maximum, p5,
    p25, p75, p95, p99, iqr, lowerFence, upperFence, ()) ← slots.read n
  return ⟨metric, calculatedAt, sampleCount, periodDays, mean, median, stdDev, minimum, maximum,
    p5, p25, p75, p95, p99, iqr, lowerFence, upperFence⟩

end Baseline

def Status.node (s : Status) : Node := .text s.name

def Status.reader : Reader Status := readName Status.all Status.name

namespace Comparison

def node (c : Comparison Binary64) : Node :=
  .record
    [member "compared_at" c.comparedAt.node,
      member "metric_name" (.text c.metric),
      member "baseline" c.baseline.node,
      member "current_mean" (.real c.mean),
      member "current_median" (.real c.median),
      member "current_p99" (.real c.p99),
      member "sample_count" (nodeOfCount c.sampleCount),
      member "mean_change_percent" (.real c.meanChange),
      member "median_change_percent" (.real c.medianChange),
      member "p99_change_percent" (.real c.p99Change),
      member "is_significant" (.bool c.significant),
      member "anomalies_detected" (.list (c.anomalies.map Anomaly.node)),
      member "overall_status" c.status.node,
      member "recommendations" (.list (c.recommendations.map .text))]

open Slot in
def slots : Slots [Instant, String, Baseline Binary64, Binary64, Binary64, Binary64, Nat, Binary64,
    Binary64, Binary64, Bool, List (Anomaly Binary64), Status, List String] :=
  .cons (required "compared_at" readInstant) <|
  .cons (required "metric_name" readText) <|
  .cons (required "baseline" Baseline.reader) <|
  .cons (required "current_mean" readReal) <|
  .cons (required "current_median" readReal) <|
  .cons (required "current_p99" readReal) <|
  .cons (required "sample_count" readSize) <|
  .cons (required "mean_change_percent" readReal) <|
  .cons (required "median_change_percent" readReal) <|
  .cons (required "p99_change_percent" readReal) <|
  .cons (required "is_significant" readBool) <|
  .cons (required "anomalies_detected" (readList Anomaly.reader)) <|
  .cons (required "overall_status" Status.reader) <|
  .cons (required "recommendations" (readList readText)) .nil

def reader : Reader (Comparison Binary64) := fun n ↦ do
  let (comparedAt, metric, baseline, mean, median, p99, sampleCount, meanChange, medianChange,
    p99Change, significant, anomalies, status, recommendations, ()) ← slots.read n
  return ⟨comparedAt, metric, baseline, mean, median, p99, sampleCount, meanChange, medianChange,
    p99Change, significant, anomalies, status, recommendations⟩

end Comparison

namespace Drift

def node (d : Drift Binary64) : Node :=
  .record
    [member "mean_drift_percent" (.real d.mean),
      member "std_drift_percent" (.real d.stdDev),
      member "p99_drift_percent" (.real d.p99),
      member "is_drifting" (.bool d.drifting)]

open Slot in
def slots : Slots [Binary64, Binary64, Binary64, Bool] :=
  .cons (required "mean_drift_percent" readReal) <|
  .cons (required "std_drift_percent" readReal) <|
  .cons (required "p99_drift_percent" readReal) <|
  .cons (required "is_drifting" readBool) .nil

def reader : Reader (Drift Binary64) := fun n ↦ do
  let (mean, stdDev, p99, drifting, ()) ← slots.read n
  return ⟨mean, stdDev, p99, drifting⟩

end Drift

end MetricWatch
