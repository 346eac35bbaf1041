import MetricWatch.Document.Report
import MetricWatch.Regression.Bootstrap
import MetricWatch.Store

namespace MetricWatch

open Node

namespace Bootstrap

def node (b : Bootstrap Binary64) : Node :=
  .record
    [member "mean_difference" (.real b.meanDifference),
      member "ci_lower_95" (.real b.lower95),
      member "ci_upper_95" (.real b.upper95),
      member "ci_lower_99" (.real b.lower99),
      member "ci_upper_99" (.real b.upper99),
      member "probability_regression" (.real b.probability),
      member "iterations" (nodeOfCount b.iterations)]

end Bootstrap

namespace CommandLine

open NumberText

inductive Result where
  | report (report : Report Binary64)
  | regression (regression : Regression Binary64) (bootstrap : Option (Bootstrap Binary64))
  | baseline (baseline : Baseline Binary64) (output : Option String)
  | comparison (comparison : Comparison Binary64)
  | drift (drift : Drift Binary64)
  | changePoints (window : Nat) (points : List (Nat × Binary64))

def unlines (lines : List String) : String := String.join (lines.map (· ++ "\n"))

def recommendationLines (recommendations : List String) : List String :=
  if recommendations.isEmpty then []
  else "" :: "Recommendations:" :: recommendations.map ("  - " ++ ·)

section

variable {α : Type} [Scalar α] [NumberText α]

/-- The deviation in percent, with the sign of the deviation. -/
def signedPercent (a : Anomaly α) : α :=
  if a.deviation < 0.0 then -a.deviationPercent else a.deviationPercent

def anomalyLines (a : Anomaly α) : List String :=
  (s!"  [{a.severity.label}] {a.kind.name} {a.metric} = {fixed 3 a.actual} " ++
    s!"(expected {fixed 3 a.expected}, {signed 1 (signedPercent a)}%) " ++
    s!"at {String.ofList a.timestamp.offsetText}") ::
    if a.description.isEmpty then [] else [s!"      {a.description}"]

def reportLines (r : Report α) : List String :=
  ["=== Anomaly Report ===",
    s!"Data points: {r.dataPoints}  Anomalies: {r.total} (critical {r.critical}, " ++
      s!"high {r.high}, medium {r.medium}, low {r.low})",
    s!"Anomaly rate: {fixed 2 (r.anomalyRate * 100.0)}%  Health: {r.health.name}"] ++
    (if r.anomalies.isEmpty then [] else "" :: r.anomalies.flatMap anomalyLines) ++
    recommendationLines r.recommendations

def bootstrapLines (b : Bootstrap α) : List String :=
  ["",
    s!"Bootstrap ({b.iterations} iterations):",
    s!"  mean difference: {fixed 3 b.meanDifference}",
    s!"  95% CI: [{fixed 3 b.lower95}, {fixed 3 b.upper95}]",
    s!"  99% CI: [{fixed 3 b.lower99}, {fixed 3 b.upper99}]",
    s!"  P(regression): {fixed 3 b.probability}"]

def baselineLines (b : Baseline α) : List String :=
  [s!"=== Baseline: {b.metric} ===",
    s!"Samples: {b.sampleCount} over {b.periodDays} days (valid: {decide b.Valid})",
    s!"mean {fixed 3 b.mean}  median {fixed 3 b.median}  std {fixed 3 b.stdDev}  " ++
      s!"min {fixed 3 b.minimum}  max {fixed 3 b.maximum}",
    s!"p5 {fixed 3 b.p5}  p25 {fixed 3 b.p25}  p75 {fixed 3 b.p75}  p95 {fixed 3 b.p95}  " ++
      s!"p99 {fixed 3 b.p99}  IQR {fixed 3 b.iqr}"]

def comparisonLines (c : Comparison α) : List String :=
  [s!"=== Baseline Comparison: {c.metric} [{c.status.name}] ===",
    s!"mean {fixed 3 c.mean} ({signed 1 c.meanChange}%)  " ++
      s!"median {fixed 3 c.median} ({signed 1 c.medianChange}%)  " ++
      s!"p99 {fixed 3 c.p99} ({signed 1 c.p99Change}%)",
    s!"Samples: {c.sampleCount}  Anomalies: {c.anomalies.length}  " ++
      s!"Significant: {c.significant}"] ++
    c.anomalies.flatMap anomalyLines ++ recommendationLines c.recommendations

def driftLines (d : Drift α) : List String :=
  ["=== Baseline Drift ===",
    s!"mean {signed 1 d.mean}%  std {signed 1 d.stdDev}%  p99 {signed 1 d.p99}%",
    s!"Drifting: {d.drifting}"]

def changePointLines (window : Nat) (points : List (Nat × α)) : List String :=
  s!"=== Change Points (window {window}) ===" ::
    (if points.isEmpty then ["No change points found"] else []) ++
    points.map fun (place, magnitude) ↦ s!"  index {place}: magnitude {fixed 3 magnitude}"

end

namespace Result

/-- Whether a run with this result fails: anomalies, a regression, or a batch that is degraded or
worse. -/
def isFinding : Result → Bool
  | report r => !r.anomalies.isEmpty
  | regression r _ => r.isRegression
  | comparison c => c.status.isAlarm
  | _ => false

def lines : Result → List String
  | report r => reportLines r
  | regression r bootstrap => r.reportLines ++ (bootstrap.map bootstrapLines).getD []
  | baseline b output =>
    baselineLines b ++ (output.map fun path ↦ s!"Saved to {path}").toList
  | comparison c => comparisonLines c
  | drift d => driftLines d
  | changePoints window points => changePointLines window points

def changePointNode (place : Nat) (magnitude : Binary64) : Node :=
  .record [member "index" (nodeOfCount place), member "magnitude" (.real magnitude)]

def node : Result → Node
  | report r => r.node
  | regression r bootstrap =>
    sortNames (.record [member "result" r.node, member "bootstrap" (ofOption Bootstrap.node bootstrap)])
  | baseline b _ => b.node
  | comparison c => c.node
  | drift d => d.node
  | changePoints _ points =>
    .list (points.map fun (place, magnitude) ↦ changePointNode place magnitude)

def file? : Result → Option (String × String)
  | baseline b (some path) => some (path, Store.saveBaseline b)
  | _ => none

end Result

end CommandLine

end MetricWatch
