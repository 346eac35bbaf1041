import MetricWatch.Comparator
import MetricWatch.Regression.Finding

namespace MetricWatch

variable {α : Type} [Scalar α]

inductive Health where
  | healthy
  | warning
  | degraded
  | critical
  deriving DecidableEq, Repr

namespace Health

def all : List Health := [healthy, warning, degraded, critical]

def name : Health → String
  | healthy => "healthy"
  | warning => "warning"
  | degraded => "degraded"
  | critical => "critical"

end Health

structure Report (α : Type) [Scalar α] where
  generatedAt : Instant
  periodStart : Instant
  periodEnd : Instant
  metricCount : Nat
  dataPoints : Nat
  anomalies : List (Anomaly α)
  comparisons : List (Comparison α)
  regressions : List (Regression α)
  total : Nat
  critical : Nat
  high : Nat
  medium : Nat
  low : Nat
  anomalyRate : α
  health : Health
  recommendations : List String
  deriving DecidableEq

inductive ReportAdvice (α : Type) where
  | criticalAnomalies (count : Nat)
  | highAnomalies (count : Nat)
  | regression (metric : String) (severity : Severity) (meanChange p99Change : α)
  | comparison (metric : String) (status : Status) (meanChange : α)
  | anomalyRate (percent : α)

open NumberText in
def ReportAdvice.text [NumberText α] : ReportAdvice α → String
  | criticalAnomalies count => s!"{count} critical anomalies detected. Investigate immediately."
  | highAnomalies count => s!"{count} high severity anomalies detected. Review recent changes."
  | regression metric severity meanChange p99Change =>
    s!"Regression in {metric} ({severity.label}): " ++
      s!"mean {signed 1 meanChange}%, P99 {signed 1 p99Change}%."
  | comparison metric status meanChange =>
    s!"{metric} is {status.name} relative to its baseline (mean {signed 1 meanChange}%)."
  | anomalyRate percent =>
    s!"Anomaly rate is {fixed 1 percent}%. " ++
      "Check whether the baseline still reflects normal behavior."

namespace Report

def new (now periodStart periodEnd : Instant) : Report α :=
  { generatedAt := now, periodStart, periodEnd, metricCount := 0, dataPoints := 0
    anomalies := [], comparisons := [], regressions := []
    total := 0, critical := 0, high := 0, medium := 0, low := 0
    anomalyRate := 0.0, health := .healthy, recommendations := [] }

/-- The anomalies themselves, and then those inside comparisons. -/
def allAnomalies (r : Report α) : List (Anomaly α) :=
  r.anomalies ++ r.comparisons.flatMap (·.anomalies)

def countOf (r : Report α) (severity : Severity) : Nat :=
  r.allAnomalies.countP fun a ↦ a.severity = severity

def metricNames (r : Report α) : List String :=
  (r.anomalies.map (·.metric) ++ r.comparisons.map (·.metric) ++
    r.regressions.map (·.metric)).eraseDups

def hasCriticalIssues (r : Report α) : Bool :=
  decide (0 < r.critical) || r.regressions.any fun g ↦ g.severity = .critical

def anyStatus (r : Report α) (status : Status) : Bool :=
  r.comparisons.any fun c ↦ c.status = status

def derivedHealth (r : Report α) : Health :=
  if r.hasCriticalIssues || r.anyStatus .critical then .critical
  else if decide (0 < r.high) || r.regressions.any (·.isRegression) || r.anyStatus .degraded ||
      decide (degradedRate < r.anomalyRate) then .degraded
  else if decide (0 < r.total) || r.anyStatus .changed then .warning
  else .healthy

def advice (r : Report α) : List (ReportAdvice α) :=
  (if 0 < r.critical then [.criticalAnomalies r.critical] else []) ++
    (if 0 < r.high then [.highAnomalies r.high] else []) ++
    ((r.regressions.filter (·.isRegression)).map fun g ↦
      .regression g.metric g.severity g.meanChange g.p99Change) ++
    ((r.comparisons.filter (·.status.isAlarm)).map fun c ↦
      .comparison c.metric c.status c.meanChange) ++
    (if degradedRate < r.anomalyRate then [.anomalyRate (r.anomalyRate * 100.0)] else [])

def recount (r : Report α) : Report α :=
  let total := r.allAnomalies.length
  { r with
    metricCount := r.metricNames.length
    total
    critical := r.countOf .critical
    high := r.countOf .high
    medium := r.countOf .medium
    low := r.countOf .low
    anomalyRate := if 0 < r.dataPoints then (total : α) / (r.dataPoints : α) else 0.0 }

variable [NumberText α]

def refresh (r : Report α) : Report α :=
  let counted := r.recount
  { counted with
    health := counted.derivedHealth
    recommendations := counted.advice.map (·.text) }

def addAnomalies (r : Report α) (dataPoints : Nat) (anomalies : List (Anomaly α)) : Report α :=
  refresh { r with
    dataPoints := Scalar.word α (r.dataPoints + dataPoints)
    anomalies := r.anomalies ++ anomalies }

/-- Adds a comparison, the points of which count as analysed. -/
def addComparison (r : Report α) (c : Comparison α) : Report α :=
  refresh { r with
    dataPoints := Scalar.word α (r.dataPoints + c.sampleCount)
    comparisons := r.comparisons ++ [c] }

def addRegression (r : Report α) (g : Regression α) : Report α :=
  refresh { r with regressions := r.regressions ++ [g] }

end Report

end MetricWatch
