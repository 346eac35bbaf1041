import MetricWatch.Detector

namespace MetricWatch

variable {α : Type} [Scalar α]

structure Comparator (α : Type) where
  /-- The change in percent from which on a batch has changed. -/
  significance : α
  /-- The size of the standard score from which on a point is flagged. -/
  zThreshold : α
  critical : α
  high : α
  deriving DecidableEq

inductive Status where
  | normal
  | changed
  | degraded
  | critical
  | noData
  deriving DecidableEq, Repr

namespace Status

def all : List Status := [normal, changed, degraded, critical, noData]

def name : Status → String
  | normal => "normal"
  | changed => "changed"
  | degraded => "degraded"
  | critical => "critical"
  | noData => "no_data"

def isAlarm (s : Status) : Bool := s ∈ [degraded, critical]

end Status

inductive ComparisonAdvice (α : Type) where
  | investigate
  | meanIncreased (percent : α)
  | meanDecreased (percent : α)
  | tailIncreased (percent : α)
  | criticalAnomalies (count : Nat)

structure Comparison (α : Type) [Scalar α] where
  comparedAt : Instant
  metric : String
  baseline : Baseline α
  mean : α
  median : α
  p99 : α
  sampleCount : Nat
  meanChange : α
  medianChange : α
  p99Change : α
  significant : Bool
  anomalies : List (Anomaly α)
  status : Status
  recommendations : List String
  deriving DecidableEq

namespace Comparison

def noData (now : Instant) (b : Baseline α) : Comparison α :=
  { comparedAt := now, metric := b.metric, baseline := b
    mean := 0.0, median := 0.0, p99 := 0.0, sampleCount := 0
    meanChange := 0.0, medianChange := 0.0, p99Change := 0.0
    significant := false, anomalies := [], status := .noData, recommendations := [] }

def anomalyRate (c : Comparison α) : α :=
  if c.sampleCount = 0 then 0.0 else (c.anomalies.length : α) / (c.sampleCount : α)

end Comparison

structure Drift (α : Type) where
  mean : α
  stdDev : α
  p99 : α
  drifting : Bool
  deriving DecidableEq

def degradedRate : α := 0.1

def criticalRate : α := 0.25

open NumberText in
def ComparisonAdvice.text [NumberText α] : ComparisonAdvice α → String
  | investigate =>
    "CRITICAL: Performance has degraded significantly from baseline. " ++
      "Investigate immediately for recent changes."
  | meanIncreased percent =>
    s!"Mean latency increased by {fixed 1 percent}%. " ++
      "Check for resource constraints or inefficient code paths."
  | meanDecreased percent =>
    s!"Mean latency decreased by {fixed 1 percent}%. " ++
      "Verify this improvement is real and not due to reduced load."
  | tailIncreased percent =>
    s!"P99 latency increased by {fixed 1 percent}%. " ++
      "Tail latency issues indicate potential timeout problems."
  | criticalAnomalies count =>
    s!"{count} critical anomalies detected. " ++
      "Review specific timestamps for incident correlation."

namespace Comparator

def standard : Comparator α := ⟨10.0, 2.0, 50.0, 25.0⟩

/-- The thresholds with their names, in the order in which they are checked. -/
def thresholds (c : Comparator α) : List (String × α) :=
  [("significance_threshold", c.significance), ("z_threshold", c.zThreshold),
    ("critical_change_percent", c.critical), ("high_change_percent", c.high)]

def validate (c : Comparator α) : Except (ConfigFault α) Unit :=
  match c.thresholds.find? fun (_, value) ↦ ¬ PositiveThreshold value with
  | some (name, value) => .error (.notPositive name value)
  | none => if c.critical < c.high then .error (.highAboveCritical c.high c.critical) else .ok ()

def severityOf (c : Comparator α) (change : α) : Severity :=
  let size := Scalar.abs change
  if c.critical ≤ size then .critical
  else if c.high ≤ size then .high
  else if c.significance ≤ size then .medium
  else if c.significance / 2.0 ≤ size then .low
  else .info

/-- The finding at a value whose score reaches the threshold or that lies outside the fences, graded
by its change. -/
def point? [NumberText α] (c : Comparator α) (now : Instant) (b : Baseline α) (value : α)
    (timestamp : Instant) : Option (Anomaly α) :=
  let z := if 0.0 < b.stdDev then (value - b.mean) / b.stdDev else 0.0
  if Scalar.abs z < c.zThreshold ∧ ¬ (value < b.lowerFence ∨ b.upperFence < value) then none
  else
    let kind := if b.mean < value then AnomalyKind.spike else .drop
    let change := Stats.changePercent b.mean value
    some { Anomaly.ofPoint now b.metric kind (c.severityOf change) value b.mean timestamp with
      deviationPercent := Scalar.abs change
      zScore := some z
      confidence := .saturate (Scalar.smaller (Scalar.abs z / 5.0) 0.99)
      description := s!"Deviation from baseline: {NumberText.signed 1 change}%" }

def anomalies [NumberText α] (c : Comparator α) (now : Instant) (values : List α) (b : Baseline α)
    (timestamps : Option (List Instant)) : List (Anomaly α) :=
  if b.Valid then
    (values.zip (resolveTimestamps now values.length timestamps)).filterMap
      fun (value, timestamp) ↦ c.point? now b value timestamp
  else []

def largestChange (meanChange p99Change : α) : α :=
  Scalar.larger (Scalar.abs meanChange) (Scalar.abs p99Change)

def statusOf (c : Comparator α) (meanChange p99Change : α) (anomalyCount sampleCount : Nat) :
    Status :=
  let rate : α := if 0 < sampleCount then (anomalyCount : α) / (sampleCount : α) else 0.0
  let largest := largestChange meanChange p99Change
  if c.critical ≤ largest ∨ criticalRate < rate then .critical
  else if c.high ≤ largest ∨ degradedRate < rate then .degraded
  else if c.significance ≤ largest then .changed
  else .normal

def isSignificant (c : Comparator α) (meanChange p99Change : α) (anomalyCount sampleCount : Nat) :
    Bool :=
  decide (c.significance ≤ Scalar.abs meanChange) ||
    decide (c.significance ≤ Scalar.abs p99Change) ||
    decide ((sampleCount : α) * degradedRate < (anomalyCount : α))

def advice (c : Comparator α) (meanChange p99Change : α) (anomalies : List (Anomaly α))
    (status : Status) : List (ComparisonAdvice α) :=
  let criticalCount := anomalies.countP fun a ↦ a.severity = .critical
  (if status = .critical then [.investigate] else []) ++
    (if c.high < meanChange then [.meanIncreased meanChange]
      else if meanChange < -c.high then [.meanDecreased (Scalar.abs meanChange)]
      else []) ++
    (if c.critical < p99Change then [.tailIncreased p99Change] else []) ++
    (if 0 < criticalCount then [.criticalAnomalies criticalCount] else [])

variable [NumberText α]

def compare (c : Comparator α) (now : Instant) (values : List α) (b : Baseline α)
    (timestamps : Option (List Instant)) : Comparison α :=
  if values.isEmpty then .noData now b
  else
    let sorted := Stats.sorted values
    let mean := Stats.mean values
    let median := Stats.median sorted
    let p99 := Stats.percentile sorted 99.0
    let meanChange := Stats.changePercent b.mean mean
    let p99Change := Stats.changePercent b.p99 p99
    let anomalies := c.anomalies now values b timestamps
    let status := c.statusOf meanChange p99Change anomalies.length values.length
    { comparedAt := now
      metric := b.metric
      baseline := b
      mean
      median
      p99
      sampleCount := values.length
      meanChange
      medianChange := Stats.changePercent b.median median
      p99Change
      significant := c.isSignificant meanChange p99Change anomalies.length values.length
      anomalies
      status
      recommendations := (c.advice meanChange p99Change anomalies status).map (·.text) }

def compareAll (c : Comparator α) (now : Instant) (batches : List (String × List α))
    (baselines : List (String × Baseline α)) : List (String × Comparison α) :=
  batches.filterMap fun (name, values) ↦
    (baselines.lookup name).map fun b ↦ (name, c.compare now values b none)

omit [NumberText α] in
/-- A weighted sum of the standard score and the distance beyond the nearest fence, in
interquartile ranges. -/
def deviationScore (value : α) (b : Baseline α) : α :=
  if b.Valid then
    let z := if 0.0 < b.stdDev then Scalar.abs (value - b.mean) / b.stdDev else 0.0
    let beyond :=
      if 0.0 < b.iqr then
        if value < b.lowerFence then (b.lowerFence - value) / b.iqr
        else if b.upperFence < value then (value - b.upperFence) / b.iqr
        else 0.0
      else 0.0
    0.6 * z + 0.4 * beyond
  else 0.0

omit [NumberText α] in
/-- Whether a value is near enough to the mean and to the quartiles. An invalid baseline accepts
everything. -/
def isWithin (c : Comparator α) (value : α) (b : Baseline α) (tolerance : α) : Bool :=
  if b.Valid then
    let z := if 0.0 < b.stdDev then Scalar.abs (value - b.mean) / b.stdDev else 0.0
    if tolerance * c.zThreshold < z then false
    else
      decide (b.p25 - tolerance * b.iqr ≤ value) && decide (value ≤ b.p75 + tolerance * b.iqr)
  else true

omit [NumberText α] in
def drift (c : Comparator α) (history : List (Baseline α)) : Drift α :=
  match history with
  | first :: next :: rest =>
    let last := (next :: rest).getLastD next
    let mean := Stats.changePercent first.mean last.mean
    let p99 := Stats.changePercent first.p99 last.p99
    { mean
      stdDev := Stats.changePercent first.stdDev last.stdDev
      p99
      drifting := decide (c.significance ≤ Scalar.abs mean) ||
        decide (c.significance ≤ Scalar.abs p99) }
  | _ => ⟨0.0, 0.0, 0.0, false⟩

end Comparator

end MetricWatch
