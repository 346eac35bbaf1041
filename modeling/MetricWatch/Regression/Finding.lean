import MetricWatch.Confidence
import MetricWatch.Failure
import MetricWatch.Instant
import MetricWatch.Severity

namespace MetricWatch

variable {α : Type} [Scalar α]

structure SignificanceTest (α : Type) where
  tStatistic : α
  pValue : α
  effectSize : α
  degreesOfFreedom : α
  deriving DecidableEq

structure Regression (α : Type) [Scalar α] where
  detectedAt : Instant
  metric : String
  beforeMean : α
  afterMean : α
  beforeP99 : α
  afterP99 : α
  beforeCount : Nat
  afterCount : Nat
  meanChange : α
  p99Change : α
  isRegression : Bool
  severity : Severity
  confidence : Confidence α
  /-- Missing if a sample was empty. -/
  test : Option (SignificanceTest α)
  description : String
  recommendations : List String
  deriving DecidableEq

namespace Regression

def insufficient (now : Instant) (metric : String) : Regression α :=
  { detectedAt := now, metric
    beforeMean := 0.0, afterMean := 0.0, beforeP99 := 0.0, afterP99 := 0.0
    beforeCount := 0, afterCount := 0, meanChange := 0.0, p99Change := 0.0
    isRegression := false, severity := .info, confidence := .zero, test := none
    description := "Insufficient data for comparison", recommendations := [] }

def withConfidence (r : Regression α) (x : α) : Except (Failure α) (Regression α) :=
  match Confidence.ofValue? x with
  | some confidence => .ok { r with confidence }
  | none => .error (.confidenceOutOfRange x)

variable [NumberText α]

open NumberText

def headline (r : Regression α) : String :=
  if r.isRegression then s!"REGRESSION DETECTED: {r.metric} [{r.severity.label}]"
  else s!"NO REGRESSION: {r.metric}"

def changeLine (label : String) (before after change : α) : String :=
  s!"  {label} {fixed 2 before} -> {fixed 2 after} ({signed 1 change}%)"

def testLine (r : Regression α) (t : SignificanceTest α) : String :=
  s!"  t={fixed 3 t.tStatistic}, df={fixed 1 t.degreesOfFreedom}, p={fixed 4 t.pValue}, " ++
    s!"d={fixed 2 t.effectSize}, confidence={fixed 2 r.confidence.value}"

def adviceLines (r : Regression α) : List String :=
  if r.recommendations.isEmpty then []
  else "" :: "Recommendations:" :: r.recommendations.map ("  - " ++ ·)

def reportLines (r : Regression α) : List String :=
  match r.test with
  | none => [s!"INSUFFICIENT DATA: {r.metric}", "", r.description]
  | some t =>
    [r.headline, "", r.description, "",
      changeLine "mean:" r.beforeMean r.afterMean r.meanChange,
      changeLine "p99: " r.beforeP99 r.afterP99 r.p99Change,
      s!"  samples: {r.beforeCount} before, {r.afterCount} after",
      r.testLine t] ++ r.adviceLines

def report (r : Regression α) : String := String.join (r.reportLines.map (· ++ "\n"))

end Regression

end MetricWatch
