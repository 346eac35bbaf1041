import MetricWatch.Detector
import MetricWatch.Regression.Finding
import MetricWatch.Regression.Welch

namespace MetricWatch

variable {α : Type} [Scalar α]

structure Gate (α : Type) where
  /-- The probability below which a difference is significant. -/
  significanceLevel : α
  minEffectSize : α
  threshold : α
  /-- The change in percent that is critical; half of it is high. -/
  critical : α
  deriving DecidableEq

inductive Verdict (α : Type) where
  | regressed (meanChange p99Change pValue effectSize : α)
  | improved (percent : α)
  | unchanged (meanChange : α)

open NumberText in
def Verdict.text [NumberText α] : Verdict α → String
  | regressed meanChange p99Change pValue effectSize =>
    s!"Regression detected: mean increased by {fixed 1 meanChange}%, " ++
      s!"P99 changed by {signed 1 p99Change}% (p={fixed 4 pValue}, d={fixed 2 effectSize})"
  | improved percent => s!"Performance improved by {fixed 1 percent}% (mean)"
  | unchanged meanChange =>
    s!"No significant regression detected (change: {signed 1 meanChange}%)"

inductive RegressionAdvice where
  | rollBack
  | investigate
  | tail
  | profile
  deriving DecidableEq

def RegressionAdvice.text : RegressionAdvice → String
  | rollBack => "CRITICAL regression detected. Consider rolling back the change immediately."
  | investigate => "Significant regression detected. Investigate the root cause urgently."
  | tail =>
    "P99 regression is larger than mean regression. " ++
      "Investigate tail latency issues and timeout handling."
  | profile => "Compare profiling data before and after the change to identify bottlenecks."

namespace Gate

def standard : Gate α := ⟨0.05, 0.2, 10.0, 50.0⟩

def strict : Gate α := { standard with significanceLevel := 0.01, minEffectSize := 0.5 }

def permissive : Gate α := ⟨0.10, 0.1, 5.0, 50.0⟩

def validate (g : Gate α) : Except (ConfigFault α) Unit :=
  if ¬ (0.0 < g.significanceLevel ∧ g.significanceLevel < 1.0) then
    .error (.significanceLevelOutside g.significanceLevel)
  else if ¬ Scalar.isFinite g.minEffectSize ∨ g.minEffectSize < 0.0 then
    .error (.effectSizeNegative g.minEffectSize)
  else if ¬ PositiveThreshold g.threshold then .error (.thresholdNotPositive g.threshold)
  else if ¬ Scalar.isFinite g.critical ∨ g.critical < g.threshold then
    .error (.criticalBelowThreshold g.critical g.threshold)
  else .ok ()

def severityOf (g : Gate α) (meanChange p99Change effectSize : α) : Severity :=
  let change := Scalar.larger (Scalar.abs meanChange) (Scalar.abs p99Change)
  let d := Scalar.abs effectSize
  if g.critical ≤ change ∨ 1.2 ≤ d then .critical
  else if g.critical / 2.0 ≤ change ∨ 0.8 ≤ d then .high
  else if g.threshold ≤ change ∨ 0.5 ≤ d then .medium
  else .low

def advice (severity : Severity) (meanChange p99Change : α) : List RegressionAdvice :=
  (match severity with
    | .critical => [.rollBack]
    | .high => [.investigate]
    | _ => []) ++
    (if meanChange * 2.0 < p99Change then [.tail] else []) ++ [.profile]

/-- The confidence in a verdict; none unless the difference is significant. -/
def confidenceOf (g : Gate α) (pValue effectSize : α) : Confidence α :=
  .saturate
    (if pValue < g.significanceLevel then
      0.6 * (1.0 - pValue) + 0.4 * Scalar.smaller (Scalar.abs effectSize / 0.8) 1.0
    else 0.0)

abbrev Cleared (g : Gate α) (before after : Sample α) (pValue effectSize : α) : Prop :=
  pValue < g.significanceLevel ∧ g.minEffectSize ≤ Scalar.abs effectSize ∧
    before.mean < after.mean ∧ g.threshold ≤ Stats.changePercent before.mean after.mean

def p99 (values : List α) : α := Stats.percentile (Stats.sorted values) 99.0

/-- The verdict on a change that has or has not cleared the gate. -/
def verdict (cleared : Bool) (meanChange p99Change pValue effectSize : α) : Verdict α :=
  if cleared then .regressed meanChange p99Change pValue effectSize
  else if meanChange < 0.0 then .improved (Scalar.abs meanChange)
  else .unchanged meanChange

variable [NumberText α]

/-- Tests two samples that are not empty, with a given tail probability. -/
def judge (g : Gate α) (tail : (t df : α) → α) (now : Instant) (before after : List α)
    (metric : String) : Regression α :=
  let b := Sample.ofValues before
  let a := Sample.ofValues after
  let beforeP99 := p99 before
  let afterP99 := p99 after
  let meanChange := Stats.changePercent b.mean a.mean
  let p99Change := Stats.changePercent beforeP99 afterP99
  let welch := Welch.testBy tail b a
  let effectSize := Welch.effectSize b a
  let cleared := decide (g.Cleared b a welch.pValue effectSize)
  let severity := if cleared then g.severityOf meanChange p99Change effectSize else .info
  { detectedAt := now
    metric
    beforeMean := b.mean
    afterMean := a.mean
    beforeP99
    afterP99
    beforeCount := before.length
    afterCount := after.length
    meanChange
    p99Change
    isRegression := cleared
    severity
    confidence := g.confidenceOf welch.pValue effectSize
    test := some ⟨welch.tStatistic, welch.pValue, effectSize, welch.degreesOfFreedom⟩
    description := (verdict cleared meanChange p99Change welch.pValue effectSize).text
    recommendations :=
      if cleared then (advice severity meanChange p99Change).map (·.text) else [] }

def detectBy (g : Gate α) (tail : (t df : α) → α) (now : Instant) (before after : List α)
    (metric : String) : Regression α :=
  if before.isEmpty || after.isEmpty then .insufficient now metric
  else g.judge tail now before after metric

def detect (g : Gate α) (now : Instant) (before after : List α) (metric : String) :
    Regression α :=
  g.detectBy Tail.pValue now before after metric

def detectAll (g : Gate α) (now : Instant) (before after : List (String × List α)) :
    List (String × Regression α) :=
  before.filterMap fun (name, values) ↦
    (after.lookup name).map fun later ↦ (name, g.detect now values later name)

end Gate

/-- Whether the mean alone has risen by a threshold in percent. From a mean of zero every rise
counts. -/
def meanRose (before after : List α) (threshold : α) : Bool :=
  if before.isEmpty || after.isEmpty then false
  else
    let b := Stats.mean before
    let a := Stats.mean after
    if Scalar.IsZero b then decide (0.0 < a)
    else decide (threshold ≤ (a - b) / Scalar.abs b * 100.0)

end MetricWatch
