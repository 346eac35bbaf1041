import MetricWatch.Anomaly
import MetricWatch.Stats

namespace MetricWatch

variable {α : Type} [Scalar α]

structure Baseline (α : Type) where
  metric : String
  calculatedAt : Instant
  sampleCount : Nat
  periodDays : Nat
  mean : α
  median : α
  stdDev : α
  minimum : α
  maximum : α
  p5 : α
  p25 : α
  p75 : α
  p95 : α
  p99 : α
  iqr : α
  lowerFence : α
  upperFence : α
  deriving DecidableEq

namespace Baseline

def empty (now : Instant) (metric : String) (periodDays : Nat) : Baseline α :=
  { metric, calculatedAt := now, sampleCount := 0, periodDays
    mean := 0.0, median := 0.0, stdDev := 0.0, minimum := 0.0, maximum := 0.0
    p5 := 0.0, p25 := 0.0, p75 := 0.0, p95 := 0.0, p99 := 0.0
    iqr := 0.0, lowerFence := 0.0, upperFence := 0.0 }

/-- The summary of a sample, with fences a multiple of the interquartile range off the quartiles. -/
def ofSample (now : Instant) (fenceMultiplier : α) (values : List α) (metric : String)
    (periodDays : Nat) : Baseline α :=
  if values.isEmpty then empty now metric periodDays
  else
    let sorted := Stats.sorted values
    let p25 := Stats.percentile sorted 25.0
    let p75 := Stats.percentile sorted 75.0
    let iqr := p75 - p25
    { metric
      calculatedAt := now
      sampleCount := values.length
      periodDays
      mean := Stats.mean values
      median := Stats.median sorted
      stdDev := Stats.populationStdDev values
      minimum := sorted.headD 0.0
      maximum := sorted.getLastD 0.0
      p5 := Stats.percentile sorted 5.0
      p25
      p75
      p95 := Stats.percentile sorted 95.0
      p99 := Stats.percentile sorted 99.0
      iqr
      lowerFence := p25 - fenceMultiplier * iqr
      upperFence := p75 + fenceMultiplier * iqr }

def leastSamples : Nat := 10

/-- Enough samples, and a spread. Values are not judged by another baseline. -/
abbrev Valid (b : Baseline α) : Prop := leastSamples ≤ b.sampleCount ∧ 0.0 < b.stdDev

def zScore (b : Baseline α) (value : α) : α :=
  if 0.0 < b.stdDev then (value - b.mean) / b.stdDev else 0.0

abbrev OutsideFences (b : Baseline α) (value : α) : Prop :=
  value < b.lowerFence ∨ b.upperFence < value

/-- Whether a value is flagged: its score is not below the threshold, or it lies outside the
fences. -/
abbrev Flags (b : Baseline α) (zThreshold value : α) : Prop :=
  ¬ Scalar.abs (b.zScore value) < zThreshold ∨ b.OutsideFences value

def kindOf (b : Baseline α) (value : α) : AnomalyKind :=
  if b.mean < value then .spike else .drop

end Baseline

end MetricWatch
