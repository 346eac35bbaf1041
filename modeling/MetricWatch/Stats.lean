import MetricWatch.Scalar

namespace MetricWatch.Stats

variable {α : Type} [Scalar α]

/-- Adds from left to right, starting from the negative zero, which no number is changed by. -/
def sum (values : List α) : α := values.foldl (· + ·) (-0.0)

def mean (values : List α) : α :=
  if values.isEmpty then 0.0 else sum values / (values.length : α)

def square (x : α) : α := x * x

def squaredDeviations (values : List α) : α :=
  let m := mean values
  sum (values.map fun x ↦ square (x - m))

def populationVariance (values : List α) : α :=
  if values.isEmpty then 0.0 else squaredDeviations values / (values.length : α)

def populationStdDev (values : List α) : α :=
  if values.isEmpty then 0.0 else Scalar.sqrt (populationVariance values)

def sampleStdDev (values : List α) : α :=
  if values.length < 2 then 0.0
  else Scalar.sqrt (squaredDeviations values / ((values.length - 1 : Nat) : α))

def sorted (values : List α) : List α := values.mergeSort Scalar.sortsBefore

/-- The value at a percentile of a sorted sample, interpolated between the two ranks next to it. -/
def percentile (values : List α) (p : α) : α :=
  if h : 2 ≤ values.length then
    let last := values.length - 1
    let rank := p / 100.0 * (last : α)
    let lower := min (Scalar.wholePart rank) last
    let upper := min (lower + 1) last
    have hl : lower < values.length := by omega
    have hu : upper < values.length := by omega
    let fraction := rank - (lower : α)
    values[lower] + fraction * (values[upper] - values[lower])
  else values.headD 0.0

def median (values : List α) : α := percentile values 50.0

/-- The change from `base` to `current` in percent of the absolute base. From nothing to something
is a full increase. -/
def changePercent (base current : α) : α :=
  if Scalar.IsZero base then
    if Scalar.IsZero current then 0.0 else 100.0
  else (current - base) / Scalar.abs base * 100.0

end MetricWatch.Stats
