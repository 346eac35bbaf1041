import MetricWatch.Stats

namespace MetricWatch

variable {α : Type} [Scalar α]

structure Shape (α : Type) where
  mean : α
  stdDev : α
  p50 : α
  p90 : α
  p99 : α
  minimum : α
  maximum : α

def Shape.ofValues (values : List α) : Shape α :=
  let sorted := Stats.sorted values
  { mean := Stats.mean values
    stdDev := Stats.sampleStdDev values
    p50 := Stats.percentile sorted 50.0
    p90 := Stats.percentile sorted 90.0
    p99 := Stats.percentile sorted 99.0
    minimum := sorted.headD 0.0
    maximum := sorted.getLastD 0.0 }

structure ShapeComparison (α : Type) where
  before : Shape α
  after : Shape α
  meanChange : α
  stdDevChange : α

def compareShapes? (before after : List α) : Option (ShapeComparison α) :=
  if before.isEmpty || after.isEmpty then none
  else
    let b := Shape.ofValues before
    let a := Shape.ofValues after
    some ⟨b, a, Stats.changePercent b.mean a.mean, Stats.changePercent b.stdDev a.stdDev⟩

end MetricWatch
