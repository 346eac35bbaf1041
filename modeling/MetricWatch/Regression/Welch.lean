import MetricWatch.Regression.Tail
import MetricWatch.Stats

namespace MetricWatch

variable {α : Type} [Scalar α]

structure Sample (α : Type) where
  mean : α
  stdDev : α
  size : Nat

def Sample.ofValues (values : List α) : Sample α :=
  ⟨Stats.mean values, Stats.sampleStdDev values, values.length⟩

def Sample.squaredError (s : Sample α) : α := s.stdDev * s.stdDev / (s.size : α)

structure WelchTest (α : Type) where
  tStatistic : α
  pValue : α
  degreesOfFreedom : α

namespace Welch

def untestable : WelchTest α := ⟨0.0, 1.0, 0.0⟩

def pooledFreedom (before after : Sample α) : α :=
  (Scalar.word α (before.size + after.size - 2) : α)

/-- The approximate degrees of freedom for unequal variances. -/
def freedom (before after : Sample α) : α :=
  let e₁ := before.squaredError
  let e₂ := after.squaredError
  if Scalar.IsZero e₁ ∨ Scalar.IsZero e₂ then pooledFreedom before after
  else
    let denominator :=
      e₁ * e₁ / ((before.size : α) - 1.0) + e₂ * e₂ / ((after.size : α) - 1.0)
    if 0.0 < denominator then (e₁ + e₂) * (e₁ + e₂) / denominator
    else pooledFreedom before after

/-- The test with a given tail probability of the statistic. Without any variance it decides whether
the means are equal. -/
def testBy (tail : (t df : α) → α) (before after : Sample α) : WelchTest α :=
  if before.size < 2 ∨ after.size < 2 then untestable
  else if Scalar.IsZero before.stdDev ∧ Scalar.IsZero after.stdDev then
    ⟨0.0, if Scalar.NumEq before.mean after.mean then 1.0 else 0.0, pooledFreedom before after⟩
  else
    let error := before.squaredError + after.squaredError
    if Scalar.IsZero error then untestable
    else
      let t := (after.mean - before.mean) / Scalar.sqrt error
      let df := freedom before after
      ⟨t, tail (Scalar.abs t) df, df⟩

def test (before after : Sample α) : WelchTest α := testBy Tail.pValue before after

def effectSize (before after : Sample α) : α :=
  if before.size < 2 ∨ after.size < 2 then 0.0
  else
    let n₁ : α := (before.size : α)
    let n₂ : α := (after.size : α)
    let variance := ((n₁ - 1.0) * before.stdDev * before.stdDev +
      (n₂ - 1.0) * after.stdDev * after.stdDev) / (n₁ + n₂ - 2.0)
    let pooled := Scalar.sqrt variance
    if Scalar.IsZero pooled then 0.0 else (after.mean - before.mean) / pooled

end Welch

end MetricWatch
