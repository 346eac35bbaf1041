import MetricWatch.Random.Words
import MetricWatch.Stats

namespace MetricWatch

variable {α : Type} [Scalar α]

structure Bootstrap (α : Type) where
  meanDifference : α
  lower95 : α
  upper95 : α
  lower99 : α
  upper99 : α
  probability : α
  iterations : Nat

namespace Bootstrap

variable {σ : Type} [WordSource σ]

def addDraws (values : Array α) (h : 0 < values.size) (count : Nat) (sum : α) (source : σ) :
    α × σ :=
  match count with
  | 0 => (sum, source)
  | count + 1 =>
    let draw := WordSource.index values.size source
    have hd : draw.1 < values.size := WordSource.index_lt h source
    addDraws values h count (sum + values[draw.1]) draw.2

def resampledMean (values : Array α) (h : 0 < values.size) (source : σ) : α × σ :=
  let (sum, source) := addDraws values h values.size (-0.0) source
  (sum / (values.size : α), source)

def addDifferences (before after : Array α) (hb : 0 < before.size) (ha : 0 < after.size)
    (iterations : Nat) (drawn : List α) (source : σ) : List α :=
  match iterations with
  | 0 => drawn
  | iterations + 1 =>
    let (a, source) := resampledMean after ha source
    let (b, source) := resampledMean before hb source
    addDifferences before after hb ha iterations ((a - b) :: drawn) source

def cutIndex (iterations : Nat) (q : α) : Nat :=
  min (Scalar.wholePart (q * (iterations : α))) (iterations - 1)

def cut (sorted : List α) (iterations : Nat) (q : α) : α :=
  sorted.getD (cutIndex iterations q) 0.0

def ofSorted (sorted : List α) (iterations : Nat) : Bootstrap α :=
  { meanDifference := Stats.mean sorted
    lower95 := cut sorted iterations 0.025
    upper95 := cut sorted iterations 0.975
    lower99 := cut sorted iterations 0.005
    upper99 := cut sorted iterations 0.995
    probability :=
      ((sorted.countP fun d ↦ (0.0 : α) < d : Nat) : α) / (iterations : α)
    iterations }

/-- The most iterations whose differences have room in an address space of 63 bits. -/
def mostIterations : Nat := 0xfffffffffffffff

/-- Resamples a number of times. There is no result for an empty sample or without iterations. -/
def run? (before after : List α) (iterations : Nat) (source : σ) : Option (Bootstrap α) :=
  let b := before.toArray
  let a := after.toArray
  if h : 0 < b.size ∧ 0 < a.size ∧ 0 < iterations then
    some (ofSorted (Stats.sorted (addDifferences b a h.1 h.2.1 iterations [] source)) iterations)
  else none

end Bootstrap

end MetricWatch
