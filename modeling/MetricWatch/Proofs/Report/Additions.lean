import Mathlib.Algebra.Ring.Nat
import MetricWatch.Binary64.Text
import MetricWatch.Proofs.Binary64.Count
import MetricWatch.Report

namespace MetricWatch.Report

variable {α : Type} [Scalar α]

inductive Addition (α : Type) [Scalar α] where
  | anomalies (dataPoints : Nat) (found : List (Anomaly α))
  | comparison (c : Comparison α)
  | regression (g : Regression α)

namespace Addition

def dataPoints : Addition α → Nat
  | anomalies n _ => n
  | comparison c => c.sampleCount
  | regression _ => 0

/-- The count of points after an addition to so many. It is a word. -/
def tally (points : Nat) : Addition α → Nat
  | anomalies n _ => Scalar.word α (points + n)
  | comparison c => Scalar.word α (points + c.sampleCount)
  | regression _ => points

def loose : Addition α → List (Anomaly α)
  | anomalies _ found => found
  | comparison _ => []
  | regression _ => []

def comparisons : Addition α → List (Comparison α)
  | anomalies _ _ => []
  | comparison c => [c]
  | regression _ => []

def regressions : Addition α → List (Regression α)
  | anomalies _ _ => []
  | comparison _ => []
  | regression g => [g]

end Addition

variable [NumberText α]

def add (r : Report α) : Addition α → Report α
  | .anomalies n found => r.addAnomalies n found
  | .comparison c => r.addComparison c
  | .regression g => r.addRegression g

def addAll (r : Report α) (as : List (Addition α)) : Report α := as.foldl add r

variable {r : Report α} {a : Addition α} {as : List (Addition α)}

theorem add_eq_refresh : r.add a = refresh { r with
    dataPoints := a.tally r.dataPoints
    anomalies := r.anomalies ++ a.loose
    comparisons := r.comparisons ++ a.comparisons
    regressions := r.regressions ++ a.regressions } := by
  cases a <;> simp only [add, addAnomalies, addComparison, addRegression, Addition.tally,
    Addition.loose, Addition.comparisons, Addition.regressions, List.append_nil]

@[simp] theorem add_dataPoints : (r.add a).dataPoints = a.tally r.dataPoints := by
  rw [add_eq_refresh]
  rfl

@[simp] theorem add_anomalies : (r.add a).anomalies = r.anomalies ++ a.loose := by
  rw [add_eq_refresh]
  rfl

@[simp] theorem add_comparisons : (r.add a).comparisons = r.comparisons ++ a.comparisons := by
  rw [add_eq_refresh]
  rfl

@[simp] theorem add_regressions : (r.add a).regressions = r.regressions ++ a.regressions := by
  rw [add_eq_refresh]
  rfl

theorem addAll_cons : r.addAll (a :: as) = (r.add a).addAll as := rfl

theorem addAll_induction {P : Report α → Prop} (hadd : ∀ r a, P r → P (r.add a)) (h : P r) :
    P (r.addAll as) := by
  induction as generalizing r with
  | nil => exact h
  | cons a as ih => exact ih (hadd r a h)

theorem addAll_collects {β : Type} {collected : Report α → List β} {brought : Addition α → List β}
    (hadd : ∀ r a, collected (r.add a) = collected r ++ brought a) :
    collected (r.addAll as) = collected r ++ as.flatMap brought := by
  induction as generalizing r with
  | nil => exact (List.append_nil _).symm
  | cons a as ih => rw [addAll_cons, ih, hadd, List.flatMap_cons, List.append_assoc]

theorem addAll_anomalies : (r.addAll as).anomalies = r.anomalies ++ as.flatMap (·.loose) :=
  addAll_collects fun _ _ ↦ add_anomalies

theorem addAll_comparisons :
    (r.addAll as).comparisons = r.comparisons ++ as.flatMap (·.comparisons) :=
  addAll_collects fun _ _ ↦ add_comparisons

theorem addAll_regressions :
    (r.addAll as).regressions = r.regressions ++ as.flatMap (·.regressions) :=
  addAll_collects fun _ _ ↦ add_regressions

section Words

variable {r : Report Binary64} {a : Addition Binary64} {as : List (Addition Binary64)} {n : Nat}

theorem tally_eq (h : n < 2 ^ 64) : a.tally n = (n + a.dataPoints) % 2 ^ 64 := by
  cases a with
  | anomalies m => exact Binary64.word_natCast (n + m)
  | comparison c => exact Binary64.word_natCast (n + c.sampleCount)
  | regression => exact (Nat.mod_eq_of_lt h).symm

theorem addAll_dataPoints (h : r.dataPoints < 2 ^ 64) :
    (r.addAll as).dataPoints = (r.dataPoints + (as.map (·.dataPoints)).sum) % 2 ^ 64 := by
  -- for every count so far that is a word, which the count after an addition is again
  induction as generalizing r with
  | nil => exact (Nat.mod_eq_of_lt h).symm
  | cons a as ih =>
    have hnext : (r.add a).dataPoints = (r.dataPoints + a.dataPoints) % 2 ^ 64 :=
      add_dataPoints.trans (tally_eq h)
    rw [addAll_cons, ih (hnext ▸ Nat.mod_lt _ (by decide)), hnext, Nat.mod_add_mod, List.map_cons,
      List.sum_cons, Nat.add_assoc]

end Words

end MetricWatch.Report
