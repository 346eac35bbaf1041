import MetricWatch.Scalar

namespace MetricWatch

inductive Severity where
  | info
  | low
  | medium
  | high
  | critical
  deriving DecidableEq, Repr

namespace Severity

def rank : Severity → Nat
  | info => 0
  | low => 1
  | medium => 2
  | high => 3
  | critical => 4

def all : List Severity := [info, low, medium, high, critical]

/-- The name in documents. -/
def name : Severity → String
  | info => "info"
  | low => "low"
  | medium => "medium"
  | high => "high"
  | critical => "critical"

/-- The name in texts. -/
def label : Severity → String
  | info => "INFO"
  | low => "LOW"
  | medium => "MEDIUM"
  | high => "HIGH"
  | critical => "CRITICAL"

instance : LE Severity := ⟨fun a b ↦ a.rank ≤ b.rank⟩

instance : DecidableLE Severity := fun a b ↦ inferInstanceAs (Decidable (a.rank ≤ b.rank))

def graver (a b : Severity) : Severity := if a ≤ b then b else a

variable {α : Type} [Scalar α]

def ofZScore (z : α) : Severity :=
  let size := Scalar.abs z
  if 5.0 ≤ size then critical
  else if 4.0 ≤ size then high
  else if 3.0 ≤ size then medium
  else if 2.0 ≤ size then low
  else info

def ofFenceDistance (distance : α) : Severity :=
  if 3.0 ≤ distance then critical
  else if 2.0 ≤ distance then high
  else if 1.5 ≤ distance then medium
  else if 1.0 ≤ distance then low
  else info

end Severity

end MetricWatch
