import MetricWatch.Scalar

namespace MetricWatch

variable {α : Type} [Scalar α]

structure Confidence (α : Type) [Scalar α] where
  value : α
  nonneg : (0.0 : α) ≤ value
  le_one : value ≤ 1.0

namespace Confidence

instance [DecidableEq α] : DecidableEq (Confidence α) := fun a b ↦
  match decEq a.value b.value with
  | isTrue h => isTrue (by cases a; cases b; cases h; rfl)
  | isFalse h => isFalse fun e ↦ h (congrArg value e)

def zero : Confidence α := ⟨0.0, Scalar.zero_le_zero, Scalar.zero_le_one⟩

instance : Inhabited (Confidence α) := ⟨zero⟩

def ofValue? (x : α) : Option (Confidence α) :=
  if h : (0.0 : α) ≤ x ∧ x ≤ 1.0 then some ⟨x, h.1, h.2⟩ else none

def saturate (x : α) : Confidence α :=
  if h : Scalar.IsNumber x then
    ⟨Scalar.clamp 0.0 1.0 x, (Scalar.clamp_bounds Scalar.zero_le_one h).1,
      (Scalar.clamp_bounds Scalar.zero_le_one h).2⟩
  else zero

end Confidence

end MetricWatch
