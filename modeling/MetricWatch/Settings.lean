import MetricWatch.Comparator
import MetricWatch.Regression.Gate

namespace MetricWatch

variable {α : Type} [Scalar α]

structure Settings (α : Type) where
  detector : Detector α
  comparator : Comparator α
  gate : Gate α
  deriving DecidableEq

namespace Settings

def standard : Settings α := ⟨.standard, .standard, .standard⟩

def validate (s : Settings α) : Except (ConfigFault α) Unit := do
  s.detector.validate
  s.comparator.validate
  s.gate.validate

end Settings

end MetricWatch
