import MetricWatch.Scalar

namespace MetricWatch

inductive ConfigFault (α : Type) where
  | notPositive (field : String) (value : α)
  | sampleSizeTooSmall (value : Nat)
  | highAboveCritical (high critical : α)
  | significanceLevelOutside (value : α)
  | effectSizeNegative (value : α)
  | thresholdNotPositive (value : α)
  | criticalBelowThreshold (critical threshold : α)
  | unknownMethod (name : String)

inductive DataFault (α : Type) where
  | notANumber (item : String)
  | notFinite (value : α)
  | noValues
  | timestampCount (values timestamps : Nat)

/-- A document that cannot be read, because of a confidence outside its bounds or for any other
reason. -/
inductive DocumentFault (α : Type) where
  | malformed
  | confidence (value : α)
  deriving DecidableEq

inductive Failure (α : Type) where
  | confidenceOutOfRange (value : α)
  | invalidConfig (fault : ConfigFault α)
  | invalidData (fault : DataFault α)
  | io
  | toml
  | json (fault : DocumentFault α)

variable {α : Type} [NumberText α]

open NumberText

def ConfigFault.message : ConfigFault α → String
  | notPositive field value => s!"{field} must be a positive number, got {plain value}"
  | sampleSizeTooSmall value => s!"min_sample_size must be >= 2, got {value}"
  | highAboveCritical high critical =>
    s!"high_change_percent ({plain high}) must not exceed critical_change_percent ({plain critical})"
  | significanceLevelOutside value => s!"significance_level must be in (0, 1), got {plain value}"
  | effectSizeNegative value => s!"min_effect_size must be non-negative, got {plain value}"
  | thresholdNotPositive value =>
    s!"regression_threshold_percent must be positive, got {plain value}"
  | criticalBelowThreshold critical threshold =>
    s!"critical_threshold_percent ({plain critical}) must be >= regression_threshold_percent ({plain threshold})"
  | unknownMethod name =>
    s!"unknown detection method '{name}' (expected zscore, iqr or combined)"

def DataFault.message : DataFault α → String
  | notANumber item => s!"not a number: '{item}'"
  | notFinite value => s!"value must be finite, got {plain value}"
  | noValues => "no values given"
  | timestampCount values timestamps => s!"{values} values but {timestamps} timestamps"

def confidenceMessage (value : α) : String :=
  s!"confidence must be within [0, 1], got {plain value}"

def Failure.message : Failure α → String
  | confidenceOutOfRange value => confidenceMessage value
  | invalidConfig fault => "invalid configuration: " ++ fault.message
  | invalidData fault => "invalid data: " ++ fault.message
  | io => "IO error:"
  | toml => "TOML error:"
  | json _ => "JSON error:"

end MetricWatch
