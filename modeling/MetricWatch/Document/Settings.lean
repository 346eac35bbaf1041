import MetricWatch.Document.Finding
import MetricWatch.Settings
import MetricWatch.Toml.Reader

namespace MetricWatch

open Node

namespace Detector

def node (d : Detector Binary64) : Node :=
  .record
    [member "z_threshold" (.real d.zThreshold),
      member "iqr_multiplier" (.real d.iqrMultiplier),
      member "min_sample_size" (nodeOfCount d.minSampleSize)]

open Slot in
/-- The members of a detector, with a detector that has the missing ones. -/
def slots (d : Detector Binary64) : Slots [Binary64, Binary64, Nat] :=
  .cons (withDefault "z_threshold" readReal d.zThreshold) <|
  .cons (withDefault "iqr_multiplier" readReal d.iqrMultiplier) <|
  .cons (withDefault "min_sample_size" readSize d.minSampleSize) .nil

def reader (surplus : Bool) : Reader (Detector Binary64) := fun n ↦ do
  let (zThreshold, iqrMultiplier, minSampleSize, ()) ← (slots .standard).readWith surplus n
  return ⟨zThreshold, iqrMultiplier, minSampleSize⟩

end Detector

namespace Comparator

def node (c : Comparator Binary64) : Node :=
  .record (c.thresholds.map fun (name, value) ↦
    member name (.real value))

open Slot in
def slots (c : Comparator Binary64) : Slots [Binary64, Binary64, Binary64, Binary64] :=
  .cons (withDefault "significance_threshold" readReal c.significance) <|
  .cons (withDefault "z_threshold" readReal c.zThreshold) <|
  .cons (withDefault "critical_change_percent" readReal c.critical) <|
  .cons (withDefault "high_change_percent" readReal c.high) .nil

def reader (surplus : Bool) : Reader (Comparator Binary64) := fun n ↦ do
  let (significance, zThreshold, critical, high, ()) ← (slots .standard).readWith surplus n
  return ⟨significance, zThreshold, critical, high⟩

end Comparator

namespace Gate

def node (g : Gate Binary64) : Node :=
  .record
    [member "significance_level" (.real g.significanceLevel),
      member "min_effect_size" (.real g.minEffectSize),
      member "regression_threshold_percent" (.real g.threshold),
      member "critical_threshold_percent" (.real g.critical)]

open Slot in
def slots (g : Gate Binary64) : Slots [Binary64, Binary64, Binary64, Binary64] :=
  .cons (withDefault "significance_level" readReal g.significanceLevel) <|
  .cons (withDefault "min_effect_size" readReal g.minEffectSize) <|
  .cons (withDefault "regression_threshold_percent" readReal g.threshold) <|
  .cons (withDefault "critical_threshold_percent" readReal g.critical) .nil

def reader (surplus : Bool) : Reader (Gate Binary64) := fun n ↦ do
  let (significanceLevel, minEffectSize, threshold, critical, ()) ←
    (slots .standard).readWith surplus n
  return ⟨significanceLevel, minEffectSize, threshold, critical⟩

end Gate

namespace Settings

def node (s : Settings Binary64) : Node :=
  .record
    [member "detector" s.detector.node,
      member "comparator" s.comparator.node,
      member "regression" s.gate.node]

open Slot in
def slots (surplus : Bool) : Slots [Detector Binary64, Comparator Binary64, Gate Binary64] :=
  .cons (withDefault "detector" (Detector.reader surplus) .standard) <|
  .cons (withDefault "comparator" (Comparator.reader surplus) .standard) <|
  .cons (withDefault "regression" (Gate.reader surplus) .standard) .nil

def reader (surplus : Bool) : Reader (Settings Binary64) := fun n ↦ do
  let (detector, comparator, gate, ()) ← (slots surplus).readWith surplus n
  return ⟨detector, comparator, gate⟩

def ofToml (text : String) : Except (Failure Binary64) (Settings Binary64) :=
  match (Toml.parse? text).map (reader true) with
  | some (.ok settings) => match settings.validate with
    | .ok _ => .ok settings
    | .error fault => .error (.invalidConfig fault)
  | _ => .error .toml

end Settings

end MetricWatch
