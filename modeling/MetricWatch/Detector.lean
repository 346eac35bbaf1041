import MetricWatch.Baseline

namespace MetricWatch

variable {α : Type} [Scalar α]

structure Detector (α : Type) where
  /-- The size of the standard score from which on a point is flagged. -/
  zThreshold : α
  /-- The distance of the fences from the quartiles, in interquartile ranges. -/
  iqrMultiplier : α
  minSampleSize : Nat
  deriving DecidableEq

inductive Method where
  | zScore
  | iqr
  | combined
  deriving DecidableEq, Repr

namespace Method

def all : List Method := [zScore, iqr, combined]

def name : Method → String
  | zScore => "zscore"
  | iqr => "iqr"
  | combined => "combined"

def read (text : String) : Except (ConfigFault α) Method :=
  let word := String.ofList (text.toList.map Char.toLower)
  if word = "zscore" ∨ word = "z-score" then .ok zScore
  else if word = "iqr" then .ok iqr
  else if word = "combined" then .ok combined
  else .error (.unknownMethod word)

end Method

abbrev PositiveThreshold (x : α) : Prop := Scalar.isFinite x = true ∧ ¬ x ≤ 0.0

namespace Detector

def standard : Detector α := ⟨3.0, 1.5, 10⟩

def validate (d : Detector α) : Except (ConfigFault α) Unit :=
  if ¬ PositiveThreshold d.zThreshold then .error (.notPositive "z_threshold" d.zThreshold)
  else if ¬ PositiveThreshold d.iqrMultiplier then
    .error (.notPositive "iqr_multiplier" d.iqrMultiplier)
  else if d.minSampleSize < 2 then .error (.sampleSizeTooSmall d.minSampleSize)
  else .ok ()

def scoreConfidence (z : α) : Confidence α :=
  .saturate (Scalar.smaller (1.0 - Scalar.exp (-0.5 * Scalar.abs z)) 0.99)

variable [NumberText α]

def scorePoint? (d : Detector α) (now : Instant) (metric : String) (mean stdDev : α) (value : α)
    (timestamp : Instant) : Option (Anomaly α) :=
  let z := (value - mean) / stdDev
  if Scalar.abs z < d.zThreshold ∨ ¬ Scalar.IsNumber z then none
  else
    let kind := if 0.0 < z then AnomalyKind.spike else .drop
    some { Anomaly.ofPoint now metric kind (.ofZScore z) value mean timestamp with
      zScore := some z
      confidence := scoreConfidence z
      description := s!"Z-score anomaly: {NumberText.fixed 2 z} standard deviations from mean" }

def byZScore (d : Detector α) (now : Instant) (values : List α) (metric : String)
    (timestamps : Option (List Instant)) : List (Anomaly α) :=
  let mean := Stats.mean values
  let stdDev := Stats.populationStdDev values
  if values.length < d.minSampleSize ∨ Scalar.IsZero stdDev then []
  else
    (values.zip (resolveTimestamps now values.length timestamps)).filterMap
      fun (value, timestamp) ↦ d.scorePoint? now metric mean stdDev value timestamp

structure Fences (α : Type) where
  q1 : α
  median : α
  q3 : α
  iqr : α
  lower : α
  upper : α

def fences (d : Detector α) (values : List α) : Fences α :=
  let sorted := Stats.sorted values
  let q1 := Stats.percentile sorted 25.0
  let q3 := Stats.percentile sorted 75.0
  let iqr := q3 - q1
  { q1, median := Stats.median sorted, q3, iqr
    lower := q1 - d.iqrMultiplier * iqr
    upper := q3 + d.iqrMultiplier * iqr }

/-- How far a value lies beyond a fence, and beyond which. -/
def Fences.excess? (f : Fences α) (value : α) : Option (AnomalyKind × α) :=
  if f.upper < value then some (.spike, value - f.upper)
  else if value < f.lower then some (.drop, f.lower - value)
  else none

def Fences.inRanges (f : Fences α) (excess : α) : α :=
  if 0.0 < f.iqr then excess / f.iqr else 0.0

def Fences.context (f : Fences α) : Context α :=
  .ofList [("iqr", f.iqr), ("lower_fence", f.lower), ("upper_fence", f.upper), ("q1", f.q1),
    ("q3", f.q3)]

def Fences.point? (f : Fences α) (now : Instant) (metric : String) (value : α)
    (timestamp : Instant) : Option (Anomaly α) :=
  (f.excess? value).map fun (kind, excess) ↦
    let distance := f.inRanges excess
    { Anomaly.ofPoint now metric kind (.ofFenceDistance distance) value f.median timestamp with
      confidence := .saturate (Scalar.smaller (0.5 + distance * 0.1) 0.99)
      context := f.context
      description := s!"IQR outlier: {NumberText.fixed 1 distance} IQRs beyond fence" }

def byFences (d : Detector α) (now : Instant) (values : List α) (metric : String)
    (timestamps : Option (List Instant)) : List (Anomaly α) :=
  if values.length < d.minSampleSize then []
  else
    let f := d.fences values
    (values.zip (resolveTimestamps now values.length timestamps)).filterMap
      fun (value, timestamp) ↦ f.point? now metric value timestamp

/-- Keeps the first finding at each instant that has not been seen. -/
def firstPerInstant (seen : List Instant) : List (Anomaly α) → List (Anomaly α)
  | [] => []
  | a :: rest =>
    if a.timestamp ∈ seen then firstPerInstant seen rest
    else a :: firstPerInstant (a.timestamp :: seen) rest

def detect (d : Detector α) (now : Instant) (values : List α) (metric : String)
    (timestamps : Option (List Instant)) (method : Method) : List (Anomaly α) :=
  if values.length < d.minSampleSize then []
  else
    let resolved := some (resolveTimestamps now values.length timestamps)
    match method with
    | .zScore => d.byZScore now values metric resolved
    | .iqr => d.byFences now values metric resolved
    | .combined =>
      firstPerInstant [] (d.byZScore now values metric resolved ++
        d.byFences now values metric resolved)

def baseline (d : Detector α) (now : Instant) (values : List α) (metric : String)
    (periodDays : Nat) : Baseline α :=
  .ofSample now d.iqrMultiplier values metric periodDays

/-- The finding at a value that a baseline flags, graded by its score or by its distance from the
median, whichever is graver. -/
def baselinePoint? (d : Detector α) (now : Instant) (b : Baseline α) (value : α)
    (timestamp : Instant) : Option (Anomaly α) :=
  if b.Flags d.zThreshold value then
    let z := b.zScore value
    let distance := if 0.0 < b.iqr then Scalar.abs (value - b.median) / b.iqr else 0.0
    let severity := (Severity.ofZScore z).graver (.ofFenceDistance distance)
    some { Anomaly.ofPoint now b.metric (b.kindOf value) severity value b.mean timestamp with
      zScore := some z
      confidence := scoreConfidence z
      description := s!"Anomaly detected against baseline (z={NumberText.fixed 2 z})" }
  else none

def againstBaseline (d : Detector α) (now : Instant) (values : List α) (b : Baseline α)
    (timestamps : Option (List Instant)) : List (Anomaly α) :=
  if b.Valid then
    (values.zip (resolveTimestamps now values.length timestamps)).filterMap
      fun (value, timestamp) ↦ d.baselinePoint? now b value timestamp
  else []

omit [NumberText α] in
/-- The values from one place up to another, where both are in the series. -/
def slice? (values : List α) (start stop : Nat) : Option (List α) :=
  if start ≤ stop ∧ stop ≤ values.length then some ((values.drop start).take (stop - start))
  else none

omit [NumberText α] in
/-- The places that have a window before them and, up to the last such place, a window after them.
Both counts are words, and a series with fewer values than twice the window has no such place. -/
def boundaries (values : List α) (window : Nat) : List Nat :=
  if window = 0 ∨ values.length < Scalar.word α (2 * window) then []
  else List.range' window (Scalar.word α (values.length - window) - window)

omit [NumberText α] in
def windowsAt? (values : List α) (window place : Nat) : Option (Nat × List α × List α) := do
  let before ← slice? values (place - window) place
  let after ← slice? values place (Scalar.word α (place + window))
  return (place, before, after)

omit [NumberText α] in
/-- The size of the shift between two windows in pooled standard deviations; there is none where
neither window varies. -/
def shift? (before after : List α) : Option α :=
  let pooled := Scalar.sqrt
    ((Stats.populationVariance before + Stats.populationVariance after) / 2.0)
  if 0.0 < pooled then some (Scalar.abs (Stats.mean after - Stats.mean before) / pooled) else none

omit [NumberText α] in
/-- What a scan notes of a place: a shift by the threshold or more. -/
def point? (d : Detector α) (place : Nat) (shift : Option α) : Option (Nat × α) :=
  shift.bind fun magnitude ↦ if d.zThreshold ≤ magnitude then some (place, magnitude) else none

omit [NumberText α] in
/-- The scan of a series for shifts of level. It breaks off at a window that is not in the series. -/
def changePoints? (d : Detector α) (values : List α) (window : Nat) :
    Option (List (Nat × α)) := do
  let windows ← (boundaries values window).mapM (windowsAt? values window)
  return windows.filterMap fun (place, before, after) ↦ d.point? place (shift? before after)

omit [NumberText α] in
/-- The places where the level shifts by the threshold or more, with the size of the shift. A scan
that breaks off has none. -/
def changePoints (d : Detector α) (values : List α) (window : Nat) : List (Nat × α) :=
  (d.changePoints? values window).getD []

end Detector

end MetricWatch
