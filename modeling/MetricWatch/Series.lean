import MetricWatch.Binary64.Text
import MetricWatch.Blank
import MetricWatch.Json.Reader

namespace MetricWatch

structure Series where
  values : List Binary64
  timestamps : Option (List Instant)
  deriving DecidableEq

namespace Series

/-- The items of a comma-separated list that are not blank, without blanks around them. -/
def items (text : String) : List String :=
  ((splitAtChar ',' text.toList).map trimBlanks).filterMap fun item ↦
    if item.isEmpty then none else some (String.ofList item)

def readItem (item : String) : Except (DataFault Binary64) Binary64 :=
  match Binary64.read? item with
  | none => .error (.notANumber item)
  | some x => if x.isFinite then .ok x else .error (.notFinite x)

/-- The numbers of a comma-separated list, of which there must be some. -/
def readValues (text : String) : Except (DataFault Binary64) (List Binary64) := do
  let values ← (items text).mapM readItem
  if values.isEmpty then .error .noValues else .ok values

open Node in
def slots : Slots [List Binary64, Option (List Instant)] :=
  .cons (Slot.required "values" (readList readReal)) <|
  .cons (Slot.optional "timestamps" (readList readInstant)) .nil

def reader : Node.Reader Series
  | .list items => do return ⟨← (Node.list items |> Node.readList Node.readReal), none⟩
  | .record members => do
    let (values, timestamps, ()) ← slots.read (.record members)
    return ⟨values, timestamps⟩
  | _ => .error .malformed

def depthLimit : Nat := 127

def check (s : Series) : Except (DataFault Binary64) Series :=
  if s.values.isEmpty then .error .noValues
  else match s.timestamps with
    | some timestamps =>
      if timestamps.length = s.values.length then .ok s
      else .error (.timestampCount s.values.length timestamps.length)
    | none => .ok s

/-- Reads a JSON document. No part of it may be beyond reading, whether it is wanted or not. -/
def readDocument (text : String) : Except (Failure Binary64) Series :=
  match Json.parse? text with
  | none => .error (.json .malformed)
  | some root =>
    if root.readable && decide (root.depth ≤ depthLimit) then
      match reader root with
      | .ok series => series.check.mapError .invalidData
      | .error fault => .error (.json fault)
    else .error (.json .malformed)

/-- Reads the file that the argument names, or else the argument itself. -/
def load (isFile : String → Bool) (read? : String → Option String) (argument : String) :
    Except (Failure Binary64) Series :=
  if isFile argument then
    match read? argument with
    | some text => readDocument text
    | none => .error .io
  else match readValues argument with
    | .ok values => .ok ⟨values, none⟩
    | .error fault => .error (.invalidData fault)

end Series

end MetricWatch
