import MetricWatch.Json.Lexeme
import MetricWatch.Node.Reader

namespace MetricWatch.Json

/-- A list or record that is open, with what it holds so far, last first. -/
inductive Frame where
  | items (before : List Node)
  | members (before : List (Option String × Node))
  | member (before : List (Option String × Node)) (name : Option String)

inductive Place where
  | value
  | firstItem
  | firstMember
  | name
  | colon
  | separator
  deriving DecidableEq

inductive Machine where
  | between (frames : List Frame) (place : Place)
  | word (frames : List Frame) (rest : List Char) (node : Node)
  | number (frames : List Frame) (scan : NumberScan)
  | text (frames : List Frame) (scan : TextScan)
  | memberName (frames : List Frame) (scan : TextScan)
  | finished (root : Node)
  | stopped (frames : List Frame) (root : Option Node)

namespace Machine

def start : Machine := between [] .value

def stop (frames : List Frame) : Machine := stopped frames none

def deliver (node : Node) : List Frame → Machine
  | [] => finished node
  | .items before :: frames => between (.items (node :: before) :: frames) .separator
  | .member before name :: frames =>
    between (.members ((name, node) :: before) :: frames) .separator
  | .members before :: frames => stop (.members before :: frames)

/-- Closes the innermost list or record, if it is of the kind of the bracket. -/
def close (bracket : Char) : List Frame → Machine
  | .items before :: frames =>
    if bracket = ']' then deliver (.list before.reverse) frames else stop (.items before :: frames)
  | .members before :: frames =>
    if bracket = '}' then deliver (.record before.reverse) frames
    else stop (.members before :: frames)
  | frames => stop frames

def isSpace (c : Char) : Bool := c ∈ [' ', '\n', '\t', '\r']

def beginValue (frames : List Frame) (c : Char) : Machine :=
  match c with
  | '"' => text frames .start
  | '[' => between (.items [] :: frames) .firstItem
  | '{' => between (.members [] :: frames) .firstMember
  | 't' => word frames ['r', 'u', 'e'] (.bool true)
  | 'f' => word frames ['a', 'l', 's', 'e'] (.bool false)
  | 'n' => word frames ['u', 'l', 'l'] .null
  | _ => match NumberScan.start? c with
    | some scan => number frames scan
    | none => stop frames

def separatorStep (frames : List Frame) (c : Char) : Machine :=
  match c, frames with
  | ',', .items _ :: _ => between frames .value
  | ',', .members _ :: _ => between frames .name
  | _, _ => close c frames

/-- A character between the parts of the text. -/
def betweenStep (frames : List Frame) (place : Place) (c : Char) : Machine :=
  if isSpace c then between frames place
  else match place with
    | .value => beginValue frames c
    | .firstItem => if c = ']' then close c frames else beginValue frames c
    | .firstMember =>
      if c = '"' then memberName frames .start else if c = '}' then close c frames else stop frames
    | .name => if c = '"' then memberName frames .start else stop frames
    | .colon => if c = ':' then between frames .value else stop frames
    | .separator => separatorStep frames c

def named (name : Option String) : List Frame → Machine
  | .members before :: frames => between (.member before name :: frames) .colon
  | frames => stop frames

/-- A character outside of a word, number or text that has just ended. -/
def outside (m : Machine) (c : Char) : Machine :=
  match m with
  | between frames place => betweenStep frames place c
  | finished root => if isSpace c then finished root else stopped [] (some root)
  | m => m

def step (m : Machine) (c : Char) : Machine :=
  match m with
  | word frames (expected :: rest) node =>
    if c ≠ expected then stop frames
    else if rest.isEmpty then deliver node frames
    else word frames rest node
  | word frames [] _ => stop frames
  | number frames scan => match scan.step c with
    | .more scan => number frames scan
    | .ended => (deliver scan.node frames).outside c
    | .fault => stop frames
  | text frames scan => match scan.step c with
    | .more scan => text frames scan
    | .ended => deliver ((scan.text?.map Node.text).getD .foreign) frames
    | .fault => stop frames
  | memberName frames scan => match scan.step c with
    | .more scan => memberName frames scan
    | .ended => named scan.text? frames
    | .fault => stop frames
  | m => m.outside c

def finish : Machine → Machine
  | number frames scan => if scan.complete then deliver scan.node frames else stop frames
  | m => m

def closeAll (inner : Option Node) : List Frame → Option Node
  | [] => inner
  | .items before :: frames => closeAll (some (.list (before.reverse ++ inner.toList))) frames
  | .members before :: frames => closeAll (some (.record before.reverse)) frames
  | .member before name :: frames =>
    closeAll (some (.record (before.reverse ++ (inner.map fun n ↦ (name, n)).toList))) frames

def frames : Machine → List Frame
  | between frames _ => frames
  | word frames _ _ => frames
  | number frames _ => frames
  | text frames _ => frames
  | memberName frames _ => frames
  | finished _ => []
  | stopped frames _ => frames

end Machine

structure Draft where
  root : Option Node
  complete : Bool

def run (text : List Char) : Machine := (text.foldl Machine.step .start).finish

def read (text : String) : Draft :=
  match run text.toList with
  | .finished root => ⟨some root, true⟩
  | .stopped frames root => ⟨Machine.closeAll root frames, false⟩
  | m => ⟨Machine.closeAll none m.frames, false⟩

def parse? (text : String) : Option Node :=
  let draft := read text
  if draft.complete then draft.root else none

/-- Reads a value from a text. A confidence outside its bounds is reported even if the text has a
fault after it. -/
def decode {β : Type} (reader : Node.Reader β) (text : String) : Except Node.Fault β := do
  let draft := read text
  let some root := draft.root | .error .malformed
  let value ← reader root
  if draft.complete then .ok value else .error .malformed

end MetricWatch.Json
