import MetricWatch.Node
import MetricWatch.Anomaly
import MetricWatch.Instant.Rfc3339

namespace MetricWatch.Node

abbrev Fault := DocumentFault Binary64

abbrev Reader (β : Type) := Node → Except Fault β

def readBool : Reader Bool
  | bool value => .ok value
  | _ => .error .malformed

def readText : Reader String
  | text value => .ok value
  | _ => .error .malformed

def readCount (bound : Nat) : Reader Nat
  | integer n => if 0 ≤ n ∧ n < bound then .ok n.toNat else .error .malformed
  | _ => .error .malformed

/-- A floating-point number, which may be written as an integer. -/
def readReal : Reader Binary64
  | integer n => .ok (.ofInt n)
  | real x => .ok x
  | _ => .error .malformed

def readInstant : Reader Instant
  | text value => match Instant.read? value.toList with
    | some t => .ok t
    | none => .error .malformed
  | _ => .error .malformed

def readConfidence : Reader (Confidence Binary64) := fun node ↦ do
  let x ← readReal node
  match Confidence.ofValue? x with
  | some confidence => .ok confidence
  | none => .error (.confidence x)

def readList {β : Type} (item : Reader β) : Reader (List β)
  | list items => items.mapM item
  | _ => .error .malformed

def readOption {β : Type} (value : Reader β) : Reader (Option β)
  | null => .ok none
  | node => (value node).map some

/-- One of a list of names, alone or as the name of the only member of a record. -/
def readName {β : Type} (all : List β) (name : β → String) : Reader β
  | text value => find value
  | record [(some value, null)] => find value
  | _ => .error .malformed
where
  find (value : String) : Except Fault β :=
    match all.find? fun b ↦ name b = value with
    | some b => .ok b
    | none => .error .malformed

/-- Numbers under names, of which the last one under a name counts. -/
def readContext : Reader (Context Binary64)
  | record members => members.foldlM insertMember .empty
  | _ => .error .malformed
where
  insertMember (context : Context Binary64) (m : Option String × Node) :
      Except Fault (Context Binary64) := do
    let some name := m.1 | .error .malformed
    return context.insert name (← readReal m.2)

/-- A wanted member. `absent` is what it is when it is missing from a record, and `ended` when a list
of the members ends before it. -/
structure Slot (β : Type) where
  name : String
  read : Reader β
  absent : Option β
  ended : Option β
  value : Option β

namespace Slot

def required {β : Type} (name : String) (read : Reader β) : Slot β :=
  ⟨name, read, none, none, none⟩

/-- A member that may be null or missing, but not beyond the end of a list. -/
def optional {β : Type} (name : String) (read : Reader β) : Slot (Option β) :=
  ⟨name, readOption read, some none, none, none⟩

def withDefault {β : Type} (name : String) (read : Reader β) (value : β) : Slot β :=
  ⟨name, read, some value, some value, none⟩

end Slot

inductive Slots : List Type → Type 1 where
  | nil : Slots []
  | cons {β : Type} {βs : List Type} (slot : Slot β) (rest : Slots βs) : Slots (β :: βs)

abbrev Values : List Type → Type
  | [] => Unit
  | β :: βs => β × Values βs

def orMalformed {β : Type} : Option β → Except Fault β
  | some value => .ok value
  | none => .error .malformed

namespace Slots

/-- Fills the slot of a name, which must be empty. Other names are ignored. -/
def put (name : String) (node : Node) : {βs : List Type} → Slots βs → Except Fault (Slots βs)
  | _, nil => .ok nil
  | _, cons slot rest =>
    if slot.name = name then
      if slot.value.isSome then .error .malformed
      else match slot.read node with
        | .ok value => .ok (cons { slot with value := some value } rest)
        | .error fault => .error fault
    else match rest.put name node with
      | .ok rest => .ok (cons slot rest)
      | .error fault => .error fault

def putMembers {βs : List Type} (slots : Slots βs) :
    List (Option String × Node) → Except Fault (Slots βs)
  | [] => .ok slots
  | (none, _) :: _ => .error .malformed
  | (some name, node) :: members => match slots.put name node with
    | .ok slots => slots.putMembers members
    | .error fault => .error fault

def finish : {βs : List Type} → Slots βs → Except Fault (Values βs)
  | _, nil => .ok ()
  | _, cons slot rest => do
    let value ← orMalformed (slot.value <|> slot.absent)
    return (value, ← rest.finish)

def fill : {βs : List Type} → Slots βs → List Node → Except Fault (Values βs × List Node)
  | _, nil, items => .ok ((), items)
  | _, cons slot rest, [] => do
    let value ← orMalformed slot.ended
    let (values, left) ← rest.fill []
    return ((value, values), left)
  | _, cons slot rest, item :: items => do
    let value ← slot.read item
    let (values, left) ← rest.fill items
    return ((value, values), left)

/-- Reads a record, or a list of its members in their order. `surplus` says whether the list may be
longer than the record. -/
def readWith (surplus : Bool) {βs : List Type} (slots : Slots βs) : Reader (Values βs)
  | record members => match slots.putMembers members with
    | .ok slots => slots.finish
    | .error fault => .error fault
  | list items => do
    let (values, left) ← slots.fill items
    if left.isEmpty || surplus then .ok values else .error .malformed
  | _ => .error .malformed

def read {βs : List Type} (slots : Slots βs) : Reader (Values βs) := slots.readWith false

end Slots

end MetricWatch.Node
