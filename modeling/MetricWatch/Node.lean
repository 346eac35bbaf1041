import MetricWatch.Binary64

namespace MetricWatch

inductive Node where
  | null
  | bool (value : Bool)
  | integer (value : Int)
  | real (value : Binary64)
  | text (value : String)
  /-- A well-formed value that nothing reads: a number beyond the range, a text with half of a
  surrogate pair, a date. -/
  | foreign
  | list (items : List Node)
  /-- Members in the order of the document. A name with half of a surrogate pair is missing. -/
  | record (members : List (Option String × Node))
  deriving Inhabited

namespace Node

def member (name : String) (value : Node) : Option String × Node := (some name, value)

def ofOption {β : Type} (write : β → Node) : Option β → Node
  | some value => write value
  | none => null

mutual

def readable : Node → Bool
  | foreign => false
  | list items => readableItems items
  | record members => readableMembers members
  | _ => true

def readableItems : List Node → Bool
  | [] => true
  | item :: items => item.readable && readableItems items

def readableMembers : List (Option String × Node) → Bool
  | [] => true
  | (name, value) :: members => name.isSome && value.readable && readableMembers members

end

mutual

/-- The greatest count of lists and records around a part of the tree. -/
def depth : Node → Nat
  | list items => 1 + depthOfItems items
  | record members => 1 + depthOfMembers members
  | _ => 0

def depthOfItems : List Node → Nat
  | [] => 0
  | item :: items => max item.depth (depthOfItems items)

def depthOfMembers : List (Option String × Node) → Nat
  | [] => 0
  | (_, value) :: members => max value.depth (depthOfMembers members)

end

/-- Puts a member in its place in the order of names, after members of the same name. -/
def insertMember (m : Option String × Node) :
    List (Option String × Node) → List (Option String × Node)
  | [] => [m]
  | n :: members =>
    if m.1.getD "" < n.1.getD "" then m :: n :: members else n :: insertMember m members

mutual

def sortNames : Node → Node
  | list items => list (sortNamesOfItems items)
  | record members => record (sortNamesOfMembers members)
  | node => node

def sortNamesOfItems : List Node → List Node
  | [] => []
  | item :: items => item.sortNames :: sortNamesOfItems items

def sortNamesOfMembers : List (Option String × Node) → List (Option String × Node)
  | [] => []
  | (name, value) :: members => insertMember (name, value.sortNames) (sortNamesOfMembers members)

end

end Node

end MetricWatch
