import MetricWatch.Node

namespace MetricWatch.Toml

/-- How a table came into being: under its own header, because the header of a table inside it was
met first, or because a dotted name leads through it. -/
inductive Origin where
  | header
  | implied
  | dotted
  deriving DecidableEq

inductive Item where
  | value (node : Node)
  | table (origin : Origin) (members : List (String × Item))
  /-- Tables under repeated headers, the last one first. -/
  | tables (elements : List (List (String × Item)))

abbrev Members := List (String × Item)

def Members.replace (members : Members) (name : String) (item : Item) : Members :=
  members.map fun (n, old) ↦ (n, if n = name then item else old)

/-- Changes the table at the end of a path. Missing tables on the way are made; a dotted path does
not lead through a table that has a header. -/
def alter (dotted : Bool) (change : Origin → Members → Option Members) :
    List String → Origin → Members → Option Members
  | [], origin, members => change origin members
  | name :: path, _, members =>
    match members.lookup name with
    | none => do
      let origin := if dotted then Origin.dotted else .implied
      return members ++ [(name, .table origin (← alter dotted change path origin []))]
    | some (.value _) => none
    | some (.tables []) => none
    | some (.tables (element :: elements)) => do
      return members.replace name (.tables ((← alter dotted change path .header element) :: elements))
    | some (.table origin inner) =>
      if dotted && origin = .header then none
      else do
        return members.replace name (.table origin (← alter dotted change path origin inner))

def insertDotted (path : List String) (name : String) (node : Node) (origin : Origin)
    (members : Members) : Option Members :=
  alter true insert path origin members
where
  insert (origin : Origin) (members : Members) : Option Members :=
    if decide (origin = .dotted) = path.isEmpty then none
    else if (members.lookup name).isSome then none
    else some (members ++ [(name, .value node)])

def insertUnder (header path : List String) (name : String) (node : Node) (root : Members) :
    Option Members :=
  alter false (insertDotted path name node) header .header root

/-- Opens the table of a header. It may have been implied before, but not more. -/
def openTable (parent : List String) (name : String) (root : Members) : Option Members :=
  alter false enter parent .header root
where
  enter (_ : Origin) (members : Members) : Option Members :=
    match members.lookup name with
    | none => some (members ++ [(name, .table .header [])])
    | some (.table .implied inner) => some (members.replace name (.table .header inner))
    | some _ => none

def openElement (parent : List String) (name : String) (root : Members) : Option Members :=
  alter false enter parent .header root
where
  enter (_ : Origin) (members : Members) : Option Members :=
    match members.lookup name with
    | none => some (members ++ [(name, .tables [[]])])
    | some (.tables elements) => some (members.replace name (.tables ([] :: elements)))
    | some _ => none

mutual

def Item.node : Item → Node
  | .value node => node
  | .table _ members => .record (nodeMembers members)
  | .tables elements => .list (nodeElements elements).reverse

def nodeMembers : List (String × Item) → List (Option String × Node)
  | [] => []
  | (name, item) :: members => (some name, item.node) :: nodeMembers members

def nodeElements : List (List (String × Item)) → List Node
  | [] => []
  | members :: elements => .record (nodeMembers members) :: nodeElements elements

end

def inlineMembers (pairs : List ((List String × String) × Node)) : Option Members :=
  pairs.foldlM (fun members ((path, name), node) ↦ insertDotted path name node .header members) []

end MetricWatch.Toml
