import MetricWatch.Blank

namespace MetricWatch

/-- The names of the folders around something, from the root on, and then its own. -/
abbrev Place := List String

/-- The folders besides the root, the links, each with the path that it stands for, and the folder
in which paths start. -/
structure Tree where
  folders : List Place
  links : List (Place × String)
  here : Place
  deriving DecidableEq

namespace Tree

def parts (path : String) : List String := (splitAtChar '/' path.toList).map String.ofList

def start (place : Place) (path : String) : Place :=
  if path.toList.head? = some '/' then [] else place

def hasFolder (tree : Tree) (place : Place) : Bool :=
  place.isEmpty || decide (place ∈ tree.folders)

/-- The place to which the parts of a path lead from another place. Every part is looked for in a
folder that must exist, and nothing is above the root. -/
def walkWith (tree : Tree) (follow : Place → List String → Option Place) (place : Place) :
    List String → Option Place
  | [] => some place
  | part :: rest =>
    if tree.hasFolder place then
      if part = "" ∨ part = "." then tree.walkWith follow place rest
      else if part = ".." then tree.walkWith follow place.dropLast rest
      else match tree.links.lookup (place ++ [part]) with
        | some path => follow (start place path) (parts path ++ rest)
        | none => tree.walkWith follow (place ++ [part]) rest
    else none

/-- A walk with a limit on the links that it follows, so that links in a circle lead nowhere. -/
def walk? (tree : Tree) : Nat → Place → List String → Option Place
  | 0 => tree.walkWith fun _ _ ↦ none
  | links + 1 => tree.walkWith (tree.walk? links)

def mostLinks : Nat := 40

def place? (tree : Tree) (path : String) : Option Place :=
  tree.walk? mostLinks (start tree.here path) (parts path)

end Tree

/-- Files have numbers. A file may stand at several places, and it has a text unless its bytes are
not one. -/
structure FileSystem where
  tree : Tree
  names : List (Place × Nat)
  texts : List (Nat × String)
  deriving DecidableEq

namespace FileSystem

/-- Files with their paths from a folder, and with all the folders that these need. -/
def ofFiles (here : Place) (files : List (String × String)) : FileSystem :=
  let places := files.map fun (path, _) ↦ here ++ Tree.parts path
  let above (place : Place) := (List.range place.length).map fun n ↦ place.take n
  { tree := { folders := here :: (here :: places).flatMap above, links := [], here }
    names := places.zipIdx
    texts := files.zipIdx.map fun ((_, text), n) ↦ (n, text) }

def file? (fs : FileSystem) (path : String) : Option Nat :=
  (fs.tree.place? path).bind fun place ↦ fs.names.lookup place

def isFile (fs : FileSystem) (path : String) : Bool := (fs.file? path).isSome

def read? (fs : FileSystem) (path : String) : Option String :=
  (fs.file? path).bind fun file ↦ fs.texts.lookup file

/-- The place at which a path can be written to: there is no folder at it. -/
def target? (fs : FileSystem) (path : String) : Option Place :=
  (fs.tree.place? path).bind fun place ↦ if fs.tree.hasFolder place then none else some place

def setText (fs : FileSystem) (file : Nat) (text : String) : FileSystem :=
  { fs with texts := (file, text) :: fs.texts.filter fun (n, _) ↦ n ≠ file }

def fresh (fs : FileSystem) : Nat := (fs.names.map (·.2)).foldr max 0 + 1

/-- A file keeps its number when it is written over. -/
def put (fs : FileSystem) (place : Place) (text : String) : FileSystem :=
  match fs.names.lookup place with
  | some file => fs.setText file text
  | none => { fs with names := (place, fs.fresh) :: fs.names }.setText fs.fresh text

/-- The files after a text has been written to a path, unchanged if that is impossible. -/
def write (fs : FileSystem) (path text : String) : FileSystem :=
  match fs.target? path with
  | some place => fs.put place text
  | none => fs

end FileSystem

end MetricWatch
