import MetricWatch.Toml.Table
import MetricWatch.Toml.Text

namespace MetricWatch.Toml

/-- Lists, inline tables and dotted names are refused from this depth on. -/
def depthLimit : Nat := 80

def dropSpaces (text : List Char) : List Char := text.dropWhile fun c ↦ c = ' ' || c = '\t'

def isBareChar (c : Char) : Bool := c.isAlphanum || c = '_' || c = '-'

def takeName? : List Char → Option (String × List Char)
  | '"' :: rest => takeBasic? rest []
  | '\'' :: rest => takeLiteral? [] rest
  | text =>
    let name := text.takeWhile isBareChar
    if name.isEmpty then none else some (String.ofList name, text.dropWhile isBareChar)

def takeNames? (text : List Char) : Option (List String × List Char) :=
  match takeName? (dropSpaces text) with
  | none => none
  | some (name, rest) =>
    match dropSpaces rest with
    | '.' :: later =>
      if later.length < text.length then
        (takeNames? later).map fun (names, rest) ↦ (name :: names, rest)
      else none
    | rest => some ([name], rest)
termination_by text.length

/-- Takes a dotted name, as the way to its table and the name in it. -/
def takeKey? (text : List Char) : Option ((List String × String) × List Char) :=
  match takeNames? text with
  | some (names, rest) =>
    if names.length < depthLimit then
      names.getLast?.map fun name ↦ ((names.dropLast, name), rest)
    else none
  | none => none

/-- What follows blanks, line breaks and comments. -/
def dropTrivia (inComment : Bool) : List Char → List Char
  | '\r' :: '\n' :: rest => dropTrivia false rest
  | c :: rest =>
    if c = '\n' then dropTrivia false rest
    else if inComment then if isLineChar c then dropTrivia true rest else c :: rest
    else if c = ' ' || c = '\t' then dropTrivia false rest
    else if c = '#' then dropTrivia true rest
    else c :: rest
  | [] => []

abbrev TakeValue := List Char → Option (Node × List Char)

/-- Takes the values of a list up to its bracket. A comma may follow the last one. -/
def takeItems? (takeValue : TakeValue) (text : List Char) : Option (List Node × List Char) :=
  match dropTrivia false text with
  | ']' :: rest => some ([], rest)
  | start => match takeValue start with
    | none => none
    | some (item, rest) => match dropTrivia false rest with
      | ']' :: rest => some ([item], rest)
      | ',' :: later =>
        if later.length < text.length then
          (takeItems? takeValue later).map fun (items, rest) ↦ (item :: items, rest)
        else none
      | _ => none
termination_by text.length

def takePair? (takeValue : TakeValue) (text : List Char) :
    Option (((List String × String) × Node) × List Char) := do
  let (key, rest) ← takeKey? text
  let (node, rest) ← takeValue (dropSpaces (← takeChar? '=' rest))
  return ((key, node), rest)

def takePairs? (takeValue : TakeValue) (text : List Char) :
    Option (List ((List String × String) × Node) × List Char) :=
  match takePair? takeValue text with
  | none => none
  | some (pair, rest) => match dropSpaces rest with
    | '}' :: rest => some ([pair], rest)
    | ',' :: later =>
      if later.length < text.length then
        (takePairs? takeValue later).map fun (pairs, rest) ↦ (pair :: pairs, rest)
      else none
    | _ => none
termination_by text.length

def takeInline? (takeValue : TakeValue) (text : List Char) : Option (Node × List Char) :=
  match dropSpaces text with
  | '}' :: rest => some (.record [], rest)
  | start => do
    let (pairs, rest) ← takePairs? takeValue start
    return (.record (nodeMembers (← inlineMembers pairs)), rest)

/-- Takes a value that has no more nested lists and tables than are left. -/
def takeValue? (left : Nat) (text : List Char) : Option (Node × List Char) :=
  match text, left with
  | '[' :: rest, left + 1 =>
    (takeItems? (takeValue? left) rest).map fun (items, rest) ↦ (.list items, rest)
  | '{' :: rest, left + 1 => takeInline? (takeValue? left) rest
  | '"' :: _, _ => (takeText? text).map fun (s, rest) ↦ (.text s, rest)
  | '\'' :: _, _ => (takeText? text).map fun (s, rest) ↦ (.text s, rest)
  | _, _ => takeScalar? text

def endLine? (text : List Char) : Option (List Char) :=
  let rest := match dropSpaces text with
    | '#' :: comment => comment.dropWhile isLineChar
    | rest => rest
  if rest.isEmpty then some [] else dropBreak? rest

/-- What has been read: all tables, and the header above the current line. -/
structure State where
  root : Members
  header : List String

def readLine? (s : State) (text : List Char) : Option (State × List Char) :=
  match dropSpaces text with
  | '[' :: '[' :: rest => do
    let ((parent, name), rest) ← takeKey? rest
    let rest ← takeChar? ']' (← takeChar? ']' rest)
    return (⟨← openElement parent name s.root, parent ++ [name]⟩, ← endLine? rest)
  | '[' :: rest => do
    let ((parent, name), rest) ← takeKey? rest
    let rest ← takeChar? ']' rest
    return (⟨← openTable parent name s.root, parent ++ [name]⟩, ← endLine? rest)
  | start =>
    if start.isEmpty || start.head? = some '#' || (dropBreak? start).isSome then
      (endLine? start).map fun rest ↦ (s, rest)
    else do
      let (((path, name), node), rest) ← takePair? (takeValue? (depthLimit - 1)) start
      return ({ s with root := ← insertUnder s.header path name node s.root }, ← endLine? rest)

def readLines? (s : State) (text : List Char) : Option Members :=
  if text.isEmpty then some s.root
  else match readLine? s text with
    | none => none
    | some (s, rest) => if rest.length < text.length then readLines? s rest else none
termination_by text.length

/-- The tree of a document. A byte order mark at its start is dropped. -/
def parse? (text : String) : Option Node :=
  let chars := match text.toList with
    | '\uFEFF' :: rest => rest
    | chars => chars
  (readLines? ⟨[], []⟩ chars).map fun root ↦ .record (nodeMembers root)

end MetricWatch.Toml
