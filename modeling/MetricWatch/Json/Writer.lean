import MetricWatch.Node
import MetricWatch.Binary64.Text

namespace MetricWatch.Json

def hexDigit (n : Nat) : Char := Nat.digitChar n

/-- Quotes, backslashes and control characters are escaped, and nothing else. -/
def escape (c : Char) : List Char :=
  if c = '"' then ['\\', '"']
  else if c = '\\' then ['\\', '\\']
  else if c = '\x08' then ['\\', 'b']
  else if c = '\x0c' then ['\\', 'f']
  else if c = '\n' then ['\\', 'n']
  else if c = '\r' then ['\\', 'r']
  else if c = '\t' then ['\\', 't']
  else if c.toNat < 0x20 then
    ['\\', 'u', '0', '0', hexDigit (c.toNat / 16), hexDigit (c.toNat % 16)]
  else [c]

def quote (text : String) : List Char := '"' :: text.toList.flatMap escape ++ ['"']

def integer (n : Int) : List Char :=
  (if n < 0 then ['-'] else []) ++ Nat.toDigits 10 n.natAbs

def real (x : Binary64) : List Char :=
  if x.isFinite then x.renderFinite .document else "null".toList

def scalar : Node → List Char
  | .bool true => "true".toList
  | .bool false => "false".toList
  | .integer n => integer n
  | .real x => real x
  | .text s => quote s
  | _ => "null".toList

mutual

def compactChars : Node → List Char
  | .list items => '[' :: compactItems items ++ [']']
  | .record members => '{' :: compactMembers members ++ ['}']
  | node => scalar node

def compactItems : List Node → List Char
  | [] => []
  | [item] => compactChars item
  | item :: next :: items => compactChars item ++ ',' :: compactItems (next :: items)

def compactMembers : List (Option String × Node) → List Char
  | [] => []
  | [(name, value)] => quote (name.getD "") ++ ':' :: compactChars value
  | (name, value) :: next :: members =>
    quote (name.getD "") ++ ':' :: compactChars value ++ ',' :: compactMembers (next :: members)

end

def newLine (level : Nat) : List Char := '\n' :: List.replicate (2 * level) ' '

mutual

def prettyChars (level : Nat) : Node → List Char
  | .list [] => ['[', ']']
  | .list items => '[' :: prettyItems (level + 1) items ++ newLine level ++ [']']
  | .record [] => ['{', '}']
  | .record members => '{' :: prettyMembers (level + 1) members ++ newLine level ++ ['}']
  | node => scalar node

def prettyItems (level : Nat) : List Node → List Char
  | [] => []
  | [item] => newLine level ++ prettyChars level item
  | item :: next :: items =>
    newLine level ++ prettyChars level item ++ ',' :: prettyItems level (next :: items)

def prettyMembers (level : Nat) : List (Option String × Node) → List Char
  | [] => []
  | [(name, value)] =>
    newLine level ++ quote (name.getD "") ++ ':' :: ' ' :: prettyChars level value
  | (name, value) :: next :: members =>
    newLine level ++ quote (name.getD "") ++ ':' :: ' ' :: prettyChars level value ++
      ',' :: prettyMembers level (next :: members)

end

def compact (node : Node) : String := String.ofList (compactChars node)

def pretty (node : Node) : String := String.ofList (prettyChars 0 node)

end MetricWatch.Json
