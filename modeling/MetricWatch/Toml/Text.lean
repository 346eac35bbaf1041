import MetricWatch.Toml.Scalar

namespace MetricWatch.Toml

def isLineChar (c : Char) : Bool := c = '\t' || (0x20 ≤ c.toNat && c.toNat ≠ 0x7F)

def ofHex? (digits : List Char) : Option Char :=
  let n := ofDigits 16 digits
  if digits.all isHexDigit && (n < 0xD800 || (0xE000 ≤ n && n < 0x110000)) then some (Char.ofNat n)
  else none

def escaped? : Char → Option Char
  | 'b' => some '\x08'
  | 't' => some '\t'
  | 'n' => some '\n'
  | 'f' => some '\x0c'
  | 'r' => some '\r'
  | '"' => some '"'
  | '\\' => some '\\'
  | _ => none

/-- The character of an escape after its backslash, and what follows. -/
def takeEscape? : List Char → Option (Char × List Char)
  | 'u' :: rest =>
    if 4 ≤ rest.length then (ofHex? (rest.take 4)).map fun c ↦ (c, rest.drop 4) else none
  | 'U' :: rest =>
    if 8 ≤ rest.length then (ofHex? (rest.take 8)).map fun c ↦ (c, rest.drop 8) else none
  | c :: rest => (escaped? c).map fun c ↦ (c, rest)
  | [] => none

def takeBasic? (text : List Char) (before : List Char) : Option (String × List Char) :=
  match text with
  | [] => none
  | '"' :: rest => some (String.ofList before.reverse, rest)
  | '\\' :: rest =>
    match takeEscape? rest with
    | some (c, later) =>
      if later.length < rest.length + 1 then takeBasic? later (c :: before) else none
    | none => none
  | c :: rest => if isLineChar c then takeBasic? rest (c :: before) else none
termination_by text.length

def takeLiteral? (before : List Char) : List Char → Option (String × List Char)
  | [] => none
  | c :: rest =>
    if c = '\'' then some (String.ofList before.reverse, rest)
    else if isLineChar c then takeLiteral? (c :: before) rest
    else none

def dropBreak? : List Char → Option (List Char)
  | '\n' :: rest => some rest
  | '\r' :: '\n' :: rest => some rest
  | _ => none

def dropBlankLines : List Char → List Char
  | '\r' :: '\n' :: rest => dropBlankLines rest
  | c :: rest => if c = ' ' || c = '\t' || c = '\n' then dropBlankLines rest else c :: rest
  | [] => []

/-- What follows a backslash at the end of a line: the rest of the line must be blank. -/
def dropLineEnd? (text : List Char) : Option (List Char) :=
  (dropBreak? (text.dropWhile fun c ↦ c = ' ' || c = '\t')).map dropBlankLines

/-- The end of a text in three quotes, after as many quotes as were found together. Up to two of
them belong to the text. -/
def closeMulti (quote : Char) (quotes : Nat) (before : List Char) : String :=
  String.ofList (List.replicate (quotes - 3) quote ++ before).reverse

/-- Takes a text up to three closing quotes, of which some have just been found. -/
def takeMulti? (quote : Char) (escapes : Bool) (text : List Char) (quotes : Nat)
    (before : List Char) : Option (String × List Char) :=
  match text with
  | [] => if 3 ≤ quotes then some (closeMulti quote quotes before, []) else none
  | c :: rest =>
    if c = quote then
      if quotes = 5 then some (closeMulti quote quotes before, c :: rest)
      else takeMulti? quote escapes rest (quotes + 1) before
    else if 3 ≤ quotes then some (closeMulti quote quotes before, c :: rest)
    else
      let before := List.replicate quotes quote ++ before
      if escapes && c = '\\' then
        match dropLineEnd? rest with
        | some later =>
          if later.length < rest.length + 1 then takeMulti? quote escapes later 0 before else none
        | none => match takeEscape? rest with
          | some (e, later) =>
            if later.length < rest.length + 1 then takeMulti? quote escapes later 0 (e :: before)
            else none
          | none => none
      else match dropBreak? (c :: rest) with
        | some later =>
          if later.length < rest.length + 1 then takeMulti? quote escapes later 0 ('\n' :: before)
          else none
        | none =>
          if isLineChar c then takeMulti? quote escapes rest 0 (c :: before) else none
termination_by text.length

/-- Takes a text in three quotes after the first three. A line break right there is dropped. -/
def takeMultiLine? (quote : Char) (escapes : Bool) (text : List Char) :
    Option (String × List Char) :=
  takeMulti? quote escapes ((dropBreak? text).getD text) 0 []

def takeText? : List Char → Option (String × List Char)
  | '"' :: '"' :: '"' :: rest => takeMultiLine? '"' true rest
  | '"' :: rest => takeBasic? rest []
  | '\'' :: '\'' :: '\'' :: rest => takeMultiLine? '\'' false rest
  | '\'' :: rest => takeLiteral? [] rest
  | _ => none

end MetricWatch.Toml
