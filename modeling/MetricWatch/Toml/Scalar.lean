import MetricWatch.Binary64
import MetricWatch.Decimal
import MetricWatch.Instant
import MetricWatch.Node

namespace MetricWatch.Toml

def isWordChar (c : Char) : Bool := c.isAlphanum || c ∈ ['+', '-', '_', '.', ':']

def groupedFrom (digit : Char → Bool) (afterDigit : Bool) : List Char → Bool
  | [] => afterDigit
  | c :: rest =>
    if c = '_' then afterDigit && groupedFrom digit false rest
    else digit c && groupedFrom digit true rest

def grouped (digit : Char → Bool) (word : List Char) : Bool := groupedFrom digit false word

def dropUnderscores (word : List Char) : List Char := word.filter (· ≠ '_')

def ofDigits (base : Nat) (digits : List Char) : Nat :=
  digits.foldl (fun n c ↦ base * n + digitValue c) 0
where
  digitValue (c : Char) : Nat :=
    if c.isDigit then c.toNat - '0'.toNat else c.toLower.toNat - 'a'.toNat + 10

def isHexDigit (c : Char) : Bool :=
  c.isDigit || ('a' ≤ c && c ≤ 'f') || ('A' ≤ c && c ≤ 'F')

def isOctalDigit (c : Char) : Bool := '0' ≤ c && c ≤ '7'

def isBinaryDigit (c : Char) : Bool := c = '0' || c = '1'

def splitSign : List Char → Bool × List Char
  | '-' :: rest => (true, rest)
  | '+' :: rest => (false, rest)
  | word => (false, word)

def isWhole (word : List Char) : Bool :=
  grouped Char.isDigit word && (word.head? ≠ some '0' || word.length = 1)

def ofWord (n : Nat) (limit : Nat) (negative : Bool) : Option Node :=
  if n ≤ limit then some (.integer (if negative then -(n : Int) else n)) else none

def largestInteger : Nat := 0x7FFFFFFFFFFFFFFF

/-- Digits of another base. They have no sign. -/
def baseInteger? (base : Nat) (digit : Char → Bool) (digits : List Char) : Option Node :=
  if grouped digit digits then ofWord (ofDigits base (dropUnderscores digits)) largestInteger false
  else none

def integer? (word : List Char) : Option Node :=
  match word with
  | '0' :: 'x' :: digits => baseInteger? 16 isHexDigit digits
  | '0' :: 'o' :: digits => baseInteger? 8 isOctalDigit digits
  | '0' :: 'b' :: digits => baseInteger? 2 isBinaryDigit digits
  | word =>
    let (negative, digits) := splitSign word
    if isWhole digits then
      ofWord (ofDigits 10 (dropUnderscores digits)) 
        (if negative then largestInteger + 1 else largestInteger) negative
    else none

/-- The exponent of a number, with its letter, or nothing. -/
def exponent? : List Char → Option Int
  | [] => some 0
  | c :: rest =>
    let (negative, digits) := splitSign rest
    if (c = 'e' ∨ c = 'E') ∧ grouped Char.isDigit digits then
      let n : Int := ofDigits 10 (dropUnderscores digits)
      some (if negative then -n else n)
    else none

def fraction? : List Char → Option (List Char)
  | [] => some []
  | c :: digits => if c = '.' ∧ grouped Char.isDigit digits then some digits else none

def isMark (c : Char) : Bool := c = 'e' || c = 'E'

/-- A number with a point or an exponent. It must not be too large, but it may be too small. -/
def decimal? (negative : Bool) (word : List Char) : Option Node := do
  let body := word.takeWhile fun c ↦ !isMark c
  let whole := body.takeWhile (· ≠ '.')
  let fraction ← fraction? (body.dropWhile (· ≠ '.'))
  let e ← exponent? (word.dropWhile fun c ↦ !isMark c)
  if isWhole whole ∧ body.length < word.length ∨ isWhole whole ∧ fraction ≠ [] then
    let places := dropUnderscores fraction
    let x := Binary64.ofDecimal negative (ofDigits 10 (dropUnderscores whole ++ places))
      (e - places.length)
    if x = .infinity false then none else some (.real x)
  else none

def real? (word : List Char) : Option Node :=
  let (negative, rest) := splitSign word
  if rest = ['i', 'n', 'f'] then some (.real (.infinity negative))
  else if rest = ['n', 'a', 'n'] then some (.real (.nan negative))
  else decimal? negative rest

def takeDigits? (count : Nat) (word : List Char) : Option (Nat × List Char) :=
  let digits := word.take count
  if digits.length = count ∧ digits.all Char.isDigit then
    some (ofDigits 10 digits, word.drop count)
  else none

def takeChar? (c : Char) : List Char → Option (List Char)
  | d :: rest => if c = d then some rest else none
  | [] => none

def takeDate? (word : List Char) : Option (List Char) := do
  let (year, rest) ← takeDigits? 4 word
  let (month, rest) ← takeDigits? 2 (← takeChar? '-' rest)
  let (day, rest) ← takeDigits? 2 (← takeChar? '-' rest)
  if 1 ≤ month ∧ month ≤ 12 ∧ 1 ≤ day ∧ day ≤ Date.daysInMonth year month then some rest else none

/-- A time of day with seconds, and perhaps a fraction. -/
def takeTime? (word : List Char) : Option (List Char) := do
  let (hour, rest) ← takeDigits? 2 word
  let (minute, rest) ← takeDigits? 2 (← takeChar? ':' rest)
  let (second, rest) ← takeDigits? 2 (← takeChar? ':' rest)
  let rest ← match rest with
    | '.' :: digits =>
      if digits.head?.any Char.isDigit then some (digits.dropWhile Char.isDigit) else none
    | rest => some rest
  if hour < 24 ∧ minute < 60 ∧ second ≤ 60 then some rest else none

def isOffset (word : List Char) : Bool :=
  match word with
  | ['Z'] => true
  | ['z'] => true
  | sign :: rest =>
    let fields := do
      let (hour, rest) ← takeDigits? 2 rest
      let (minute, rest) ← takeDigits? 2 (← takeChar? ':' rest)
      return (hour, minute, rest)
    (sign = '+' || sign = '-') &&
      fields.any fun (hour, minute, rest) ↦ hour < 24 && minute < 60 && rest.isEmpty
  | [] => false

def isTimeWithOffset (word : List Char) : Bool :=
  (takeTime? word).any fun rest ↦ rest.isEmpty || isOffset rest

def isTime (word : List Char) : Bool := (takeTime? word).any List.isEmpty

def isDate (word : List Char) : Bool :=
  (takeDate? word).any fun rest ↦ match rest with
    | [] => true
    | 'T' :: time => isTimeWithOffset time
    | 't' :: time => isTimeWithOffset time
    | _ => false

def isPlainDate (word : List Char) : Bool := (takeDate? word).any List.isEmpty

def scalar? (word : List Char) : Option Node :=
  if word = "true".toList then some (.bool true)
  else if word = "false".toList then some (.bool false)
  else if isDate word || isTime word then some .foreign
  else integer? word <|> real? word

/-- Takes a word. A blank may join a date and a time. -/
def takeScalar? (text : List Char) : Option (Node × List Char) := do
  let word := text.takeWhile isWordChar
  let rest := text.dropWhile isWordChar
  let value ← scalar? word
  match rest with
  | ' ' :: later =>
    if isPlainDate word && isTimeWithOffset (later.takeWhile isWordChar) then
      return (value, later.dropWhile isWordChar)
    else return (value, rest)
  | rest => return (value, rest)

end MetricWatch.Toml
