import MetricWatch.Binary64.Shortest

namespace MetricWatch.Binary64

def signText (x : Binary64) : List Char := if x.negative then ['-'] else []

def renderFinite (layout : Decimal.Layout) (x : Binary64) : List Char :=
  x.signText ++ (x.shortest layout.tie).render layout

/-- A finite value rounded to a count of decimal places, a half going to the even neighbour. The
sign of what rounds to zero stays. -/
def renderPlaces (places : Nat) (x : Binary64) : List Char :=
  Decimal.renderFixed places (nearest (x.units * Nat.pow 10 places) unit)

def fixed (places : Nat) (x : Binary64) : List Char :=
  if x.isNaN then "NaN".toList
  else x.signText ++ if x.isInfinite then "inf".toList else x.renderPlaces places

def signed (places : Nat) (x : Binary64) : List Char :=
  if x.isNaN || x.negative then x.fixed places else '+' :: x.fixed places

def plain (x : Binary64) : List Char :=
  if x.isNaN then "NaN".toList
  else if x.isInfinite then x.signText ++ "inf".toList
  else x.renderFinite .plain

instance : NumberText Binary64 where
  fixed places x := String.ofList (x.fixed places)
  signed places x := String.ofList (x.signed places)
  plain x := String.ofList x.plain

def splitSign : List Char → Bool × List Char
  | '-' :: rest => (true, rest)
  | '+' :: rest => (false, rest)
  | text => (false, text)

/-- The exponent of a number: nothing, or a letter, an optional sign and digits. -/
def exponent? : List Char → Option Int
  | [] => some 0
  | c :: rest =>
    let (negative, digits) := splitSign rest
    if (c = 'e' ∨ c = 'E') ∧ digits ≠ [] ∧ digits.all Char.isDigit then
      some (if negative then -(Decimal.ofDigits digits : Int) else Decimal.ofDigits digits)
    else none

/-- Digits with an optional point, at least one digit on one side of it, and an optional exponent. -/
def readUnsigned? (negative : Bool) (text : List Char) : Option Binary64 :=
  let whole := text.takeWhile Char.isDigit
  let afterWhole := text.dropWhile Char.isDigit
  let (fraction, rest) := match afterWhole with
    | '.' :: rest => (rest.takeWhile Char.isDigit, rest.dropWhile Char.isDigit)
    | rest => ([], rest)
  if whole = [] ∧ fraction = [] then none
  else (exponent? rest).map fun e ↦
    ofDecimal negative (Decimal.ofDigits (whole ++ fraction)) (e - fraction.length)

/-- The value a decimal text stands for, rounded to the nearest. The words for what is not a finite
number are read in any case. -/
def read? (text : String) : Option Binary64 :=
  let (negative, rest) := splitSign text.toList
  let word := String.ofList (rest.map Char.toLower)
  if word = "inf" ∨ word = "infinity" then some (infinity negative)
  else if word = "nan" then some (nan negative)
  else readUnsigned? negative rest

end MetricWatch.Binary64
