import MetricWatch.Instant
import MetricWatch.Blank
import MetricWatch.Decimal

namespace MetricWatch.Instant

def padded (width : Nat) (n : Nat) : List Char :=
  let digits := Nat.toDigits 10 n
  Decimal.zeros (width - digits.length) ++ digits

/-- Four digits; outside of them a sign stands in front. -/
def yearText (year : Int) : List Char :=
  if 0 ≤ year ∧ year ≤ 9999 then padded 4 year.toNat
  else (if year < 0 then '-' else '+') :: padded 4 year.natAbs

def dateText (d : Date) : List Char :=
  yearText d.year ++ '-' :: padded 2 d.month ++ '-' :: padded 2 d.day

def fractionText (nano : Nat) : List Char :=
  if nano = 0 then []
  else if nano % 1000000 = 0 then '.' :: padded 3 (nano / 1000000)
  else if nano % 1000 = 0 then '.' :: padded 6 (nano / 1000)
  else '.' :: padded 9 nano

/-- The second sixty is a leap second. -/
def timeText (t : Instant) : List Char :=
  let s := t.secondOfDay
  padded 2 (s / 3600) ++ ':' :: padded 2 (s / 60 % 60) ++
    ':' :: padded 2 (s % 60 + if t.isLeap then 1 else 0) ++ fractionText (t.nano % nanosPerSecond)

def localText (t : Instant) : List Char := dateText t.date ++ 'T' :: timeText t

def text (t : Instant) : List Char := t.localText ++ ['Z']

def offsetText (t : Instant) : List Char := t.localText ++ "+00:00".toList

/-- The digits at the front, up to a count of them, as a number. -/
def takeNumber? (limit : Nat) (text : List Char) : Option (Nat × List Char) :=
  let digits := (text.take limit).takeWhile Char.isDigit
  if digits = [] then none else some (Decimal.ofDigits digits, text.drop digits.length)

def takeField? (text : List Char) : Option (Nat × List Char) := takeNumber? 2 (dropBlanks text)

/-- Up to four digits, or a sign and any count of digits. -/
def takeYear? (text : List Char) : Option (Int × List Char) :=
  match dropBlanks text with
  | '-' :: rest => (takeNumber? rest.length rest).map fun (n, rest) ↦ (-(n : Int), rest)
  | '+' :: rest => (takeNumber? rest.length rest).map fun (n, rest) ↦ ((n : Int), rest)
  | rest => (takeNumber? 4 rest).map fun (n, rest) ↦ ((n : Int), rest)

def dropSeparator? (separator : Char) (text : List Char) : Option (List Char) :=
  match dropBlanks text with
  | c :: rest => if c = separator then some rest else none
  | [] => none

def takeDate? (text : List Char) : Option (Date × List Char) := do
  let (year, rest) ← takeYear? text
  let (month, rest) ← takeField? (← dropSeparator? '-' rest)
  let (day, rest) ← takeField? (← dropSeparator? '-' rest)
  return (⟨year, month, day⟩, rest)

def takeFraction? : List Char → Option (Nat × List Char)
  | '.' :: rest =>
    let digits := rest.takeWhile Char.isDigit
    if digits = [] then none
    else
      let kept := digits.take 9
      some (Decimal.ofDigits kept * Nat.pow 10 (9 - kept.length), rest.dropWhile Char.isDigit)
  | rest => some (0, rest)

structure ClockTime where
  hour : Nat
  minute : Nat
  second : Nat
  nano : Nat

def takeTime? (text : List Char) : Option (ClockTime × List Char) := do
  let (hour, rest) ← takeField? text
  let (minute, rest) ← takeField? (← dropSeparator? ':' rest)
  let (second, rest) ← takeField? (← dropSeparator? ':' rest)
  let (nano, rest) ← takeFraction? rest
  return (⟨hour, minute, second, nano⟩, rest)

def takeTwo? : List Char → Option (Nat × List Char)
  | a :: b :: rest =>
    if a.isDigit ∧ b.isDigit then some (Decimal.ofDigits [a, b], rest) else none
  | _ => none

/-- The sign of an offset, which may be a hyphen or the minus sign. -/
def takeOffsetSign? : List Char → Option (Int × List Char)
  | '+' :: rest => some (1, rest)
  | '-' :: rest => some (-1, rest)
  | '−' :: rest => some (-1, rest)
  | _ => none

/-- An offset from universal time in minutes. Colons and blanks may stand between its parts. -/
def takeOffset? (text : List Char) : Option (Int × List Char) := do
  let (sign, rest) ← takeOffsetSign? text
  let (hours, rest) ← takeTwo? rest
  let (minutes, rest) ← takeTwo? (rest.dropWhile fun c ↦ c = ':' || isBlank c)
  if minutes < 60 ∧ hours < 24 then return (sign * (hours * 60 + minutes : Nat), rest) else none

def takeZone? (text : List Char) : Option (Int × List Char) :=
  if (text.take 3).map Char.toLower = ['u', 't', 'c'] then some (0, text.drop 3)
  else match text with
    | 'Z' :: rest => some (0, rest)
    | 'z' :: rest => some (0, rest)
    | _ => takeOffset? text

def ofLocal? (d : Date) (c : ClockTime) (offset : Int) : Option Instant :=
  if d.Exists ∧ c.hour < 24 ∧ c.minute < 60 ∧ c.second ≤ 60 then
    ofParts?
      (d.toDays * 86400 + (c.hour * 3600 + c.minute * 60 + min c.second 59 : Nat) - offset * 60)
      (c.nano + if c.second = 60 then nanosPerSecond else 0)
  else none

def read? (text : List Char) : Option Instant := do
  let (d, rest) ← takeDate? text
  let rest ← match rest with
    | 'T' :: rest => some rest
    | 't' :: rest => some rest
    | ' ' :: rest => some rest
    | _ => none
  let (c, rest) ← takeTime? rest
  let (offset, rest) ← takeZone? (dropBlanks rest)
  if dropBlanks rest = [] then ofLocal? d c offset else none

end MetricWatch.Instant
