import MetricWatch.Node

namespace MetricWatch.Json

inductive NumberPart where
  | sign
  | zero
  | whole
  | point
  | fraction
  | mark
  | exponentSign
  | exponent
  deriving DecidableEq

structure NumberScan where
  part : NumberPart
  negative : Bool
  digits : Nat
  places : Nat
  exponentNegative : Bool
  exponent : Nat

namespace NumberScan

def digitOf (c : Char) : Nat := c.toNat - '0'.toNat

def start? (c : Char) : Option NumberScan :=
  if c = '-' then some ⟨.sign, true, 0, 0, false, 0⟩
  else if c = '0' then some ⟨.zero, false, 0, 0, false, 0⟩
  else if c.isDigit then some ⟨.whole, false, digitOf c, 0, false, 0⟩
  else none

inductive Step where
  | more (scan : NumberScan)
  | ended
  | fault

def pointOrMark (n : NumberScan) (c : Char) : Step :=
  if c = '.' then .more { n with part := .point }
  else if c = 'e' ∨ c = 'E' then .more { n with part := .mark }
  else .ended

def addDigit (n : NumberScan) (c : Char) : NumberScan :=
  { n with digits := 10 * n.digits + digitOf c }

def addPlace (n : NumberScan) (c : Char) : NumberScan :=
  { n.addDigit c with part := .fraction, places := n.places + 1 }

def addExponent (n : NumberScan) (c : Char) : NumberScan :=
  { n with part := .exponent, exponent := 10 * n.exponent + digitOf c }

/-- Leading zeros, and a point or an exponent without digits, are faults. -/
def step (n : NumberScan) (c : Char) : Step :=
  match n.part with
  | .sign =>
    if c = '0' then .more { n with part := .zero }
    else if c.isDigit then .more { n.addDigit c with part := .whole }
    else .fault
  | .zero => if c.isDigit then .fault else n.pointOrMark c
  | .whole => if c.isDigit then .more (n.addDigit c) else n.pointOrMark c
  | .point => if c.isDigit then .more (n.addPlace c) else .fault
  | .fraction =>
    if c.isDigit then .more (n.addPlace c)
    else if c = 'e' ∨ c = 'E' then .more { n with part := .mark }
    else .ended
  | .mark =>
    if c = '+' ∨ c = '-' then
      .more { n with part := .exponentSign, exponentNegative := decide (c = '-') }
    else if c.isDigit then .more (n.addExponent c)
    else .fault
  | .exponentSign => if c.isDigit then .more (n.addExponent c) else .fault
  | .exponent => if c.isDigit then .more (n.addExponent c) else .ended

def complete (n : NumberScan) : Bool := n.part ∈ [.zero, .whole, .fraction, .exponent]

def integer? (n : NumberScan) : Option Int :=
  if n.part ∈ [NumberPart.zero, .whole] then
    if n.negative then
      if n.digits ≠ 0 ∧ n.digits ≤ 0x8000000000000000 then some (-(n.digits : Int)) else none
    else if n.digits < 0x10000000000000000 then some n.digits else none
  else none

def exponentValue (n : NumberScan) : Int :=
  (if n.exponentNegative then -(n.exponent : Int) else n.exponent) - n.places

/-- The number. Negative zero and integers of more than 64 bits are real. -/
def node (n : NumberScan) : Node :=
  match n.integer? with
  | some i => .integer i
  | none =>
    let x := Binary64.ofDecimal n.negative n.digits n.exponentValue
    if x.isFinite then .real x else .foreign

end NumberScan

inductive Escape where
  | none
  | letter
  /-- Hexadecimal digits: how many, and the number so far. -/
  | hex (missing : Nat) (value : Nat)
  deriving DecidableEq

/-- A quoted text that is being read, its characters last first. -/
structure TextScan where
  chars : List Char
  escape : Escape
  /-- The first half of a surrogate pair, if the text ends in one. -/
  half : Option Nat
  /-- Whether half of a surrogate pair has stood alone. -/
  broken : Bool

namespace TextScan

def start : TextScan := ⟨[], .none, none, false⟩

def push (t : TextScan) (c : Char) : TextScan :=
  { chars := c :: t.chars, escape := .none, half := none, broken := t.broken || t.half.isSome }

def pushUnit (t : TextScan) (unit : Nat) : TextScan :=
  if 0xD800 ≤ unit ∧ unit < 0xDC00 then
    { t with escape := .none, half := some unit, broken := t.broken || t.half.isSome }
  else if 0xDC00 ≤ unit ∧ unit < 0xE000 then
    match t.half with
    | some first =>
      { t with
        chars := Char.ofNat (0x10000 + (first - 0xD800) * 0x400 + (unit - 0xDC00)) :: t.chars
        escape := .none
        half := none }
    | none => { t with escape := .none, broken := true }
  else t.push (Char.ofNat unit)

def hexValue? (c : Char) : Option Nat :=
  if c.isDigit then some (c.toNat - '0'.toNat)
  else if 'a' ≤ c ∧ c ≤ 'f' then some (c.toNat - 'a'.toNat + 10)
  else if 'A' ≤ c ∧ c ≤ 'F' then some (c.toNat - 'A'.toNat + 10)
  else none

inductive Step where
  | more (scan : TextScan)
  | ended
  | fault

def letterStep (t : TextScan) (c : Char) : Step :=
  match c with
  | '"' => .more (t.push '"')
  | '\\' => .more (t.push '\\')
  | '/' => .more (t.push '/')
  | 'b' => .more (t.push '\x08')
  | 'f' => .more (t.push '\x0c')
  | 'n' => .more (t.push '\n')
  | 'r' => .more (t.push '\r')
  | 't' => .more (t.push '\t')
  | 'u' => .more { t with escape := .hex 4 0 }
  | _ => .fault

def step (t : TextScan) (c : Char) : Step :=
  match t.escape with
  | .none =>
    if c = '"' then .ended
    else if c = '\\' then .more { t with escape := .letter }
    else if c.toNat < 0x20 then .fault
    else .more (t.push c)
  | .letter => t.letterStep c
  | .hex missing value =>
    match hexValue? c with
    | some digit =>
      if missing ≤ 1 then .more (t.pushUnit (16 * value + digit))
      else .more { t with escape := .hex (missing - 1) (16 * value + digit) }
    | none => .fault

/-- The text, unless half of a surrogate pair stands alone in it. -/
def text? (t : TextScan) : Option String :=
  if t.broken || t.half.isSome then none else some (String.ofList t.chars.reverse)

end TextScan

end MetricWatch.Json
