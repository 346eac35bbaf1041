namespace MetricWatch

structure Decimal where
  digits : Nat
  exponent : Int
  deriving DecidableEq

inductive Tie where
  | toEven
  | away
  deriving DecidableEq

namespace Decimal

/-- The number a list of decimal digits stands for. -/
def ofDigits (digits : List Char) : Nat :=
  digits.foldl (fun n c ↦ 10 * n + (c.toNat - '0'.toNat)) 0

def zeros (n : Nat) : List Char := List.replicate n '0'

def trim (d : Decimal) : Decimal :=
  if h : d.digits ≠ 0 ∧ d.digits % 10 = 0 then trim ⟨d.digits / 10, d.exponent + 1⟩ else d
termination_by d.digits
decreasing_by exact Nat.div_lt_self (Nat.pos_of_ne_zero h.1) (by decide)

/-- A way to write decimals. The point stands after `point` digits, counted from the first one that
is not zero. -/
structure Layout where
  tie : Tie
  positional : (point : Int) → Bool
  /-- What follows the digits of a whole number. -/
  wholeEnd : List Char

def Layout.plain : Layout := ⟨.away, fun _ ↦ true, []⟩

/-- Positional from five decimal places to sixteen digits, with a place after the point always. -/
def Layout.document : Layout := ⟨.toEven, fun point ↦ decide (-5 < point ∧ point ≤ 16), ['.', '0']⟩

def positional (layout : Layout) (digits : List Char) (point : Int) : List Char :=
  if point ≤ 0 then ['0', '.'] ++ zeros (-point).toNat ++ digits
  else if digits.length ≤ point then
    digits ++ zeros (point.toNat - digits.length) ++ layout.wholeEnd
  else digits.take point.toNat ++ '.' :: digits.drop point.toNat

def scientific (digits : List Char) (point : Int) : List Char :=
  let power := point - 1
  digits.take 1 ++ (if 1 < digits.length then '.' :: digits.drop 1 else []) ++
    ['e', if power < 0 then '-' else '+'] ++ Nat.toDigits 10 power.natAbs

def render (layout : Layout) (d : Decimal) : List Char :=
  let digits := Nat.toDigits 10 d.digits
  if d.digits = 0 then '0' :: layout.wholeEnd
  else
    let point := digits.length + d.exponent
    if layout.positional point then positional layout digits point else scientific digits point

def renderFixed (places : Nat) (n : Nat) : List Char :=
  let fraction := Nat.toDigits 10 (n % Nat.pow 10 places)
  Nat.toDigits 10 (n / Nat.pow 10 places) ++
    if places = 0 then [] else '.' :: zeros (places - fraction.length) ++ fraction

end Decimal

end MetricWatch
