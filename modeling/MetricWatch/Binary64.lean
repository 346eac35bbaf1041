import MetricWatch.Scalar

namespace MetricWatch

structure Binary64 where
  bits : UInt64
  deriving DecidableEq, Inhabited

namespace Binary64

abbrev signWeight : Nat := 0x8000000000000000

/-- The count of magnitudes with one exponent. -/
abbrev binade : Nat := 0x10000000000000

/-- The bits below the sign. They are ordered as the absolute values are. -/
def magnitude (x : Binary64) : Nat := x.bits.toNat % signWeight

def negative (x : Binary64) : Bool := decide (signWeight ≤ x.bits.toNat)

def ofMagnitude (negative : Bool) (m : Nat) : Binary64 :=
  ⟨UInt64.ofNat (if negative then signWeight + m else m)⟩

def infiniteMagnitude : Nat := 0x7FF0000000000000

def isNaN (x : Binary64) : Bool := decide (infiniteMagnitude < x.magnitude)

def isInfinite (x : Binary64) : Bool := decide (x.magnitude = infiniteMagnitude)

def isFinite (x : Binary64) : Bool := decide (x.magnitude < infiniteMagnitude)

def infinity (negative : Bool) : Binary64 := ofMagnitude negative infiniteMagnitude

def zero (negative : Bool) : Binary64 := ofMagnitude negative 0

def nan (negative : Bool) : Binary64 := ofMagnitude negative 0x7FF8000000000000

/-- What an invalid operation gives: its sign bit is set. -/
def invalid : Binary64 := nan true

def unit : Nat := 1 <<< 1074

/-- A magnitude in least units. Below `2⁵³` it is its own count; from there on the upper bits are an
exponent. -/
def unitsOf (m : Nat) : Nat :=
  if m < 2 * binade then m else (m % binade + binade) <<< (m / binade - 1)

def units (x : Binary64) : Nat := unitsOf x.magnitude

/-- A finite value in least units, with its sign. -/
def signedUnits (x : Binary64) : Int :=
  if x.negative then -(x.units : Int) else x.units

/-- The whole number nearest to `num / den`, a half going to the even neighbour. -/
def nearest (num den : Nat) : Nat :=
  let q := num / den
  let r := num % den
  if den < 2 * r ∨ 2 * r = den ∧ q % 2 = 1 then q + 1 else q

/-- The magnitude nearest to `num / den` least units. A quotient that rounds up to the next power of
two carries into the exponent by itself, and what is too large is infinite. -/
def nearestMagnitude (num den : Nat) : Nat :=
  let shift := (num / den).log2 - 52
  min (shift * binade + nearest num (den <<< shift)) infiniteMagnitude

def ofQuotient (negative : Bool) (num den : Nat) : Binary64 :=
  ofMagnitude negative (nearestMagnitude num den)

def neg (x : Binary64) : Binary64 := ofMagnitude (!x.negative) x.magnitude

def abs (x : Binary64) : Binary64 := ofMagnitude false x.magnitude

def addFinite (x y : Binary64) : Binary64 :=
  let sum := x.signedUnits + y.signedUnits
  if sum = 0 then zero (x.negative && y.negative)
  else ofQuotient (decide (sum < 0)) sum.natAbs 1

/-- A value that is not a number passes through, the first one if both are. -/
def add (x y : Binary64) : Binary64 :=
  if x.isNaN then x
  else if y.isNaN then y
  else if x.isInfinite then
    if y.isInfinite && x.negative != y.negative then invalid else x
  else if y.isInfinite then y
  else addFinite x y

def sub (x y : Binary64) : Binary64 :=
  if x.isNaN then x else if y.isNaN then y else add x y.neg

def mul (x y : Binary64) : Binary64 :=
  let negative := x.negative != y.negative
  if x.isNaN then x
  else if y.isNaN then y
  else if x.isInfinite || y.isInfinite then
    if x.magnitude = 0 ∨ y.magnitude = 0 then invalid else infinity negative
  else ofQuotient negative (x.units * y.units) unit

def div (x y : Binary64) : Binary64 :=
  let negative := x.negative != y.negative
  if x.isNaN then x
  else if y.isNaN then y
  else if x.isInfinite then
    if y.isInfinite then invalid else infinity negative
  else if y.isInfinite then zero negative
  else if y.magnitude = 0 then
    if x.magnitude = 0 then invalid else infinity negative
  else ofQuotient negative (x.units * unit) y.units

/-- The whole root of the value in finer units has more than twice the digits that are kept, so a
remainder only has to break a tie. -/
def sqrtFinite (x : Binary64) : Binary64 :=
  let square := x.units * unit
  let root := square.sqrt
  ofQuotient false (2 * root + if root * root = square then 0 else 1) 2

def sqrt (x : Binary64) : Binary64 :=
  if x.isNaN || x.magnitude = 0 then x
  else if x.negative then invalid
  else if x.isInfinite then x
  else sqrtFinite x

def ofNat (n : Nat) : Binary64 := ofQuotient false (n * unit) 1

def ofInt (n : Int) : Binary64 := ofQuotient (decide (n < 0)) (n.natAbs * unit) 1

/-- The value nearest to the decimal `±m · 10ᵉ`. The first tests keep an exponent that decides the
result alone from being raised to. -/
def ofDecimal (negative : Bool) (m : Nat) (e : Int) : Binary64 :=
  if m = 0 then zero negative
  else if 400 < e then infinity negative
  else if (m.log2 : Int) + 3 * e < -3000 then zero negative
  else if 0 ≤ e then ofQuotient negative (m * Nat.pow 10 e.toNat * unit) 1
  else ofQuotient negative (m * unit) (Nat.pow 10 (-e).toNat)

def wholePart (x : Binary64) : Nat :=
  if x.isNaN || x.negative then 0 else x.units / unit

/-- The place of a number on the line; both zeros have the same. -/
def position (x : Binary64) : Int :=
  if x.negative then -(x.magnitude : Int) else x.magnitude

/-- The place of any bit pattern in the total order, the negative zero just below the positive. -/
def rank (x : Binary64) : Int :=
  if x.negative then -1 - (x.magnitude : Int) else x.magnitude

instance : LE Binary64 :=
  ⟨fun x y ↦ x.isNaN = false ∧ y.isNaN = false ∧ x.position ≤ y.position⟩

instance : LT Binary64 :=
  ⟨fun x y ↦ x.isNaN = false ∧ y.isNaN = false ∧ x.position < y.position⟩

instance : DecidableLE Binary64 := fun x y ↦
  inferInstanceAs (Decidable (x.isNaN = false ∧ y.isNaN = false ∧ x.position ≤ y.position))

instance : DecidableLT Binary64 := fun x y ↦
  inferInstanceAs (Decidable (x.isNaN = false ∧ y.isNaN = false ∧ x.position < y.position))

/-- What a native function gives, if that lies between bounds that the function is known to keep.
The native functions themselves are beyond reasoning. -/
def native (f : Float → Float) (low high : Binary64) (x : Binary64) : Binary64 :=
  let y : Binary64 := ⟨(f (Float.ofBits x.bits)).toBits⟩
  if low ≤ y ∧ y ≤ high then y else zero false

/-- The exponential. That of a number with a negative sign is one at most. -/
def exp (x : Binary64) : Binary64 :=
  if x.isNaN then x
  else native Float.exp (zero false) (if x.negative then ofNat 1 else infinity false) x

/-- The natural logarithm. That of a finite value is below 745 in size. -/
def ln (x : Binary64) : Binary64 :=
  if x.isNaN then x
  else if x.magnitude = 0 then infinity true
  else if x.negative then invalid
  else if x.isInfinite then x
  else native Float.log (ofInt (-745)) (ofInt 745) x

/-- The sine. That of a number between one half and three is a tenth at least. -/
def sin (x : Binary64) : Binary64 :=
  if x.isNaN then x
  else if x.isInfinite then invalid
  else
    let inner := ofDecimal false 5 (-1) ≤ x ∧ x ≤ ofNat 3
    native Float.sin (if inner then ofDecimal false 1 (-1) else ofInt (-1)) (ofInt 1) x

instance : Scalar Binary64 where
  add := add
  sub := sub
  mul := mul
  div := div
  neg := neg
  natCast := ofNat
  ofScientific m negativeExponent e := ofDecimal false m (if negativeExponent then -e else e)
  abs := abs
  sqrt := sqrt
  exp := exp
  ln := ln
  sin := sin
  wholePart := wholePart
  word n := (n % 0x10000000000000000).toNat
  isFinite := isFinite
  sortsBefore x y := decide (x.rank ≤ y.rank)
  decidableLE := inferInstance
  decidableLT := inferInstance
  zero_le_one := by decide +kernel
  le_self_left h := ⟨h.1, h.1, Int.le_refl _⟩
  le_self_right h := ⟨h.2.1, h.2.1, Int.le_refl _⟩
  le_of_not_lt ha hb h := ⟨hb.1, ha.1, Int.not_lt.1 fun hp ↦ h ⟨ha.1, hb.1, hp⟩⟩

end Binary64

end MetricWatch
