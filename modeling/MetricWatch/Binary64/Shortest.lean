import MetricWatch.Binary64
import MetricWatch.Decimal

namespace MetricWatch.Binary64

def finePerUnit : Nat := Nat.pow 5 1074

def decimalLength (n : Nat) : Nat :=
  let least := n.log2 * 30102 / 100000 + 1
  if n < Nat.pow 10 least then least else least + 1

def magnitudeOfFine (n : Nat) : Nat := nearestMagnitude n finePerUnit

/-- The decimal with the spacing `10^scale` fine units that reads back as the magnitude `m`, if
there is one next to the value. -/
def neighbour? (tie : Tie) (m fine scale : Nat) : Option Nat :=
  let spacing := Nat.pow 10 scale
  let below := fine / spacing
  let excess := fine % spacing
  let hitBelow := magnitudeOfFine (below * spacing) = m
  let hitAbove := magnitudeOfFine ((below + 1) * spacing) = m
  let aboveNearer := spacing < 2 * excess ∨
    2 * excess = spacing ∧ (tie = .away ∨ below % 2 = 1)
  if hitBelow ∧ hitAbove then some (if aboveNearer then below + 1 else below)
  else if hitBelow then some below
  else if hitAbove then some (below + 1)
  else none

def shortestOf (tie : Tie) (m : Nat) : Decimal :=
  let fine := unitsOf m * finePerUnit
  let length := decimalLength fine
  let found := (List.range 17).findSome? fun k ↦
    (neighbour? tie m fine (length - (k + 1))).map fun digits ↦ (digits, length - (k + 1))
  let decimal := found.getD (fine, 0)
  Decimal.trim ⟨decimal.1, (decimal.2 : Int) - 1074⟩

def shortest (tie : Tie) (x : Binary64) : Decimal :=
  if x.magnitude = 0 then ⟨0, 0⟩ else shortestOf tie x.magnitude

end MetricWatch.Binary64
