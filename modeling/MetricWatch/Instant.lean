namespace MetricWatch

/-- A date of the calendar; the fields need not name an existing day. -/
structure Date where
  year : Int
  month : Nat
  day : Nat
  deriving DecidableEq

namespace Date

def leapYear (year : Int) : Bool := year % 4 = 0 && (year % 100 ≠ 0 || year % 400 = 0)

def daysInMonth (year : Int) (month : Nat) : Nat :=
  if month = 2 then if leapYear year then 29 else 28
  else if month ∈ [4, 6, 9, 11] then 30 else 31

def firstYear : Int := -262143

def lastYear : Int := 262142

def Exists (d : Date) : Prop :=
  firstYear ≤ d.year ∧ d.year ≤ lastYear ∧ 1 ≤ d.month ∧ d.month ≤ 12 ∧
    1 ≤ d.day ∧ d.day ≤ daysInMonth d.year d.month

instance (d : Date) : Decidable d.Exists := by unfold Exists; infer_instance

/-- Days since the first of January 1970. Years are counted from March, in eras of 400. -/
def toDays (d : Date) : Int :=
  let year := if d.month ≤ 2 then d.year - 1 else d.year
  let yearOfEra := year % 400
  let dayOfYear : Int := ((153 * ((d.month + 9) % 12) + 2) / 5 + d.day : Nat) - 1
  year / 400 * 146097 + yearOfEra * 365 + yearOfEra / 4 - yearOfEra / 100 + dayOfYear - 719468

def ofDays (days : Int) : Date :=
  let dayOfEra := ((days + 719468) % 146097).toNat
  let yearOfEra :=
    (dayOfEra - dayOfEra / 1460 + dayOfEra / 36524 - dayOfEra / 146096) / 365
  let dayOfYear := dayOfEra - (365 * yearOfEra + yearOfEra / 4 - yearOfEra / 100)
  let monthFromMarch := (5 * dayOfYear + 2) / 153
  let month := if monthFromMarch < 10 then monthFromMarch + 3 else monthFromMarch - 9
  let year := (days + 719468) / 146097 * 400 + yearOfEra
  ⟨if month ≤ 2 then year + 1 else year, month, dayOfYear - (153 * monthFromMarch + 2) / 5 + 1⟩

end Date

abbrev nanosPerSecond : Nat := 1000000000

/-- A count of seconds since 1970 and nanoseconds. A leap second continues the last second of a
minute, with more nanoseconds than a second has. -/
structure Instant where
  second : Int
  nano : Nat
  firstSecond_le : (Date.toDays ⟨Date.firstYear, 1, 1⟩) * 86400 ≤ second
  second_lt : second < (Date.toDays ⟨Date.lastYear + 1, 1, 1⟩) * 86400
  nano_lt : nano < 2 * nanosPerSecond
  leap : nanosPerSecond ≤ nano → second % 60 = 59
  deriving DecidableEq

namespace Instant

def ofParts? (second : Int) (nano : Nat) : Option Instant :=
  if h₁ : (Date.toDays ⟨Date.firstYear, 1, 1⟩) * 86400 ≤ second then
    if h₂ : second < (Date.toDays ⟨Date.lastYear + 1, 1, 1⟩) * 86400 then
      if h₃ : nano < 2 * nanosPerSecond then
        if h₄ : nanosPerSecond ≤ nano → second % 60 = 59 then some ⟨second, nano, h₁, h₂, h₃, h₄⟩
        else none
      else none
    else none
  else none

theorem ofParts?_self (t : Instant) : ofParts? t.second t.nano = some t := by
  simp only [ofParts?, t.firstSecond_le, t.second_lt, t.nano_lt, dite_true]
  exact dif_pos t.leap

def earliest : Instant where
  second := (Date.toDays ⟨Date.firstYear, 1, 1⟩) * 86400
  nano := 0
  firstSecond_le := Int.le_refl _
  second_lt := by decide
  nano_lt := by decide
  leap := by decide

def epoch : Instant where
  second := 0
  nano := 0
  firstSecond_le := by decide
  second_lt := by decide
  nano_lt := by decide
  leap := by decide

instance : Inhabited Instant := ⟨epoch⟩

def isLeap (t : Instant) : Bool := decide (nanosPerSecond ≤ t.nano)

/-- The instant a count of seconds earlier, not before the first one. A leap second counts as the
second after the one it continues. -/
def backBy (t : Instant) (seconds : Nat) : Instant :=
  if seconds = 0 then t
  else
    let second := if t.isLeap then t.second + 1 else t.second
    (ofParts? (second - seconds) (t.nano % nanosPerSecond)).getD earliest

instance : LE Instant :=
  ⟨fun t u ↦ t.second < u.second ∨ t.second = u.second ∧ t.nano ≤ u.nano⟩

instance : DecidableLE Instant := fun t u ↦
  inferInstanceAs (Decidable (t.second < u.second ∨ t.second = u.second ∧ t.nano ≤ u.nano))

def date (t : Instant) : Date := Date.ofDays (t.second / 86400)

/-- The second of the day, the leap second with the one it continues. -/
def secondOfDay (t : Instant) : Nat := (t.second % 86400).toNat

end Instant

end MetricWatch
