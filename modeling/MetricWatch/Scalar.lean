namespace MetricWatch

/-- The operations of a number type. `≤` and `<` may both fail, for a value that is not a number;
`sortsBefore` always compares. -/
class Scalar (α : Type) extends Add α, Sub α, Mul α, Div α, Neg α, NatCast α, OfScientific α,
    LE α, LT α where
  abs : α → α
  sqrt : α → α
  exp : α → α
  ln : α → α
  sin : α → α
  /-- The whole part of a number, zero for what is negative or not a number. -/
  wholePart : α → Nat
  /-- What a word keeps of a count. The words of exact arithmetic have any length. -/
  word : Int → Nat
  isFinite : α → Bool
  /-- The total order in which samples are sorted. -/
  sortsBefore : α → α → Bool
  decidableLE : DecidableLE α
  decidableLT : DecidableLT α
  zero_le_one : (0.0 : α) ≤ 1.0
  le_self_left : ∀ {a b : α}, a ≤ b → a ≤ a
  le_self_right : ∀ {a b : α}, a ≤ b → b ≤ b
  le_of_not_lt : ∀ {a b : α}, a ≤ a → b ≤ b → ¬ a < b → b ≤ a

attribute [reducible, instance] Scalar.decidableLE Scalar.decidableLT

class NumberText (α : Type) where
  /-- The number rounded to a count of decimal places. -/
  fixed : Nat → α → String
  /-- As `fixed`, with a plus sign in front of what is not negative. -/
  signed : Nat → α → String
  /-- The shortest decimal that reads back as the number, without an exponent. -/
  plain : α → String

namespace Scalar

variable {α : Type} [Scalar α]

abbrev NumEq (a b : α) : Prop := a ≤ b ∧ b ≤ a

abbrev IsZero (a : α) : Prop := NumEq a 0.0

abbrev IsNumber (a : α) : Prop := a ≤ a

def larger (a b : α) : α :=
  if a < b then b else if IsNumber a then a else b

def smaller (a b : α) : α :=
  if b < a then b else if IsNumber a then a else b

/-- The nearest number between two bounds; a value that is not a number stays. -/
def clamp (low high a : α) : α :=
  if a < low then low else if high < a then high else a

theorem zero_le_zero : (0.0 : α) ≤ 0.0 := le_self_left zero_le_one

theorem clamp_bounds {low high a : α} (h : low ≤ high) (ha : IsNumber a) :
    low ≤ clamp low high a ∧ clamp low high a ≤ high := by
  have hl := le_self_left h
  have hh := le_self_right h
  unfold clamp
  split
  · exact ⟨hl, h⟩
  · split
    · exact ⟨h, hh⟩
    · rename_i h₁ h₂
      exact ⟨le_of_not_lt ha hl h₁, le_of_not_lt hh ha h₂⟩

end Scalar

end MetricWatch
