namespace MetricWatch

abbrev wordRange : Nat := 0x10000000000000000

/-- A source gives a word and the source after it. -/
class WordSource (σ : Type) where
  next : σ → UInt64 × σ

/-- A list of words over and over again. Without words it gives zero. -/
structure Cycle where
  words : List UInt64
  ahead : List UInt64

namespace Cycle

def ofWords (words : List UInt64) : Cycle := ⟨words, words⟩

def next (c : Cycle) : UInt64 × Cycle :=
  match c.ahead with
  | word :: ahead => (word, { c with ahead })
  | [] => match c.words with
    | word :: ahead => (word, { c with ahead })
    | [] => (0, c)

instance : WordSource Cycle := ⟨next⟩

end Cycle

namespace WordSource

variable {σ : Type} [WordSource σ]

/-- The largest low half of a product that is accepted. It cuts the words into `n` parts of equal
size. -/
def zone (n : Nat) : Nat := n <<< (63 - n.log2) - 1

/-- The high half of the first product of `n` and a word whose low half is in the zone. At least
every second word is accepted, and after `fuel` words the next one is taken as it is. -/
def drawBelow (n : Nat) (fuel : Nat) (source : σ) : Nat × σ :=
  let (word, source) := next source
  let product := word.toNat * n
  match fuel with
  | 0 => (product / wordRange, source)
  | fuel + 1 =>
    if product % wordRange ≤ zone n then (product / wordRange, source) else drawBelow n fuel source

def index (n : Nat) (source : σ) : Nat × σ := drawBelow n 4096 source

theorem drawBelow_lt {n : Nat} (hn : 0 < n) (fuel : Nat) (source : σ) :
    (drawBelow n fuel source).1 < n := by
  have hw (w : UInt64) : w.toNat * n / wordRange < n :=
    Nat.div_lt_of_lt_mul (Nat.mul_lt_mul_of_pos_right w.toNat_lt hn)
  induction fuel generalizing source with
  | zero => exact hw _
  | succ fuel ih =>
    unfold drawBelow
    dsimp only
    split
    · exact hw _
    · exact ih _

theorem index_lt {n : Nat} (hn : 0 < n) (source : σ) : (index n source).1 < n :=
  drawBelow_lt hn 4096 source

end WordSource

end MetricWatch
