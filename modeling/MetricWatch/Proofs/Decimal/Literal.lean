import Mathlib.Tactic.SplitIfs
import MetricWatch.Proofs.Decimal.Digits

namespace MetricWatch.Decimal

structure Literal where
  whole : List Char
  fraction : List Char
  power : Option (Bool × List Char)

def pointed (fraction : List Char) : List Char := if fraction = [] then [] else '.' :: fraction

namespace Literal

def powerText : Option (Bool × List Char) → List Char
  | none => []
  | some (negative, digits) => 'e' :: (if negative then '-' else '+') :: digits

def text (l : Literal) : List Char := l.whole ++ pointed l.fraction ++ powerText l.power

def powerValue : Option (Bool × List Char) → Int
  | none => 0
  | some (true, digits) => -(ofDigits digits : Int)
  | some (false, digits) => ofDigits digits

def digits (l : Literal) : Nat := ofDigits (l.whole ++ l.fraction)

def exponent (l : Literal) : Int := powerValue l.power - l.fraction.length

structure WellFormed (l : Literal) : Prop where
  whole : ∀ c ∈ l.whole, c.isDigit = true
  start : l.whole = ['0'] ∨ ∃ c digits, l.whole = c :: digits ∧ c ≠ '0'
  fraction : ∀ c ∈ l.fraction, c.isDigit = true
  power : ∀ p ∈ l.power, p.2 ≠ [] ∧ ∀ c ∈ p.2, c.isDigit = true

/-- Whether a literal has the value of a decimal. -/
def Denotes (l : Literal) (d : Decimal) : Prop :=
  l.digits = 0 ∧ d.digits = 0 ∨
    ∃ k : Nat, l.digits = d.digits * 10 ^ k ∧ l.exponent + k = d.exponent

end Literal

structure Renders (layout : Layout) (d : Decimal) (l : Literal) : Prop where
  wellFormed : l.WellFormed
  text : l.text = d.render layout
  denotes : l.Denotes d

variable {layout : Layout} {d : Decimal} {k : Nat}

theorem pointed_of_ne_nil {fraction : List Char} (h : fraction ≠ []) :
    pointed fraction = '.' :: fraction := if_neg h

theorem zeroDigit {c : Char} (h : c ∈ ['0']) : c.isDigit = true := by
  rw [List.mem_singleton.1 h]
  decide

theorem renders_zero (hend : layout.wholeEnd = pointed (zeros k)) (h : d.digits = 0) :
    Renders layout d ⟨['0'], zeros k, none⟩ where
  wellFormed := ⟨fun _ ↦ zeroDigit, .inl rfl, fun c hc ↦ isDigit_of_mem_zeros hc, nofun⟩
  text := by simp [Literal.text, Literal.powerText, render, h, hend]
  denotes := by
    refine .inl ⟨?_, h⟩
    rw [Literal.digits, ofDigits_append_zeros]
    exact Nat.zero_mul _

def figures (d : Decimal) : List Char := Nat.toDigits 10 d.digits

def pointPlace (d : Decimal) : Int := d.figures.length + d.exponent

theorem ofDigits_figures (d : Decimal) : ofDigits d.figures = d.digits := ofDigits_toDigits _

theorem isDigit_of_mem_figures {c : Char} (h : c ∈ d.figures) : c.isDigit = true :=
  isDigit_of_mem_toDigits h

theorem figures_ne_nil (d : Decimal) : d.figures ≠ [] := Nat.toDigits_ne_nil

theorem render_of_ne_zero (h : d.digits ≠ 0) :
    d.render layout = if layout.positional d.pointPlace then
      positional layout d.figures d.pointPlace else scientific d.figures d.pointPlace := by
  rw [render, if_neg h]
  rfl

theorem start_of_take (h : d.digits ≠ 0) {n : Nat} (hn : 0 < n) (rest : List Char) :
    ∃ c digits, d.figures.take n ++ rest = c :: digits ∧ c ≠ '0' := by
  obtain ⟨c, digits, hcons, hc⟩ := toDigits_eq_cons (Nat.pos_of_ne_zero h)
  obtain ⟨m, rfl⟩ : ∃ m, n = m + 1 := ⟨n - 1, by omega⟩
  refine ⟨c, digits.take m ++ rest, ?_, hc⟩
  rw [figures, hcons, List.take_succ_cons, List.cons_append]

theorem renders_before (h : d.digits ≠ 0) (hlayout : layout.positional d.pointPlace = true)
    (hpoint : d.pointPlace ≤ 0) :
    Renders layout d ⟨['0'], zeros (-d.pointPlace).toNat ++ d.figures, none⟩ where
  wellFormed := by
    refine ⟨fun _ ↦ zeroDigit, .inl rfl, fun c hc ↦ ?_, nofun⟩
    exact (List.mem_append.1 hc).elim isDigit_of_mem_zeros isDigit_of_mem_figures
  text := by
    have hne : zeros (-d.pointPlace).toNat ++ d.figures ≠ [] :=
      List.append_ne_nil_of_right_ne_nil _ d.figures_ne_nil
    rw [render_of_ne_zero h, if_pos hlayout, positional, if_pos hpoint, Literal.text,
      pointed_of_ne_nil hne]
    simp [Literal.powerText]
  denotes := by
    refine .inr ⟨0, ?_, ?_⟩
    · have hzero : ['0'] ++ (zeros (-d.pointPlace).toNat ++ d.figures) =
          zeros ((-d.pointPlace).toNat + 1) ++ d.figures := rfl
      rw [Literal.digits, hzero, ofDigits_zeros_append, ofDigits_figures, Nat.pow_zero, Nat.mul_one]
    · simp only [Literal.exponent, Literal.powerValue, List.length_append, length_zeros]
      unfold pointPlace at *
      omega

theorem renders_behind (hend : layout.wholeEnd = pointed (zeros k)) (h : d.digits ≠ 0)
    (hlayout : layout.positional d.pointPlace = true)
    (hpoint : (d.figures.length : Int) ≤ d.pointPlace) :
    Renders layout d
      ⟨d.figures ++ zeros (d.pointPlace.toNat - d.figures.length), zeros k, none⟩ where
  wellFormed := by
    refine ⟨fun c hc ↦ ?_, .inr ?_, fun c hc ↦ isDigit_of_mem_zeros hc, nofun⟩
    · exact (List.mem_append.1 hc).elim isDigit_of_mem_figures isDigit_of_mem_zeros
    · have hstart := start_of_take h (List.length_pos_iff.2 d.figures_ne_nil)
        (zeros (d.pointPlace.toNat - d.figures.length))
      rwa [List.take_length] at hstart
  text := by
    have hpos := List.length_pos_iff.2 d.figures_ne_nil
    have hafter : ¬ d.pointPlace ≤ 0 := by omega
    rw [render_of_ne_zero h, if_pos hlayout, positional, if_neg hafter, if_pos hpoint, Literal.text,
      hend]
    simp [Literal.powerText]
  denotes := by
    refine .inr ⟨d.pointPlace.toNat - d.figures.length + k, ?_, ?_⟩
    · rw [Literal.digits, ofDigits_append_zeros, ofDigits_append_zeros, ofDigits_figures,
        Nat.pow_add, Nat.mul_assoc]
    · simp only [Literal.exponent, Literal.powerValue, length_zeros]
      unfold pointPlace at *
      omega

theorem renders_among (h : d.digits ≠ 0) (hlayout : layout.positional d.pointPlace = true)
    (hpos : 0 < d.pointPlace) (hpoint : d.pointPlace < d.figures.length) :
    Renders layout d
      ⟨d.figures.take d.pointPlace.toNat, d.figures.drop d.pointPlace.toNat, none⟩ where
  wellFormed := by
    refine ⟨fun c hc ↦ isDigit_of_mem_figures (List.mem_of_mem_take hc), .inr ?_,
      fun c hc ↦ isDigit_of_mem_figures (List.mem_of_mem_drop hc), nofun⟩
    have hstart := start_of_take h (n := d.pointPlace.toNat) (by omega) []
    rwa [List.append_nil] at hstart
  text := by
    have hne : d.figures.drop d.pointPlace.toNat ≠ [] := by
      rw [Ne, List.drop_eq_nil_iff]
      omega
    rw [render_of_ne_zero h, if_pos hlayout, positional, if_neg (by omega), if_neg (by omega),
      Literal.text, pointed_of_ne_nil hne]
    simp [Literal.powerText]
  denotes := by
    refine .inr ⟨0, ?_, ?_⟩
    · rw [Literal.digits, List.take_append_drop, ofDigits_figures, Nat.pow_zero, Nat.mul_one]
    · simp only [Literal.exponent, Literal.powerValue, List.length_drop]
      unfold pointPlace at *
      omega

theorem renders_scientific (h : d.digits ≠ 0) (hlayout : layout.positional d.pointPlace = false) :
    Renders layout d
      ⟨d.figures.take 1, d.figures.drop 1,
        some (decide (d.pointPlace - 1 < 0), Nat.toDigits 10 (d.pointPlace - 1).natAbs)⟩ where
  wellFormed := by
    refine ⟨fun c hc ↦ isDigit_of_mem_figures (List.mem_of_mem_take hc), .inr ?_,
      fun c hc ↦ isDigit_of_mem_figures (List.mem_of_mem_drop hc), ?_⟩
    · have hstart := start_of_take h Nat.one_pos []
      rwa [List.append_nil] at hstart
    · rintro p ⟨⟩
      exact ⟨Nat.toDigits_ne_nil, fun c hc ↦ isDigit_of_mem_toDigits hc⟩
  text := by
    have hpointed : pointed (d.figures.drop 1) =
        if 1 < d.figures.length then '.' :: d.figures.drop 1 else [] := by
      -- A single figure has no point behind it.
      by_cases hlength : 1 < d.figures.length
      · have hne : d.figures.drop 1 ≠ [] := by
          rw [Ne, List.drop_eq_nil_iff]
          omega
        rw [pointed_of_ne_nil hne, if_pos hlength]
      · rw [if_neg hlength, pointed, if_pos (List.drop_eq_nil_iff.2 (Nat.not_lt.1 hlength))]
    rw [render_of_ne_zero h, if_neg (by simp [hlayout]), scientific, Literal.text, hpointed]
    simp [Literal.powerText]
  denotes := by
    refine .inr ⟨0, ?_, ?_⟩
    · rw [Literal.digits, List.take_append_drop, ofDigits_figures, Nat.pow_zero, Nat.mul_one]
    · have hlength := List.length_pos_iff.2 d.figures_ne_nil
      have hpower : Literal.powerValue
          (some (decide (d.pointPlace - 1 < 0), Nat.toDigits 10 (d.pointPlace - 1).natAbs)) =
          d.pointPlace - 1 := by
        by_cases hneg : d.pointPlace - 1 < 0
        · rw [decide_eq_true hneg, Literal.powerValue, ofDigits_toDigits]
          omega
        · rw [decide_eq_false hneg, Literal.powerValue, ofDigits_toDigits]
          omega
      simp only [Literal.exponent, hpower, List.length_drop]
      unfold pointPlace at *
      omega

/-- Every decimal has a literal in every layout that ends whole numbers with zeros at most. If it does
end them so, none looks like an integer. -/
theorem exists_renders (hend : layout.wholeEnd = pointed (zeros k)) (d : Decimal) :
    ∃ l, Renders layout d l ∧ (l.fraction = [] → l.power = none → k = 0) := by
  have hzeros : zeros k = [] → k = 0 := fun h ↦ by simpa using congrArg List.length h
  by_cases h : d.digits = 0
  · exact ⟨_, renders_zero hend h, fun hf _ ↦ hzeros hf⟩
  cases hlayout : layout.positional d.pointPlace with
  | false => exact ⟨_, renders_scientific h hlayout, nofun⟩
  | true =>
    rcases Int.lt_or_le 0 d.pointPlace with hpos | hpos
    · rcases Int.lt_or_le d.pointPlace d.figures.length with hpoint | hpoint
      · refine ⟨_, renders_among h hlayout hpos hpoint, fun hf ↦ ?_⟩
        rw [List.drop_eq_nil_iff] at hf
        omega
      · exact ⟨_, renders_behind hend h hlayout hpoint, fun hf _ ↦ hzeros hf⟩
    · refine ⟨_, renders_before h hlayout hpos, fun hf ↦ ?_⟩
      exact absurd (List.append_eq_nil_iff.1 hf).2 d.figures_ne_nil

end MetricWatch.Decimal
