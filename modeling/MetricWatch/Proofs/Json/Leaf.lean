import MetricWatch.Json.Writer
import MetricWatch.Proofs.Binary64.Decimal
import MetricWatch.Proofs.Json.Number

namespace MetricWatch

open Json

namespace Node

/-- An integer beyond 64 bits is read as a real number. -/
def storedInteger (n : Int) : Node :=
  if -0x8000000000000000 ≤ n ∧ n < 0x10000000000000000 then integer n
  else if (Binary64.ofInt n).isFinite then real (.ofInt n)
  else foreign

def storedReal (x : Binary64) : Node := if x.isFinite then real x else null

end Node

namespace Json.NumberScan

open Decimal

theorem exists_scan_real {x : Binary64} (h : x.isFinite = true) :
    ∃ n, scan? (Json.real x) = some n ∧ n.complete = true ∧ n.node = .real x := by
  have hend : Layout.document.wholeEnd = pointed (zeros 1) := rfl
  obtain ⟨l, hl, hreal⟩ := exists_renders hend (x.shortest Layout.document.tie)
  have hvalue : Binary64.ofDecimal x.negative l.digits l.exponent = x := by
    rw [Binary64.ofDecimal_of_denotes x.negative hl.denotes, Binary64.ofDecimal_shortest _ h]
  have hpoint : ¬ (l.fraction = [] ∧ l.power = none) := fun hl ↦
    Nat.one_ne_zero (hreal hl.1 hl.2)
  have htext : Json.real x = signText x.negative ++ l.text := by
    rw [Json.real, if_pos h, Binary64.renderFinite, hl.text]
    rfl
  refine ⟨literalScan x.negative l, ?_, complete_literalScan, ?_⟩
  · rw [htext, scan?_literal hl.wellFormed]
  · rw [node_literalScan_real hpoint (by rw [hvalue, h]), hvalue]

def integerLiteral (n : Nat) : Literal := ⟨Nat.toDigits 10 n, [], none⟩

theorem wellFormed_integerLiteral (n : Nat) : (integerLiteral n).WellFormed where
  whole _ hc := isDigit_of_mem_toDigits hc
  start := by
    rcases Nat.eq_zero_or_pos n with rfl | hn
    · exact .inl rfl
    · exact .inr (toDigits_eq_cons hn)
  fraction := nofun
  power := nofun

theorem digits_integerLiteral (n : Nat) : (integerLiteral n).digits = n := by
  rw [Literal.digits, integerLiteral, List.append_nil, ofDigits_toDigits]

def integerScan (n : Int) : NumberScan := literalScan (decide (n < 0)) (integerLiteral n.natAbs)

theorem digits_integerScan (n : Int) : (integerScan n).digits = n.natAbs :=
  digits_integerLiteral _

theorem integer?_integerScan (n : Int) :
    (integerScan n).integer? =
      if -0x8000000000000000 ≤ n ∧ n < 0x10000000000000000 then some n else none := by
  have hpart : (integerScan n).part ∈ [NumberPart.zero, .whole] :=
    part_literalScan_mem_iff.2 ⟨rfl, rfl⟩
  have hnegative : (integerScan n).negative = decide (n < 0) := rfl
  rw [integer?, if_pos hpart, digits_integerScan, hnegative]
  by_cases hn : n < 0
  · rw [decide_eq_true hn, if_pos rfl]
    split_ifs with h h' h'
    · congr 1
      omega
    · omega
    · omega
    · rfl
  · rw [decide_eq_false hn, if_neg Bool.false_ne_true]
    split_ifs with h h' h'
    · congr 1
      omega
    · omega
    · omega
    · rfl

theorem node_integerScan (n : Int) : (integerScan n).node = .storedInteger n := by
  have hexponent : (integerScan n).exponentValue = 0 := exponentValue_literalScan
  have hvalue : Binary64.ofDecimal (integerScan n).negative n.natAbs 0 = .ofInt n := by
    rw [Binary64.ofDecimal_eq]
    simp [Binary64.ofInt, integerScan, literalScan]
  rw [node, integer?_integerScan, Node.storedInteger]
  by_cases hrange : -0x8000000000000000 ≤ n ∧ n < 0x10000000000000000
  · rw [if_pos hrange, if_pos hrange]
  · rw [if_neg hrange, if_neg hrange]
    dsimp only
    rw [hexponent, digits_integerScan, hvalue]

theorem exists_scan_integer (n : Int) :
    ∃ scan, scan? (Json.integer n) = some scan ∧ scan.complete = true ∧
      scan.node = .storedInteger n := by
  have htext : Json.integer n = signText (decide (n < 0)) ++ (integerLiteral n.natAbs).text := by
    simp [Json.integer, signText, Literal.text, Literal.powerText, integerLiteral, pointed]
  refine ⟨integerScan n, ?_, complete_literalScan, node_integerScan n⟩
  rw [htext, scan?_literal (wellFormed_integerLiteral _)]
  rfl

end Json.NumberScan

end MetricWatch
