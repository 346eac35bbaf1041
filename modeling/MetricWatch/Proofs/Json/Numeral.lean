import MetricWatch.Proofs.Binary64.Count
import MetricWatch.Proofs.Binary64.Numeral
import MetricWatch.Proofs.Json.RoundTrip

namespace MetricWatch

open Decimal

def Decimal.Numeral.node (n : Numeral) : Node :=
  (Json.NumberScan.literalScan n.negative n.literal).node

namespace Json

open NumberScan

abbrev Spaces (text : List Char) : Prop := ∀ c ∈ text, Machine.isSpace c = true

/-- Numerals with commas between them. -/
inductive Itemized : List Numeral → List Char → Prop where
  | last {left right : List Char} (n : Numeral) (hleft : Spaces left) (hright : Spaces right) :
      Itemized [n] (left ++ n.text ++ right)
  | next {left right text : List Char} {numerals : List Numeral} (n : Numeral)
      (hleft : Spaces left) (hright : Spaces right) (h : Itemized numerals text) :
      Itemized (n :: numerals) (left ++ n.text ++ right ++ ',' :: text)

inductive ArrayText : List Numeral → List Char → Prop where
  | intro {left right text : List Char} {numerals : List Numeral} (hleft : Spaces left)
      (hright : Spaces right) (h : Itemized numerals text) :
      ArrayText numerals (left ++ '[' :: (text ++ [']']) ++ right)

/-- An array under a name, in a record that holds nothing else. -/
inductive RecordText (name : String) : List Numeral → List Char → Prop where
  | intro {left first colon right text : List Char} {numerals : List Numeral} (hleft : Spaces left)
      (hfirst : Spaces first) (hcolon : Spaces colon) (hright : Spaces right)
      (h : ArrayText numerals text) :
      RecordText name numerals
        (left ++ '{' :: (first ++ quote name ++ colon ++ ':' :: text ++ ['}']) ++ right)

section Nodes

variable {n : Numeral}

theorem value_eq_ofInt {i : Int}
    (h : (literalScan n.negative n.literal).integer? = some i) : n.value = .ofInt i := by
  have hdigits : (literalScan n.negative n.literal).digits = n.literal.digits := rfl
  have hnegative : (literalScan n.negative n.literal).negative = n.negative := rfl
  have hvalue (hpart : (literalScan n.negative n.literal).part ∈ [NumberPart.zero, .whole]) :
      n.value = .ofQuotient n.negative (n.literal.digits * Binary64.unit) 1 := by
    obtain ⟨hfraction, hpower⟩ := part_literalScan_mem_iff.1 hpart
    have hexponent : n.literal.exponent = 0 := by
      rw [Literal.exponent, hfraction, hpower]
      rfl
    rw [Numeral.value, Binary64.ofDecimal_eq, hexponent]
    simp
  rw [integer?, hdigits, hnegative] at h
  split_ifs at h with hpart hneg hrange hrange
  · obtain rfl := Option.some.inj h
    have hbelow : -(n.literal.digits : Int) < 0 := by omega
    rw [hvalue hpart, Binary64.ofInt, decide_eq_true hbelow, Int.natAbs_neg, Int.natAbs_natCast,
      hneg]
  · obtain rfl := Option.some.inj h
    have hnot : ¬ (n.literal.digits : Int) < 0 := by omega
    rw [hvalue hpart, Binary64.ofInt, decide_eq_false hnot, Int.natAbs_natCast,
      Bool.eq_false_iff.2 hneg]

theorem node_numeral (n : Numeral) :
    (∃ i, n.node = .integer i ∧ n.value = .ofInt i ∧ n.value.isFinite = true) ∨
      n.node = if n.value.isFinite then .real n.value else .foreign := by
  cases h : (literalScan n.negative n.literal).integer? with
  | some i =>
    have hvalue := value_eq_ofInt h
    have hbounds := integer?_bounds h
    left
    refine ⟨i, ?_, hvalue, ?_⟩
    · rw [Numeral.node, NumberScan.node, h]
    · rw [hvalue]
      exact Binary64.isFinite_ofInt (by omega)
  | none =>
    right
    rw [Numeral.node, NumberScan.node, h]
    dsimp only
    rw [exponentValue_literalScan]
    rfl

theorem readable_node (n : Numeral) : n.node.readable = n.value.isFinite := by
  rcases node_numeral n with ⟨i, hnode, -, hfinite⟩ | hnode
  · rw [hnode, hfinite]
    rfl
  · rw [hnode]
    split_ifs with hfinite
    · rw [hfinite]
      rfl
    · rw [Bool.eq_false_iff.2 hfinite]
      rfl

theorem depth_node (n : Numeral) : n.node.depth = 0 := by
  rcases node_numeral n with ⟨i, hnode, -⟩ | hnode
  · rw [hnode]
    rfl
  · rw [hnode]
    split <;> rfl

theorem readReal_node (h : n.value.isFinite = true) : Node.readReal n.node = .ok n.value := by
  rcases node_numeral n with ⟨i, hnode, hvalue, -⟩ | hnode
  · rw [hnode, hvalue]
    rfl
  · rw [hnode, if_pos h]
    rfl

end Nodes

namespace Machine

variable {frames : List Frame} {place : Place} {numerals : List Numeral}
  {text : List Char}

theorem holds_numeral (hplace : TakesValue place) (n : Numeral) :
    Holds frames n.node (n.text.foldl step (between frames place)) :=
  .inr ⟨_, foldl_scan hplace (scan?_numeral n), complete_literalScan, rfl⟩

theorem holds_padded {left right : List Char} (hplace : TakesValue place) (n : Numeral)
    (hleft : Spaces left) (hright : Spaces right) :
    Holds frames n.node ((left ++ n.text ++ right).foldl step (between frames place)) := by
  rw [List.foldl_append, List.foldl_append, foldl_space hleft]
  exact holds_foldl_space (holds_numeral hplace n) hright

/-- The items are taken one after the other, and the last of them may still be open. The induction
is for all items before these. -/
theorem holds_itemized (before : List Node) (h : Itemized numerals text)
    (hplace : TakesValue place) :
    ∃ before' last, Holds (.items before' :: frames) last
      (text.foldl step (between (.items before :: frames) place)) ∧
      last :: before' = (numerals.map Numeral.node).reverse ++ before := by
  -- The items that have been read stand in reverse order, the last one in front.
  induction h generalizing before place with
  | last n hleft hright => exact ⟨before, n.node, holds_padded hplace n hleft hright, rfl⟩
  | next n hleft hright h ih =>
    have hitem : Holds (.items before :: frames) n.node _ := holds_padded hplace n hleft hright
    obtain ⟨before', last, hlast, hall⟩ := ih (n.node :: before) (.inl rfl)
    refine ⟨before', last, ?_, ?_⟩
    · rw [List.foldl_append, List.foldl_cons, step_comma_of_holds_item hitem]
      exact hlast
    · rw [hall]
      simp

theorem holds_arrayText (h : ArrayText numerals text) (hplace : TakesValue place) :
    Holds frames (.list (numerals.map Numeral.node))
      (text.foldl step (between frames place)) := by
  obtain ⟨hleft, hright, h⟩ := h
  obtain ⟨before, last, hlast, hall⟩ := holds_itemized [] h (.inr rfl)
  have hclosed : step _ ']' = deliver (.list (last :: before).reverse) frames :=
    step_of_holds hlast (ends_of_mem (by simp))
  rw [hall, List.append_nil, List.reverse_reverse] at hclosed
  simp only [List.foldl_append, List.foldl_cons, List.foldl_nil, foldl_space hleft,
    step_openList hplace, hclosed]
  exact holds_foldl_space (.inl rfl) hright

theorem holds_recordText {name : String} (h : RecordText name numerals text)
    (hplace : TakesValue place) :
    Holds frames (.record [(some name, .list (numerals.map Numeral.node))])
      (text.foldl step (between frames place)) := by
  obtain ⟨hleft, hfirst, hcolon, hright, h⟩ := h
  have hnamed : (between (.member [] (some name) :: frames) .colon).step ':' =
    between (.member [] (some name) :: frames) .value := rfl
  have harray : Holds (.member [] (some name) :: frames) _ _ := holds_arrayText h (.inl rfl)
  have hclosed : step _ '}' =
      deliver (.record [(some name, .list (numerals.map Numeral.node))]) frames :=
    step_of_holds harray (ends_of_mem (by simp))
  simp only [List.foldl_append, List.foldl_cons, List.foldl_nil, List.append_assoc,
    foldl_space hleft, step_openRecord hplace, foldl_space hfirst, foldl_name (.inl rfl),
    foldl_space hcolon, hnamed, hclosed]
  exact holds_foldl_space (.inl rfl) hright

end Machine

variable {numerals : List Numeral} {text : List Char}

theorem parse?_arrayText (h : ArrayText numerals text) :
    parse? (String.ofList text) = some (.list (numerals.map Numeral.node)) := by
  rw [parse?, read_of_holds (Machine.holds_arrayText h (.inl rfl))]
  rfl

theorem parse?_recordText {name : String} (h : RecordText name numerals text) :
    parse? (String.ofList text) =
      some (.record [(some name, .list (numerals.map Numeral.node))]) := by
  rw [parse?, read_of_holds (Machine.holds_recordText h (.inl rfl))]
  rfl

end Json

end MetricWatch
