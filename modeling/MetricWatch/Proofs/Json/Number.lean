import MetricWatch.Json.Lexeme
import MetricWatch.Proofs.Decimal.Numeral

namespace MetricWatch.Json.NumberScan

open Decimal

def more? (n : NumberScan) (c : Char) : Option NumberScan :=
  match n.step c with
  | .more n => some n
  | _ => none

def feed (n : NumberScan) (text : List Char) : Option NumberScan := text.foldlM more? n

def scan? : List Char → Option NumberScan
  | [] => none
  | c :: rest => (start? c).bind (·.feed rest)

def signText (negative : Bool) : List Char := if negative then ['-'] else []

variable {n n' : NumberScan} {text rest digits : List Char} {c : Char}

theorem step_of_more? (h : n.more? c = some n') : n.step c = .more n' := by
  unfold more? at h
  cases hstep : n.step c with
  | more m =>
    rw [hstep] at h
    rw [Option.some.inj h]
  | ended =>
    rw [hstep] at h
    cases h
  | fault =>
    rw [hstep] at h
    cases h

@[simp]
theorem feed_nil (n : NumberScan) : n.feed [] = some n := rfl

theorem feed_cons (h : n.step c = .more n') : n.feed (c :: rest) = n'.feed rest := by
  rw [feed, List.foldlM_cons, more?, h]
  rfl

theorem feed_append (h : n.feed text = some n') : n.feed (text ++ rest) = n'.feed rest := by
  rw [feed] at h
  rw [feed, List.foldlM_append, h]
  rfl

theorem scan?_append (h : scan? text = some n) : scan? (text ++ rest) = n.feed rest := by
  cases text with
  | nil => cases h
  | cons c text =>
    obtain ⟨m, hm, hfeed⟩ := Option.bind_eq_some_iff.1 h
    rw [List.cons_append, scan?, hm, Option.bind_some, feed_append hfeed]

theorem feed_digits {P : NumberScan → Prop} (take : NumberScan → Char → NumberScan)
    (hstep : ∀ n c, P n → c.isDigit = true → n.step c = .more (take n c) ∧ P (take n c))
    (hn : P n) (h : ∀ c ∈ digits, c.isDigit = true) :
    n.feed digits = some (digits.foldl take n) := by
  induction digits generalizing n with
  | nil => rfl
  | cons c digits ih =>
    obtain ⟨hc, hrest⟩ := List.forall_mem_cons.1 h
    obtain ⟨hmore, hnext⟩ := hstep n c hn hc
    rw [feed_cons hmore, ih hnext hrest, List.foldl_cons]

theorem foldl_addDigit (n : NumberScan) (digits : List Char) :
    digits.foldl addDigit n = { n with digits := Nat.ofDigitChars 10 digits n.digits } := by
  induction digits generalizing n with
  | nil => rfl
  | cons c digits ih =>
    rw [List.foldl_cons, ih, Nat.ofDigitChars_cons]
    rfl

theorem foldl_addPlace (n : NumberScan) (digits : List Char) :
    digits.foldl addPlace n =
      { n with
        part := if digits = [] then n.part else .fraction
        digits := Nat.ofDigitChars 10 digits n.digits
        places := n.places + digits.length } := by
  induction digits generalizing n with
  | nil => rfl
  | cons c digits ih =>
    rw [List.foldl_cons, ih, Nat.ofDigitChars_cons, List.length_cons]
    simp [addPlace, addDigit, digitOf, Nat.add_assoc, Nat.add_comm 1]

theorem foldl_addExponent (n : NumberScan) (digits : List Char) :
    digits.foldl addExponent n =
      { n with
        part := if digits = [] then n.part else .exponent
        exponent := Nat.ofDigitChars 10 digits n.exponent } := by
  induction digits generalizing n with
  | nil => rfl
  | cons c digits ih =>
    rw [List.foldl_cons, ih, Nat.ofDigitChars_cons]
    simp [addExponent, digitOf]

theorem feed_whole (hpart : n.part = .whole) (h : ∀ c ∈ digits, c.isDigit = true) :
    n.feed digits = some { n with digits := Nat.ofDigitChars 10 digits n.digits } := by
  rw [← foldl_addDigit]
  refine feed_digits addDigit (P := fun n ↦ n.part = .whole) (fun n c hn hc ↦ ⟨?_, hn⟩) hpart h
  rw [step, hn]
  exact if_pos hc

def wholeScan (negative : Bool) (whole : List Char) : NumberScan :=
  ⟨if whole = ['0'] then .zero else .whole, negative, ofDigits whole, 0, false, 0⟩

theorem scan?_zero (negative : Bool) :
    scan? (signText negative ++ ['0']) = some (wholeScan negative ['0']) := by
  cases negative <;> rfl

theorem scan?_cons (negative : Bool) (hc : c.isDigit = true) (hne : c ≠ '0')
    (h : ∀ c ∈ digits, c.isDigit = true) :
    scan? (signText negative ++ c :: digits) = some (wholeScan negative (c :: digits)) := by
  have hsign : c ≠ '-' := by
    rintro rfl
    exact absurd hc (by decide)
  have hwhole : wholeScan negative (c :: digits) =
      ⟨.whole, negative, ofDigits (c :: digits), 0, false, 0⟩ := by
    rw [wholeScan, if_neg (by simp [hne])]
  rw [hwhole]
  cases negative with
  | false =>
    have hstart : start? c = some ⟨.whole, false, digitOf c, 0, false, 0⟩ := by
      simp [start?, hsign, hne, hc]
    change (start? c).bind (·.feed digits) = _
    rw [hstart, Option.bind_some, feed_whole rfl h]
    simp [ofDigits_eq, Nat.ofDigitChars_cons, digitOf]
  | true =>
    have hstep : step ⟨.sign, true, 0, 0, false, 0⟩ c =
        .more ⟨.whole, true, digitOf c, 0, false, 0⟩ := by
      simp [step, addDigit, hne, hc]
    have hfeed := feed_whole (n := ⟨.whole, true, digitOf c, 0, false, 0⟩) rfl h
    change feed ⟨.sign, true, 0, 0, false, 0⟩ (c :: digits) = _
    rw [feed_cons hstep, hfeed]
    simp [ofDigits_eq, Nat.ofDigitChars_cons, digitOf]

theorem scan?_whole {l : Literal} (hl : l.WellFormed) (negative : Bool) :
    scan? (signText negative ++ l.whole) = some (wholeScan negative l.whole) := by
  rcases hl.start with hzero | ⟨c, digits, hcons, hne⟩
  · rw [hzero, scan?_zero]
  · have hdigits := hl.whole
    rw [hcons] at hdigits ⊢
    obtain ⟨hc, hrest⟩ := List.forall_mem_cons.1 hdigits
    exact scan?_cons negative hc hne hrest

def BeforePoint (n : NumberScan) : Prop := n.part = .zero ∨ n.part = .whole

theorem step_point (h : n.BeforePoint) : n.step '.' = .more { n with part := .point } := by
  rcases h with h | h
  · rw [step, h]
    rfl
  · rw [step, h]
    rfl

theorem feed_places (hn : n.part = .point ∨ n.part = .fraction)
    (h : ∀ c ∈ digits, c.isDigit = true) : n.feed digits = some (digits.foldl addPlace n) := by
  refine feed_digits addPlace (P := fun n ↦ n.part = .point ∨ n.part = .fraction)
    (fun n c hn hc ↦ ⟨?_, .inr rfl⟩) hn h
  rcases hn with hn | hn
  · rw [step, hn]
    exact if_pos hc
  · rw [step, hn]
    exact if_pos hc

theorem feed_pointed (hn : n.BeforePoint) (hplaces : n.places = 0)
    (h : ∀ c ∈ digits, c.isDigit = true) :
    n.feed (pointed digits) = some
      { n with
        part := if digits = [] then n.part else .fraction
        digits := Nat.ofDigitChars 10 digits n.digits
        places := digits.length } := by
  by_cases hnil : digits = []
  · subst hnil
    cases n
    cases hplaces
    rfl
  · rw [pointed_of_ne_nil hnil, feed_cons (step_point hn)]
    rw [feed_places (n := { n with part := .point }) (.inl rfl) h, foldl_addPlace, if_neg hnil,
      if_neg hnil]
    simp [hplaces]

def BeforeMark (n : NumberScan) : Prop := n.BeforePoint ∨ n.part = .fraction

theorem step_mark (h : n.BeforeMark) (hc : c = 'e' ∨ c = 'E') :
    n.step c = .more { n with part := .mark } := by
  rcases hc with rfl | rfl
  all_goals
    rcases h with (h | h) | h
    all_goals
      rw [step, h]
      rfl

def AfterMark (n : NumberScan) : Prop := n.part ∈ [NumberPart.mark, .exponentSign, .exponent]

theorem feed_exponent (hn : n.AfterMark) (h : ∀ c ∈ digits, c.isDigit = true) :
    n.feed digits = some (digits.foldl addExponent n) := by
  refine feed_digits addExponent (P := AfterMark) (fun n c hn hc ↦ ⟨?_, ?_⟩) hn h
  · have hsign : ¬ (c = '+' ∨ c = '-') := by
      rintro (rfl | rfl)
      · cases hc
      · cases hc
    simp only [AfterMark, List.mem_cons, List.not_mem_nil, or_false] at hn
    rcases hn with hn | hn | hn
    · rw [step, hn]
      exact (if_neg hsign).trans (if_pos hc)
    · rw [step, hn]
      exact if_pos hc
    · rw [step, hn]
      exact if_pos hc
  · exact List.mem_cons_of_mem _ (List.mem_cons_of_mem _ List.mem_cons_self)

theorem feed_powerText (m : Numeral) (hn : n.BeforeMark) (hnegative : n.exponentNegative = false)
    (hexponent : n.exponent = 0) :
    n.feed m.powerText = some
      { n with
        part := if m.literal.power = none then n.part else .exponent
        exponentNegative := (m.literal.power.map (·.1)).getD false
        exponent := (m.literal.power.map fun p ↦ ofDigits p.2).getD 0 } := by
  have hmark : n.step m.mark = .more { n with part := .mark } := step_mark hn m.mark_cases
  -- The digits of an exponent are read alike after the mark, a sign and another digit.
  have hfeed {digits : List Char} (hne : digits ≠ []) (hdigits : ∀ c ∈ digits, c.isDigit = true)
      (part : NumberPart) (hpart : part ∈ [NumberPart.mark, .exponentSign, .exponent])
      (negative : Bool) : feed { n with part := part, exponentNegative := negative } digits = some
        { n with
          part := .exponent
          exponentNegative := negative
          exponent := ofDigits digits } := by
    rw [feed_exponent (n := { n with part := part, exponentNegative := negative }) hpart hdigits,
      foldl_addExponent, if_neg hne]
    simp [hexponent, ofDigits_eq]
  unfold Numeral.powerText
  cases hpower : m.literal.power with
  | none =>
    cases n
    cases hnegative
    cases hexponent
    rfl
  | some p =>
    obtain ⟨negative, digits⟩ := p
    obtain ⟨hne, hdigits⟩ := m.wellFormed.power _ hpower
    cases negative with
    | true =>
      have hminus : step { n with part := .mark } '-' =
        .more { n with part := .exponentSign, exponentNegative := true } := rfl
      dsimp only
      rw [feed_cons hmark, feed_cons hminus, hfeed hne hdigits .exponentSign (by decide)]
      rfl
    | false =>
      have hplus : step { n with part := .mark } '+' =
        .more { n with part := .exponentSign, exponentNegative := false } := rfl
      dsimp only
      rw [feed_cons hmark]
      split
      · rw [feed_cons hplus, hfeed hne hdigits .exponentSign (by decide)]
        rfl
      · have hbare := hfeed hne hdigits .mark (by decide) false
        rw [← hnegative] at hbare
        rw [hbare]
        simp [hnegative]

def literalScan (negative : Bool) (l : Literal) : NumberScan where
  part :=
    if l.power ≠ none then .exponent
    else if l.fraction ≠ [] then .fraction
    else if l.whole = ['0'] then .zero
    else .whole
  negative := negative
  digits := l.digits
  places := l.fraction.length
  exponentNegative := (l.power.map (·.1)).getD false
  exponent := (l.power.map fun p ↦ ofDigits p.2).getD 0

theorem scan?_numeral (m : Numeral) : scan? m.text = some (literalScan m.negative m.literal) := by
  have hbefore : (wholeScan m.negative m.literal.whole).BeforePoint := by
    unfold BeforePoint wholeScan
    split
    · exact .inl rfl
    · exact .inr rfl
  have hpointed := feed_pointed hbefore rfl m.wellFormed.fraction
  have hdigits : Nat.ofDigitChars 10 m.literal.fraction (ofDigits m.literal.whole) =
      m.literal.digits := by
    rw [Literal.digits, ofDigits_eq, ofDigits_eq, Nat.ofDigitChars_append]
  have hmark : BeforeMark
      { wholeScan m.negative m.literal.whole with
        part := if m.literal.fraction = [] then (wholeScan m.negative m.literal.whole).part
          else .fraction
        digits := Nat.ofDigitChars 10 m.literal.fraction
          (wholeScan m.negative m.literal.whole).digits
        places := m.literal.fraction.length } := by
    unfold BeforeMark
    by_cases hnil : m.literal.fraction = []
    · exact .inl (by simpa [BeforePoint, hnil] using hbefore)
    · exact .inr (if_neg hnil)
  have htext : m.text =
      signText m.negative ++ m.literal.whole ++ (pointed m.literal.fraction ++ m.powerText) := by
    unfold Numeral.text Numeral.body signText
    split
    · simp
    · simp
  rw [htext, scan?_append (scan?_whole m.wellFormed m.negative), feed_append hpointed,
    feed_powerText m hmark rfl rfl, Option.some_inj, literalScan]
  simp only [wholeScan, hdigits, NumberScan.mk.injEq, and_true]
  by_cases hpower : m.literal.power = none
  · by_cases hnil : m.literal.fraction = []
    · simp [hpower, hnil]
    · simp [hpower, hnil]
  · simp [hpower]

theorem scan?_literal {l : Literal} (hl : l.WellFormed) (negative : Bool) :
    scan? (signText negative ++ l.text) = some (literalScan negative l) := by
  have htext : signText negative ++ l.text = (Numeral.ofLiteral negative l hl).text := by
    rw [Numeral.text, Numeral.body_ofLiteral]
    cases negative <;> rfl
  rw [htext, scan?_numeral]
  rfl

variable {l : Literal} {negative : Bool}

theorem complete_literalScan : (literalScan negative l).complete = true := by
  unfold complete literalScan
  dsimp only
  split_ifs <;> rfl

theorem exponentValue_literalScan : (literalScan negative l).exponentValue = l.exponent := by
  unfold exponentValue literalScan Literal.exponent
  cases l.power with
  | none => rfl
  | some p =>
    obtain ⟨b, digits⟩ := p
    cases b <;> rfl

theorem part_literalScan_mem_iff :
    (literalScan negative l).part ∈ [NumberPart.zero, .whole] ↔
      l.fraction = [] ∧ l.power = none := by
  unfold literalScan
  by_cases hpower : l.power = none
  · by_cases hfraction : l.fraction = []
    · by_cases hzero : l.whole = ['0']
      · simp [hpower, hfraction, hzero]
      · simp [hpower, hfraction, hzero]
    · simp [hpower, hfraction]
  · simp [hpower]

theorem node_literalScan_real (h : ¬ (l.fraction = [] ∧ l.power = none))
    (hfinite : (Binary64.ofDecimal negative l.digits l.exponent).isFinite = true) :
    (literalScan negative l).node = .real (Binary64.ofDecimal negative l.digits l.exponent) := by
  have hpart : (literalScan negative l).part ∉ [NumberPart.zero, .whole] :=
    mt part_literalScan_mem_iff.1 h
  have hnone : (literalScan negative l).integer? = none := if_neg hpart
  have hdigits : (literalScan negative l).digits = l.digits := rfl
  have hnegative : (literalScan negative l).negative = negative := rfl
  rw [node, hnone]
  dsimp only
  rw [exponentValue_literalScan, hdigits, hnegative, if_pos hfinite]

/-- What neither goes on with a literal nor makes it invalid. -/
def Ends (c : Char) : Prop :=
  c.isDigit = false ∧ c ≠ '.' ∧ c ≠ 'e' ∧ c ≠ 'E'

theorem step_of_ends (h : n.complete = true) (hc : Ends c) : n.step c = .ended := by
  obtain ⟨hdigit, hpoint, he, hE⟩ := hc
  have hpart : n.part ∈ [NumberPart.zero, .whole, .fraction, .exponent] := of_decide_eq_true h
  unfold step pointOrMark
  cases hp : n.part <;> simp_all

end MetricWatch.Json.NumberScan
