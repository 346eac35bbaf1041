import MetricWatch.Proofs.Decimal.Literal

namespace MetricWatch.Decimal

structure Numeral where
  negative : Bool
  literal : Literal
  wellFormed : literal.WellFormed
  /-- Whether the mark of the exponent is a capital letter. -/
  capital : Bool
  /-- Whether an exponent without a minus sign has a plus sign. -/
  plus : Bool

namespace Numeral

variable (n : Numeral)

def mark : Char := if n.capital then 'E' else 'e'

def powerText : List Char :=
  match n.literal.power with
  | none => []
  | some (true, digits) => n.mark :: '-' :: digits
  | some (false, digits) => n.mark :: if n.plus then '+' :: digits else digits

def body : List Char := n.literal.whole ++ (pointed n.literal.fraction ++ n.powerText)

def text : List Char := if n.negative then '-' :: n.body else n.body

/-- The numeral of a literal in the spelling that literals have. -/
def ofLiteral (negative : Bool) (l : Literal) (h : l.WellFormed) : Numeral :=
  ⟨negative, l, h, false, true⟩

theorem body_ofLiteral (negative : Bool) {l : Literal} (h : l.WellFormed) :
    (ofLiteral negative l h).body = l.text := by
  have hpower : (ofLiteral negative l h).powerText = Literal.powerText l.power := by
    unfold powerText Literal.powerText ofLiteral
    rcases l.power with _ | ⟨_ | _, digits⟩ <;> rfl
  rw [body, hpower, Literal.text, List.append_assoc]
  rfl

theorem mark_cases : n.mark = 'e' ∨ n.mark = 'E' := by
  unfold mark
  split
  · exact .inr rfl
  · exact .inl rfl

theorem mark_not_isDigit : n.mark.isDigit = false := by
  rcases n.mark_cases with h | h
  · rw [h]
    rfl
  · rw [h]
    rfl

theorem exists_body : ∃ c rest, n.body = c :: rest ∧ c.isDigit = true := by
  have hwhole : ∃ c digits, n.literal.whole = c :: digits := by
    rcases n.wellFormed.start with h | ⟨c, digits, h, -⟩
    · exact ⟨_, _, h⟩
    · exact ⟨_, _, h⟩
  obtain ⟨c, digits, h⟩ := hwhole
  refine ⟨c, digits ++ (pointed n.literal.fraction ++ n.powerText), by rw [body, h]; rfl, ?_⟩
  exact n.wellFormed.whole c (h ▸ List.mem_cons_self)

theorem head_powerText {c : Char} (h : c ∈ n.powerText.head?) : c = n.mark := by
  unfold powerText at h
  split at h
  · cases h
  · exact (Option.some.inj h).symm
  · exact (Option.some.inj h).symm

def IsPart (c : Char) : Prop := c.isDigit = true ∨ c ∈ ['-', '+', '.', 'e', 'E']

variable {n} {c : Char}

theorem isPart_of_mem_powerText (h : c ∈ n.powerText) : IsPart c := by
  have hmark : IsPart n.mark := by
    rcases n.mark_cases with hc | hc
    · rw [hc]
      exact .inr (by decide)
    · rw [hc]
      exact .inr (by decide)
  unfold powerText at h
  cases hpower : n.literal.power with
  | none => simp [hpower] at h
  | some p =>
    obtain ⟨negative, digits⟩ := p
    have hdigits : ∀ c ∈ digits, IsPart c := fun c hc ↦
      .inl ((n.wellFormed.power (negative, digits) hpower).2 c hc)
    have hsigned (sign : Char) (hsign : sign ∈ ['-', '+', '.', 'e', 'E']) :
        ∀ c ∈ sign :: digits, IsPart c := List.forall_mem_cons.2 ⟨.inr hsign, hdigits⟩
    rw [hpower] at h
    cases negative with
    | true => exact List.forall_mem_cons.2 ⟨hmark, hsigned '-' (by decide)⟩ c h
    | false =>
      refine List.forall_mem_cons.2 ⟨hmark, ?_⟩ c h
      split
      · exact hsigned '+' (by decide)
      · exact hdigits

theorem isPart_of_mem_body (h : c ∈ n.body) : IsPart c := by
  rcases List.mem_append.1 h with h | h
  · exact .inl (n.wellFormed.whole c h)
  rcases List.mem_append.1 h with h | h
  · unfold pointed at h
    split at h
    · cases h
    · rcases List.mem_cons.1 h with rfl | h
      · exact .inr (by decide)
      · exact .inl (n.wellFormed.fraction c h)
  · exact isPart_of_mem_powerText h

theorem isPart_of_mem_text (h : c ∈ n.text) : IsPart c := by
  unfold text at h
  split at h
  · rcases List.mem_cons.1 h with rfl | h
    · exact .inr (by decide)
    · exact isPart_of_mem_body h
  · exact isPart_of_mem_body h

theorem text_ne_nil : n.text ≠ [] := by
  obtain ⟨c, rest, hbody, -⟩ := n.exists_body
  unfold text
  split
  · exact List.cons_ne_nil _ _
  · rw [hbody]
    exact List.cons_ne_nil _ _

end Numeral

end MetricWatch.Decimal
