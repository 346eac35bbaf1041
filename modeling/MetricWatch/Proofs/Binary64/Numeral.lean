import MetricWatch.Binary64.Text
import MetricWatch.Proofs.Binary64.Decimal
import MetricWatch.Proofs.Decimal.Numeral

namespace MetricWatch

open Decimal

def Decimal.Numeral.value (n : Numeral) : Binary64 :=
  .ofDecimal n.negative n.literal.digits n.literal.exponent

namespace Binary64

variable {digits rest : List Char} {c : Char}

theorem splitSign_of_isDigit (h : c.isDigit = true) :
    splitSign (c :: rest) = (false, c :: rest) := by
  unfold splitSign
  split
  · rename_i heq
    obtain ⟨rfl, -⟩ := List.cons.inj heq
    cases h
  · rename_i heq
    obtain ⟨rfl, -⟩ := List.cons.inj heq
    cases h
  · rfl

theorem splitSign_text (n : Numeral) : splitSign n.text = (n.negative, n.body) := by
  obtain ⟨c, rest, hbody, hc⟩ := n.exists_body
  unfold Numeral.text
  split
  · rename_i hnegative
    rw [hnegative]
    rfl
  · rename_i hnegative
    rw [Bool.eq_false_iff.2 hnegative, hbody, splitSign_of_isDigit hc]

theorem takeWhile_isDigit_append (hdigits : ∀ c ∈ digits, c.isDigit = true)
    (hrest : ∀ c ∈ rest.head?, c.isDigit = false) :
    (digits ++ rest).takeWhile Char.isDigit = digits ∧
      (digits ++ rest).dropWhile Char.isDigit = rest := by
  rw [List.takeWhile_append_of_pos hdigits, List.dropWhile_append_of_pos hdigits]
  cases rest with
  | nil => exact ⟨List.append_nil digits, rfl⟩
  | cons c rest =>
    have hc : ¬ c.isDigit = true := Bool.eq_false_iff.1 (hrest c rfl)
    rw [List.takeWhile_cons_of_neg hc, List.dropWhile_cons_of_neg hc, List.append_nil]
    exact ⟨rfl, rfl⟩

theorem exponent?_powerText (n : Numeral) :
    exponent? n.powerText = some (Literal.powerValue n.literal.power) := by
  unfold Numeral.powerText
  cases hpower : n.literal.power with
  | none => rfl
  | some p =>
    obtain ⟨negative, digits⟩ := p
    obtain ⟨hne, hdigits⟩ := n.wellFormed.power _ hpower
    have haccepted : (n.mark = 'e' ∨ n.mark = 'E') ∧ digits ≠ [] ∧
        digits.all Char.isDigit = true := ⟨n.mark_cases, hne, List.all_eq_true.2 hdigits⟩
    cases negative with
    | true =>
      have hsplit : splitSign ('-' :: digits) = (true, digits) := rfl
      dsimp only [exponent?]
      rw [hsplit]
      dsimp only
      rw [if_pos haccepted, if_pos rfl]
      rfl
    | false =>
      have hsplit : splitSign (if n.plus then '+' :: digits else digits) = (false, digits) := by
        split
        · rfl
        · obtain ⟨c, rest, rfl⟩ := List.exists_cons_of_ne_nil hne
          exact splitSign_of_isDigit (hdigits c List.mem_cons_self)
      dsimp only [exponent?]
      rw [hsplit]
      dsimp only
      rw [if_pos haccepted, if_neg Bool.false_ne_true]
      rfl

theorem readUnsigned?_body (n : Numeral) (negative : Bool) :
    readUnsigned? negative n.body =
      some (ofDecimal negative n.literal.digits n.literal.exponent) := by
  have hmark : ∀ c ∈ n.powerText.head?, c.isDigit = false := fun c hc ↦
    n.head_powerText hc ▸ n.mark_not_isDigit
  have hwhole : n.literal.whole ≠ [] := by
    rcases n.wellFormed.start with h | ⟨c, digits, h, -⟩
    · exact h ▸ List.cons_ne_nil _ _
    · exact h ▸ List.cons_ne_nil _ _
  -- Each run of digits ends where no digit follows: at the point, at the mark or with the text.
  by_cases hfraction : n.literal.fraction = []
  · obtain ⟨htake, hdrop⟩ := takeWhile_isDigit_append n.wellFormed.whole hmark
    have hbody : n.body = n.literal.whole ++ n.powerText := by
      rw [Numeral.body, hfraction]
      rfl
    have hpoint : ∀ rest, n.powerText ≠ '.' :: rest := by
      intro rest h
      have hc : '.' = n.mark := n.head_powerText (by rw [h]; rfl)
      rcases n.mark_cases with hmark | hmark
      · cases hc.trans hmark
      · cases hc.trans hmark
    unfold readUnsigned?
    rw [hbody, htake, hdrop]
    dsimp only
    split
    · rename_i rest hpower
      exact absurd hpower (hpoint rest)
    · rw [if_neg fun h ↦ hwhole h.1, exponent?_powerText, Option.map_some, Literal.digits,
        Literal.exponent, hfraction]
  · have hbody : n.body = n.literal.whole ++ '.' :: (n.literal.fraction ++ n.powerText) := by
      rw [Numeral.body, pointed_of_ne_nil hfraction]
      rfl
    have hpoint : ∀ c ∈ ('.' :: (n.literal.fraction ++ n.powerText)).head?, c.isDigit = false := by
      rintro c ⟨⟩
      rfl
    obtain ⟨htake, hdrop⟩ := takeWhile_isDigit_append n.wellFormed.whole hpoint
    obtain ⟨htake', hdrop'⟩ := takeWhile_isDigit_append n.wellFormed.fraction hmark
    unfold readUnsigned?
    rw [hbody, htake, hdrop]
    dsimp only
    split
    · rename_i rest hrest
      obtain ⟨-, rfl⟩ := List.cons.inj hrest
      dsimp only
      rw [htake', hdrop', if_neg fun h ↦ hwhole h.1, exponent?_powerText, Option.map_some]
      rfl
    · rename_i hother
      exact absurd rfl (hother _)

theorem toLower_of_isDigit (h : c.isDigit = true) : c.toLower = c := by
  have hhigh : c.val ≤ '9'.val := of_decide_eq_true (Bool.and_eq_true_iff.1 h).2
  exact dif_neg fun hcapital ↦ absurd (UInt32.le_trans hcapital.1 hhigh) (by decide)

/-- None of the words begins with a digit. -/
theorem read?_text (n : Numeral) : read? (String.ofList n.text) = some n.value := by
  obtain ⟨c, rest, hbody, hc⟩ := n.exists_body
  have hword (word : String) (hword : word.toList.head?.map Char.isDigit = some false) :
      String.ofList (n.body.map Char.toLower) ≠ word := by
    rintro rfl
    rw [String.toList_ofList, hbody, List.map_cons, List.head?_cons, Option.map_some,
      toLower_of_isDigit hc, hc] at hword
    cases hword
  have hinf := hword "inf" rfl
  have hinfinity := hword "infinity" rfl
  have hnan := hword "nan" rfl
  unfold read?
  rw [String.toList_ofList, splitSign_text]
  dsimp only
  rw [if_neg (not_or.2 ⟨hinf, hinfinity⟩), if_neg hnan, readUnsigned?_body]
  rfl

/-- The sign of zero is written and read as well. -/
theorem exists_numeral {layout : Layout} {k : Nat} (hend : layout.wholeEnd = pointed (zeros k))
    {x : Binary64} (h : x.isFinite = true) :
    ∃ n : Numeral, n.text = x.renderFinite layout ∧ n.value = x := by
  obtain ⟨l, hl, -⟩ := exists_renders hend (x.shortest layout.tie)
  refine ⟨.ofLiteral x.negative l hl.wellFormed, ?_, ?_⟩
  · rw [renderFinite, ← hl.text, Numeral.text, Numeral.body_ofLiteral]
    unfold signText Numeral.ofLiteral
    split <;> rfl
  · exact (ofDecimal_of_denotes x.negative hl.denotes).trans (ofDecimal_shortest layout.tie h)

end Binary64

end MetricWatch
