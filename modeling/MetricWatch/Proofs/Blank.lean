import Mathlib.Data.List.DropRight
import Mathlib.Tactic.SplitIfs
import MetricWatch.Blank

namespace MetricWatch

variable {text digits rest left right core : List Char} {c separator : Char}

theorem isBlank_of_isDigit (h : c.isDigit = true) : isBlank c = false := by
  obtain ⟨hlow, hhigh⟩ := Char.isDigit_iff_toNat.1 h
  have hzero : '0'.toNat = 48 := rfl
  have hnine : '9'.toNat = 57 := rfl
  simp [isBlank, blankRanges]
  omega

theorem dropBlanks_cons (h : isBlank c = false) : dropBlanks (c :: rest) = c :: rest :=
  List.dropWhile_cons_of_neg (Bool.eq_false_iff.1 h)

theorem dropBlanks_append_of_blank (hleft : ∀ c ∈ left, isBlank c = true) :
    dropBlanks (left ++ text) = dropBlanks text :=
  List.dropWhile_append_of_pos hleft

theorem dropBlanks_of_blank (h : ∀ c ∈ text, isBlank c = true) : dropBlanks text = [] :=
  List.dropWhile_eq_nil_iff.2 h

theorem dropBlanks_core (hne : core ≠ []) (hcore : ∀ c ∈ core, isBlank c = false) :
    dropBlanks (core ++ rest) = core ++ rest := by
  obtain ⟨c, core, rfl⟩ := List.exists_cons_of_ne_nil hne
  exact dropBlanks_cons (hcore c List.mem_cons_self)

theorem dropBlanks_append (hne : digits ≠ []) (hdigits : ∀ c ∈ digits, c.isDigit = true) :
    dropBlanks (digits ++ rest) = digits ++ rest :=
  dropBlanks_core hne fun c hc ↦ isBlank_of_isDigit (hdigits c hc)

theorem trimBlanks_of_blank (h : ∀ c ∈ text, isBlank c = true) : trimBlanks text = [] := by
  rw [trimBlanks, dropBlanks_of_blank h]
  rfl

theorem trimBlanks_padded (hleft : ∀ c ∈ left, isBlank c = true)
    (hright : ∀ c ∈ right, isBlank c = true) (hne : core ≠ [])
    (hcore : ∀ c ∈ core, isBlank c = false) : trimBlanks (left ++ core ++ right) = core := by
  have hback : dropBlanks (core ++ right).reverse = core.reverse := by
    rw [List.reverse_append, dropBlanks_append_of_blank fun c hc ↦ hright c (List.mem_reverse.1 hc)]
    have hreverse : dropBlanks (core.reverse ++ []) = core.reverse ++ [] :=
      dropBlanks_core (mt List.reverse_eq_nil_iff.1 hne) fun c hc ↦ hcore c (List.mem_reverse.1 hc)
    rwa [List.append_nil] at hreverse
  rw [trimBlanks, List.append_assoc, dropBlanks_append_of_blank hleft, dropBlanks_core hne hcore,
    hback, List.reverse_reverse]

theorem splitAtChar_ne_nil (separator : Char) (text : List Char) :
    splitAtChar separator text ≠ [] := by
  cases text with
  | nil => exact List.cons_ne_nil _ _
  | cons c rest =>
    unfold splitAtChar
    split_ifs
    · exact List.cons_ne_nil _ _
    · split
      · exact List.cons_ne_nil _ _
      · exact List.cons_ne_nil _ _

theorem splitAtChar_eq_splitOn (separator : Char) (text : List Char) :
    splitAtChar separator text = text.splitOn separator := by
  induction text with
  | nil => rfl
  | cons c rest ih =>
    obtain ⟨piece, pieces, hpieces⟩ :=
      List.exists_cons_of_ne_nil (splitAtChar_ne_nil separator rest)
    rw [splitAtChar, List.splitOn, List.splitOnP_cons_eq_if_modifyHead, ← List.splitOn, ← ih,
      hpieces]
    simp only [beq_iff_eq, List.modifyHead_cons]

theorem splitAtChar_append (separator : Char) (text rest : List Char) :
    splitAtChar separator (text ++ separator :: rest) =
      splitAtChar separator text ++ splitAtChar separator rest := by
  induction text with
  | nil => exact if_pos rfl
  | cons c text ih =>
    obtain ⟨piece, pieces, hpieces⟩ :=
      List.exists_cons_of_ne_nil (splitAtChar_ne_nil separator text)
    rw [List.cons_append, splitAtChar, ih, splitAtChar, hpieces]
    split_ifs
    · rfl
    · rfl

end MetricWatch
