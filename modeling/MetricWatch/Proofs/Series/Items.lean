import Mathlib.Data.List.Forall2
import MetricWatch.Proofs.Binary64.Numeral
import MetricWatch.Proofs.Blank
import MetricWatch.Proofs.Node.Faithful
import MetricWatch.Series

namespace MetricWatch

section Runs

variable {ε β γ : Type} {f : β → Except ε γ} {items : List β} {values : List γ} {fault : ε}

theorem mapM_eq_ok_iff :
    items.mapM f = .ok values ↔ List.Forall₂ (fun b v ↦ f b = .ok v) items values := by
  induction items generalizing values with
  | nil =>
    rw [List.mapM_nil, List.forall₂_nil_left_iff]
    exact ⟨fun h ↦ (Except.ok.inj h).symm, fun h ↦ h ▸ rfl⟩
  | cons b items ih =>
    rw [List.mapM_cons, List.forall₂_cons_left_iff]
    constructor
    · intro h
      obtain ⟨v, hv, h⟩ := Node.ok_of_bind h
      obtain ⟨vs, hvs, h⟩ := Node.ok_of_bind h
      exact ⟨v, vs, hv, ih.1 hvs, (Except.ok.inj h).symm⟩
    · rintro ⟨v, vs, hv, hvs, rfl⟩
      rw [hv, ih.2 hvs]
      rfl

theorem mapM_eq_error_iff :
    items.mapM f = .error fault ↔ ∃ before b after, items = before ++ b :: after ∧
      (∀ a ∈ before, ∃ v, f a = .ok v) ∧ f b = .error fault := by
  -- The first fault is that of the head, or the first one behind a head without a fault.
  induction items with
  | nil =>
    refine iff_of_false nofun ?_
    rintro ⟨before, b, after, h, -⟩
    exact List.append_ne_nil_of_right_ne_nil before (List.cons_ne_nil b after) h.symm
  | cons a items ih =>
    rw [List.mapM_cons]
    constructor
    · intro h
      cases ha : f a with
      | error first =>
        rw [ha] at h
        obtain rfl := Except.error.inj h
        exact ⟨[], a, items, rfl, nofun, ha⟩
      | ok v =>
        cases hrest : items.mapM f with
        | error later =>
          rw [ha, hrest] at h
          obtain rfl := Except.error.inj h
          obtain ⟨before, b, after, rfl, hbefore, hb⟩ := ih.1 hrest
          exact ⟨a :: before, b, after, rfl, List.forall_mem_cons.2 ⟨⟨v, ha⟩, hbefore⟩, hb⟩
        | ok vs =>
          rw [ha, hrest] at h
          cases h
    · rintro ⟨before, b, after, hitems, hbefore, hb⟩
      cases before with
      | nil =>
        obtain ⟨rfl, rfl⟩ := List.cons.inj hitems
        rw [hb]
        rfl
      | cons first before =>
        obtain ⟨rfl, rfl⟩ := List.cons.inj hitems
        obtain ⟨⟨v, hv⟩, hrest⟩ := List.forall_mem_cons.1 hbefore
        rw [hv, ih.2 ⟨before, b, after, rfl, hrest, hb⟩]
        rfl

end Runs

namespace Series

open Decimal

/-- The pieces between the commas, without the blanks around them, as far as anything is left. -/
def listed (text : String) : List String :=
  (((text.toList.splitOn ',').map fun piece ↦ (piece.dropWhile isBlank).rdropWhile isBlank).filter
    fun item ↦ item ≠ []).map String.ofList

abbrev Reads (item : String) (x : Binary64) : Prop :=
  Binary64.read? item = some x ∧ x.isFinite = true

/-- Why an item is refused. -/
def Refuses (item : String) (fault : DataFault Binary64) : Prop :=
  Binary64.read? item = none ∧ fault = .notANumber item ∨
    ∃ x, Binary64.read? item = some x ∧ x.isFinite = false ∧ fault = .notFinite x

/-- Items with blanks around them, and blank pieces between them. -/
inductive Padded : (pieces items : List (List Char)) → Prop where
  | nil : Padded [] []
  | blank {piece : List Char} {pieces items : List (List Char)}
      (hpiece : ∀ c ∈ piece, isBlank c = true) (h : Padded pieces items) :
      Padded (piece :: pieces) items
  | item {left right : List Char} (item : List Char) {pieces items : List (List Char)}
      (hleft : ∀ c ∈ left, isBlank c = true) (hright : ∀ c ∈ right, isBlank c = true)
      (h : Padded pieces items) : Padded ((left ++ item ++ right) :: pieces) (item :: items)

def joined (pieces : List (List Char)) : String := String.ofList ([','].intercalate pieces)

variable {text rest item : String} {x : Binary64} {values : List Binary64}
  {fault : DataFault Binary64} {pieces lists : List (List Char)} {c : Char}

theorem items_eq_listed (text : String) : items text = listed text := by
  have hkept (kept : List (List Char)) :
      (kept.filterMap fun item ↦ if item.isEmpty then none else some (String.ofList item)) =
        (kept.filter fun item ↦ item ≠ []).map String.ofList := by
    induction kept with
    | nil => rfl
    | cons item kept ih =>
      cases item with
      | nil => simpa using ih
      | cons c item => simpa using ih
  rw [items, splitAtChar_eq_splitOn, hkept]
  rfl

theorem listed_append (text rest : String) :
    listed (text ++ "," ++ rest) = listed text ++ listed rest := by
  have htext : (text ++ "," ++ rest).toList = text.toList ++ ',' :: rest.toList := by
    simp
  simp only [listed, ← splitAtChar_eq_splitOn, htext, splitAtChar_append, List.map_append,
    List.filter_append]

theorem readItem_eq_ok_iff : readItem item = .ok x ↔ Reads item x := by
  unfold readItem Reads
  cases Binary64.read? item with
  | none => exact iff_of_false nofun nofun
  | some y =>
    dsimp only
    split_ifs with hfinite
    · rw [Except.ok.injEq, Option.some_inj]
      exact ⟨fun h ↦ ⟨h, h ▸ hfinite⟩, And.left⟩
    · refine iff_of_false nofun ?_
      rintro ⟨⟨⟩, h⟩
      exact hfinite h

theorem readItem_eq_error_iff : readItem item = .error fault ↔ Refuses item fault := by
  unfold readItem Refuses
  cases Binary64.read? item with
  | none =>
    constructor
    · rintro ⟨⟩
      exact .inl ⟨rfl, rfl⟩
    · rintro (⟨-, rfl⟩ | ⟨x, ⟨⟩, -⟩)
      rfl
  | some y =>
    dsimp only
    split_ifs with hfinite
    · refine iff_of_false nofun ?_
      rintro (⟨⟨⟩, -⟩ | ⟨x, ⟨⟩, hx, -⟩)
      rw [hfinite] at hx
      cases hx
    · constructor
      · rintro ⟨⟩
        exact .inr ⟨y, rfl, Bool.eq_false_iff.2 hfinite, rfl⟩
      · rintro (⟨⟨⟩, -⟩ | ⟨x, ⟨⟩, -, rfl⟩)
        rfl

theorem readValues_eq (text : String) : readValues text =
    if listed text = [] then .error .noValues else (listed text).mapM readItem := by
  unfold readValues
  rw [items_eq_listed]
  cases listed text with
  | nil => rfl
  | cons item rest =>
    rw [if_neg (List.cons_ne_nil _ _)]
    cases hread : (item :: rest).mapM readItem with
    | error fault => rfl
    | ok values =>
      have hne : ¬ values.isEmpty = true := by
        obtain ⟨x, tail, -, -, rfl⟩ := List.forall₂_cons_left_iff.1 (mapM_eq_ok_iff.1 hread)
        exact Bool.false_ne_true
      exact if_neg hne

theorem readValues_eq_ok_iff : readValues text = .ok values ↔
    listed text ≠ [] ∧ List.Forall₂ Reads (listed text) values := by
  rw [readValues_eq]
  split_ifs with hnil
  · exact iff_of_false nofun fun h ↦ h.1 hnil
  · simp only [mapM_eq_ok_iff, readItem_eq_ok_iff]
    exact (and_iff_right hnil).symm

theorem readValues_eq_error_iff : readValues text = .error fault ↔
    listed text = [] ∧ fault = .noValues ∨
      ∃ before item after, listed text = before ++ item :: after ∧
        (∀ i ∈ before, ∃ x, Reads i x) ∧ Refuses item fault := by
  rw [readValues_eq]
  split_ifs with hnil
  · rw [hnil, Except.error.injEq, eq_comm]
    refine ⟨fun h ↦ .inl ⟨rfl, h⟩, ?_⟩
    rintro (⟨-, h⟩ | ⟨before, item, after, h, -⟩)
    · exact h
    · exact absurd h.symm (List.append_ne_nil_of_right_ne_nil before (List.cons_ne_nil item after))
  · simp only [mapM_eq_error_iff, readItem_eq_ok_iff, readItem_eq_error_iff]
    exact (or_iff_right fun h ↦ hnil h.1).symm

theorem readValues_append_of_error (h : readValues text = .error fault) (hne : fault ≠ .noValues)
    (rest : String) : readValues (text ++ "," ++ rest) = .error fault := by
  rcases readValues_eq_error_iff.1 h with ⟨-, hnone⟩ | ⟨before, item, after, hitems, hbefore, hitem⟩
  · exact absurd hnone hne
  · refine readValues_eq_error_iff.2 (.inr ⟨before, item, after ++ listed rest, ?_, hbefore, hitem⟩)
    rw [listed_append, hitems, List.append_assoc, List.cons_append]

theorem isPart_not_blank (h : Numeral.IsPart c) : isBlank c = false ∧ c ≠ ',' := by
  rcases h with h | h
  · refine ⟨isBlank_of_isDigit h, ?_⟩
    rintro rfl
    cases h
  · simp only [List.mem_cons, List.not_mem_nil, or_false] at h
    rcases h with rfl | rfl | rfl | rfl | rfl
    all_goals exact ⟨rfl, by decide⟩

theorem isBlank_ne_comma (h : isBlank c = true) : c ≠ ',' := by
  rintro rfl
  cases h

namespace Padded

theorem self (items : List (List Char)) : Padded items items := by
  induction items with
  | nil => exact .nil
  | cons first rest ih =>
    have hfirst : Padded (([] ++ first ++ []) :: rest) (first :: rest) :=
      .item first (List.forall_mem_nil _) (List.forall_mem_nil _) ih
    rwa [List.append_nil] at hfirst

variable (h : Padded pieces lists)
  (hlists : ∀ item ∈ lists, item ≠ [] ∧ ∀ c ∈ item, Numeral.IsPart c)
include h hlists

theorem not_mem_comma : ∀ piece ∈ pieces, ',' ∉ piece := by
  induction h with
  | nil => exact nofun
  | blank hpiece h ih =>
    exact List.forall_mem_cons.2 ⟨fun hc ↦ isBlank_ne_comma (hpiece _ hc) rfl, ih hlists⟩
  | item item hleft hright h ih =>
    obtain ⟨⟨-, hitem⟩, hrest⟩ := List.forall_mem_cons.1 hlists
    refine List.forall_mem_cons.2 ⟨fun hc ↦ ?_, ih hrest⟩
    rcases List.mem_append.1 hc with hc | hc
    · rcases List.mem_append.1 hc with hc | hc
      · exact isBlank_ne_comma (hleft _ hc) rfl
      · exact (isPart_not_blank (hitem _ hc)).2 rfl
    · exact isBlank_ne_comma (hright _ hc) rfl

theorem filter_map_trimBlanks :
    (pieces.map trimBlanks).filter (fun item ↦ item ≠ []) = lists := by
  induction h with
  | nil => rfl
  | blank hpiece h ih =>
    rw [List.map_cons, trimBlanks_of_blank hpiece]
    exact ih hlists
  | item item hleft hright h ih =>
    obtain ⟨⟨hne, hitem⟩, hrest⟩ := List.forall_mem_cons.1 hlists
    have hcore : ∀ c ∈ item, isBlank c = false := fun c hc ↦ (isPart_not_blank (hitem c hc)).1
    rw [List.map_cons, trimBlanks_padded hleft hright hne hcore,
      List.filter_cons_of_pos (by simpa using hne), ih hrest]

theorem listed_joined (hne : lists ≠ []) :
    listed (joined pieces) = lists.map String.ofList := by
  have hpieces : pieces ≠ [] := by
    rintro rfl
    cases h
    exact hne rfl
  rw [listed, joined, String.toList_ofList,
    List.splitOn_intercalate ',' (h.not_mem_comma hlists) hpieces]
  exact congrArg _ (h.filter_map_trimBlanks hlists)

end Padded

theorem reads_numeral (n : Numeral) (h : n.value.isFinite = true) :
    Reads (String.ofList n.text) n.value := ⟨Binary64.read?_text n, h⟩

theorem listed_numerals {numerals : List Numeral} (h : Padded pieces (numerals.map Numeral.text))
    (hne : numerals ≠ []) :
    listed (joined pieces) = numerals.map fun n ↦ String.ofList n.text := by
  have hparts : ∀ item ∈ numerals.map Numeral.text, item ≠ [] ∧ ∀ c ∈ item, Numeral.IsPart c := by
    intro item hitem
    obtain ⟨n, -, rfl⟩ := List.mem_map.1 hitem
    exact ⟨Numeral.text_ne_nil, fun c hc ↦ Numeral.isPart_of_mem_text hc⟩
  rw [h.listed_joined hparts (mt List.map_eq_nil_iff.1 hne), List.map_map]
  rfl

theorem readValues_joined {numerals : List Numeral} (h : Padded pieces (numerals.map Numeral.text))
    (hne : numerals ≠ []) (hfinite : ∀ n ∈ numerals, n.value.isFinite = true) :
    readValues (joined pieces) = .ok (numerals.map Numeral.value) := by
  refine readValues_eq_ok_iff.2 ?_
  rw [listed_numerals h hne, List.forall₂_map_left_iff, List.forall₂_map_right_iff,
    List.forall₂_same]
  exact ⟨mt List.map_eq_nil_iff.1 hne, fun n hn ↦ reads_numeral n (hfinite n hn)⟩

theorem exists_numerals {layout : Layout} (hlayout : layout ∈ [Layout.plain, Layout.document])
    (hfinite : ∀ x ∈ values, x.isFinite = true) :
    ∃ numerals : List Numeral, numerals.map Numeral.text = values.map (·.renderFinite layout) ∧
      numerals.map Numeral.value = values := by
  obtain ⟨k, hend⟩ : ∃ k, layout.wholeEnd = pointed (zeros k) := by
    simp only [List.mem_cons, List.not_mem_nil, or_false] at hlayout
    rcases hlayout with rfl | rfl
    · exact ⟨0, rfl⟩
    · exact ⟨1, rfl⟩
  induction values with
  | nil => exact ⟨[], rfl, rfl⟩
  | cons x values ih =>
    obtain ⟨hx, hrest⟩ := List.forall_mem_cons.1 hfinite
    obtain ⟨n, htext, hvalue⟩ := Binary64.exists_numeral hend hx
    obtain ⟨numerals, htexts, hvalues⟩ := ih hrest
    exact ⟨n :: numerals, by rw [List.map_cons, htext, htexts, List.map_cons],
      by rw [List.map_cons, hvalue, hvalues]⟩

/-- A list is read by its items, and refused for the first of them that is no finite number. Numbers
come back from such a list, in the form for texts and in that for documents, bit for bit. -/
theorem comma_lists (text : String) :
    (∀ values, readValues text = .ok values ↔
        listed text ≠ [] ∧ List.Forall₂ Reads (listed text) values) ∧
      (∀ fault, readValues text = .error fault ↔
        listed text = [] ∧ fault = .noValues ∨
          ∃ before item after, listed text = before ++ item :: after ∧
            (∀ i ∈ before, ∃ x, Reads i x) ∧ Refuses item fault) ∧
      (∀ fault rest, readValues text = .error fault → fault ≠ .noValues →
        readValues (text ++ "," ++ rest) = .error fault) ∧
      ∀ layout ∈ [Layout.plain, Layout.document], ∀ values pieces, values ≠ [] →
        (∀ x ∈ values, x.isFinite = true) →
        Padded pieces (values.map (·.renderFinite layout)) →
        readValues (joined pieces) = .ok values := by
  refine ⟨fun values ↦ readValues_eq_ok_iff, fun fault ↦ readValues_eq_error_iff,
    fun fault rest h hne ↦ readValues_append_of_error h hne rest, ?_⟩
  intro layout hlayout values pieces hne hfinite hpadded
  obtain ⟨numerals, htexts, rfl⟩ := exists_numerals hlayout hfinite
  rw [← htexts] at hpadded
  exact readValues_joined hpadded (mt List.map_eq_nil_iff.2 hne) fun n hn ↦
    hfinite _ (List.mem_map_of_mem hn)

/-- A negative zero among blanks, and a word before what is not finite. -/
theorem comma_lists_zero :
    let values : List Binary64 := [1.5, -0.0]
    let pieces := [[' '] ++ (1.5 : Binary64).renderFinite .plain ++ [], ['\t'],
      [] ++ (-0.0 : Binary64).renderFinite .plain ++ ['\n']]
    (Layout.plain ∈ [Layout.plain, Layout.document] ∧ values ≠ [] ∧
        (∀ x ∈ values, x.isFinite = true) ∧
        Padded pieces (values.map (·.renderFinite .plain))) ∧
      joined pieces = " 1.5,\t,-0\n" ∧ readValues (joined pieces) = .ok values ∧
      readValues "1,abc" = .error (.notANumber "abc") ∧
      readValues ("1,abc" ++ "," ++ "inf") = .error (.notANumber "abc") := by
  intro values pieces
  have hne : values ≠ [] := List.cons_ne_nil _ _
  have hfinite : ∀ x ∈ values, x.isFinite = true := by decide +kernel
  have hpadded : Padded pieces (values.map (·.renderFinite .plain)) :=
    .item _ (List.forall_mem_singleton.2 rfl) (List.forall_mem_nil _) <|
      .blank (List.forall_mem_singleton.2 rfl) <|
        .item _ (List.forall_mem_nil _) (List.forall_mem_singleton.2 rfl) .nil
  have hone : Reads "1" 1.0 := by decide +kernel
  have hread : readValues "1,abc" = .error (.notANumber "abc") := by
    refine readValues_eq_error_iff.2 (.inr ⟨["1"], "abc", [], by decide +kernel, ?_, .inl ?_⟩)
    · exact List.forall_mem_singleton.2 ⟨1.0, hone⟩
    · exact ⟨by decide +kernel, rfl⟩
  obtain ⟨-, -, hfault, hround⟩ := comma_lists "1,abc"
  exact ⟨⟨List.mem_cons_self, hne, hfinite, hpadded⟩, by decide +kernel,
    hround _ List.mem_cons_self values pieces hne hfinite hpadded, hread,
    hfault _ "inf" hread (by rintro ⟨⟩)⟩

end Series

end MetricWatch
