import MetricWatch.Proofs.Json.Numeral
import MetricWatch.Proofs.Node.Columns
import MetricWatch.Proofs.Series.Items

namespace MetricWatch

open Decimal

namespace Node

theorem readableItems_iff {items : List Node} :
    readableItems items = true ↔ ∀ item ∈ items, item.readable = true := by
  induction items with
  | nil => exact iff_of_true rfl nofun
  | cons item items ih => rw [readableItems, Bool.and_eq_true, ih, List.forall_mem_cons]

theorem depthOfItems_eq_zero {items : List Node} (h : ∀ item ∈ items, item.depth = 0) :
    depthOfItems items = 0 := by
  induction items with
  | nil => rfl
  | cons item items ih =>
    obtain ⟨hitem, hrest⟩ := List.forall_mem_cons.1 h
    rw [depthOfItems, hitem, ih hrest, Nat.max_self]

end Node

namespace Series

open Json Node

section Numerals

variable {numerals : List Numeral} {array record : List Char} {text : String} {root : Node}
  {series : Series} {pieces : List (List Char)}

def ofNumerals (numerals : List Numeral) : Series := ⟨numerals.map Numeral.value, none⟩

theorem check_ofNumerals (hne : numerals ≠ []) :
    (ofNumerals numerals).check = .ok (ofNumerals numerals) := by
  have hvalues : ¬ (ofNumerals numerals).values.isEmpty = true := by
    simpa [ofNumerals] using hne
  rw [check, if_neg hvalues]
  rfl

theorem readable_numerals :
    (Node.list (numerals.map Numeral.node)).readable = true ↔
      ∀ n ∈ numerals, n.value.isFinite = true := by
  rw [readable, readableItems_iff, List.forall_mem_map]
  simp only [readable_node]

theorem depth_numerals : (Node.list (numerals.map Numeral.node)).depth = 1 := by
  have hitems : ∀ item ∈ numerals.map Numeral.node, item.depth = 0 :=
    List.forall_mem_map.2 fun n _ ↦ depth_node n
  rw [depth, depthOfItems_eq_zero hitems]

theorem readList_numerals (h : ∀ n ∈ numerals, n.value.isFinite = true) :
    readList readReal (.list (numerals.map Numeral.node)) = .ok (numerals.map Numeral.value) := by
  rw [readList, mapM_eq_ok_iff, List.forall₂_map_left_iff, List.forall₂_map_right_iff,
    List.forall₂_same]
  exact fun n hn ↦ readReal_node (h n hn)

theorem reader_array (h : ∀ n ∈ numerals, n.value.isFinite = true) :
    reader (.list (numerals.map Numeral.node)) = .ok (ofNumerals numerals) := by
  rw [reader, readList_numerals h]
  rfl

theorem reader_record (h : ∀ n ∈ numerals, n.value.isFinite = true) :
    reader (.record [(some "values", .list (numerals.map Numeral.node))]) =
      .ok (ofNumerals numerals) := by
  have hvalues : (Slot.required "values" (readList readReal)).read
      (.list (numerals.map Numeral.node)) = .ok (numerals.map Numeral.value) :=
    readList_numerals h
  have hname : (Slot.required "values" (readList readReal)).name = "values" := rfl
  have hempty : ¬ (Slot.required "values" (readList readReal)).value.isSome = true :=
    Bool.false_ne_true
  rw [reader, Slots.read, Slots.readWith, Slots.putMembers, slots, Slots.put, if_pos hname,
    if_neg hempty, hvalues]
  rfl

theorem readDocument_eq (hparse : parse? text = some root) (hne : numerals ≠ [])
    (hreadable : root.readable = true ↔ ∀ n ∈ numerals, n.value.isFinite = true)
    (hdepth : root.depth ≤ depthLimit)
    (hreader : (∀ n ∈ numerals, n.value.isFinite = true) →
      reader root = .ok (ofNumerals numerals)) :
    readDocument text =
      if ∀ n ∈ numerals, n.value.isFinite = true then .ok (ofNumerals numerals)
      else .error (.json .malformed) := by
  unfold readDocument
  rw [hparse]
  dsimp only
  split_ifs with haccepted hfinite hfinite
  · rw [hreader hfinite]
    dsimp only
    rw [check_ofNumerals hne]
    rfl
  · exact absurd (hreadable.1 (Bool.and_eq_true_iff.1 haccepted).1) hfinite
  · exact absurd (Bool.and_eq_true_iff.2 ⟨hreadable.2 hfinite, decide_eq_true hdepth⟩) haccepted
  · rfl

theorem readDocument_array (h : ArrayText numerals array) (hne : numerals ≠ []) :
    readDocument (String.ofList array) =
      if ∀ n ∈ numerals, n.value.isFinite = true then .ok (ofNumerals numerals)
      else .error (.json .malformed) := by
  refine readDocument_eq (parse?_arrayText h) hne readable_numerals ?_ reader_array
  rw [depth_numerals]
  decide

theorem readDocument_record (h : RecordText "values" numerals record) (hne : numerals ≠ []) :
    readDocument (String.ofList record) =
      if ∀ n ∈ numerals, n.value.isFinite = true then .ok (ofNumerals numerals)
      else .error (.json .malformed) := by
  refine readDocument_eq (parse?_recordText h) hne ?_ ?_ reader_record
  · rw [readable, readableMembers, readableMembers, ← readable_numerals]
    simp
  · rw [depth, depthOfMembers, depthOfMembers, depth_numerals]
    decide

theorem readValues_numerals (h : Padded pieces (numerals.map Numeral.text)) (hne : numerals ≠ []) :
    (∀ n ∈ numerals, n.value.isFinite = true) ∧
        readValues (joined pieces) = .ok (numerals.map Numeral.value) ∨
      ∃ n ∈ numerals, n.value.isFinite = false ∧
        readValues (joined pieces) = .error (.notFinite n.value) := by
  by_cases hfinite : ∀ n ∈ numerals, n.value.isFinite = true
  · exact .inl ⟨hfinite, readValues_joined h hne hfinite⟩
  · right
    cases hread : readValues (joined pieces) with
    | ok values =>
      obtain ⟨-, hitems⟩ := readValues_eq_ok_iff.1 hread
      rw [listed_numerals h hne, List.forall₂_map_left_iff] at hitems
      have hreads (n : Numeral) (x : Binary64) (hx : Reads (String.ofList n.text) x) :
          n.value.isFinite = true ∧ Reads (String.ofList n.text) x := by
        have hvalue := hx.1
        rw [Binary64.read?_text, Option.some_inj] at hvalue
        exact ⟨hvalue ▸ hx.2, hx⟩
      exact absurd ((List.forall₂_and_left numerals values).1 (hitems.imp hreads)).1 hfinite
    | error fault =>
      have hnonempty : listed (joined pieces) ≠ [] := by
        rw [listed_numerals h hne]
        exact mt List.map_eq_nil_iff.1 hne
      rcases readValues_eq_error_iff.1 hread with
        ⟨hnil, -⟩ | ⟨before, item, after, hlisted, -, hitem⟩
      · exact absurd hnil hnonempty
      · have hmem : item ∈ listed (joined pieces) := by
          rw [hlisted]
          exact List.mem_append_right before List.mem_cons_self
        rw [listed_numerals h hne] at hmem
        obtain ⟨n, hn, rfl⟩ := List.mem_map.1 hmem
        rcases hitem with ⟨hnone, -⟩ | ⟨x, hx, hxfinite, rfl⟩
        · rw [Binary64.read?_text] at hnone
          cases hnone
        · rw [Binary64.read?_text, Option.some_inj] at hx
          exact ⟨n, hn, by rw [hx, hxfinite], by rw [hx]⟩

end Numerals

structure Sound (s : Series) : Prop where
  values_ne_nil : s.values ≠ []
  isFinite : ∀ x ∈ s.values, x.isFinite = true
  length_timestamps : ∀ timestamps, s.timestamps = some timestamps →
    timestamps.length = s.values.length

section Loading

variable {s s' : Series} {text argument : String} {root : Node} {isFile : String → Bool}
  {read? : String → Option String}

theorem isFinite_of_readList {node : Node} {values : List Binary64} (hnode : node.Sound)
    (h : readList readReal node = .ok values) : ∀ x ∈ values, x.isFinite = true :=
  (faithful_real.list.gives node values hnode h).1

theorem yields_slots :
    slots.Yields fun values ↦ (∀ x ∈ values.1, x.isFinite = true) ∧ True ∧ True := by
  have htimestamps : (Slots.cons (Slot.optional "timestamps" (readList readInstant)) .nil).Yields
      fun _ ↦ True ∧ True :=
    .cons (fun _ _ _ _ ↦ trivial) (fun _ _ ↦ trivial) (fun _ _ ↦ trivial) .nil
  refine .cons (P := fun values : List Binary64 ↦ ∀ x ∈ values, x.isFinite = true) ?_ ?_ ?_
    htimestamps
  · exact fun n values hn h ↦ isFinite_of_readList hn h
  · rintro values (h | h)
    · cases h
    · cases h
  · intro values h
    cases h

theorem isFinite_of_reader (hroot : root.Sound) (h : reader root = .ok s) :
    ∀ x ∈ s.values, x.isFinite = true := by
  cases root with
  | list items =>
    obtain ⟨values, hvalues, h⟩ := ok_of_bind h
    obtain rfl := Except.ok.inj h
    exact isFinite_of_readList hroot hvalues
  | record members =>
    unfold reader at h
    obtain ⟨⟨values, timestamps, ⟨⟩⟩, hvalues, h⟩ := ok_of_bind h
    obtain rfl := Except.ok.inj h
    exact (yields_slots.read hroot hvalues).1
  | _ => cases h

theorem sound_of_check (hfinite : ∀ x ∈ s.values, x.isFinite = true) (h : s.check = .ok s') :
    s'.Sound := by
  unfold check at h
  split_ifs at h with hempty
  have hne : s.values ≠ [] := by simpa using hempty
  cases htimestamps : s.timestamps with
  | none =>
    rw [htimestamps] at h
    obtain rfl := Except.ok.inj h
    exact ⟨hne, hfinite, by rw [htimestamps]; exact nofun⟩
  | some timestamps =>
    rw [htimestamps] at h
    dsimp only at h
    split_ifs at h with hlength
    obtain rfl := Except.ok.inj h
    refine ⟨hne, hfinite, fun other hother ↦ ?_⟩
    obtain rfl := Option.some.inj (htimestamps.symm.trans hother)
    exact hlength

theorem sound_of_readDocument (h : readDocument text = .ok s) : s.Sound := by
  unfold readDocument at h
  split at h
  · cases h
  · rename_i root hparse
    split_ifs at h
    split at h
    · rename_i series hreader
      have hfinite := isFinite_of_reader (sound_of_parse? hparse) hreader
      cases hcheck : series.check with
      | error fault =>
        rw [hcheck] at h
        cases h
      | ok checked =>
        rw [hcheck] at h
        obtain rfl := Except.ok.inj h
        exact sound_of_check hfinite hcheck
    · cases h

theorem sound_of_readValues {values : List Binary64} (h : readValues text = .ok values) :
    Sound ⟨values, none⟩ := by
  obtain ⟨hne, hitems⟩ := readValues_eq_ok_iff.1 h
  have hfinite := hitems.flip.imp (S := fun x item ↦ x.isFinite = true ∧ flip Reads x item)
    fun x item hx ↦ ⟨hx.2, hx⟩
  refine ⟨?_, ((List.forall₂_and_left values (listed text)).1 hfinite).1, nofun⟩
  rintro rfl
  exact hne (List.length_eq_zero_iff.1 hitems.length_eq)

theorem load_file (hfile : isFile argument = true) (h : read? argument = some text) :
    load isFile read? argument = readDocument text := by
  rw [load, if_pos hfile, h]

theorem sound_of_load (h : load isFile read? argument = .ok s) : s.Sound := by
  unfold load at h
  split at h
  · split at h
    · exact sound_of_readDocument h
    · cases h
  · split at h
    · rename_i values hvalues
      obtain rfl := Except.ok.inj h
      exact sound_of_readValues hvalues
    · cases h

end Loading

/-- Numerals are the same series in each of the formats, or they are refused in all of them; and
whatever is loaded can be relied on. -/
theorem input_formats (isFile : String → Bool) (read? : String → Option String) :
    (∀ numerals pieces array record arrayFile recordFile,
      numerals ≠ [] → Padded pieces (numerals.map Numeral.text) →
      ArrayText numerals array → RecordText "values" numerals record →
      isFile (joined pieces) = false → isFile arrayFile = true → isFile recordFile = true →
      read? arrayFile = some (String.ofList array) →
      read? recordFile = some (String.ofList record) →
        (∀ n ∈ numerals, n.value.isFinite = true) ∧
            (∀ argument ∈ [joined pieces, arrayFile, recordFile],
              load isFile read? argument = .ok ⟨numerals.map Numeral.value, none⟩) ∨
          (∃ n ∈ numerals, n.value.isFinite = false) ∧
            ∀ argument ∈ [joined pieces, arrayFile, recordFile],
              ∃ failure, load isFile read? argument = .error failure) ∧
      ∀ argument s, load isFile read? argument = .ok s → s.Sound := by
  refine ⟨?_, fun _ _ ↦ sound_of_load⟩
  intro numerals pieces array record arrayFile recordFile hne hpadded harray hrecord hnone
    harrayFile hrecordFile harrayText hrecordText
  have hloadArray := (load_file harrayFile harrayText).trans (readDocument_array harray hne)
  have hloadRecord := (load_file hrecordFile hrecordText).trans (readDocument_record hrecord hne)
  simp only [List.forall_mem_cons]
  rcases readValues_numerals hpadded hne with ⟨hfinite, hread⟩ | ⟨n, hn, hinfinite, hread⟩
  · rw [if_pos hfinite] at hloadArray hloadRecord
    refine .inl ⟨hfinite, ?_, hloadArray, hloadRecord, List.forall_mem_nil _⟩
    simp only [load, hnone, Bool.false_eq_true, if_false, hread]
  · have hnot : ¬ ∀ n ∈ numerals, n.value.isFinite = true := fun hall ↦
      Bool.false_ne_true (hinfinite.symm.trans (hall n hn))
    rw [if_neg hnot] at hloadArray hloadRecord
    refine .inr ⟨⟨n, hn, hinfinite⟩, ⟨.invalidData (.notFinite n.value), ?_⟩, ⟨_, hloadArray⟩,
      ⟨_, hloadRecord⟩, List.forall_mem_nil _⟩
    simp only [load, hnone, Bool.false_eq_true, if_false, hread]

/-- An integer and a numeral with an exponent. -/
theorem input_formats_two :
    let read? argument := if argument = "a.json" then some "[1, -25E-1]"
      else if argument = "b.json" then some "\x7b\"values\": [1, -25E-1]\x7d" else none
    let isFile argument := (read? argument).isSome
    (∃ numerals pieces array record, numerals ≠ [] ∧ Padded pieces (numerals.map Numeral.text) ∧
        ArrayText numerals array ∧ RecordText "values" numerals record ∧
        joined pieces = "1,-25E-1" ∧ isFile "1,-25E-1" = false ∧
        read? "a.json" = some (String.ofList array) ∧
        read? "b.json" = some (String.ofList record)) ∧
      ∀ argument ∈ ["1,-25E-1", "a.json", "b.json"],
        load isFile read? argument = .ok ⟨[1.0, -2.5], none⟩ ∧ Sound ⟨[1.0, -2.5], none⟩ := by
  intro read? isFile
  let one : Numeral := ⟨false, ⟨['1'], [], none⟩,
    ⟨List.forall_mem_singleton.2 rfl, .inr ⟨_, _, rfl, by decide⟩, List.forall_mem_nil _,
      by rintro p ⟨⟩⟩, false, false⟩
  let other : Numeral := ⟨true, ⟨['2', '5'], [], some (true, ['1'])⟩,
    ⟨List.forall_mem_cons.2 ⟨rfl, List.forall_mem_singleton.2 rfl⟩, .inr ⟨_, _, rfl, by decide⟩,
      List.forall_mem_nil _, by
        rintro p ⟨⟩
        exact ⟨List.cons_ne_nil _ _, List.forall_mem_singleton.2 rfl⟩⟩, true, false⟩
  let items := [] ++ one.text ++ [] ++ ',' :: ([' '] ++ other.text ++ [])
  let array := [] ++ '[' :: (items ++ [']']) ++ []
  let record := [] ++ '{' :: ([] ++ quote "values" ++ [] ++ ':' :: ([' '] ++ '[' ::
    (items ++ [']']) ++ []) ++ ['}']) ++ []
  have hne : [one, other] ≠ [] := List.cons_ne_nil one [other]
  have hnone : Spaces [] := List.forall_mem_nil _
  have hspace : Spaces [' '] := List.forall_mem_singleton.2 rfl
  have hitems : Itemized [one, other] items := .next one hnone hnone (.last other hspace hnone)
  have hpadded := Padded.self ([one, other].map Numeral.text)
  have harray : ArrayText [one, other] array := .intro hnone hnone hitems
  have hrecord : RecordText "values" [one, other] record :=
    .intro hnone hnone hnone hnone (.intro hspace hnone hitems)
  have hjoined : joined ([one, other].map Numeral.text) = "1,-25E-1" := by decide +kernel
  have harrayFile : read? "a.json" = some (String.ofList array) := by decide +kernel
  have hrecordFile : read? "b.json" = some (String.ofList record) := by decide +kernel
  have hfinite : ∀ n ∈ [one, other], n.value.isFinite = true := by decide +kernel
  have hvalues : [one, other].map Numeral.value = [1.0, -2.5] := by decide +kernel
  obtain ⟨hformats, hsound⟩ := input_formats isFile read?
  have hnoFile : isFile "1,-25E-1" = false := by decide +kernel
  refine ⟨⟨[one, other], _, array, record, hne, hpadded, harray, hrecord, hjoined, hnoFile,
    harrayFile, hrecordFile⟩, fun argument hargument ↦ ?_⟩
  rcases hformats _ _ _ _ _ _ hne hpadded harray hrecord (hjoined ▸ hnoFile) (by decide +kernel)
      (by decide +kernel) harrayFile hrecordFile with ⟨-, hload⟩ | ⟨⟨n, hn, hinfinite⟩, -⟩
  · rw [hjoined, hvalues] at hload
    exact ⟨hload argument hargument, hsound argument _ (hload argument hargument)⟩
  · exact absurd (hinfinite.symm.trans (hfinite n hn)) Bool.false_ne_true

end Series

end MetricWatch
