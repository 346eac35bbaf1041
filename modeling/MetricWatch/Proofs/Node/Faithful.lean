import MetricWatch.Document.Finding
import MetricWatch.Proofs.Binary64.Count
import MetricWatch.Proofs.Json.RoundTrip

namespace MetricWatch.Node

variable {β γ : Type}

structure Faithful (write : β → Node) (reader : Reader β) (Fits : β → Prop) (kept : β → β) :
    Prop where
  reads : ∀ v, Fits v → reader (write v).stored = .ok (kept v)
  refuses : ∀ v, ¬ Fits v → reader (write v).stored = .error .malformed
  /-- Nothing else is read, whatever the text looks like. -/
  gives : ∀ n v, n.Sound → reader n = .ok v → Fits v ∧ kept v = v

variable {write : β → Node} {reader : Reader β} {Fits : β → Prop} {kept : β → β}

theorem ok_of_bind {ε : Type} {x : Except ε β} {f : β → Except ε γ} {r : γ}
    (h : x >>= f = .ok r) : ∃ a, x = .ok a ∧ f a = .ok r := by
  cases x with
  | error fault => cases h
  | ok a => exact ⟨a, rfl, h⟩

theorem fit_list {vs : List β} (h : ∀ v ∈ vs, Fits v ∧ kept v = v) :
    (∀ v ∈ vs, Fits v) ∧ vs.map kept = vs := by
  refine ⟨fun v hv ↦ (h v hv).1, ?_⟩
  have hid : vs.map kept = vs.map id := List.map_congr_left fun v hv ↦ (h v hv).2
  rw [hid, List.map_id]

theorem faithful_text : Faithful .text readText (fun _ ↦ True) id where
  reads _ _ := rfl
  refuses _ h := absurd trivial h
  gives _ _ _ _ := ⟨trivial, rfl⟩

theorem faithful_bool : Faithful .bool readBool (fun _ ↦ True) id where
  reads _ _ := rfl
  refuses _ h := absurd trivial h
  gives _ _ _ _ := ⟨trivial, rfl⟩

theorem faithful_real : Faithful .real readReal (fun x ↦ x.isFinite = true) id where
  reads x hx := by
    rw [stored, storedReal, if_pos hx]
    rfl
  refuses x hx := by
    rw [stored, storedReal, if_neg hx]
    rfl
  gives n x hn h := by
    refine ⟨?_, rfl⟩
    cases hn with
    | integer hbounds =>
      obtain rfl := Except.ok.inj h
      exact Binary64.isFinite_ofInt (by omega)
    | real hfinite =>
      obtain rfl := Except.ok.inj h
      exact hfinite
    | _ => cases h

theorem faithful_count {bound : Nat} (hbound : bound ≤ 0x10000000000000000) :
    Faithful nodeOfCount (readCount bound) (· < bound) id where
  reads n hn := by
    have hrange : (0 : Int) ≤ n ∧ (n : Int) < bound := by omega
    have hstored : storedInteger n = .integer n := by
      rw [storedInteger, if_pos]
      omega
    change readCount bound (storedInteger n) = _
    rw [hstored, readCount, if_pos hrange]
    rfl
  refuses n hn := by
    have hrange : ¬ ((0 : Int) ≤ n ∧ (n : Int) < bound) := by omega
    change readCount bound (storedInteger n) = _
    unfold storedInteger
    split_ifs
    · rw [readCount, if_neg hrange]
    · rfl
    · rfl
  gives n v hn h := by
    refine ⟨?_, rfl⟩
    cases n with
    | integer i =>
      dsimp only [readCount] at h
      split_ifs at h with hrange
      obtain rfl := Except.ok.inj h
      omega
    | _ => cases h

theorem faithful_name {all : List β} {name : β → String}
    (hall : ∀ b, all.find? (fun c ↦ name c = name b) = some b) :
    Faithful (fun b ↦ .text (name b)) (readName all name) (fun _ ↦ True) id where
  reads b _ := by
    change readName.find all name (name b) = .ok b
    rw [readName.find, hall b]
  refuses _ h := absurd trivial h
  gives _ _ _ _ := ⟨trivial, rfl⟩

theorem faithful_confidence :
    Faithful (fun c ↦ .real c.value) readConfidence (fun _ ↦ True) id where
  reads c _ := by
    have hvalue : readReal (Node.real c.value).stored = .ok c.value :=
      faithful_real.reads c.value (Binary64.isFinite_of_le_one c.nonneg c.le_one)
    have hconfidence : Confidence.ofValue? c.value = some c := dif_pos ⟨c.nonneg, c.le_one⟩
    simp only [readConfidence, hvalue, bind, Except.bind, hconfidence, id]
  refuses _ h := absurd trivial h
  gives _ _ _ _ := ⟨trivial, rfl⟩

theorem readOption_of_ne {n : Node} (h : n ≠ .null) : readOption reader n = (reader n).map some := by
  cases n with
  | null => exact absurd rfl h
  | _ => rfl

theorem of_readOption_eq_some {n : Node} {v : β} (h : readOption reader n = .ok (some v)) :
    reader n = .ok v := by
  have hne : n ≠ .null := by
    rintro rfl
    cases h
  rw [readOption_of_ne hne] at h
  cases hv : reader n with
  | error fault =>
    rw [hv] at h
    cases h
  | ok w =>
    rw [hv] at h
    obtain rfl := Option.some.inj (Except.ok.inj h)
    rfl

/-- A number that is missing and one that is not finite are written alike. -/
theorem faithful_optionReal :
    Faithful (ofOption .real) (readOption readReal) (fun _ ↦ True)
      (Option.filter Binary64.isFinite) where
  reads o _ := by
    cases o with
    | none => rfl
    | some x =>
      by_cases hx : x.isFinite = true
      · have hstored : (Node.real x).stored = .real x := if_pos hx
        rw [ofOption, hstored, Option.filter_some, if_pos hx]
        rfl
      · have hstored : (Node.real x).stored = .null := if_neg hx
        rw [ofOption, hstored, Option.filter_some, if_neg hx]
        rfl
  refuses _ h := absurd trivial h
  gives n o hn h := by
    refine ⟨trivial, ?_⟩
    cases o with
    | none => rfl
    | some x =>
      have hread : readReal n = .ok x := of_readOption_eq_some h
      rw [Option.filter_some, if_pos (faithful_real.gives n x hn hread).1]

namespace Faithful

theorem option (hf : Faithful write reader Fits kept) (hnull : ∀ v, (write v).stored ≠ .null) :
    Faithful (ofOption write) (readOption reader) (fun o ↦ ∀ v ∈ o, Fits v) (Option.map kept) where
  reads o ho := by
    cases o with
    | none => rfl
    | some v =>
      rw [ofOption, readOption_of_ne (hnull v), hf.reads v (ho v rfl)]
      rfl
  refuses o ho := by
    cases o with
    | none => exact absurd nofun ho
    | some v =>
      have hv : ¬ Fits v := by
        intro hv
        apply ho
        intro w hw
        obtain rfl := Option.some.inj hw
        exact hv
      rw [ofOption, readOption_of_ne (hnull v), hf.refuses v hv]
      rfl
  gives n o hn h := by
    cases o with
    | none => exact ⟨nofun, rfl⟩
    | some v =>
      obtain ⟨hfits, hkept⟩ := hf.gives n v hn (of_readOption_eq_some h)
      constructor
      · intro w hw
        obtain rfl := Option.some.inj hw
        exact hfits
      · rw [Option.map_some, hkept]

theorem mapM_fits (hf : Faithful write reader Fits kept) {vs : List β} (h : ∀ v ∈ vs, Fits v) :
    (vs.map fun v ↦ (write v).stored).mapM reader = .ok (vs.map kept) := by
  induction vs with
  | nil => rfl
  | cons v vs ih =>
    obtain ⟨hv, hrest⟩ := List.forall_mem_cons.1 h
    rw [List.map_cons, List.mapM_cons, hf.reads v hv, ih hrest]
    rfl

theorem mapM_not_fits (hf : Faithful write reader Fits kept) {vs : List β}
    (h : ¬ ∀ v ∈ vs, Fits v) :
    (vs.map fun v ↦ (write v).stored).mapM reader = .error .malformed := by
  induction vs with
  | nil => exact absurd nofun h
  | cons v vs ih =>
    rw [List.map_cons, List.mapM_cons]
    by_cases hv : Fits v
    · rw [hf.reads v hv, ih fun hrest ↦ h (List.forall_mem_cons.2 ⟨hv, hrest⟩)]
      rfl
    · rw [hf.refuses v hv]
      rfl

theorem of_mapM (hf : Faithful write reader Fits kept) {items : List Node} {vs : List β}
    (hitems : ∀ n ∈ items, n.Sound) (h : items.mapM reader = .ok vs) :
    ∀ v ∈ vs, Fits v ∧ kept v = v := by
  induction items generalizing vs with
  | nil =>
    obtain rfl := Except.ok.inj h
    exact nofun
  | cons item items ih =>
    obtain ⟨hitem, hrest⟩ := List.forall_mem_cons.1 hitems
    rw [List.mapM_cons] at h
    obtain ⟨v, hv, h⟩ := ok_of_bind h
    obtain ⟨tail, htail, h⟩ := ok_of_bind h
    obtain rfl := Except.ok.inj h
    exact List.forall_mem_cons.2 ⟨hf.gives item v hitem hv, ih hrest htail⟩

theorem list (hf : Faithful write reader Fits kept) :
    Faithful (fun vs ↦ .list (vs.map write)) (readList reader) (fun vs ↦ ∀ v ∈ vs, Fits v)
      (List.map kept) where
  reads vs hvs := by
    rw [stored, storedItems_eq_map, List.map_map]
    exact hf.mapM_fits hvs
  refuses vs hvs := by
    rw [stored, storedItems_eq_map, List.map_map]
    exact hf.mapM_not_fits hvs
  gives n vs hn h := by
    cases hn with
    | list hitems => exact fit_list (hf.of_mapM hitems h)
    | _ => cases h

open Json

theorem decode_print (hf : Faithful write reader Fits kept) [DecidablePred Fits]
    {print : Node → String} (hprint : print ∈ [compact, pretty]) (v : β) :
    decode reader (print (write v)) = if Fits v then .ok (kept v) else .error .malformed := by
  have hdecode : decode reader (print (write v)) = reader (write v).stored := by
    have hcases : print = compact ∨ print = pretty := by simpa using hprint
    rcases hcases with rfl | rfl
    · exact decode_compact reader (write v)
    · exact decode_pretty reader (write v)
  rw [hdecode]
  split_ifs with hv
  · exact hf.reads v hv
  · exact hf.refuses v hv

theorem of_decode (hf : Faithful write reader Fits kept) {text : String} {v : β}
    (h : decode reader text = .ok v) : Fits v ∧ kept v = v := by
  obtain ⟨root, hroot, hread⟩ := exists_sound_of_decode h
  exact hf.gives root v hroot hread

end Faithful

end MetricWatch.Node
