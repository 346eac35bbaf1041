import MetricWatch.Proofs.Node.Faithful

namespace MetricWatch

open Node

namespace Context

variable {α : Type} {name : String} {value : α} {entries : List (String × α)}

theorem insertEntry_of_forall_lt (h : ∀ e ∈ entries, e.1 < name) :
    insertEntry name value entries = entries ++ [(name, value)] := by
  induction entries with
  | nil => rfl
  | cons e entries ih =>
    obtain ⟨hlt, hrest⟩ := List.forall_mem_cons.1 h
    have hbefore : ¬ name < e.1 := String.lt_asymm hlt
    have hother : ¬ name = e.1 := by
      rintro rfl
      exact String.lt_irrefl _ hlt
    rw [insertEntry, if_neg hbefore, if_neg hother, ih hrest, List.cons_append]

theorem entries_foldl_insert {context : Context α}
    (h : (context.entries ++ entries).Pairwise fun a b ↦ a.1 < b.1) :
    (entries.foldl (fun context e ↦ context.insert e.1 e.2) context).entries =
      context.entries ++ entries := by
  induction entries generalizing context with
  | nil => exact (List.append_nil _).symm
  | cons e entries ih =>
    -- The names come in order, so that each one is inserted at the end.
    have hlt : ∀ d ∈ context.entries, d.1 < e.1 := fun d hd ↦
      (List.pairwise_append.1 h).2.2 d hd e List.mem_cons_self
    have hinsert : (context.insert e.1 e.2).entries = context.entries ++ [e] :=
      insertEntry_of_forall_lt hlt
    have hall : context.entries ++ e :: entries = (context.insert e.1 e.2).entries ++ entries := by
      rw [hinsert, List.append_assoc, List.singleton_append]
    rw [List.foldl_cons, ih (hall ▸ h), ← hall]

theorem foldl_insert_entries (c : Context α) :
    c.entries.foldl (fun context e ↦ context.insert e.1 e.2) empty = c := by
  have hordered : ((empty : Context α).entries ++ c.entries).Pairwise fun a b ↦ a.1 < b.1 :=
    c.ordered
  have hentries := entries_foldl_insert hordered
  generalize c.entries.foldl (fun context e ↦ context.insert e.1 e.2) empty = d at hentries
  obtain ⟨entries, hordered⟩ := c
  obtain ⟨entries', hordered'⟩ := d
  obtain rfl : entries' = entries := hentries
  rfl

def storedEntry (e : String × Binary64) : Option String × Node := (some e.1, .storedReal e.2)

theorem stored_node (c : Context Binary64) : c.node.stored = .record (c.entries.map storedEntry) := by
  rw [node, stored, storedMembers_eq_map, List.map_map]
  rfl

variable {context : Context Binary64} {e : String × Binary64}

theorem insertMember_finite (h : e.2.isFinite = true) :
    readContext.insertMember context (storedEntry e) = .ok (context.insert e.1 e.2) := by
  rw [storedEntry, storedReal, if_pos h]
  rfl

theorem insertMember_not_finite (h : ¬ e.2.isFinite = true) :
    readContext.insertMember context (storedEntry e) = .error .malformed := by
  rw [storedEntry, storedReal, if_neg h]
  rfl

theorem foldlM_finite {entries : List (String × Binary64)}
    (h : ∀ e ∈ entries, e.2.isFinite = true) :
    (entries.map storedEntry).foldlM readContext.insertMember context =
      .ok (entries.foldl (fun context e ↦ context.insert e.1 e.2) context) := by
  induction entries generalizing context with
  | nil => rfl
  | cons e entries ih =>
    obtain ⟨he, hrest⟩ := List.forall_mem_cons.1 h
    rw [List.map_cons, List.foldlM_cons, insertMember_finite he]
    exact ih hrest

theorem foldlM_not_finite {entries : List (String × Binary64)}
    (h : ¬ ∀ e ∈ entries, e.2.isFinite = true) :
    (entries.map storedEntry).foldlM readContext.insertMember context = .error .malformed := by
  induction entries generalizing context with
  | nil => exact absurd nofun h
  | cons e entries ih =>
    rw [List.map_cons, List.foldlM_cons]
    by_cases he : e.2.isFinite = true
    · rw [insertMember_finite he]
      exact ih fun hrest ↦ h (List.forall_mem_cons.2 ⟨he, hrest⟩)
    · rw [insertMember_not_finite he]
      rfl

theorem finite_of_foldlM {members : List (Option String × Node)} {c : Context Binary64}
    (hcontext : ∀ e ∈ context.entries, e.2.isFinite = true) (hmembers : ∀ m ∈ members, m.2.Sound)
    (h : members.foldlM readContext.insertMember context = .ok c) :
    ∀ e ∈ c.entries, e.2.isFinite = true := by
  induction members generalizing context with
  | nil =>
    obtain rfl := Except.ok.inj h
    exact hcontext
  | cons m members ih =>
    obtain ⟨hm, hrest⟩ := List.forall_mem_cons.1 hmembers
    obtain ⟨next, hnext, h⟩ := ok_of_bind h
    obtain ⟨_ | name, n⟩ := m
    · cases hnext
    · obtain ⟨x, hx, hnext⟩ := ok_of_bind hnext
      obtain rfl := Except.ok.inj hnext
      apply ih _ hrest h
      intro e he
      rcases mem_insertEntry he with rfl | he
      · exact (faithful_real.gives n x hm hx).1
      · exact hcontext e he

theorem faithful : Faithful Context.node readContext
    (fun c ↦ ∀ e ∈ c.entries, e.2.isFinite = true) id where
  reads c hc := by
    rw [stored_node]
    change (c.entries.map storedEntry).foldlM readContext.insertMember empty = .ok c
    rw [foldlM_finite hc, foldl_insert_entries]
  refuses c hc := by
    rw [stored_node]
    exact foldlM_not_finite hc
  gives n c hn h := by
    refine ⟨?_, rfl⟩
    cases hn with
    | record hmembers =>
      have hempty : ∀ e ∈ (empty : Context Binary64).entries, e.2.isFinite = true :=
        fun e he ↦ absurd he List.not_mem_nil
      exact finite_of_foldlM hempty hmembers h
    | _ => cases h

end Context

end MetricWatch
