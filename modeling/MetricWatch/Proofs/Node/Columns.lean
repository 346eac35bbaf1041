import Mathlib.Logic.Equiv.Defs
import MetricWatch.Proofs.Node.Faithful

namespace MetricWatch.Node

variable {β γ : Type} {βs : List Type}

theorem some_of_orMalformed {o : Option β} {v : β} (h : orMalformed o = .ok v) : o = some v := by
  cases o with
  | none => cases h
  | some w => exact congrArg some (Except.ok.inj h)

namespace Slots

def names : {βs : List Type} → Slots βs → List String
  | _, nil => []
  | _, cons slot rest => slot.name :: rest.names

theorem putMembers_cons {slot : Slot β} {rest : Slots βs} {members : List (Option String × Node)}
    (h : ∀ m ∈ members, m.1 ≠ some slot.name) :
    (cons slot rest).putMembers members = (rest.putMembers members).map (cons slot) := by
  induction members generalizing rest with
  | nil => rfl
  | cons m members ih =>
    obtain ⟨hm, hrest⟩ := List.forall_mem_cons.1 h
    obtain ⟨_ | name, node⟩ := m
    · rfl
    · have hname : slot.name ≠ name := fun heq ↦ hm (congrArg some heq.symm)
      rw [putMembers, put, if_neg hname, putMembers]
      cases rest.put name node with
      | error fault => rfl
      | ok rest' => exact ih hrest

/-- All that one member can do: it fills the first slot, which was empty, or goes on to the others. -/
theorem put_cons_ok {slot : Slot β} {rest : Slots βs} {filled : Slots (β :: βs)} {name : String}
    {node : Node} (h : (cons slot rest).put name node = .ok filled) :
    (slot.name = name ∧ slot.value = none ∧
        ∃ v, slot.read node = .ok v ∧ filled = cons { slot with value := some v } rest) ∨
      slot.name ≠ name ∧ ∃ rest', rest.put name node = .ok rest' ∧ filled = cons slot rest' := by
  unfold put at h
  split_ifs at h with hname hfull
  · cases hv : slot.read node with
    | error fault => simp [hv] at h
    | ok v =>
      rw [hv] at h
      exact .inl ⟨hname, by simpa using hfull, v, rfl, (Except.ok.inj h).symm⟩
  · cases hr : rest.put name node with
    | error fault => simp [hr] at h
    | ok rest' =>
      rw [hr] at h
      exact .inr ⟨hname, rest', rfl, (Except.ok.inj h).symm⟩

/-- What the slots can end up with: in each of them a value with a property of its own. -/
inductive Yields : {βs : List Type} → Slots βs → (Values βs → Prop) → Prop where
  | nil : Yields .nil fun _ ↦ True
  | cons {β : Type} {βs : List Type} {slot : Slot β} {rest : Slots βs} {P : β → Prop}
      {Q : Values βs → Prop}
      (hread : ∀ n v, n.Sound → slot.read n = .ok v → P v)
      (hmissing : ∀ v, slot.absent = some v ∨ slot.ended = some v → P v)
      (hvalue : ∀ v, slot.value = some v → P v) (hrest : Yields rest Q) :
      Yields (.cons slot rest) fun vs ↦ P vs.1 ∧ Q vs.2

variable {slots slots' : Slots βs} {P : Values βs → Prop} {values : Values βs}

theorem Yields.put (h : Yields slots P) {name : String} {node : Node} (hnode : node.Sound)
    (hput : slots.put name node = .ok slots') : Yields slots' P := by
  induction h with
  | nil =>
    obtain rfl := Except.ok.inj hput
    exact .nil
  | @cons β βs slot rest P Q hread hmissing hvalue hrest ih =>
    obtain ⟨-, -, v, hv, rfl⟩ | ⟨-, rest', hr, rfl⟩ := put_cons_ok hput
    · refine .cons hread hmissing (fun w hw ↦ ?_) hrest
      obtain rfl := Option.some.inj hw
      exact hread node v hnode hv
    · exact .cons hread hmissing hvalue (ih hr)

theorem Yields.putMembers (h : Yields slots P) {members : List (Option String × Node)}
    (hmembers : ∀ m ∈ members, m.2.Sound) (hput : slots.putMembers members = .ok slots') :
    Yields slots' P := by
  induction members generalizing slots with
  | nil =>
    obtain rfl := Except.ok.inj hput
    exact h
  | cons m members ih =>
    obtain ⟨hm, hrest⟩ := List.forall_mem_cons.1 hmembers
    obtain ⟨_ | name, node⟩ := m
    · cases hput
    · unfold Slots.putMembers at hput
      cases hslots : slots.put name node with
      | error fault => simp [hslots] at hput
      | ok next =>
        simp only [hslots] at hput
        exact ih (h.put hm hslots) hrest hput

theorem Yields.finish (h : Yields slots P) (hfinish : slots.finish = .ok values) : P values := by
  induction h with
  | nil => trivial
  | @cons β βs slot rest P Q hread hmissing hvalue hrest ih =>
    obtain ⟨v, hv, hfinish⟩ := ok_of_bind hfinish
    obtain ⟨vs, hvs, hfinish⟩ := ok_of_bind hfinish
    obtain rfl := Except.ok.inj hfinish
    refine ⟨?_, ih hvs⟩
    cases hslot : slot.value with
    | some w =>
      rw [hslot] at hv
      obtain rfl := Except.ok.inj hv
      exact hvalue w hslot
    | none =>
      rw [hslot] at hv
      exact hmissing v (.inl (some_of_orMalformed hv))

theorem Yields.fill (h : Yields slots P) {items left : List Node} (hitems : ∀ n ∈ items, n.Sound)
    (hfill : slots.fill items = .ok (values, left)) : P values := by
  induction h generalizing items with
  | nil => trivial
  | @cons β βs slot rest P Q hread hmissing hvalue hrest ih =>
    cases items with
    | nil =>
      obtain ⟨v, hv, hfill⟩ := ok_of_bind hfill
      obtain ⟨⟨vs, left'⟩, hvs, hfill⟩ := ok_of_bind hfill
      cases hfill
      exact ⟨hmissing v (.inr (some_of_orMalformed hv)), ih hitems hvs⟩
    | cons item items =>
      obtain ⟨hitem, hrest⟩ := List.forall_mem_cons.1 hitems
      obtain ⟨v, hv, hfill⟩ := ok_of_bind hfill
      obtain ⟨⟨vs, left'⟩, hvs, hfill⟩ := ok_of_bind hfill
      cases hfill
      exact ⟨hread item v hitem hv, ih hrest hvs⟩

theorem Yields.read (h : Yields slots P) {n : Node} (hn : n.Sound)
    (hread : slots.read n = .ok values) : P values := by
  cases hn with
  | @record members hmembers =>
    dsimp only [Slots.read, Slots.readWith] at hread
    cases hput : slots.putMembers members with
    | error fault => simp [hput] at hread
    | ok filled =>
      rw [hput] at hread
      exact (h.putMembers hmembers hput).finish hread
  | list hitems =>
    obtain ⟨⟨vs, left⟩, hfill, hread⟩ := ok_of_bind hread
    dsimp only at hread
    split_ifs at hread
    obtain rfl := Except.ok.inj hread
    exact h.fill hitems hfill
  | _ => cases hread

end Slots

/-- Slots beside the members that are written for their values. Each takes back what is written
under its name, and so it does with what it has when the member is missing. -/
inductive Columns : {βs : List Type} → Slots βs → (Values βs → List (Option String × Node)) →
    (Values βs → Prop) → (Values βs → Values βs) → Prop where
  | nil : Columns .nil (fun _ ↦ []) (fun _ ↦ True) id
  | cons {β : Type} {βs : List Type} {slot : Slot β} {rest : Slots βs} {write : β → Node}
      {Fits : β → Prop} {kept : β → β} {members : Values βs → List (Option String × Node)}
      {FitRest : Values βs → Prop} {keptRest : Values βs → Values βs}
      (hslot : Faithful write slot.read Fits kept) (hempty : slot.value = none)
      (hmissing : ∀ v, slot.absent = some v ∨ slot.ended = some v → Fits v ∧ kept v = v)
      (hrest : Columns rest members FitRest keptRest) :
      Columns (.cons slot rest) (fun vs ↦ member slot.name (write vs.1) :: members vs.2)
        (fun vs ↦ Fits vs.1 ∧ FitRest vs.2) (fun vs ↦ (kept vs.1, keptRest vs.2))

namespace Columns

variable {write : β → Node} {reader : Reader β} {Fits : β → Prop} {kept : β → β}
  {slots : Slots βs} {members : Values βs → List (Option String × Node)}
  {FitAll : Values βs → Prop} {keptAll : Values βs → Values βs}

theorem required (name : String) (hf : Faithful write reader Fits kept)
    (hrest : Columns slots members FitAll keptAll) :
    Columns (.cons (.required name reader) slots)
      (fun vs ↦ member name (write vs.1) :: members vs.2)
      (fun vs ↦ Fits vs.1 ∧ FitAll vs.2) (fun vs ↦ (kept vs.1, keptAll vs.2)) :=
  .cons hf rfl nofun hrest

theorem withDefault (name : String) (hf : Faithful write reader Fits kept) {v : β}
    (hv : Fits v ∧ kept v = v) (hrest : Columns slots members FitAll keptAll) :
    Columns (.cons (.withDefault name reader v) slots)
      (fun vs ↦ member name (write vs.1) :: members vs.2)
      (fun vs ↦ Fits vs.1 ∧ FitAll vs.2) (fun vs ↦ (kept vs.1, keptAll vs.2)) := by
  refine .cons hf rfl (fun w hw ↦ ?_) hrest
  obtain rfl : v = w := by
    rcases hw with hw | hw
    · exact Option.some.inj hw
    · exact Option.some.inj hw
  exact hv

theorem optional (name : String) {write : Option β → Node} {Fits : Option β → Prop}
    {kept : Option β → Option β} (hf : Faithful write (readOption reader) Fits kept)
    (hnone : Fits none ∧ kept none = none) (hrest : Columns slots members FitAll keptAll) :
    Columns (.cons (.optional name reader) slots)
      (fun vs ↦ member name (write vs.1) :: members vs.2)
      (fun vs ↦ Fits vs.1 ∧ FitAll vs.2) (fun vs ↦ (kept vs.1, keptAll vs.2)) := by
  refine .cons hf rfl (fun o ho ↦ ?_) hrest
  obtain rfl : none = o := by
    rcases ho with ho | ho
    · exact Option.some.inj ho
    · cases ho
  exact hnone

theorem map_fst (h : Columns slots members FitAll keptAll) (vs : Values βs) :
    (members vs).map (·.1) = slots.names.map some := by
  induction h with
  | nil => rfl
  | cons hslot hempty hmissing hrest ih => exact congrArg (_ :: ·) (ih vs.2)

theorem ne_of_mem (h : Columns slots members FitAll keptAll) {name : String}
    (hname : name ∉ slots.names) (vs : Values βs) :
    ∀ m ∈ storedMembers (members vs), m.1 ≠ some name := by
  intro m hm heq
  rw [storedMembers_eq_map] at hm
  obtain ⟨n, hn, rfl⟩ := List.mem_map.1 hm
  have hmem : n.1 ∈ slots.names.map some := h.map_fst vs ▸ List.mem_map_of_mem hn
  obtain ⟨name', hname', hn'⟩ := List.mem_map.1 hmem
  rw [← hn'] at heq
  obtain rfl := Option.some.inj heq
  exact hname hname'

theorem putMembers_cons_ok {slot : Slot β} {rest : Slots βs} (hempty : slot.value = none)
    (hrest : Columns rest members FitAll keptAll) (hname : slot.name ∉ rest.names) {node : Node}
    {value : β} (hread : slot.read node.stored = .ok value) (vs : Values βs) :
    (Slots.cons slot rest).putMembers (storedMembers (member slot.name node :: members vs)) =
      (rest.putMembers (storedMembers (members vs))).map
        (.cons { slot with value := some value }) := by
  change (Slots.cons slot rest).putMembers
    ((some slot.name, node.stored) :: storedMembers (members vs)) = _
  have hfull : ¬ slot.value.isSome = true := by simp [hempty]
  rw [Slots.putMembers, Slots.put, if_pos rfl, if_neg hfull, hread]
  exact Slots.putMembers_cons (hrest.ne_of_mem hname vs)

theorem putMembers_cons_error {slot : Slot β} {rest : Slots βs} (hempty : slot.value = none)
    {node : Node} {fault : Fault} (hread : slot.read node.stored = .error fault)
    (others : List (Option String × Node)) :
    (Slots.cons slot rest).putMembers (storedMembers (member slot.name node :: others)) =
      .error fault := by
  change (Slots.cons slot rest).putMembers
    ((some slot.name, node.stored) :: storedMembers others) = _
  have hfull : ¬ slot.value.isSome = true := by simp [hempty]
  rw [Slots.putMembers, Slots.put, if_pos rfl, if_neg hfull, hread]

theorem putMembers_fits (h : Columns slots members FitAll keptAll) (hnames : slots.names.Nodup)
    (vs : Values βs) (hvs : FitAll vs) :
    ∃ filled, slots.putMembers (storedMembers (members vs)) = .ok filled ∧
      filled.finish = .ok (keptAll vs) := by
  induction h with
  | nil => exact ⟨.nil, rfl, rfl⟩
  | @cons β βs slot rest write Fits kept members FitRest keptRest hslot hempty hmissing hrest ih =>
    obtain ⟨hname, hnodup⟩ := List.nodup_cons.1 hnames
    obtain ⟨filled, hput, hfinish⟩ := ih hnodup vs.2 hvs.2
    refine ⟨.cons { slot with value := some (kept vs.1) } filled, ?_, ?_⟩
    · rw [putMembers_cons_ok hempty hrest hname (hslot.reads vs.1 hvs.1), hput]
      rfl
    · rw [Slots.finish, hfinish]
      rfl

theorem putMembers_not_fits (h : Columns slots members FitAll keptAll)
    (hnames : slots.names.Nodup) (vs : Values βs) (hvs : ¬ FitAll vs) :
    slots.putMembers (storedMembers (members vs)) = .error .malformed := by
  induction h with
  | nil => exact absurd trivial hvs
  | @cons β βs slot rest write Fits kept members FitRest keptRest hslot hempty hmissing hrest ih =>
    obtain ⟨hname, hnodup⟩ := List.nodup_cons.1 hnames
    by_cases hv : Fits vs.1
    · rw [putMembers_cons_ok hempty hrest hname (hslot.reads vs.1 hv),
        ih hnodup vs.2 fun hrest ↦ hvs ⟨hv, hrest⟩]
      rfl
    · exact putMembers_cons_error hempty (hslot.refuses vs.1 hv) (members vs.2)

theorem exists_yields (h : Columns slots members FitAll keptAll) :
    ∃ P, slots.Yields P ∧ ∀ vs, P vs → FitAll vs ∧ keptAll vs = vs := by
  induction h with
  | nil => exact ⟨_, .nil, fun _ _ ↦ ⟨trivial, rfl⟩⟩
  | @cons β βs slot rest write Fits kept members FitRest keptRest hslot hempty hmissing hrest ih =>
    obtain ⟨P, hyields, hP⟩ := ih
    have hvalue : ∀ v, slot.value = some v → Fits v ∧ kept v = v := by
      intro v hv
      rw [hempty] at hv
      cases hv
    refine ⟨_, .cons hslot.gives hmissing hvalue hyields, ?_⟩
    rintro ⟨v, vs⟩ ⟨⟨hv, hkept⟩, hvs⟩
    obtain ⟨hfits, hkeptRest⟩ := hP vs hvs
    exact ⟨⟨hv, hfits⟩, Prod.ext hkept hkeptRest⟩

theorem faithful (h : Columns slots members FitAll keptAll) (hnames : slots.names.Nodup) :
    Faithful (fun vs ↦ .record (members vs)) slots.read FitAll keptAll where
  reads vs hvs := by
    obtain ⟨filled, hput, hfinish⟩ := h.putMembers_fits hnames vs hvs
    rw [stored, Slots.read, Slots.readWith, hput]
    exact hfinish
  refuses vs hvs := by
    rw [stored, Slots.read, Slots.readWith, h.putMembers_not_fits hnames vs hvs]
  gives n vs hn hread := by
    obtain ⟨P, hyields, hP⟩ := h.exists_yields
    exact hP vs (hyields.read hn hread)

end Columns

theorem Faithful.parts {write : β → Node} {reader : Reader β} {Fits : β → Prop} {kept : β → β}
    (hf : Faithful write reader Fits kept) (e : γ ≃ β) {write' : γ → Node} {reader' : Reader γ}
    {Fits' : γ → Prop} {kept' : γ → γ} (hwrite : ∀ v, write' v = write (e v))
    (hread : ∀ n, reader' n = reader n >>= fun w ↦ .ok (e.symm w)) (hfits : ∀ v, Fits' v ↔ Fits (e v))
    (hkept : ∀ v, kept' v = e.symm (kept (e v))) : Faithful write' reader' Fits' kept' where
  reads v hv := by
    rw [hwrite, hread, hf.reads (e v) ((hfits v).1 hv), hkept]
    rfl
  refuses v hv := by
    rw [hwrite, hread, hf.refuses (e v) fun h ↦ hv ((hfits v).2 h)]
    rfl
  gives n v hn h := by
    rw [hread] at h
    obtain ⟨w, hw, h⟩ := ok_of_bind h
    obtain rfl := Except.ok.inj h
    obtain ⟨hfit, hkeptw⟩ := hf.gives n w hn hw
    rw [hfits, hkept, e.apply_symm_apply, hkeptw]
    exact ⟨hfit, rfl⟩

end MetricWatch.Node
