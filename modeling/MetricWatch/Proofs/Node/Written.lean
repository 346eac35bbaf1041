import MetricWatch.Proofs.Node.Columns

namespace MetricWatch.Node

variable {β : Type} {βs : List Type}

/-- What is written for a member: under its name in a record, at its place in a list. -/
def memberAt? (name : String) (place : Nat) : Node → Option Node
  | record members => members.lookup (some name)
  | list items => items[place]?
  | _ => none

/-- The value is read from what is written, or it is the default where nothing is. -/
def Gives (read : Reader β) (default : Option β) (value : β) : Option Node → Prop
  | some node => read node = .ok value
  | none => default = some value

def Slot.missing (slot : Slot β) : Node → Option β
  | list _ => slot.ended
  | _ => slot.absent

namespace Slots

def Empty : {βs : List Type} → Slots βs → Prop
  | _, nil => True
  | _, cons slot rest => slot.value = none ∧ rest.Empty

/-- Every slot gives its value, the first one of the slots from a place on. -/
def Give (n : Node) : {βs : List Type} → (place : Nat) → Slots βs → Values βs → Prop
  | _, _, nil, _ => True
  | _, place, cons slot rest, values =>
    Gives slot.read (slot.missing n) values.1 (n.memberAt? slot.name place) ∧
      rest.Give n (place + 1) values.2

variable {slot : Slot β} {rest : Slots βs} {slots : Slots βs} {values : Values βs}
  {members : List (Option String × Node)} {items left : List Node} {place : Nat}

theorem Give.default {n : Node} {name : String} {read : Reader β} {v : β} {values : Values (β :: βs)}
    (h : (cons (.withDefault name read v) rest).Give n place values) :
    Gives read (some v) values.1 (n.memberAt? name place) := by
  have hmissing : (Slot.withDefault name read v).missing n = some v := by cases n <;> rfl
  have hfirst := h.1
  rwa [hmissing] at hfirst

theorem put_of_not_mem {name : String} (h : name ∉ slots.names) (node : Node) :
    slots.put name node = .ok slots := by
  induction slots with
  | nil => rfl
  | cons slot rest ih =>
    obtain ⟨hname, hrest⟩ := not_or.1 (List.mem_cons.not.1 h)
    rw [put, if_neg (Ne.symm hname), ih hrest]

theorem names_put {name : String} {node : Node} {filled : Slots βs}
    (h : slots.put name node = .ok filled) : filled.names = slots.names := by
  induction slots with
  | nil =>
    obtain rfl := Except.ok.inj h
    rfl
  | cons slot rest ih =>
    obtain ⟨-, -, v, -, rfl⟩ | ⟨-, rest', hrest, rfl⟩ := put_cons_ok h
    · rfl
    · exact congrArg (slot.name :: ·) (ih hrest)

/-- The first slot ends with what is written under its name, or with what it had. -/
theorem putMembers_first {filled : Slots (β :: βs)} (hname : slot.name ∉ rest.names)
    (h : (cons slot rest).putMembers members = .ok filled) :
    ∃ value rest', filled = cons { slot with value } rest' ∧ rest.putMembers members = .ok rest' ∧
      match members.lookup (some slot.name) with
      | some node => slot.value = none ∧ ∃ v, slot.read node = .ok v ∧ value = some v
      | none => value = slot.value := by
  induction members generalizing slot rest with
  | nil =>
    obtain rfl := Except.ok.inj h
    exact ⟨slot.value, rest, rfl, rfl, rfl⟩
  | cons m members ih =>
    obtain ⟨_ | name, node⟩ := m
    · cases h
    unfold putMembers at h ⊢
    cases hput : (cons slot rest).put name node with
    | error fault => simp [hput] at h
    | ok next =>
      simp only [hput] at h
      obtain ⟨rfl, hempty, v, hv, rfl⟩ | ⟨hother, next', hput', rfl⟩ := put_cons_ok hput
      · -- its place is taken now, so nothing else is written under its name
        obtain ⟨value, rest', rfl, hrest, hvalue⟩ :=
          @ih { slot with value := some v } rest hname h
        rw [put_of_not_mem hname]
        refine ⟨value, rest', rfl, hrest, ?_⟩
        cases hlookup : members.lookup (some slot.name) with
        | some other =>
          rw [hlookup] at hvalue
          cases hvalue.1
        | none =>
          rw [hlookup] at hvalue
          rw [List.lookup_cons_self]
          exact ⟨hempty, v, hv, hvalue⟩
      · rw [← names_put hput'] at hname
        obtain ⟨value, rest', rfl, hrest, hvalue⟩ := ih hname h
        rw [hput', List.lookup_cons, beq_eq_false_iff_ne.2 fun heq ↦ hother (Option.some.inj heq)]
        exact ⟨value, rest', rfl, hrest, hvalue⟩

theorem give_of_finish {filled : Slots βs} (hempty : slots.Empty) (hnames : slots.names.Nodup)
    (hput : slots.putMembers members = .ok filled) (h : filled.finish = .ok values) (place : Nat) :
    slots.Give (.record members) place values := by
  induction slots generalizing place with
  | nil => trivial
  | cons slot rest ih =>
    obtain ⟨hname, hnodup⟩ := List.nodup_cons.1 hnames
    obtain ⟨value, rest', rfl, hrest, hvalue⟩ := putMembers_first hname hput
    obtain ⟨v, hv, h⟩ := ok_of_bind h
    obtain ⟨vs, hvs, h⟩ := ok_of_bind h
    obtain rfl := Except.ok.inj h
    refine ⟨?_, ih hempty.2 hnodup hrest hvs (place + 1)⟩
    rw [memberAt?]
    cases hlookup : members.lookup (some slot.name) with
    | some node =>
      rw [hlookup] at hvalue
      obtain ⟨-, w, hw, rfl⟩ := hvalue
      obtain rfl := Except.ok.inj hv
      exact hw
    | none =>
      rw [hlookup, hempty.1] at hvalue
      subst hvalue
      exact some_of_orMalformed hv

theorem give_of_fill (h : slots.fill (items.drop place) = .ok (values, left)) :
    slots.Give (.list items) place values := by
  -- Each slot takes one item, so the place moves on with the slots.
  induction slots generalizing place with
  | nil => trivial
  | cons slot rest ih =>
    have hentry : items[place]? = (items.drop place).head? := by rw [List.head?_drop]
    have hlater : items.drop (place + 1) = (items.drop place).tail := List.tail_drop.symm
    cases hitems : items.drop place with
    | nil =>
      rw [hitems] at h hentry hlater
      obtain ⟨v, hv, h⟩ := ok_of_bind h
      obtain ⟨⟨vs, left'⟩, hvs, h⟩ := ok_of_bind h
      cases h
      refine ⟨?_, ih (hlater ▸ hvs)⟩
      rw [memberAt?, hentry]
      exact some_of_orMalformed hv
    | cons item later =>
      rw [hitems] at h hentry hlater
      obtain ⟨v, hv, h⟩ := ok_of_bind h
      obtain ⟨⟨vs, left'⟩, hvs, h⟩ := ok_of_bind h
      cases h
      refine ⟨?_, ih (hlater ▸ hvs)⟩
      rw [memberAt?, hentry]
      exact hv

theorem give_of_readWith {surplus : Bool} {n : Node} (hempty : slots.Empty)
    (hnames : slots.names.Nodup) (h : slots.readWith surplus n = .ok values) :
    slots.Give n 0 values := by
  cases n with
  | record members =>
    dsimp only [readWith] at h
    cases hput : slots.putMembers members with
    | error fault => simp [hput] at h
    | ok filled =>
      rw [hput] at h
      exact give_of_finish hempty hnames hput h 0
  | list items =>
    obtain ⟨⟨vs, left⟩, hfill, h⟩ := ok_of_bind h
    dsimp only at h
    split_ifs at h
    obtain rfl := Except.ok.inj h
    exact @give_of_fill _ _ _ _ _ 0 hfill
  | _ => cases h

end Slots

end MetricWatch.Node
