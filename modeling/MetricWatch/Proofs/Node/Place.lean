import Mathlib.Data.List.Basic
import MetricWatch.Proofs.Node.Columns

namespace MetricWatch.Node

variable {β γ δ : Type} {βs : List Type}

/-- The place of a member in a record, or in a list of the members in their order. -/
inductive MemberPlace (names : List String) (name : String) : (Node → Node) → Prop where
  | record (before after : List (Option String × Node)) :
      MemberPlace names name fun n ↦ .record (before ++ member name n :: after)
  | list (before after : List Node) (h : before.length = names.idxOf name) :
      MemberPlace names name fun n ↦ .list (before ++ n :: after)

inductive ItemPlace : (Node → Node) → Prop where
  | mk (before after : List Node) : ItemPlace fun n ↦ .list (before ++ n :: after)

/-- A place inside an item of a list that is a member. -/
inductive ListedPlace (names : List String) (name : String) (Inner : (Node → Node) → Prop) :
    (Node → Node) → Prop where
  | mk {outer item inner : Node → Node} (houter : MemberPlace names name outer)
      (hitem : ItemPlace item) (hinner : Inner inner) :
      ListedPlace names name Inner (outer ∘ item ∘ inner)

/-- One of the values that a record consists of. -/
inductive Field (γ : Type) : List Type → Type 1 where
  | here {βs : List Type} : Field γ (γ :: βs)
  | there {β : Type} {βs : List Type} (f : Field γ βs) : Field γ (β :: βs)

namespace Field

def index : {βs : List Type} → Field γ βs → Nat
  | _, here => 0
  | _, there f => f.index + 1

def set : {βs : List Type} → Field γ βs → γ → Values βs → Values βs
  | _, here, v, (_, rest) => (v, rest)
  | _, there f, v, (w, rest) => (w, f.set v rest)

def assign : {βs : List Type} → Field γ βs → γ → Slots βs → Slots βs
  | _, here, v, .cons slot rest => .cons { slot with value := some v } rest
  | _, there f, v, .cons slot rest => .cons slot (f.assign v rest)

def Filled : {βs : List Type} → Field γ βs → Slots βs → Prop
  | _, here, .cons slot _ => slot.value.isSome = true
  | _, there f, .cons _ rest => f.Filled rest

/-- The first slot of a name is that of the field, and it takes what a reader gives. -/
inductive Wants (name : String) (reader : Reader γ) :
    {βs : List Type} → Field γ βs → Slots βs → Prop
  | here {βs : List Type} {slot : Slot γ} {rest : Slots βs} (hname : slot.name = name)
      (hread : slot.read = reader) : Wants name reader .here (.cons slot rest)
  | there {β : Type} {βs : List Type} {f : Field γ βs} {slot : Slot β} {rest : Slots βs}
      (hname : slot.name ≠ name) (h : Wants name reader f rest) :
      Wants name reader (.there f) (.cons slot rest)

variable {name : String} {reader : Reader γ} {f : Field γ βs} {slots slots' : Slots βs}
  {values : Values βs}

theorem Wants.idxOf_names (h : Wants name reader f slots) : slots.names.idxOf name = f.index := by
  induction h with
  | here hname hread => rw [Slots.names, hname, List.idxOf_cons_self, index]
  | there hname h ih => rw [Slots.names, List.idxOf_cons_ne _ hname, ih, index]

theorem Wants.put (h : Wants name reader f slots) {other : String} {node : Node}
    (hput : slots.put other node = .ok slots') : Wants name reader f slots' := by
  induction h with
  | here hname hread =>
    obtain ⟨-, -, v, -, rfl⟩ | ⟨-, rest', -, rfl⟩ := Slots.put_cons_ok hput
    · exact .here hname hread
    · exact .here hname hread
  | there hname h ih =>
    obtain ⟨-, -, v, -, rfl⟩ | ⟨-, rest', hr, rfl⟩ := Slots.put_cons_ok hput
    · exact .there hname h
    · exact .there hname (ih hr)

theorem Filled.put (h : f.Filled slots) {other : String} {node : Node}
    (hput : slots.put other node = .ok slots') :
    f.Filled slots' ∧ ∀ v, (f.assign v slots).put other node = .ok (f.assign v slots') := by
  induction f with
  | here =>
    obtain _ | ⟨slot, rest⟩ := slots
    obtain ⟨-, hempty, -⟩ | ⟨hname, rest', hr, rfl⟩ := Slots.put_cons_ok hput
    · simp [Filled, hempty] at h
    · exact ⟨h, fun v ↦ by rw [assign, Slots.put, if_neg hname, hr, assign]⟩
  | there f ih =>
    obtain _ | ⟨slot, rest⟩ := slots
    obtain ⟨hname, hempty, w, hw, rfl⟩ | ⟨hname, rest', hr, rfl⟩ := Slots.put_cons_ok hput
    · exact ⟨h, fun v ↦ by simp [assign, Slots.put, hname, hempty, hw]⟩
    · obtain ⟨hfilled, hassign⟩ := ih h hr
      exact ⟨hfilled, fun v ↦ by rw [assign, Slots.put, if_neg hname, hassign v, assign]⟩

theorem Filled.putMembers (h : f.Filled slots) {members : List (Option String × Node)}
    (hput : slots.putMembers members = .ok slots') :
    f.Filled slots' ∧ ∀ v, (f.assign v slots).putMembers members = .ok (f.assign v slots') := by
  induction members generalizing slots with
  | nil =>
    obtain rfl := Except.ok.inj hput
    exact ⟨h, fun v ↦ rfl⟩
  | cons m members ih =>
    obtain ⟨_ | other, node⟩ := m
    · cases hput
    · unfold Slots.putMembers at hput
      cases hslots : slots.put other node with
      | error fault => simp [hslots] at hput
      | ok next =>
        rw [hslots] at hput
        obtain ⟨hnext, hassign⟩ := h.put hslots
        obtain ⟨hfilled, hrest⟩ := ih hnext hput
        exact ⟨hfilled, fun v ↦ by rw [Slots.putMembers, hassign v]; exact hrest v⟩

theorem Filled.finish (h : f.Filled slots) (hfinish : slots.finish = .ok values) (v : γ) :
    (f.assign v slots).finish = .ok (f.set v values) := by
  induction f with
  | here =>
    obtain _ | ⟨slot, rest⟩ := slots
    obtain ⟨w, hw, hfinish⟩ := ok_of_bind hfinish
    obtain ⟨ws, hws, hfinish⟩ := ok_of_bind hfinish
    obtain rfl := Except.ok.inj hfinish
    rw [assign, Slots.finish, hws]
    rfl
  | there f ih =>
    obtain _ | ⟨slot, rest⟩ := slots
    obtain ⟨w, hw, hfinish⟩ := ok_of_bind hfinish
    obtain ⟨ws, hws, hfinish⟩ := ok_of_bind hfinish
    obtain rfl := Except.ok.inj hfinish
    rw [assign, Slots.finish, hw, ih h hws]
    rfl

theorem Wants.put_self (h : Wants name reader f slots) {node : Node}
    (hput : slots.put name node = .ok slots') :
    f.Filled slots' ∧ ∀ n, slots.put name n = (reader n).map fun v ↦ f.assign v slots' := by
  induction h with
  | here hname hread =>
    obtain ⟨-, hempty, w, -, rfl⟩ | ⟨hne, -⟩ := Slots.put_cons_ok hput
    · refine ⟨rfl, fun n ↦ ?_⟩
      simp only [Slots.put, hname, hempty, hread, Option.isSome_none, Bool.false_eq_true, if_true,
        if_false]
      cases reader n with
      | error fault => rfl
      | ok v => rfl
    · exact absurd hname hne
  | there hname h ih =>
    obtain ⟨heq, -⟩ | ⟨-, rest', hr, rfl⟩ := Slots.put_cons_ok hput
    · exact absurd heq hname
    · obtain ⟨hfilled, hassign⟩ := ih hr
      refine ⟨hfilled, fun n ↦ ?_⟩
      rw [Slots.put, if_neg hname, hassign n]
      cases reader n with
      | error fault => rfl
      | ok v => rfl

theorem Wants.putMembers (h : Wants name reader f slots)
    {before after : List (Option String × Node)} {node : Node}
    (hput : slots.putMembers (before ++ member name node :: after) = .ok slots') :
    f.Filled slots' ∧ ∀ n, slots.putMembers (before ++ member name n :: after) =
      (reader n).map fun v ↦ f.assign v slots' := by
  -- Slots keep their names, so the field is still wanted when the members before it are in place.
  induction before generalizing slots with
  | nil =>
    simp only [List.nil_append, member, Slots.putMembers] at hput ⊢
    cases hslots : slots.put name node with
    | error fault => simp [hslots] at hput
    | ok next =>
      rw [hslots] at hput
      obtain ⟨hnext, hself⟩ := h.put_self hslots
      obtain ⟨hfilled, hassign⟩ := hnext.putMembers hput
      refine ⟨hfilled, fun n ↦ ?_⟩
      rw [hself n]
      cases reader n with
      | error fault => rfl
      | ok v => exact hassign v
  | cons m before ih =>
    obtain ⟨_ | other, first⟩ := m
    · cases hput
    · simp only [List.cons_append, Slots.putMembers] at hput ⊢
      cases hslots : slots.put other first with
      | error fault => simp [hslots] at hput
      | ok next =>
        rw [hslots] at hput
        exact ih (h.put hslots) hput

theorem Wants.fill (h : Wants name reader f slots) {before after left : List Node} {node : Node}
    (hlen : before.length = f.index)
    (hfill : slots.fill (before ++ node :: after) = .ok (values, left)) (n : Node) :
    slots.fill (before ++ n :: after) = (reader n).map fun v ↦ (f.set v values, left) := by
  induction h generalizing before with
  | here hname hread =>
    obtain rfl := List.length_eq_zero_iff.1 hlen
    obtain ⟨w, -, hfill⟩ := ok_of_bind hfill
    obtain ⟨⟨ws, left'⟩, hws, hfill⟩ := ok_of_bind hfill
    cases hfill
    rw [List.nil_append, Slots.fill, hws, hread]
    cases reader n with
    | error fault => rfl
    | ok v => rfl
  | there hname h ih =>
    obtain _ | ⟨item, before⟩ := before
    · cases hlen
    obtain ⟨w, hw, hfill⟩ := ok_of_bind hfill
    obtain ⟨⟨ws, left'⟩, hws, hfill⟩ := ok_of_bind hfill
    cases hfill
    rw [List.cons_append, Slots.fill, hw, ih (Nat.succ.inj hlen) hws]
    cases reader n with
    | error fault => rfl
    | ok v => rfl

theorem Wants.read (h : Wants name reader f slots) {place : Node → Node}
    (hplace : MemberPlace slots.names name place) {node : Node}
    (hread : slots.read (place node) = .ok values) (n : Node) :
    slots.read (place n) = (reader n).map fun v ↦ f.set v values := by
  cases hplace with
  | record before after =>
    dsimp only [Slots.read, Slots.readWith] at hread ⊢
    cases hput : slots.putMembers (before ++ member name node :: after) with
    | error fault => simp [hput] at hread
    | ok filled =>
      rw [hput] at hread
      obtain ⟨hfilled, hself⟩ := h.putMembers hput
      rw [hself n]
      cases reader n with
      | error fault => rfl
      | ok v => exact hfilled.finish hread v
  | list before after hlen =>
    obtain ⟨⟨ws, left⟩, hfill, hread⟩ := ok_of_bind hread
    dsimp only at hread
    split_ifs at hread with hleft
    obtain rfl := Except.ok.inj hread
    rw [h.idxOf_names] at hlen
    rw [Slots.read, Slots.readWith, h.fill hlen hfill n]
    cases reader n with
    | error fault => rfl
    | ok v => exact if_pos hleft

end Field

/-- A slot of a name, the first one, takes what a reader gives. -/
def Slots.Holds (slots : Slots βs) (name : String) (reader : Reader γ) : Prop :=
  ∃ f : Field γ βs, f.Wants name reader slots

theorem Slots.holds_here {slot : Slot γ} {rest : Slots βs} :
    (cons slot rest).Holds slot.name slot.read :=
  ⟨.here, .here rfl rfl⟩

theorem Slots.holds_there {slot : Slot β} {rest : Slots βs} {name : String} {reader : Reader γ}
    (hname : slot.name ≠ name) (h : rest.Holds name reader) :
    (cons slot rest).Holds name reader := by
  obtain ⟨f, hf⟩ := h
  exact ⟨.there f, .there hname hf⟩

/-- What a document is read as depends on the value at a place by what that is read as. -/
def Hosts (reader : Reader β) (inner : Reader γ) (place : Node → Node) : Prop :=
  ∀ n b, reader (place n) = .ok b → ∃ set : γ → β, ∀ n', reader (place n') = (inner n').map set

namespace Hosts

variable {reader : Reader β} {middle : Reader δ} {inner : Reader γ} {outer place : Node → Node}

theorem comp (h : Hosts reader middle outer) (h' : Hosts middle inner place) :
    Hosts reader inner (outer ∘ place) := by
  intro n b hb
  obtain ⟨set, hset⟩ := h (place n) b hb
  cases hm : middle (place n) with
  | error fault =>
    rw [Function.comp_apply, hset, hm] at hb
    cases hb
  | ok m =>
    obtain ⟨set', hset'⟩ := h' n m hm
    refine ⟨set ∘ set', fun n' ↦ ?_⟩
    rw [Function.comp_apply, hset, hset']
    cases inner n' with
    | error fault => rfl
    | ok v => rfl

theorem item (hplace : ItemPlace place) : Hosts (readList inner) inner place := by
  obtain ⟨before, after⟩ := hplace
  intro n vs hvs
  simp only [readList] at hvs ⊢
  induction before generalizing vs with
  | nil =>
    rw [List.nil_append, List.mapM_cons] at hvs
    obtain ⟨v, -, hvs⟩ := ok_of_bind hvs
    obtain ⟨rest, hrest, -⟩ := ok_of_bind hvs
    refine ⟨(· :: rest), fun n' ↦ ?_⟩
    rw [List.nil_append, List.mapM_cons, hrest]
    cases inner n' with
    | error fault => rfl
    | ok v => rfl
  | cons m before ih =>
    rw [List.cons_append, List.mapM_cons] at hvs
    obtain ⟨v, hv, hvs⟩ := ok_of_bind hvs
    obtain ⟨rest, hrest, -⟩ := ok_of_bind hvs
    obtain ⟨set, hset⟩ := ih rest hrest
    refine ⟨fun w ↦ v :: set w, fun n' ↦ ?_⟩
    rw [List.cons_append, List.mapM_cons, hv, hset n']
    cases inner n' with
    | error fault => rfl
    | ok v => rfl

theorem member {slots : Slots βs} {name : String} (h : slots.Holds name inner)
    (hplace : MemberPlace slots.names name place) : Hosts slots.read inner place := by
  obtain ⟨f, hf⟩ := h
  exact fun _ _ hread ↦ ⟨_, hf.read hplace hread⟩

theorem listed {slots : Slots βs} {name : String} {Inner : (Node → Node) → Prop}
    (h : slots.Holds name (readList middle))
    (hinner : ∀ place, Inner place → Hosts middle inner place)
    (hplace : ListedPlace slots.names name Inner place) : Hosts slots.read inner place := by
  obtain ⟨houter, hitem, hplace⟩ := hplace
  exact (member h houter).comp ((item hitem).comp (hinner _ hplace))

theorem parts (h : Hosts reader inner place) (e : δ ≃ β) {reader' : Reader δ}
    (hread : ∀ n, reader' n = reader n >>= fun v ↦ .ok (e.symm v)) :
    Hosts reader' inner place := by
  intro n v hv
  rw [hread] at hv
  obtain ⟨w, hw, -⟩ := ok_of_bind hv
  obtain ⟨set, hset⟩ := h n w hw
  refine ⟨e.symm ∘ set, fun n' ↦ ?_⟩
  rw [hread, hset]
  cases inner n' with
  | error fault => rfl
  | ok v => rfl

end Hosts

end MetricWatch.Node
