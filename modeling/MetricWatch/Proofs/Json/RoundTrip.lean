import MetricWatch.Proofs.Json.Machine
import MetricWatch.Proofs.Json.Sound

namespace MetricWatch

namespace Node

mutual

/-- What is left of a tree when it is written and read. -/
def stored : Node → Node
  | null => null
  | bool b => bool b
  | integer n => storedInteger n
  | real x => storedReal x
  | text s => text s
  | foreign => null
  | list items => list (storedItems items)
  | record members => record (storedMembers members)

def storedItems : List Node → List Node
  | [] => []
  | item :: items => item.stored :: storedItems items

def storedMembers : List (Option String × Node) → List (Option String × Node)
  | [] => []
  | (name, value) :: members => (some (name.getD ""), value.stored) :: storedMembers members

end

theorem storedItems_eq_map (items : List Node) : storedItems items = items.map stored := by
  induction items with
  | nil => rfl
  | cons item items ih => rw [storedItems, ih, List.map_cons]

theorem storedMembers_eq_map (members : List (Option String × Node)) :
    storedMembers members = members.map fun m ↦ (some (m.1.getD ""), m.2.stored) := by
  induction members with
  | nil => rfl
  | cons m members ih => rw [storedMembers, ih, List.map_cons]

end Node

namespace Json

structure Spacing where
  gap : Nat → List Char
  afterColon : List Char
  gap_isSpace : ∀ level, ∀ c ∈ gap level, Machine.isSpace c = true
  afterColon_isSpace : ∀ c ∈ afterColon, Machine.isSpace c = true

namespace Spacing

def none : Spacing := ⟨fun _ ↦ [], [], nofun, nofun⟩

theorem isSpace_of_mem_newLine {level : Nat} {c : Char} (h : c ∈ newLine level) :
    Machine.isSpace c = true := by
  rcases List.mem_cons.1 h with rfl | h
  · rfl
  · rw [List.eq_of_mem_replicate h]
    rfl

def lines : Spacing where
  gap := newLine
  afterColon := [' ']
  gap_isSpace _ _ := isSpace_of_mem_newLine
  afterColon_isSpace c hc := by
    rw [List.mem_singleton.1 hc]
    rfl

mutual

def chars (s : Spacing) (level : Nat) : Node → List Char
  | .list [] => ['[', ']']
  | .list items => '[' :: itemChars s (level + 1) items ++ s.gap level ++ [']']
  | .record [] => ['{', '}']
  | .record members => '{' :: memberChars s (level + 1) members ++ s.gap level ++ ['}']
  | node => scalar node

def itemChars (s : Spacing) (level : Nat) : List Node → List Char
  | [] => []
  | [item] => s.gap level ++ chars s level item
  | item :: next :: items =>
    s.gap level ++ chars s level item ++ ',' :: itemChars s level (next :: items)

def memberChars (s : Spacing) (level : Nat) : List (Option String × Node) → List Char
  | [] => []
  | [(name, value)] =>
    s.gap level ++ quote (name.getD "") ++ ':' :: s.afterColon ++ chars s level value
  | (name, value) :: next :: members =>
    s.gap level ++ quote (name.getD "") ++ ':' :: s.afterColon ++ chars s level value ++
      ',' :: memberChars s level (next :: members)

end

mutual

theorem chars_lines : ∀ (level : Nat) (node : Node), lines.chars level node = prettyChars level node
  | level, .list [] => rfl
  | level, .list (item :: items) => by
    rw [chars, prettyChars, itemChars_lines (level + 1) (item :: items)]
    · rfl
    · exact nofun
    · exact nofun
  | level, .record [] => rfl
  | level, .record (m :: members) => by
    rw [chars, prettyChars, memberChars_lines (level + 1) (m :: members)]
    · rfl
    · exact nofun
    · exact nofun
  | level, .null => rfl
  | level, .bool b => rfl
  | level, .integer n => rfl
  | level, .real x => rfl
  | level, .text s => rfl
  | level, .foreign => rfl

theorem itemChars_lines : ∀ (level : Nat) (items : List Node),
    lines.itemChars level items = prettyItems level items
  | level, [] => rfl
  | level, [item] => by
    rw [itemChars, prettyItems, chars_lines level item]
    rfl
  | level, item :: next :: items => by
    rw [itemChars, prettyItems, chars_lines level item, itemChars_lines level (next :: items)]
    rfl

theorem memberChars_lines : ∀ (level : Nat) (members : List (Option String × Node)),
    lines.memberChars level members = prettyMembers level members
  | level, [] => rfl
  | level, [(name, value)] => by
    rw [memberChars, prettyMembers, chars_lines level value]
    simp [lines]
  | level, (name, value) :: next :: members => by
    rw [memberChars, prettyMembers, chars_lines level value,
      memberChars_lines level (next :: members)]
    simp [lines]

end

mutual

theorem chars_none : ∀ (level : Nat) (node : Node), none.chars level node = compactChars node
  | level, .list [] => rfl
  | level, .list (item :: items) => by
    rw [chars, compactChars, itemChars_none (level + 1) (item :: items)]
    · simp [none]
    · exact nofun
  | level, .record [] => rfl
  | level, .record (m :: members) => by
    rw [chars, compactChars, memberChars_none (level + 1) (m :: members)]
    · simp [none]
    · exact nofun
  | level, .null => rfl
  | level, .bool b => rfl
  | level, .integer n => rfl
  | level, .real x => rfl
  | level, .text s => rfl
  | level, .foreign => rfl

theorem itemChars_none : ∀ (level : Nat) (items : List Node),
    none.itemChars level items = compactItems items
  | level, [] => rfl
  | level, [item] => by
    rw [itemChars, compactItems, chars_none level item]
    rfl
  | level, item :: next :: items => by
    rw [itemChars, compactItems, chars_none level item, itemChars_none level (next :: items)]
    rfl

theorem memberChars_none : ∀ (level : Nat) (members : List (Option String × Node)),
    none.memberChars level members = compactMembers members
  | level, [] => rfl
  | level, [(name, value)] => by
    rw [memberChars, compactMembers, chars_none level value]
    simp [none]
  | level, (name, value) :: next :: members => by
    rw [memberChars, compactMembers, chars_none level value,
      memberChars_none level (next :: members)]
    simp [none]

end

end Spacing

namespace Machine

variable {frames : List Frame} {place : Place} {before : List Node}
  {members : List (Option String × Node)} {name : Option String} {node : Node} {m : Machine}
  {blank text : List Char}

theorem step_openList (hplace : TakesValue place) :
    (between frames place).step '[' = between (.items [] :: frames) .firstItem :=
  step_between hplace rfl nofun

theorem step_openRecord (hplace : TakesValue place) :
    (between frames place).step '{' = between (.members [] :: frames) .firstMember :=
  step_between hplace rfl nofun

theorem step_comma_of_holds_item (h : Holds (.items before :: frames) node m) :
    m.step ',' = between (.items (node :: before) :: frames) .value :=
  step_of_holds h (ends_of_mem (by simp))

theorem step_comma_of_holds_member (h : Holds (.member members name :: frames) node m) :
    m.step ',' = between (.members ((name, node) :: members) :: frames) .name :=
  step_of_holds h (ends_of_mem (by simp))

theorem foldl_close_of_holds_item (h : Holds (.items before :: frames) node m)
    (hblank : ∀ c ∈ blank, isSpace c = true) :
    (blank ++ [']']).foldl step m = deliver (.list (node :: before).reverse) frames := by
  rw [List.foldl_append]
  exact step_of_holds (holds_foldl_space h hblank) (ends_of_mem (by simp))

theorem foldl_close_of_holds_member (h : Holds (.member members name :: frames) node m)
    (hblank : ∀ c ∈ blank, isSpace c = true) :
    (blank ++ ['}']).foldl step m =
      deliver (.record ((name, node) :: members).reverse) frames := by
  rw [List.foldl_append]
  exact step_of_holds (holds_foldl_space h hblank) (ends_of_mem (by simp))

theorem foldl_member (hplace : place = .firstMember ∨ place = .name) (s : Spacing) (level : Nat)
    (memberName : String) :
    (s.gap level ++ quote memberName ++ ':' :: s.afterColon).foldl step
      (between (.members members :: frames) place) =
    between (.member members (some memberName) :: frames) .value := by
  have hcolon : (between (.member members (some memberName) :: frames) .colon).step ':' =
    between (.member members (some memberName) :: frames) .value := rfl
  rw [List.append_assoc, List.foldl_append, foldl_space (s.gap_isSpace level), List.foldl_append,
    foldl_name hplace, List.foldl_cons, hcolon, foldl_space s.afterColon_isSpace]

theorem holds_scalar (hplace : TakesValue place) :
    (∀ items, node ≠ .list items) → (∀ members, node ≠ .record members) →
      Holds frames node.stored ((scalar node).foldl step (between frames place)) := by
  intro hlist hrecord
  cases node with
  | null => exact .inl (foldl_null hplace)
  | bool b => exact .inl (foldl_bool hplace b)
  | integer n => exact holds_integer hplace n
  | real x => exact holds_real hplace x
  | text s => exact .inl (foldl_quote hplace s)
  | foreign => exact .inl (foldl_null hplace)
  | list items => exact absurd rfl (hlist items)
  | record members => exact absurd rfl (hrecord members)

mutual

/-- Where a value may stand, the text of a tree is read as what is left of the tree. The induction
is on the tree, for all frames around it. -/
theorem holds_chars (s : Spacing) : ∀ (level : Nat) (node : Node) (frames : List Frame)
    (place : Place), TakesValue place →
      Holds frames node.stored ((s.chars level node).foldl step (between frames place))
  | _, .list [], frames, place, hplace => by
    left
    rw [Spacing.chars, List.foldl_cons, step_openList hplace]
    rfl
  | level, .list (item :: items), frames, place, hplace => by
    left
    obtain ⟨before, last, hlast, hall⟩ :=
      holds_itemChars s (level + 1) (item :: items) nofun [] frames .firstItem (.inr rfl)
    rw [Spacing.chars, List.append_assoc, List.cons_append, List.foldl_cons, step_openList hplace,
      List.foldl_append, foldl_close_of_holds_item hlast (s.gap_isSpace level), hall,
      List.append_nil, List.reverse_reverse, Node.stored]
    exact nofun
  | _, .record [], frames, place, hplace => by
    left
    rw [Spacing.chars, List.foldl_cons, step_openRecord hplace]
    rfl
  | level, .record (m :: members), frames, place, hplace => by
    left
    obtain ⟨before, name, last, hlast, hall⟩ :=
      holds_memberChars s (level + 1) (m :: members) nofun [] frames .firstMember (.inl rfl)
    rw [Spacing.chars, List.append_assoc, List.cons_append, List.foldl_cons, step_openRecord hplace,
      List.foldl_append, foldl_close_of_holds_member hlast (s.gap_isSpace level), hall,
      List.append_nil, List.reverse_reverse, Node.stored]
    exact nofun
  | _, .null, _, _, hplace => holds_scalar hplace nofun nofun
  | _, .bool _, _, _, hplace => holds_scalar hplace nofun nofun
  | _, .integer _, _, _, hplace => holds_scalar hplace nofun nofun
  | _, .real _, _, _, hplace => holds_scalar hplace nofun nofun
  | _, .text _, _, _, hplace => holds_scalar hplace nofun nofun
  | _, .foreign, _, _, hplace => holds_scalar hplace nofun nofun

theorem holds_itemChars (s : Spacing) : ∀ (level : Nat) (items : List Node), items ≠ [] →
    ∀ (before : List Node) (frames : List Frame) (place : Place), TakesValue place →
      ∃ before' last, Holds (.items before' :: frames) last
        ((s.itemChars level items).foldl step (between (.items before :: frames) place)) ∧
        last :: before' = (Node.storedItems items).reverse ++ before
  | _, [], hne, _, _, _, _ => absurd rfl hne
  | level, [item], _, before, frames, place, hplace => by
    refine ⟨before, item.stored, ?_, rfl⟩
    rw [Spacing.itemChars, List.foldl_append, foldl_space (s.gap_isSpace level)]
    exact holds_chars s level item _ place hplace
  | level, item :: next :: items, _, before, frames, place, hplace => by
    have hitem := holds_chars s level item (.items before :: frames) place hplace
    obtain ⟨before', last, hlast, hall⟩ :=
      holds_itemChars s level (next :: items) nofun (item.stored :: before) frames .value (.inl rfl)
    refine ⟨before', last, ?_, ?_⟩
    · rw [Spacing.itemChars, List.append_assoc, List.foldl_append,
        foldl_space (s.gap_isSpace level), List.foldl_append, List.foldl_cons,
        step_comma_of_holds_item hitem]
      exact hlast
    · rw [hall]
      simp [Node.storedItems]

theorem holds_memberChars (s : Spacing) : ∀ (level : Nat) (members : List (Option String × Node)),
    members ≠ [] → ∀ (before : List (Option String × Node)) (frames : List Frame) (place : Place),
      place = .firstMember ∨ place = .name →
        ∃ before' name last, Holds (.member before' name :: frames) last
          ((s.memberChars level members).foldl step (between (.members before :: frames) place)) ∧
          (name, last) :: before' = (Node.storedMembers members).reverse ++ before
  | _, [], hne, _, _, _, _ => absurd rfl hne
  | level, [(name, value)], _, before, frames, place, hplace => by
    refine ⟨before, some (name.getD ""), value.stored, ?_, rfl⟩
    rw [Spacing.memberChars, List.foldl_append, foldl_member hplace]
    exact holds_chars s level value _ .value (.inl rfl)
  | level, (name, value) :: next :: members, _, before, frames, place, hplace => by
    have hvalue := holds_chars s level value (.member before (some (name.getD "")) :: frames) .value
      (.inl rfl)
    obtain ⟨before', name', last, hlast, hall⟩ := holds_memberChars s level (next :: members) nofun
      ((some (name.getD ""), value.stored) :: before) frames .name (.inr rfl)
    refine ⟨before', name', last, ?_, ?_⟩
    · rw [Spacing.memberChars, List.append_assoc, List.foldl_append, foldl_member hplace,
        List.foldl_append, List.foldl_cons, step_comma_of_holds_member hvalue]
      exact hlast
    · rw [hall]
      simp [Node.storedMembers]

end

theorem finish_of_holds (h : Holds [] node m) : m.finish = finished node := by
  rcases h with rfl | ⟨n, rfl, hcomplete, rfl⟩
  · rfl
  · rw [finish, if_pos hcomplete]
    rfl

end Machine

theorem read_of_holds {node : Node} {text : List Char}
    (h : Machine.Holds [] node (text.foldl Machine.step .start)) :
    read (String.ofList text) = ⟨some node, true⟩ := by
  rw [read, String.toList_ofList, run, Machine.finish_of_holds h]

theorem read_chars (s : Spacing) (node : Node) :
    read (String.ofList (s.chars 0 node)) = ⟨some node.stored, true⟩ :=
  read_of_holds (Machine.holds_chars s 0 node [] .value (.inl rfl))

theorem read_compact (node : Node) : read (compact node) = ⟨some node.stored, true⟩ := by
  rw [compact, ← Spacing.chars_none 0, read_chars]

theorem read_pretty (node : Node) : read (pretty node) = ⟨some node.stored, true⟩ := by
  rw [pretty, ← Spacing.chars_lines, read_chars]

variable {β : Type}

theorem decode_of_read {reader : Node.Reader β} {text : String} {root : Node}
    (h : read text = ⟨some root, true⟩) : decode reader text = reader root := by
  unfold decode
  simp only [h, if_true]
  exact bind_pure (reader root)

theorem parse?_compact (node : Node) : parse? (compact node) = some node.stored := by
  rw [parse?, read_compact]
  rfl

theorem decode_of_parse? {reader : Node.Reader β} {text : String} {root : Node}
    (h : parse? text = some root) : decode reader text = reader root :=
  decode_of_read (read_of_parse? h)

theorem decode_compact (reader : Node.Reader β) (node : Node) :
    decode reader (compact node) = reader node.stored :=
  decode_of_read (read_compact node)

theorem decode_pretty (reader : Node.Reader β) (node : Node) :
    decode reader (pretty node) = reader node.stored :=
  decode_of_read (read_pretty node)

end Json

end MetricWatch
