import MetricWatch.Json.Reader
import Mathlib.Tactic.SplitIfs

namespace MetricWatch

inductive Node.Sound : Node → Prop where
  | null : Sound .null
  | bool (b : Bool) : Sound (.bool b)
  | integer {n : Int} (h : -0x8000000000000000 ≤ n ∧ n < 0x10000000000000000) : Sound (.integer n)
  | real {x : Binary64} (h : x.isFinite = true) : Sound (.real x)
  | text (s : String) : Sound (.text s)
  | foreign : Sound .foreign
  | list {items : List Node} (h : ∀ item ∈ items, Sound item) : Sound (.list items)
  | record {members : List (Option String × Node)} (h : ∀ m ∈ members, Sound m.2) :
    Sound (.record members)

namespace Json

theorem NumberScan.integer?_bounds {n : NumberScan} {i : Int} (h : n.integer? = some i) :
    -0x8000000000000000 ≤ i ∧ i < 0x10000000000000000 := by
  unfold integer? at h
  split_ifs at h with hpart hnegative hdigits hdigits
  · obtain rfl := Option.some.inj h
    omega
  · obtain rfl := Option.some.inj h
    omega

theorem NumberScan.sound_node (n : NumberScan) : n.node.Sound := by
  unfold node
  split
  · rename_i i hi
    exact .integer (integer?_bounds hi)
  · dsimp only
    split
    · rename_i hfinite
      exact .real hfinite
    · exact .foreign

def Frame.Sound : Frame → Prop
  | items before => ∀ item ∈ before, item.Sound
  | members before => ∀ m ∈ before, m.2.Sound
  | member before _ => ∀ m ∈ before, m.2.Sound

namespace Machine

variable {frames : List Frame} {node : Node} {m : Machine}

/-- All that the machine holds is sound. What is open after a fault does not matter. -/
def Sound : Machine → Prop
  | finished root => root.Sound
  | stopped _ _ => True
  | word frames _ node => (∀ f ∈ frames, f.Sound) ∧ node.Sound
  | m => ∀ f ∈ m.frames, f.Sound

theorem sound_deliver (hframes : ∀ f ∈ frames, f.Sound) (hnode : node.Sound) :
    (deliver node frames).Sound := by
  cases frames with
  | nil => exact hnode
  | cons frame frames =>
    obtain ⟨hframe, hrest⟩ := List.forall_mem_cons.1 hframes
    cases frame with
    | items before =>
      have hbefore : Frame.Sound (.items (node :: before)) :=
        List.forall_mem_cons.2 ⟨hnode, hframe⟩
      exact List.forall_mem_cons.2 ⟨hbefore, hrest⟩
    | members before => trivial
    | member before name =>
      have hbefore : Frame.Sound (.members ((name, node) :: before)) :=
        List.forall_mem_cons.2 ⟨hnode, hframe⟩
      exact List.forall_mem_cons.2 ⟨hbefore, hrest⟩

theorem sound_close (hframes : ∀ f ∈ frames, f.Sound) (bracket : Char) :
    (close bracket frames).Sound := by
  cases frames with
  | nil => trivial
  | cons frame frames =>
    obtain ⟨hframe, hrest⟩ := List.forall_mem_cons.1 hframes
    cases frame with
    | items before =>
      dsimp only [close]
      split_ifs
      · exact sound_deliver hrest (.list fun item hitem ↦ hframe item (List.mem_reverse.1 hitem))
      · trivial
    | members before =>
      dsimp only [close]
      split_ifs
      · exact sound_deliver hrest (.record fun m hm ↦ hframe m (List.mem_reverse.1 hm))
      · trivial
    | member before name => trivial

theorem sound_beginValue (hframes : ∀ f ∈ frames, f.Sound) (c : Char) :
    (beginValue frames c).Sound := by
  unfold beginValue
  split
  · exact hframes
  · exact List.forall_mem_cons.2 ⟨nofun, hframes⟩
  · exact List.forall_mem_cons.2 ⟨nofun, hframes⟩
  · exact ⟨hframes, .bool true⟩
  · exact ⟨hframes, .bool false⟩
  · exact ⟨hframes, .null⟩
  · split
    · exact hframes
    · trivial

theorem sound_separatorStep (hframes : ∀ f ∈ frames, f.Sound) (c : Char) :
    (separatorStep frames c).Sound := by
  unfold separatorStep
  split
  · exact hframes
  · exact hframes
  · exact sound_close hframes c

theorem sound_betweenStep (hframes : ∀ f ∈ frames, f.Sound) (place : Place) (c : Char) :
    (betweenStep frames place c).Sound := by
  unfold betweenStep
  by_cases hspace : isSpace c = true
  · rw [if_pos hspace]
    exact hframes
  · rw [if_neg hspace]
    cases place with
    | value => exact sound_beginValue hframes c
    | firstItem =>
      dsimp only
      split_ifs
      · exact sound_close hframes c
      · exact sound_beginValue hframes c
    | firstMember =>
      dsimp only
      split_ifs
      · exact hframes
      · exact sound_close hframes c
      · trivial
    | name =>
      dsimp only
      split_ifs
      · exact hframes
      · trivial
    | colon =>
      dsimp only
      split_ifs
      · exact hframes
      · trivial
    | separator => exact sound_separatorStep hframes c

theorem sound_named (hframes : ∀ f ∈ frames, f.Sound) (name : Option String) :
    (named name frames).Sound := by
  unfold named
  split
  · obtain ⟨hframe, hrest⟩ := List.forall_mem_cons.1 hframes
    exact List.forall_mem_cons.2 ⟨hframe, hrest⟩
  · trivial

theorem sound_outside (hm : m.Sound) (c : Char) : (m.outside c).Sound := by
  unfold outside
  split
  · exact sound_betweenStep hm _ c
  · split_ifs
    · exact hm
    · trivial
  · exact hm

theorem sound_step (hm : m.Sound) (c : Char) : (m.step c).Sound := by
  cases m with
  | between frames place => exact sound_outside hm c
  | finished root => exact sound_outside hm c
  | stopped frames root => trivial
  | word frames rest node =>
    obtain ⟨hframes, hnode⟩ := hm
    cases rest with
    | nil => trivial
    | cons expected rest =>
      dsimp only [step]
      split_ifs
      · trivial
      · exact sound_deliver hframes hnode
      · exact ⟨hframes, hnode⟩
  | number frames scan =>
    dsimp only [step]
    split
    · exact hm
    -- The character behind a number ends it, and is then read like any other.
    · exact sound_outside (sound_deliver hm scan.sound_node) c
    · trivial
  | text frames scan =>
    dsimp only [step]
    split
    · exact hm
    · apply sound_deliver hm
      cases scan.text? with
      | none => exact .foreign
      | some s => exact .text s
    · trivial
  | memberName frames scan =>
    dsimp only [step]
    split
    · exact hm
    · exact sound_named hm _
    · trivial

theorem sound_foldl (text : List Char) (hm : m.Sound) : (text.foldl step m).Sound := by
  induction text generalizing m with
  | nil => exact hm
  | cons c text ih => exact ih (sound_step hm c)

theorem sound_finish (hm : m.Sound) : m.finish.Sound := by
  unfold finish
  split
  · split_ifs
    · exact sound_deliver hm (NumberScan.sound_node _)
    · trivial
  · exact hm

end Machine

theorem sound_run (text : List Char) : (run text).Sound :=
  Machine.sound_finish (Machine.sound_foldl text nofun)

theorem sound_root {text : String} {root : Node} (h : read text = ⟨some root, true⟩) :
    root.Sound := by
  have hrun := sound_run text.toList
  unfold read at h
  split at h
  · rename_i root' hroot
    obtain rfl := Option.some.inj (congrArg Draft.root h)
    rw [hroot] at hrun
    exact hrun
  · cases congrArg Draft.complete h
  · cases congrArg Draft.complete h

theorem read_of_parse? {text : String} {root : Node} (h : parse? text = some root) :
    read text = ⟨some root, true⟩ := by
  dsimp only [parse?] at h
  split at h
  · rename_i hcomplete
    rw [← h, ← hcomplete]
  · cases h

theorem sound_of_parse? {text : String} {root : Node} (h : parse? text = some root) : root.Sound :=
  sound_root (read_of_parse? h)

theorem exists_sound_of_decode {β : Type} {reader : Node.Reader β} {text : String} {value : β}
    (h : decode reader text = .ok value) : ∃ root : Node, root.Sound ∧ reader root = .ok value := by
  unfold decode at h
  cases hread : read text with
  | mk root complete =>
    rw [hread] at h
    cases root with
    | none => cases h
    | some root =>
      cases hvalue : reader root with
      | error fault =>
        simp only [hvalue] at h
        cases h
      | ok result =>
        simp only [hvalue] at h
        cases complete with
        | false => cases h
        | true =>
          obtain rfl := Except.ok.inj h
          exact ⟨root, sound_root hread, hvalue⟩

end Json

end MetricWatch
