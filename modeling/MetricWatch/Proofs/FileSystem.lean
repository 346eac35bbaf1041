import Mathlib.Data.List.MinMax
import MetricWatch.FileSystem

namespace MetricWatch.FileSystem

variable {fs : FileSystem} {place p : Place} {path text : String} {file n : Nat}

theorem lookup_filter_ne {texts : List (Nat × String)} (h : n ≠ file) :
    (texts.filter fun (m, _) ↦ m ≠ file).lookup n = texts.lookup n := by
  induction texts with
  | nil => rfl
  | cons entry rest ih =>
    obtain ⟨m, text⟩ := entry
    rw [List.filter_cons, List.lookup_cons]
    by_cases hm : m = file
    · rw [if_neg (by simpa using hm), ih, hm, beq_false_of_ne h]
    · rw [if_pos (by simpa using hm), List.lookup_cons, ih]

theorem lookup_setText_self (fs : FileSystem) (file : Nat) (text : String) :
    (fs.setText file text).texts.lookup file = some text := List.lookup_cons_self

theorem lookup_setText_of_ne (h : n ≠ file) :
    (fs.setText file text).texts.lookup n = fs.texts.lookup n := by
  rw [setText, List.lookup_cons, beq_false_of_ne h]
  exact lookup_filter_ne h

theorem lt_fresh (h : fs.names.lookup place = some file) : file < fs.fresh := by
  obtain ⟨before, after, hnames, -⟩ := List.lookup_eq_some_iff.1 h
  have hmem : file ∈ fs.names.map (·.2) := by
    rw [hnames]
    simp
  exact Nat.lt_succ_of_le (List.le_max_of_le' 0 hmem le_rfl)

theorem put_tree (fs : FileSystem) (place : Place) (text : String) :
    (fs.put place text).tree = fs.tree := by
  unfold put
  split
  · rfl
  · rfl

theorem lookup_put_of_ne (h : p ≠ place) :
    (fs.put place text).names.lookup p = fs.names.lookup p := by
  unfold put
  split
  · rfl
  · rw [setText, List.lookup_cons, beq_false_of_ne h]

theorem put_self (fs : FileSystem) (place : Place) (text : String) :
    ∃ file, (fs.put place text).names.lookup place = some file ∧
      (fs.put place text).texts.lookup file = some text := by
  unfold put
  split
  · rename_i file hfile
    exact ⟨file, hfile, lookup_setText_self fs file text⟩
  · exact ⟨fs.fresh, List.lookup_cons_self, lookup_setText_self _ fs.fresh text⟩

theorem text_put (hp : fs.names.lookup p = some n) (h : fs.names.lookup place ≠ some n) :
    (fs.put place text).texts.lookup n = fs.texts.lookup n := by
  unfold put
  split
  · rename_i file hfile
    exact lookup_setText_of_ne fun hn ↦ h (hn ▸ hfile)
  · -- a new file has a number of its own
    exact lookup_setText_of_ne (Nat.ne_of_lt (lt_fresh hp))

theorem target?_eq_some (h : fs.target? path = some place) : fs.tree.place? path = some place := by
  obtain ⟨p, hp, h⟩ := Option.bind_eq_some_iff.1 h
  split at h
  · cases h
  · obtain rfl := Option.some.inj h
    exact hp

theorem write_tree (fs : FileSystem) (path text : String) :
    (fs.write path text).tree = fs.tree := by
  unfold write
  split
  · exact put_tree fs _ text
  · rfl

theorem lookup_write_of_ne (h : fs.tree.place? path ≠ some p) :
    (fs.write path text).names.lookup p = fs.names.lookup p := by
  unfold write
  split
  · rename_i place hplace
    exact lookup_put_of_ne fun hp ↦ h (hp ▸ target?_eq_some hplace)
  · rfl

theorem text_write (hp : fs.names.lookup p = some n) (h : fs.file? path ≠ some n) :
    (fs.write path text).texts.lookup n = fs.texts.lookup n := by
  unfold write
  split
  · rename_i place hplace
    refine text_put hp fun hfile ↦ h ?_
    rw [file?, target?_eq_some hplace]
    exact hfile
  · rfl

theorem read?_write_self (h : (fs.target? path).isSome = true) :
    (fs.write path text).read? path = some text := by
  obtain ⟨place, hplace⟩ := Option.isSome_iff_exists.1 h
  obtain ⟨file, hfile, htext⟩ := put_self fs place text
  rw [read?, file?, write_tree, target?_eq_some hplace, write, hplace, Option.bind_some, hfile]
  exact htext

end MetricWatch.FileSystem
