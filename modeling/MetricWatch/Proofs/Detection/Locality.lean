import Mathlib.Data.List.Sort
import MetricWatch.Proofs.Binary64.Count
import MetricWatch.Proofs.Validation

namespace MetricWatch

section Lists

variable {β γ : Type} {xs : List β} {ys : List γ}

theorem eq_filterMap_of_mapM {f : β → Option γ} (h : xs.mapM f = some ys) :
    ys = xs.filterMap f := by
  induction xs generalizing ys with
  | nil => exact (Option.some.inj h).symm
  | cons x rest ih =>
    rw [List.mapM_cons] at h
    obtain ⟨y, hy, h⟩ := Option.bind_eq_some_iff.1 h
    obtain ⟨tail, htail, h⟩ := Option.bind_eq_some_iff.1 h
    obtain rfl := Option.some.inj h
    rw [List.filterMap_cons, hy, ← ih htail]

theorem exists_mapM {f : β → Option γ} (h : ∀ x ∈ xs, ∃ y, f x = some y) :
    ∃ ys, xs.mapM f = some ys := by
  induction xs with
  | nil => exact ⟨[], rfl⟩
  | cons x rest ih =>
    obtain ⟨⟨y, hy⟩, hrest⟩ := List.forall_mem_cons.1 h
    obtain ⟨ys, hys⟩ := ih hrest
    exact ⟨y :: ys, by rw [List.mapM_cons, hy, hys]; rfl⟩

theorem eq_of_same_points {found found' : List (Nat × γ)}
    (h : found.Pairwise fun p q ↦ p.1 < q.1) (h' : found'.Pairwise fun p q ↦ p.1 < q.1)
    (hmem : ∀ i m, (i, m) ∈ found ↔ (i, m) ∈ found') : found = found' := by
  have : Std.Irrefl fun p q : Nat × γ ↦ p.1 < q.1 := ⟨fun p ↦ Nat.lt_irrefl p.1⟩
  have : Std.Antisymm fun p q : Nat × γ ↦ p.1 < q.1 :=
    ⟨fun p q hpq hqp ↦ absurd hqp (Nat.lt_asymm hpq)⟩
  exact h.eq_of_mem_iff h' fun p ↦ hmem p.1 p.2

end Lists

namespace Detector

section Scans

variable {α : Type} [Scalar α] {d : Detector α} {values xs ys before after part : List α}
  {found : List (Nat × α)} {window place start stop i k : Nat} {m : α}

def shiftAt? (values : List α) (window place : Nat) : Option α :=
  shift? ((values.drop (place - window)).take window) ((values.drop place).take window)

theorem shiftAt?_eq (h : window ≤ place) : shiftAt? values window place =
    shift? (values.extract (place - window) place) (values.extract place (place + window)) := by
  rw [List.extract_eq_take_drop, List.extract_eq_take_drop, Nat.sub_sub_self h,
    Nat.add_sub_cancel_left]
  rfl

theorem point?_eq_some_iff {shift : Option α} :
    d.point? place shift = some (i, m) ↔ place = i ∧ shift = some m ∧ d.zThreshold ≤ m := by
  rw [point?, Option.bind_eq_some_iff]
  constructor
  · intro ⟨magnitude, hmagnitude, h⟩
    split at h
    · obtain ⟨rfl, rfl⟩ := Prod.mk.inj (Option.some.inj h)
      exact ⟨rfl, hmagnitude, ‹_›⟩
    · cases h
  · intro ⟨hplace, hshift, hreach⟩
    exact ⟨m, hshift, by rw [if_pos hreach, hplace]⟩

omit [Scalar α] in
theorem slice?_eq_some_iff : slice? values start stop = some part ↔
    (start ≤ stop ∧ stop ≤ values.length) ∧ (values.drop start).take (stop - start) = part := by
  unfold slice?
  split
  · rename_i h
    simp [h]
  · rename_i h
    simp [h]

theorem windowsAt?_eq_some_iff : windowsAt? values window place = some (i, before, after) ↔
    place = i ∧ slice? values (place - window) place = some before ∧
      slice? values place (Scalar.word α (place + window)) = some after := by
  simp only [windowsAt?, Option.bind_eq_bind, Option.bind_eq_some_iff, Option.pure_def,
    Option.some.injEq, Prod.mk.injEq]
  constructor
  · intro ⟨_, hbefore, _, hafter, hplace, hb, ha⟩
    exact ⟨hplace, hb ▸ hbefore, ha ▸ hafter⟩
  · intro ⟨hplace, hbefore, hafter⟩
    exact ⟨before, hbefore, after, hafter, hplace, rfl, rfl⟩

theorem eq_of_changePoints? (h : d.changePoints? values window = some found) :
    found = (boundaries values window).filterMap fun place ↦
      (windowsAt? values window place).bind fun (i, before, after) ↦
        d.point? i (shift? before after) := by
  obtain ⟨windows, hwindows, h⟩ := Option.bind_eq_some_iff.1 h
  rw [← Option.some.inj h, eq_filterMap_of_mapM hwindows, List.filterMap_filterMap]

theorem mem_of_changePoints? (h : d.changePoints? values window = some found) :
    (i, m) ∈ found ↔ i ∈ boundaries values window ∧ ∃ before after,
      windowsAt? values window i = some (i, before, after) ∧ shift? before after = some m ∧
        d.zThreshold ≤ m := by
  rw [eq_of_changePoints? h, List.mem_filterMap]
  simp only [Option.bind_eq_some_iff, Prod.exists, point?_eq_some_iff]
  constructor
  · intro ⟨place, hplace, j, before, after, htaken, hj, hshift⟩
    obtain rfl := (windowsAt?_eq_some_iff.1 htaken).1
    obtain rfl := hj
    exact ⟨hplace, before, after, htaken, hshift⟩
  · intro ⟨hplace, before, after, htaken, hshift⟩
    exact ⟨i, hplace, i, before, after, htaken, rfl, hshift⟩

theorem boundaries_pairwise (values : List α) (window : Nat) :
    (boundaries values window).Pairwise (· < ·) := by
  unfold boundaries
  split
  · exact .nil
  · exact List.pairwise_lt_range' 1

theorem changePoints_pairwise (d : Detector α) (values : List α) (window : Nat) :
    (d.changePoints values window).Pairwise fun p q ↦ p.1 < q.1 := by
  unfold changePoints
  cases h : d.changePoints? values window with
  | none => exact .nil
  | some found =>
    rw [Option.getD_some, eq_of_changePoints? h]
    refine List.Pairwise.filterMap _ ?_ (boundaries_pairwise values window)
    intro place place' hlt p hp p' hp'
    obtain ⟨⟨i, before, after⟩, htaken, hpoint⟩ := Option.bind_eq_some_iff.1 hp
    obtain ⟨⟨i', before', after'⟩, htaken', hpoint'⟩ := Option.bind_eq_some_iff.1 hp'
    obtain ⟨rfl, -⟩ := windowsAt?_eq_some_iff.1 htaken
    obtain ⟨rfl, -⟩ := windowsAt?_eq_some_iff.1 htaken'
    obtain ⟨rfl, -⟩ := point?_eq_some_iff.1 hpoint
    obtain ⟨rfl, -⟩ := point?_eq_some_iff.1 hpoint'
    exact hlt

def Scans (d : Detector α) (values : List α) (window : Nat) : Prop :=
  ∀ i m, (i, m) ∈ d.changePoints values window ↔
    (0 < window ∧ window ≤ i ∧ i < values.length - window) ∧
      shiftAt? values window i = some m ∧ d.zThreshold ≤ m

section Words

variable (hword : ∀ n : Nat, n ≤ max (2 * window) values.length → Scalar.word α n = n)

include hword

theorem mem_boundaries_iff : i ∈ boundaries values window ↔
    0 < window ∧ window ≤ i ∧ i < values.length - window := by
  have hdouble : Scalar.word α (2 * window) = 2 * window := hword (2 * window) (Nat.le_max_left _ _)
  unfold boundaries
  rw [hdouble]
  split
  · rename_i h
    simp only [List.not_mem_nil, false_iff]
    omega
  · rename_i h
    have hrest : Scalar.word α ((values.length : Int) - window) = values.length - window := by
      rw [← Int.ofNat_sub (by omega)]
      exact hword _ (by omega)
    rw [hrest, List.mem_range'_1]
    omega

theorem windowsAt?_eq (hlow : window ≤ place) (hhigh : place + window ≤ values.length) :
    windowsAt? values window place = some (place, (values.drop (place - window)).take window,
      (values.drop place).take window) := by
  have hstop : Scalar.word α ((place : Int) + window) = place + window :=
    hword (place + window) (by omega)
  rw [windowsAt?_eq_some_iff, slice?_eq_some_iff, slice?_eq_some_iff, hstop,
    Nat.sub_sub_self hlow, Nat.add_sub_cancel_left]
  exact ⟨rfl, ⟨by omega, rfl⟩, by omega, rfl⟩

theorem changePoints?_eq (d : Detector α) :
    d.changePoints? values window = some (d.changePoints values window) := by
  have htaken : ∀ place ∈ boundaries values window, ∃ w, windowsAt? values window place = some w := by
    intro place hplace
    obtain ⟨-, hlow, hhigh⟩ := (mem_boundaries_iff hword).1 hplace
    exact ⟨_, windowsAt?_eq hword hlow (by omega)⟩
  obtain ⟨windows, hwindows⟩ := exists_mapM htaken
  rw [changePoints, changePoints?, hwindows]
  rfl

theorem scans_of_word (d : Detector α) : d.Scans values window := by
  intro i m
  rw [mem_of_changePoints? (changePoints?_eq hword d), mem_boundaries_iff hword]
  refine and_congr_right fun ⟨hwindow, hlow, hhigh⟩ ↦ ?_
  rw [windowsAt?_eq hword hlow (by omega)]
  simp [shiftAt?]

end Words

end Scans

section Words64

open Binary64

variable {d : Detector Binary64} {values xs ys : List Binary64} {found : List (Nat × Binary64)}
  {window : Nat}

theorem word_of_le_max (hwindow : 2 * window < 2 ^ 64) (hlength : values.length < 2 ^ 64) (n : Nat)
    (hn : n ≤ max (2 * window) values.length) : Scalar.word Binary64 n = n :=
  word_of_lt (by omega)

end Words64

end Detector

end MetricWatch
