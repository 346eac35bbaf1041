import Mathlib.Order.Lattice
import MetricWatch.Stats

namespace MetricWatch.Stats

section Members

variable {α : Type} [Scalar α] {values : List α} {v : α}

theorem sorted_perm (values : List α) : (sorted values).Perm values := List.mergeSort_perm _ _

@[simp]
theorem mem_sorted : v ∈ sorted values ↔ v ∈ values := List.mem_mergeSort

@[simp]
theorem length_sorted : (sorted values).length = values.length := List.length_mergeSort _

theorem sorted_ne_nil_iff : sorted values ≠ [] ↔ values ≠ [] := by
  rw [← List.length_pos_iff, length_sorted, List.length_pos_iff]

end Members

section Counts

variable {β : Type} {l : List β} {p : β → Bool} {k : Nat}

theorem countP_le_of_drop (h : ∀ x ∈ l.drop k, ¬ p x = true) : l.countP p ≤ k := by
  calc l.countP p = (l.take k).countP p + (l.drop k).countP p := by
        rw [← List.countP_append, List.take_append_drop]
    _ ≤ k := by
        rw [List.countP_eq_zero.2 h, Nat.add_zero]
        exact List.countP_le_length.trans (List.length_take_le k l)

theorem countP_le_of_take (h : ∀ x ∈ l.take k, ¬ p x = true) : l.countP p ≤ l.length - k := by
  calc l.countP p = (l.take k).countP p + (l.drop k).countP p := by
        rw [← List.countP_append, List.take_append_drop]
    _ ≤ l.length - k := by
        rw [List.countP_eq_zero.2 h, Nat.zero_add, ← List.length_drop]
        exact List.countP_le_length

theorem le_countP_of_drop (h : ∀ x ∈ l.drop k, p x = true) : l.length - k ≤ l.countP p := by
  calc l.length - k = (l.drop k).countP p := by
        rw [List.countP_eq_length.2 h, List.length_drop]
    _ ≤ l.countP p := (List.drop_sublist k l).countP_le

end Counts

section Order

variable {α κ : Type} [Scalar α] [LinearOrder κ] {values values' : List α} (key : α → κ)
  (hkey : ∀ {a b : α}, Scalar.sortsBefore a b = true ↔ key a ≤ key b)
include hkey

theorem pairwise_sorted (values : List α) :
    (sorted values).Pairwise fun a b ↦ key a ≤ key b := by
  have hsorted : (sorted values).Pairwise fun a b ↦ Scalar.sortsBefore a b = true := by
    apply List.pairwise_mergeSort
    · intro a b c hab hbc
      exact hkey.2 (le_trans (hkey.1 hab) (hkey.1 hbc))
    · intro a b
      rw [Bool.or_eq_true]
      exact (le_total (key a) (key b)).imp hkey.2 hkey.2
  exact hsorted.imp hkey.1

theorem sorted_eq_of_pairwise (hinjective : Function.Injective key) (h : values.Perm values')
    (hsorted : values'.Pairwise fun a b ↦ key a ≤ key b) : sorted values = values' := by
  refine ((sorted_perm values).trans h).eq_of_pairwise ?_ (pairwise_sorted key hkey values) hsorted
  intro a b _ _ hab hba
  exact hinjective (le_antisymm hab hba)

theorem sorted_congr (hinjective : Function.Injective key) (h : values.Perm values') :
    sorted values = sorted values' :=
  sorted_eq_of_pairwise key hkey hinjective (h.trans (sorted_perm values').symm)
    (pairwise_sorted key hkey values')

end Order

end MetricWatch.Stats
