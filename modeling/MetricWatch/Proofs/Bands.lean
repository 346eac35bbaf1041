import MetricWatch.Severity

namespace MetricWatch

theorem rank_ite_le_ite {β : Type} (rank : β → Nat) {p p' : Prop} {_ : Decidable p}
    {_ : Decidable p'} {s rest rest' : β} (h : p → p') (hrest : rank rest ≤ rank s)
    (hle : rank rest ≤ rank rest') :
    rank (if p then s else rest) ≤ rank (if p' then s else rest') := by
  by_cases hp : p
  · exact Nat.le_of_eq (by rw [if_pos hp, if_pos (h hp)])
  · rw [if_neg hp]
    split
    · exact hrest
    · exact hle

namespace Severity

variable {a a' b b' : Severity}

theorem le_critical (s : Severity) : s ≤ critical := by
  cases s <;> decide

theorem ite_le_ite {p p' : Prop} {_ : Decidable p} {_ : Decidable p'} {s rest rest' : Severity}
    (h : p → p') (hrest : rest ≤ s) (hle : rest ≤ rest') :
    (if p then s else rest) ≤ if p' then s else rest' := rank_ite_le_ite rank h hrest hle

theorem rank_graver (a b : Severity) : (a.graver b).rank = max a.rank b.rank := by
  unfold graver
  split
  · rename_i h
    exact (Nat.max_eq_right h).symm
  · rename_i h
    exact (Nat.max_eq_left (Nat.le_of_not_le h)).symm

theorem graver_le_graver (h : a ≤ a') (h' : b ≤ b') : a.graver b ≤ a'.graver b' := by
  change (a.graver b).rank ≤ (a'.graver b').rank
  rw [rank_graver, rank_graver]
  exact Nat.max_le.2 ⟨Nat.le_trans h (Nat.le_max_left _ _), Nat.le_trans h' (Nat.le_max_right _ _)⟩

end Severity

end MetricWatch
