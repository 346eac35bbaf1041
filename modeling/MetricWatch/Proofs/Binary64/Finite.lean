import MetricWatch.Proofs.Binary64.Rounding

namespace MetricWatch.Binary64

variable {x y : Binary64}

theorem isFinite_of_add (h : (x + y).isFinite = true) :
    x.isFinite = true ∧ y.isFinite = true := by
  change (add x y).isFinite = true at h
  rw [isFinite_iff, isFinite_iff]
  rw [isFinite_iff] at h
  unfold add at h
  split at h
  · simp_all
  split at h
  · simp_all
  split at h
  · split at h <;> simp_all [invalid_isNaN]
  split at h <;> simp_all

theorem isFinite_of_sub (h : (x - y).isFinite = true) :
    x.isFinite = true ∧ y.isFinite = true := by
  change (sub x y).isFinite = true at h
  rw [isFinite_iff, isFinite_iff]
  rw [isFinite_iff] at h
  unfold sub at h
  split at h
  · simp_all
  split at h
  · simp_all
  · obtain ⟨hx, hy⟩ := isFinite_of_add (isFinite_iff.2 h)
    rw [isFinite_iff] at hx hy
    simp_all

theorem isFinite_of_mul (h : (x * y).isFinite = true) :
    x.isFinite = true ∧ y.isFinite = true := by
  change (mul x y).isFinite = true at h
  rw [isFinite_iff, isFinite_iff]
  rw [isFinite_iff] at h
  unfold mul at h
  dsimp only at h
  split at h
  · simp_all
  split at h
  · simp_all
  split at h
  · split at h <;> simp_all [invalid_isNaN]
  · simp_all

theorem isFinite_of_div (h : (x / y).isFinite = true) : x.isFinite = true := by
  change (div x y).isFinite = true at h
  rw [isFinite_iff]
  rw [isFinite_iff] at h
  unfold div at h
  dsimp only at h
  split at h
  · simp_all
  split at h
  · simp_all
  split at h
  · split at h <;> simp_all [invalid_isNaN]
  · simp_all

theorem isFinite_of_sqrt (h : x.sqrt.isFinite = true) : x.isFinite = true := by
  rw [isFinite_iff] at h ⊢
  unfold sqrt at h
  split at h
  · exact h
  split at h
  · simp_all [invalid_isNaN]
  · split at h <;> simp_all

theorem isNaN_div (hx : x.isFinite = true) (hy : (0.0 : Binary64) < y) :
    (x / y).isNaN = false := by
  obtain ⟨hxn, hxi⟩ := isFinite_iff.1 hx
  obtain ⟨hyn, -, hym⟩ := zero_lt_iff.1 hy
  change (div x y).isNaN = false
  simp only [div, hxn, hyn, hxi, Bool.false_eq_true, if_false, Nat.ne_of_gt hym]
  split <;> simp

/-- Over an infinite number, no number is left but zero. -/
theorem div_of_isInfinite (hy : y.isInfinite = true) :
    (x / y).isNaN = true ∨ (x / y).magnitude = 0 := by
  change (div x y).isNaN = true ∨ (div x y).magnitude = 0
  unfold div
  dsimp only
  split
  · exact .inl ‹_›
  split
  · exact .inl ‹_›
  split
  · exact .inl invalid_isNaN
  · exact .inr (magnitude_zero _)

theorem isNaN_add (hx : x.isNaN = false) (hy : y.isNaN = false)
    (h : x.isFinite = true ∨ y.isFinite = true) : (x + y).isNaN = false := by
  change (add x y).isNaN = false
  simp only [add, hx, hy, Bool.false_eq_true, if_false]
  split
  · rename_i hxi
    have hyi : y.isInfinite = false := by simpa [isFinite_iff, hxi, hy] using h
    simpa only [hyi, Bool.false_and, Bool.false_eq_true, if_false] using hx
  split
  · exact hy
  · unfold addFinite
    dsimp only
    split
    · exact isNaN_zero _
    · exact isNaN_ofQuotient _ _ _

theorem isNaN_sub (hx : x.isNaN = false) (hy : y.isNaN = false)
    (h : x.isFinite = true ∨ y.isFinite = true) : (x - y).isNaN = false := by
  have hneg : y.neg.isFinite = y.isFinite := by rw [isFinite, magnitude_neg, isFinite]
  change (sub x y).isNaN = false
  simp only [sub, hx, hy, Bool.false_eq_true, if_false]
  exact isNaN_add hx ((isNaN_neg y).trans hy) (by rwa [hneg])

theorem add_isNaN (h : x.isNaN = true ∨ y.isNaN = true) : (x + y).isNaN = true := by
  change (add x y).isNaN = true
  unfold add
  split
  · assumption
  · rw [if_pos (h.resolve_left ‹_›)]
    exact h.resolve_left ‹_›

theorem sub_isNaN (h : x.isNaN = true ∨ y.isNaN = true) : (x - y).isNaN = true := by
  change (sub x y).isNaN = true
  unfold sub
  split
  · assumption
  · rw [if_pos (h.resolve_left ‹_›)]
    exact h.resolve_left ‹_›

theorem mul_isNaN_of_left (h : x.isNaN = true) : (x * y).isNaN = true := by
  change (mul x y).isNaN = true
  unfold mul
  dsimp only
  rwa [if_pos h]

theorem div_isNaN_of_left (h : x.isNaN = true) : (x / y).isNaN = true := by
  change (div x y).isNaN = true
  unfold div
  dsimp only
  rwa [if_pos h]

theorem div_isNaN_of_right (h : y.isNaN = true) : (x / y).isNaN = true := by
  change (div x y).isNaN = true
  unfold div
  dsimp only
  split
  · assumption
  · exact h

theorem sqrt_isNaN (h : x.isNaN = true) : x.sqrt.isNaN = true := by
  rw [sqrt, h]
  exact h

end MetricWatch.Binary64
