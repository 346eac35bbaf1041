import MetricWatch.Binary64

namespace MetricWatch.Binary64

variable {x y z : Binary64}

theorem magnitude_lt (x : Binary64) : x.magnitude < signWeight := Nat.mod_lt _ (by decide)

theorem toNat_bits_ofMagnitude (negative : Bool) {m : Nat} (h : m < signWeight) :
    (ofMagnitude negative m).bits.toNat = if negative then signWeight + m else m := by
  simp only [ofMagnitude, UInt64.toNat_ofNat']
  apply Nat.mod_eq_of_lt
  simp only [signWeight] at h ⊢
  split <;> omega

@[simp]
theorem magnitude_ofMagnitude (negative : Bool) {m : Nat} (h : m < signWeight) :
    (ofMagnitude negative m).magnitude = m := by
  rw [magnitude, toNat_bits_ofMagnitude negative h]
  split
  · rw [Nat.add_mod_left, Nat.mod_eq_of_lt h]
  · exact Nat.mod_eq_of_lt h

@[simp]
theorem negative_ofMagnitude (negative : Bool) {m : Nat} (h : m < signWeight) :
    (ofMagnitude negative m).negative = negative := by
  rw [Binary64.negative, toNat_bits_ofMagnitude negative h]
  cases negative
  · simpa using h
  · simp

@[simp]
theorem magnitude_neg (x : Binary64) : x.neg.magnitude = x.magnitude :=
  magnitude_ofMagnitude _ x.magnitude_lt

@[simp]
theorem negative_neg (x : Binary64) : x.neg.negative = !x.negative :=
  negative_ofMagnitude _ x.magnitude_lt

@[simp]
theorem magnitude_abs (x : Binary64) : x.abs.magnitude = x.magnitude :=
  magnitude_ofMagnitude _ x.magnitude_lt

@[simp]
theorem negative_abs (x : Binary64) : x.abs.negative = false :=
  negative_ofMagnitude _ x.magnitude_lt

@[simp]
theorem magnitude_zero (negative : Bool) : (zero negative).magnitude = 0 :=
  magnitude_ofMagnitude _ (by decide)

theorem negative_zero (negative : Bool) : (zero negative).negative = negative :=
  negative_ofMagnitude negative (by decide)

@[simp]
theorem magnitude_infinity (negative : Bool) :
    (infinity negative).magnitude = infiniteMagnitude :=
  magnitude_ofMagnitude _ (by decide)

@[simp]
theorem negative_infinity (negative : Bool) : (infinity negative).negative = negative :=
  negative_ofMagnitude _ (by decide)

@[simp]
theorem isNaN_neg (x : Binary64) : x.neg.isNaN = x.isNaN := by simp [isNaN]

@[simp]
theorem isInfinite_neg (x : Binary64) : x.neg.isInfinite = x.isInfinite := by simp [isInfinite]

@[simp]
theorem units_neg (x : Binary64) : x.neg.units = x.units := by simp [units]

@[simp]
theorem isNaN_abs (x : Binary64) : x.abs.isNaN = x.isNaN := by simp [isNaN]

@[simp]
theorem isNaN_infinity (negative : Bool) : (infinity negative).isNaN = false := by
  simp [isNaN]

@[simp]
theorem isInfinite_infinity (negative : Bool) : (infinity negative).isInfinite = true := by
  simp [isInfinite]

theorem neg_zero : (-0.0 : Binary64) = zero true ∧ (0.0 : Binary64) ≤ -0.0 := by decide

@[simp]
theorem isNaN_zero (negative : Bool) : (zero negative).isNaN = false := by
  simp [isNaN]

theorem invalid_isNaN : invalid.isNaN = true := by decide

theorem isFinite_iff : x.isFinite = true ↔ x.isNaN = false ∧ x.isInfinite = false := by
  simp only [isFinite, isNaN, isInfinite, decide_eq_true_eq, decide_eq_false_iff_not]
  omega

theorem le_iff : x ≤ y ↔ x.isNaN = false ∧ y.isNaN = false ∧ x.position ≤ y.position := Iff.rfl

theorem lt_iff : x < y ↔ x.isNaN = false ∧ y.isNaN = false ∧ x.position < y.position := Iff.rfl

theorem isNumber_iff : Scalar.IsNumber x ↔ x.isNaN = false := by
  simp [Scalar.IsNumber, le_iff]

theorem zero_lt_iff :
    (0.0 : Binary64) < x ↔ x.isNaN = false ∧ x.negative = false ∧ 0 < x.magnitude := by
  have hn : (0.0 : Binary64).isNaN = false := by decide
  have hp : (0.0 : Binary64).position = 0 := by decide
  rw [lt_iff, hn, hp, position]
  cases x.negative <;> simp

theorem zero_le_iff :
    (0.0 : Binary64) ≤ x ↔ x.isNaN = false ∧ (x.negative = false ∨ x.magnitude = 0) := by
  have hn : (0.0 : Binary64).isNaN = false := by decide
  have hp : (0.0 : Binary64).position = 0 := by decide
  rw [le_iff, hn, hp, position]
  cases x.negative <;> simp

theorem le_trans (h : x ≤ y) (h' : y ≤ z) : x ≤ z :=
  ⟨h.1, h'.2.1, Int.le_trans h.2.2 h'.2.2⟩

theorem lt_of_lt_of_le (h : x < y) (h' : y ≤ z) : x < z :=
  ⟨h.1, h'.2.1, Int.lt_of_lt_of_le h.2.2 h'.2.2⟩

theorem lt_of_le_of_lt (h : x ≤ y) (h' : y < z) : x < z :=
  ⟨h.1, h'.2.1, Int.lt_of_le_of_lt h.2.2 h'.2.2⟩

theorem le_of_not_lt (hx : x.isNaN = false) (hy : y.isNaN = false) (h : ¬ x < y) : y ≤ x :=
  ⟨hy, hx, Int.not_lt.1 fun hp ↦ h ⟨hx, hy, hp⟩⟩

theorem lt_of_not_le (hx : x.isNaN = false) (hy : y.isNaN = false) (h : ¬ x ≤ y) : y < x :=
  ⟨hy, hx, Int.not_le.1 fun hp ↦ h ⟨hx, hy, hp⟩⟩

theorem le_of_lt (h : x < y) : x ≤ y := ⟨h.1, h.2.1, Int.le_of_lt h.2.2⟩

theorem not_le_of_lt (h : x < y) : ¬ y ≤ x := fun h' ↦ Int.not_le.2 h.2.2 h'.2.2

theorem position_abs (x : Binary64) : (Scalar.abs x).position = x.magnitude := by
  change x.abs.position = _
  simp [position]

theorem le_abs_self (h : Scalar.IsNumber x) : x ≤ Scalar.abs x := by
  have hn := isNumber_iff.1 h
  refine ⟨hn, (isNaN_abs x).trans hn, ?_⟩
  rw [position_abs, position]
  split <;> omega

theorem zero_le_abs (h : Scalar.IsNumber (Scalar.abs x)) : (0.0 : Binary64) ≤ Scalar.abs x :=
  zero_le_iff.2 ⟨isNumber_iff.1 h, .inl (negative_abs x)⟩

theorem not_abs_lt_iff (hy : y.isNaN = false) :
    ¬ Scalar.abs x < y ↔ y ≤ Scalar.abs x ∨ ¬ Scalar.IsNumber x := by
  constructor
  · intro h
    by_cases hx : Scalar.IsNumber x
    · exact .inl (le_of_not_lt ((isNaN_abs x).trans (isNumber_iff.1 hx)) hy h)
    · exact .inr hx
  · rintro (h | h) hlt
    · exact not_le_of_lt hlt h
    · exact h (isNumber_iff.2 ((isNaN_abs x).symm.trans hlt.1))

theorem not_abs_lt_and_isNumber_iff (hy : y.isNaN = false) :
    ¬ Scalar.abs x < y ∧ Scalar.IsNumber x ↔ y ≤ Scalar.abs x := by
  rw [not_abs_lt_iff hy, or_and_right, or_iff_left fun h ↦ h.1 h.2, and_iff_left_iff_imp]
  exact fun h ↦ isNumber_iff.2 ((isNaN_abs x).symm.trans h.2.1)

theorem le_larger (h : Scalar.IsNumber x) : x ≤ Scalar.larger x y := by
  unfold Scalar.larger
  split
  · exact le_of_lt ‹_›
  · exact h

theorem le_larger_iff : z ≤ Scalar.larger x y ↔ z ≤ x ∨ z ≤ y := by
  unfold Scalar.larger
  split
  · rename_i h
    exact ⟨.inr, Or.rec (fun hx ↦ le_trans hx (le_of_lt h)) id⟩
  · rename_i h
    split
    · rename_i hx
      refine ⟨.inl, Or.rec id fun hy ↦ le_trans hy ?_⟩
      exact le_of_not_lt (isNumber_iff.1 hx) hy.2.1 h
    · rename_i hx
      exact ⟨.inr, Or.rec (fun h ↦ absurd (isNumber_iff.2 h.2.1) hx) id⟩

theorem le_smaller (hx : z ≤ x) (hy : z ≤ y) : z ≤ Scalar.smaller x y := by
  unfold Scalar.smaller
  split
  · exact hy
  · split
    · exact hx
    · exact hy

theorem zero_lt_clamp (h : (0.0 : Binary64) < x) : (0.0 : Binary64) < Scalar.clamp 0.0 1.0 x := by
  unfold Scalar.clamp
  split
  · exact absurd (le_of_lt h) (not_le_of_lt ‹_›)
  · split
    · decide +kernel
    · exact h

end MetricWatch.Binary64
