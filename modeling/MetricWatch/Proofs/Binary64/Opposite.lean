import MetricWatch.Proofs.Binary64.Lower
import MetricWatch.Proofs.Binary64.Monotone

namespace MetricWatch.Binary64

variable {x y z : Binary64}

/-- Equal as numbers. All that is not a number counts as equal. -/
def Same (x y : Binary64) : Prop := Scalar.NumEq x y ∨ x.isNaN = true ∧ y.isNaN = true

theorem same_of_isNaN (hx : x.isNaN = true) (hy : y.isNaN = true) : Same x y := .inr ⟨hx, hy⟩

theorem same_of_position (hx : x.isNaN = false) (hy : y.isNaN = false)
    (h : x.position = y.position) : Same x y :=
  .inl ⟨⟨hx, hy, h.le⟩, ⟨hy, hx, h.ge⟩⟩

theorem same_refl (x : Binary64) : Same x x := by
  cases hx : x.isNaN
  · exact same_of_position hx hx rfl
  · exact same_of_isNaN hx hx

theorem magnitude_eq_of_position (h : x.position = -y.position) : x.magnitude = y.magnitude := by
  unfold position at h
  split at h <;> split at h <;> omega

theorem position_of_negative_eq (hm : x.magnitude = y.magnitude)
    (h : x.negative = (!y.negative) ∨ y.magnitude = 0) : x.position = -y.position := by
  unfold position
  rcases h with hs | hzero
  · rw [hs, hm]
    cases y.negative <;> simp
  · rw [hm, hzero]
    simp

theorem negative_eq_of_position (h : x.position = -y.position) :
    x.negative = (!y.negative) ∨ y.magnitude = 0 := by
  unfold position at h
  cases hx : x.negative <;> cases hy : y.negative <;> simp_all

theorem eq_of_isInfinite (hx : x.isInfinite = true) (hy : y.isInfinite = true)
    (hs : x.negative = y.negative) : x = y := by
  rw [← ofMagnitude_self x, ← ofMagnitude_self y, hs, of_decide_eq_true hx, of_decide_eq_true hy]

theorem add_comm_of_number (h : ¬ (x.isNaN = true ∧ y.isNaN = true)) : x + y = y + x := by
  change add x y = add y x
  cases hx : x.isNaN <;> cases hy : y.isNaN
  · cases hxi : x.isInfinite <;> cases hyi : y.isInfinite
    · simp only [add, hx, hy, hxi, hyi, Bool.false_eq_true, if_false, addFinite,
        Int.add_comm y.signedUnits, Bool.and_comm y.negative]
    · simp [add, hx, hy, hxi, hyi]
    · simp [add, hx, hy, hxi, hyi]
    · cases hs : x.negative != y.negative
      · rw [eq_of_isInfinite hxi hyi (by simpa using hs)]
      · simp [add, hx, hy, hxi, hyi, hs, bne_comm.trans hs]
  · simp [add, hx, hy]
  · simp [add, hx, hy]
  · exact absurd ⟨hx, hy⟩ h

theorem placeOf_neg (n : Int) : placeOf (-n) = -placeOf n := by
  unfold placeOf
  rw [Int.natAbs_neg]
  rcases Int.lt_trichotomy n 0 with h | rfl | h
  · rw [if_neg (by omega), if_pos h, Int.neg_neg]
  · simp
  · rw [if_pos (by omega), if_neg (by omega)]

theorem add_of_isInfinite_left (hx : x.isInfinite = true) (hy : y.isFinite = true) : x + y = x := by
  have hnan : ¬ (x.isNaN = true ∧ y.isNaN = true) := fun h ↦ by
    rw [(isFinite_iff.1 hy).1] at h
    exact Bool.false_ne_true h.2
  rw [add_comm_of_number hnan, add_of_isInfinite hy hx]

/-- Of two infinite numbers the difference is the first, or it is none. -/
theorem sub_same_neg (x y : Binary64) : Same (x - y) (y - x).neg := by
  by_cases hnan : x.isNaN = true ∨ y.isNaN = true
  · exact same_of_isNaN (sub_isNaN hnan) ((isNaN_neg _).trans (sub_isNaN hnan.symm))
  simp only [not_or, Bool.not_eq_true] at hnan
  obtain ⟨hx, hy⟩ := hnan
  rw [sub_eq_add_neg hx hy, sub_eq_add_neg hy hx]
  -- Finite operands have opposite units of difference. An infinite one decides alone, and two of
  -- them with one sign have no difference in either order.
  cases hxi : x.isInfinite <;> cases hyi : y.isInfinite
  · have hxf : x.isFinite = true := isFinite_iff.2 ⟨hx, hxi⟩
    have hyf : y.isFinite = true := isFinite_iff.2 ⟨hy, hyi⟩
    have hxn := (isFinite_neg x).trans hxf
    have hyn := (isFinite_neg y).trans hyf
    refine same_of_position (isNaN_add_of_isFinite hxf hyn)
      ((isNaN_neg _).trans (isNaN_add_of_isFinite hyf hxn)) ?_
    rw [position_neg, position_add hxf hyn, position_add hyf hxn, signedUnits_neg, signedUnits_neg,
      ← placeOf_neg]
    congr 1
    omega
  · have hxn := (isFinite_neg x).trans (isFinite_iff.2 ⟨hx, hxi⟩)
    rw [add_of_isInfinite (isFinite_iff.2 ⟨hx, hxi⟩) ((isInfinite_neg y).trans hyi),
      add_of_isInfinite_left hyi hxn]
    exact same_refl _
  · have hyn := (isFinite_neg y).trans (isFinite_iff.2 ⟨hy, hyi⟩)
    rw [add_of_isInfinite (isFinite_iff.2 ⟨hy, hyi⟩) ((isInfinite_neg x).trans hxi),
      add_of_isInfinite_left hxi hyn]
    refine same_of_position hx (by simpa using hx) ?_
    rw [position_neg, position_neg, Int.neg_neg]
  · change Same (add x y.neg) (add y x.neg).neg
    simp only [add, hx, hy, hxi, hyi, isNaN_neg, isInfinite_neg, negative_neg, Bool.false_eq_true,
      if_false, if_true, Bool.true_and]
    cases hs : x.negative <;> cases hs' : y.negative
    · exact same_of_isNaN invalid_isNaN ((isNaN_neg _).trans invalid_isNaN)
    · rw [eq_of_isInfinite hxi ((isInfinite_neg y).trans hyi) (by rw [negative_neg, hs, hs']; rfl)]
      exact same_refl _
    · rw [eq_of_isInfinite hxi ((isInfinite_neg y).trans hyi) (by rw [negative_neg, hs, hs']; rfl)]
      exact same_refl _
    · exact same_of_isNaN invalid_isNaN ((isNaN_neg _).trans invalid_isNaN)

theorem same_neg_cases (h : Same x y.neg) : x.isNaN = true ∧ y.isNaN = true ∨
    x.isNaN = false ∧ x.magnitude = y.magnitude ∧
      (x.negative = (!y.negative) ∨ y.magnitude = 0) := by
  rcases h with ⟨⟨hx, -, hle⟩, -, -, hge⟩ | ⟨hx, hy⟩
  · have hposition : x.position = -y.position := by
      rw [← position_neg]
      exact le_antisymm hle hge
    exact .inr ⟨hx, magnitude_eq_of_position hposition, negative_eq_of_position hposition⟩
  · exact .inl ⟨hx, (isNaN_neg y).symm.trans hy⟩

theorem div_congr (h : x.magnitude = y.magnitude) : (x / z).isNaN = (y / z).isNaN ∧
    ((x / z).isNaN = false → (x / z).magnitude = (y / z).magnitude) := by
  have hn : x.isNaN = y.isNaN := by rw [isNaN, isNaN, h]
  have hi : x.isInfinite = y.isInfinite := by rw [isInfinite, isInfinite, h]
  have hu : x.units = y.units := by rw [units, units, h]
  change (div x z).isNaN = (div y z).isNaN ∧
    ((div x z).isNaN = false → (div x z).magnitude = (div y z).magnitude)
  unfold div
  dsimp only
  rw [hn, hi, hu, h]
  split_ifs <;> simp_all

theorem div_same_neg (h : Same x y.neg) (z : Binary64) : Same (x / z) (y / z).neg := by
  rcases same_neg_cases h with ⟨hx, hy⟩ | ⟨hx, hm, hs⟩
  · exact same_of_isNaN (div_isNaN_of_left hx) ((isNaN_neg _).trans (div_isNaN_of_left hy))
  · obtain ⟨hnan, hmag⟩ := div_congr (z := z) hm
    cases hn : (x / z).isNaN with
    | true => exact same_of_isNaN hn ((isNaN_neg _).trans (hnan.symm.trans hn))
    | false =>
      have hn' : (y / z).isNaN = false := hnan.symm.trans hn
      refine same_of_position hn ((isNaN_neg _).trans hn') ?_
      rw [position_neg]
      refine position_of_negative_eq (hmag hn) (hs.imp (fun hs ↦ ?_) fun hzero ↦ ?_)
      · rw [negative_div hn, negative_div hn', hs]
        cases y.negative <;> cases z.negative <;> rfl
      · exact magnitude_zero_div hzero hn'

theorem abs_eq_of_same_neg (h : Same x y.neg) (hx : x.isNaN = false) :
    Scalar.abs x = Scalar.abs y := by
  rcases same_neg_cases h with ⟨hx', -⟩ | ⟨-, hm, -⟩
  · rw [hx] at hx'
    cases hx'
  · exact congrArg (ofMagnitude false) hm

theorem add_comm_or (x y : Binary64) :
    x + y = y + x ∨ (x + y).isNaN = true ∧ (y + x).isNaN = true := by
  by_cases h : x.isNaN = true ∧ y.isNaN = true
  · exact .inr ⟨add_isNaN (.inl h.1), add_isNaN (.inl h.2)⟩
  · exact .inl (add_comm_of_number h)

theorem not_isZero_of_isNaN (h : x.isNaN = true) : ¬ Scalar.IsZero x := fun hz ↦ by
  rw [(isZero_iff.1 hz).1] at h
  exact Bool.false_ne_true h

theorem not_zero_lt_of_isNaN (h : x.isNaN = true) : ¬ (0.0 : Binary64) < x := fun hlt ↦ by
  rw [(zero_lt_iff.1 hlt).1] at h
  exact Bool.false_ne_true h

end MetricWatch.Binary64
