import MetricWatch.Proofs.Binary64.Rounding

namespace MetricWatch.Binary64

variable {x y : Binary64}

/-- A quotient that is negative by its sign only is a zero. -/
theorem zero_le_ofQuotient {negative : Bool} {n d : Nat} (h : negative = false ∨ n = 0) :
    (0.0 : Binary64) ≤ ofQuotient negative n d := by
  rw [zero_le_iff]
  refine ⟨isNaN_ofQuotient _ _ _, ?_⟩
  rcases h with rfl | rfl
  · exact .inl (negative_ofQuotient _ _ _)
  · exact .inr (by simp)

theorem zero_lt_ofQuotient {n d : Nat} (hd : 0 < d) (h : d ≤ n) :
    (0.0 : Binary64) < ofQuotient false n d := by
  rw [zero_lt_iff]
  refine ⟨isNaN_ofQuotient _ _ _, negative_ofQuotient _ _ _, ?_⟩
  rw [magnitude_ofQuotient]
  exact le_nearestMagnitude (k := 1) (by decide) hd (by omega)

theorem units_eq_zero (h : x.magnitude = 0) : x.units = 0 := by
  rw [units, h]
  rfl

theorem units_pos (h : 0 < x.magnitude) : 0 < x.units := unitsOf_strictMono h

theorem zero_lt_of_isInfinite (h : (0.0 : Binary64) ≤ x) (hi : x.isInfinite = true) :
    (0.0 : Binary64) < x := by
  obtain ⟨hn, hs⟩ := zero_le_iff.1 h
  have hm : 0 < x.magnitude := by
    rw [of_decide_eq_true hi]
    decide
  exact zero_lt_iff.2 ⟨hn, hs.resolve_right (Nat.ne_of_gt hm), hm⟩

theorem div_nonneg (hx : (0.0 : Binary64) ≤ x) (hy : (0.0 : Binary64) < y)
    (hyf : y.isFinite = true) : (0.0 : Binary64) ≤ x / y := by
  obtain ⟨hxn, hxs⟩ := zero_le_iff.1 hx
  obtain ⟨hyn, hys, hym⟩ := zero_lt_iff.1 hy
  have hyi := (isFinite_iff.1 hyf).2
  change _ ≤ div x y
  simp only [div, hxn, hyn, hyi, hys, Bool.false_eq_true, if_false, Nat.ne_of_gt hym]
  split
  · rename_i hxi
    rw [(zero_lt_iff.1 (zero_lt_of_isInfinite hx hxi)).2.1]
    decide
  · apply zero_le_ofQuotient
    rcases hxs with hxs | hxm
    · exact .inl (by rw [hxs]; rfl)
    · exact .inr (by rw [units_eq_zero hxm, Nat.zero_mul])

theorem mul_nonneg (hx : (0.0 : Binary64) < x) (hxf : x.isFinite = true)
    (hy : (0.0 : Binary64) ≤ y) : (0.0 : Binary64) ≤ x * y := by
  obtain ⟨hxn, hxs, hxm⟩ := zero_lt_iff.1 hx
  obtain ⟨hyn, hys⟩ := zero_le_iff.1 hy
  have hxi := (isFinite_iff.1 hxf).2
  change _ ≤ mul x y
  simp only [mul, hxn, hyn, hxi, hxs, Bool.false_eq_true, if_false, Bool.false_or]
  split
  · rename_i hyi
    obtain ⟨-, hys', hym⟩ := zero_lt_iff.1 (zero_lt_of_isInfinite hy hyi)
    rw [hys', if_neg (by omega)]
    decide
  · apply zero_le_ofQuotient
    rcases hys with hys | hym
    · exact .inl (by rw [hys]; rfl)
    · exact .inr (by rw [units_eq_zero hym, Nat.mul_zero])

theorem mul_pos (hx : (0.0 : Binary64) < x) (hxf : x.isFinite = true)
    (hy : (0.0 : Binary64) < y) (h : unit ≤ x.units * y.units) : (0.0 : Binary64) < x * y := by
  obtain ⟨hxn, hxs, hxm⟩ := zero_lt_iff.1 hx
  obtain ⟨hyn, hys, hym⟩ := zero_lt_iff.1 hy
  have hxi := (isFinite_iff.1 hxf).2
  change _ < mul x y
  simp only [mul, hxn, hyn, hxi, hxs, hys, Bool.false_eq_true, if_false, Bool.false_or,
    bne_self_eq_false]
  split
  · rw [if_neg (by omega)]
    decide
  · exact zero_lt_ofQuotient unit_pos h

theorem add_pos (hx : (0.0 : Binary64) < x) (hy : (0.0 : Binary64) ≤ y) :
    (0.0 : Binary64) < x + y := by
  obtain ⟨hxn, hxs, hxm⟩ := zero_lt_iff.1 hx
  obtain ⟨hyn, hys⟩ := zero_le_iff.1 hy
  have hyi : y.isInfinite = true → y.negative = false := fun hi ↦
    (zero_lt_iff.1 (zero_lt_of_isInfinite hy hi)).2.1
  change _ < add x y
  simp only [add, hxn, hyn, Bool.false_eq_true, if_false]
  split
  · rw [if_neg (by simp +contextual [hxs, hyi])]
    exact hx
  split
  · rename_i hi
    exact zero_lt_of_isInfinite hy hi
  · have hunits := units_pos hxm
    have hsum : x.signedUnits + y.signedUnits = (x.units + y.units : Nat) := by
      rcases hys with hys | hym
      · simp [signedUnits, hxs, hys]
      · simp [signedUnits, hxs, units_eq_zero hym]
    simp only [addFinite, hsum]
    rw [if_neg (by omega), decide_eq_false (by omega)]
    exact zero_lt_ofQuotient Nat.one_pos (by omega)

theorem add_nonneg (hx : (0.0 : Binary64) ≤ x) (hy : (0.0 : Binary64) ≤ y) :
    (0.0 : Binary64) ≤ x + y := by
  obtain ⟨hxn, hxs⟩ := zero_le_iff.1 hx
  obtain ⟨hyn, hys⟩ := zero_le_iff.1 hy
  have hinf {z : Binary64} (hz : (0.0 : Binary64) ≤ z) (hi : z.isInfinite = true) :
      z.negative = false := (zero_lt_iff.1 (zero_lt_of_isInfinite hz hi)).2.1
  change _ ≤ add x y
  simp only [add, hxn, hyn, Bool.false_eq_true, if_false]
  split
  · rename_i hxi
    rw [if_neg (by simp +contextual [hinf hx hxi, hinf hy])]
    exact hx
  split
  · exact hy
  · have hnonneg {z : Binary64} (hz : z.negative = false ∨ z.magnitude = 0) :
        0 ≤ z.signedUnits := by
      rcases hz with hz | hz
      · simp [signedUnits, hz]
      · simp [signedUnits, units_eq_zero hz]
    have hxu := hnonneg hxs
    have hyu := hnonneg hys
    unfold addFinite
    dsimp only
    split
    · exact zero_le_iff.2 ⟨isNaN_zero _, .inr (magnitude_zero _)⟩
    · exact zero_le_ofQuotient (.inl (decide_eq_false (by omega)))

theorem one_eq : (1.0 : Binary64) = ⟨0x3FF0000000000000⟩ := by decide +kernel

theorem position_one : (1.0 : Binary64).position = 0x3FF0000000000000 := by
  rw [one_eq]
  rfl

theorem isFinite_one : (1.0 : Binary64).isFinite = true := by
  rw [one_eq]
  rfl

theorem units_one : (1.0 : Binary64).units = unit := by
  rw [one_eq]
  rfl

theorem signedUnits_one : (1.0 : Binary64).signedUnits = unit := by
  rw [one_eq]
  rfl

theorem isFinite_of_le_one (hzero : (0.0 : Binary64) ≤ x) (hone : x ≤ (1.0 : Binary64)) :
    x.isFinite = true := by
  have hpos := (le_iff.1 hone).2.2
  rw [position_one, position] at hpos
  have hinfinite : infiniteMagnitude = 0x7FF0000000000000 := rfl
  apply decide_eq_true
  rcases (zero_le_iff.1 hzero).2 with hsign | hmagnitude
  · simp only [hsign, Bool.false_eq_true, if_false] at hpos
    omega
  · omega

theorem two_le_unit_sub (h : x < (1.0 : Binary64)) : 2 ≤ (unit : Int) + x.neg.signedUnits := by
  have hunit : unitsOf 0x3FEFFFFFFFFFFFFF + 2 ≤ unit := by decide
  have hpos := (lt_iff.1 h).2.2
  rw [position_one] at hpos
  cases hs : x.negative
  · have hm : x.magnitude ≤ 0x3FEFFFFFFFFFFFFF := by
      simp only [position, hs, Bool.false_eq_true, if_false] at hpos
      omega
    have hle : x.units ≤ unitsOf 0x3FEFFFFFFFFFFFFF := unitsOf_strictMono.monotone hm
    simp only [signedUnits, negative_neg, hs, Bool.not_false, if_true, units_neg]
    omega
  · simp only [signedUnits, negative_neg, hs, Bool.not_true, Bool.false_eq_true, if_false]
    omega

theorem negative_of_isInfinite_of_lt_one (h : x < (1.0 : Binary64)) (hi : x.isInfinite = true) :
    x.negative = true := by
  have hpos := (lt_iff.1 h).2.2
  rw [position_one, position, of_decide_eq_true hi] at hpos
  cases hs : x.negative
  · rw [hs] at hpos
    exact absurd hpos (by decide)
  · rfl

theorem one_sub_pos (h : x < (1.0 : Binary64)) :
    (0.0 : Binary64) < 1.0 - x ∧ 2 ≤ ((1.0 : Binary64) - x).units := by
  obtain ⟨h₁n, h₁i⟩ := isFinite_iff.1 isFinite_one
  have hxn := (lt_iff.1 h).1
  change _ < sub 1.0 x ∧ 2 ≤ (sub 1.0 x).units
  simp only [sub, add, h₁n, hxn, h₁i, isNaN_neg, isInfinite_neg, Bool.false_eq_true, if_false]
  split
  · rename_i hi
    have hs := negative_of_isInfinite_of_lt_one h hi
    have hm : x.neg.magnitude = infiniteMagnitude := by
      rw [magnitude_neg]
      exact of_decide_eq_true hi
    refine ⟨zero_lt_iff.2 ⟨by rw [isNaN_neg, hxn], by rw [negative_neg, hs]; rfl, ?_⟩, ?_⟩
    · rw [hm]
      decide
    · have htwo : 2 ≤ infiniteMagnitude := by decide
      rw [units, hm]
      exact unitsOf_strictMono.monotone htwo
  · have hsum := two_le_unit_sub h
    simp only [addFinite, signedUnits_one]
    rw [if_neg (by omega), decide_eq_false (by omega)]
    refine ⟨zero_lt_ofQuotient Nat.one_pos (by omega), ?_⟩
    have hmag := le_nearestMagnitude (k := 2) (n := ((unit : Int) + x.neg.signedUnits).natAbs)
      (by decide) Nat.one_pos (by omega)
    rw [units, magnitude_ofQuotient]
    exact unitsOf_strictMono.monotone hmag

end MetricWatch.Binary64
