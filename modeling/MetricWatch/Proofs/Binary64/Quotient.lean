import MetricWatch.Proofs.Binary64.Opposite

namespace MetricWatch.Binary64

variable {x y : Binary64} {e f k n u : Nat}

theorem magnitude_pos_of_isInfinite (h : x.isInfinite = true) : 0 < x.magnitude := by
  rw [of_decide_eq_true h]
  decide

theorem not_isInfinite_of_isNaN (h : x.isNaN = true) : ¬ x.isInfinite = true := fun hi ↦ by
  have hlt := of_decide_eq_true h
  rw [of_decide_eq_true hi] at hlt
  exact lt_irrefl _ hlt

theorem not_le_of_isNaN (h : x.isNaN = true) : ¬ x ≤ y ∧ ¬ y ≤ x := by
  refine ⟨fun hle ↦ ?_, fun hle ↦ ?_⟩
  · exact Bool.false_ne_true (hle.1.symm.trans h)
  · exact Bool.false_ne_true (hle.2.1.symm.trans h)

theorem not_lt_of_isNaN (h : x.isNaN = true) : ¬ x < y ∧ ¬ y < x :=
  ⟨fun hlt ↦ (not_le_of_isNaN h).1 (le_of_lt hlt), fun hlt ↦ (not_le_of_isNaN h).2 (le_of_lt hlt)⟩

theorem isNaN_mul (hx : x.isNaN = false) (hy : y.isFinite = true) (hpos : 0 < y.magnitude) :
    (x * y).isNaN = false := by
  obtain ⟨hyn, hyi⟩ := isFinite_iff.1 hy
  change (mul x y).isNaN = false
  unfold mul
  dsimp only
  rw [hx, hyn, hyi]
  cases hxi : x.isInfinite with
  | true => simp [Nat.ne_of_gt (magnitude_pos_of_isInfinite hxi), Nat.ne_of_gt hpos]
  | false => simp

/-- The square of a number with the sign of the other factor changed is never undefined, and has a
negative sign even if it is a zero. -/
theorem neg_mul_self (h : x.isNaN = false) :
    (-x * x).isNaN = false ∧ (-x * x).negative = true := by
  have hn : (-x * x).isNaN = false := by
    change (mul x.neg x).isNaN = false
    unfold mul
    dsimp only
    rw [isNaN_neg, isInfinite_neg, h, magnitude_neg]
    cases hxi : x.isInfinite with
    | true => simp [Nat.ne_of_gt (magnitude_pos_of_isInfinite hxi)]
    | false => simp
  refine ⟨hn, ?_⟩
  rw [negative_mul hn]
  change (x.neg.negative != x.negative) = true
  rw [negative_neg]
  cases x.negative <;> rfl

theorem magnitude_mul_self (h : Scalar.IsZero x) : (x * x).magnitude = 0 := by
  obtain ⟨-, hm⟩ := isZero_iff.1 h
  have hf := isFinite_of_magnitude_eq_zero hm
  refine magnitude_zero_mul hm ?_
  rw [mul_eq hf hf]
  exact isNaN_ofQuotient _ _ _

theorem atMost_mul_self (hx : (0.0 : Binary64) ≤ x) (h : x ≤ y) (hy : (y * y).isFinite = true) :
    AtMost (y * y).units (x * x) := by
  have hyf := (isFinite_of_mul hy).1
  have hle := (le_iff_magnitude_le hx (le_trans hx h)).1 h
  have hunits : x.units ≤ y.units := unitsOf_strictMono.monotone hle
  have hmagnitude : (x * x).magnitude ≤ (y * y).magnitude := by
    have hxf := isFinite_of_magnitude_le hle hyf
    rw [mul_eq hxf hxf, mul_eq hyf hyf, magnitude_ofQuotient, magnitude_ofQuotient]
    exact nearestMagnitude_mono unit_pos unit_pos
      (Nat.mul_le_mul_right unit (Nat.mul_le_mul hunits hunits))
  exact ⟨isFinite_of_magnitude_le hmagnitude hy, unitsOf_strictMono.monotone hmagnitude⟩

theorem AtMost.mul_self (h : AtMost (2 ^ e) x) (hf : f < 2098) (hef : 2 * e ≤ f + 1074) :
    AtMost (2 ^ f) (x * x) := by
  refine h.mul h (isSize_two_pow hf) ?_
  obtain ⟨w, hw, hunit⟩ := unit_eq_two_pow
  rw [hunit, ← Nat.pow_add, ← Nat.pow_add]
  exact Nat.pow_le_pow_right (by decide) (by omega)

theorem one_le_pred (h : 2 ≤ n) : ((1 : Nat) : Binary64) ≤ (n : Binary64) - 1.0 := by
  have hn := isNaN_natCast n
  have hone : (1.0 : Binary64).neg.isFinite = true := by decide +kernel
  have hsum : (1.0 : Binary64).neg + ((2 : Nat) : Binary64) = ((1 : Nat) : Binary64) := by
    decide +kernel
  have hcomm := add_comm_of_number (x := (n : Binary64)) (y := (1.0 : Binary64).neg) fun hboth ↦ by
    rw [hn] at hboth
    exact Bool.false_ne_true hboth.1
  rw [sub_eq_add_neg hn (by decide +kernel), hcomm, ← hsum]
  exact add_le_add_left hone (natCast_le_natCast h)

theorem isSize_two_mul (h : IsSize u) (hlt : 2 * u < limit) : IsSize (2 * u) := by
  obtain ⟨m, -, hm⟩ := h
  obtain ⟨s, q, hparts⟩ := exists_parts m
  have heq : 2 * u = q * 2 ^ (s + 1) := by
    rw [← hm, hparts.units, Nat.pow_succ]
    ring
  rw [heq] at hlt ⊢
  exact isSize_mul_two_pow hparts.lt.le hlt

theorem units_add_le (hx : AtMost u x) (hy : AtMost u y) (hu : IsSize u)
    (h : (x + y).isFinite = true) : (x + y).units ≤ 2 * u := by
  by_cases hlt : 2 * u < limit
  · exact (hx.add hy (isSize_two_mul hu hlt) (Nat.two_mul u).ge).units_le
  · exact (units_lt_limit h).le.trans (Nat.not_lt.1 hlt)

theorem zero_le_div (hx : (0.0 : Binary64) ≤ x) (hy : (0.0 : Binary64) < y)
    (h : (x / y).isNaN = false) : (0.0 : Binary64) ≤ x / y := by
  cases hyi : y.isInfinite with
  | true =>
    have hm := (div_of_isInfinite (x := x) hyi).resolve_left (by rw [h]; exact Bool.false_ne_true)
    exact zero_le_iff.2 ⟨h, .inr hm⟩
  | false => exact div_nonneg hx hy (isFinite_iff.2 ⟨hy.2.1, hyi⟩)

theorem atMost_div (hx : AtMost (k * u) x) (hu : IsSize u) (hk : k ≤ 2 * binade) (hpos : 0 < k)
    (hy : (k : Binary64) ≤ y) : AtMost u (x / y) := by
  have hypos := lt_of_lt_of_le (zero_lt_natCast hpos) hy
  cases hyi : y.isInfinite with
  | true =>
    have hn := isNaN_div hx.isFinite hypos
    have hm := (div_of_isInfinite (x := x) hyi).resolve_left (by rw [hn]; exact Bool.false_ne_true)
    exact ⟨isFinite_of_magnitude_eq_zero hm, by rw [units_eq_zero hm]; exact Nat.zero_le u⟩
  | false =>
    have hunits : k * unit ≤ y.units := by
      rw [← units_natCast hk]
      exact unitsOf_strictMono.monotone
        ((le_iff_magnitude_le (zero_le_natCast k) (le_of_lt hypos)).1 hy)
    refine hx.div (isFinite_iff.2 ⟨hy.2.1, hyi⟩) (zero_lt_iff.1 hypos).2.2 hu ?_
    calc k * u * unit = u * (k * unit) := by ring
      _ ≤ u * y.units := Nat.mul_le_mul_left u hunits

theorem half_le_div (hx : (0.0 : Binary64) ≤ x) (hxf : x.isFinite = true)
    (hy : (0.0 : Binary64) < y) (hyf : y.isFinite = true) (h : y.units ≤ 2 * x.units) :
    (0.5 : Binary64) ≤ x / y := by
  obtain ⟨-, hys, hym⟩ := zero_lt_iff.1 hy
  have hyu := units_pos hym
  have hxs := (zero_le_iff.1 hx).2.resolve_right fun hm ↦ by
    rw [units_eq_zero hm] at h
    omega
  have hhalf : (0.5 : Binary64).units * 2 = unit := by decide +kernel
  rw [div_eq hxf hyf hym, hxs, hys, bne_self_eq_false]
  refine (le_iff_magnitude_le (x := 0.5) (by decide +kernel) (zero_le_ofQuotient (.inl rfl))).2 ?_
  rw [magnitude_ofQuotient]
  refine le_nearestMagnitude_of_le hyu (by decide +kernel) ?_
  change (0.5 : Binary64).units * y.units ≤ _
  calc (0.5 : Binary64).units * y.units ≤ (0.5 : Binary64).units * (2 * x.units) :=
        Nat.mul_le_mul_left _ h
    _ = x.units * unit := by rw [← hhalf]; ring

theorem div_of_isInfinite_left (hx : (0.0 : Binary64) ≤ x) (hxi : x.isInfinite = true)
    (hy : (0.0 : Binary64) < y) :
    x / y = if y.isInfinite then invalid else infinity false := by
  obtain ⟨hyn, hys, -⟩ := zero_lt_iff.1 hy
  have hxs := (zero_lt_iff.1 (zero_lt_of_isInfinite hx hxi)).2.1
  change div x y = _
  simp only [div, hx.2.1, hyn, hxi, hxs, hys, Bool.false_eq_true, if_false, if_true,
    bne_self_eq_false]

theorem div_cases (hx : (0.0 : Binary64) ≤ x) (hy : (0.0 : Binary64) < y)
    (h : x.isFinite = true → y.isFinite = true → y.units ≤ 2 * x.units) :
    ((x / y).isNaN = true ↔ x.isInfinite = true ∧ y.isInfinite = true) ∧
      ((x / y).isNaN = false → x / y ≤ (0.0 : Binary64) ∨ (0.5 : Binary64) ≤ x / y) := by
  cases hxi : x.isInfinite with
  | true =>
    rw [div_of_isInfinite_left hx hxi hy]
    cases y.isInfinite <;> decide +kernel
  | false =>
    have hxf := isFinite_iff.2 ⟨hx.2.1, hxi⟩
    have hn := isNaN_div hxf hy
    refine ⟨by simp [hn], fun _ ↦ ?_⟩
    cases hyi : y.isInfinite with
    | true =>
      have hm := (div_of_isInfinite (x := x) hyi).resolve_left
        (by rw [hn]; exact Bool.false_ne_true)
      exact .inl (isZero_iff.2 ⟨hn, hm⟩).1
    | false =>
      have hyf := isFinite_iff.2 ⟨hy.2.1, hyi⟩
      exact .inr (half_le_div hx hxf hy hyf (h hxf hyf))

end MetricWatch.Binary64
