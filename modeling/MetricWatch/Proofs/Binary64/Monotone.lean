import MetricWatch.Proofs.Binary64.Finite
import MetricWatch.Proofs.Binary64.Ratio

namespace MetricWatch.Binary64

variable {k l x y z : Binary64}

/-- The place to which a whole number of least units is rounded. -/
def placeOf (n : Int) : Int :=
  if n < 0 then -(nearestMagnitude n.natAbs 1 : Int) else nearestMagnitude n.natAbs 1

theorem placeOf_mono {m n : Int} (h : m ≤ n) : placeOf m ≤ placeOf n := by
  have hmono {a b : Nat} (hab : a ≤ b) : nearestMagnitude a 1 ≤ nearestMagnitude b 1 :=
    nearestMagnitude_mono Nat.one_pos Nat.one_pos (Nat.mul_le_mul_right 1 hab)
  unfold placeOf
  split
  · split
    · have hle := hmono (show n.natAbs ≤ m.natAbs by omega)
      omega
    · omega
  · rw [if_neg (by omega)]
    have hle := hmono (show m.natAbs ≤ n.natAbs by omega)
    omega

theorem isFinite_of_magnitude_le (h : x.magnitude ≤ y.magnitude) (hy : y.isFinite = true) :
    x.isFinite = true := decide_eq_true (h.trans_lt (of_decide_eq_true hy))

theorem magnitude_le_of_isNaN (h : x.isNaN = false) : x.magnitude ≤ infiniteMagnitude :=
  Nat.not_lt.1 (of_decide_eq_false h)

theorem placeOf_signedUnits (h : x.isNaN = false) : placeOf x.signedUnits = x.position := by
  have hround : nearestMagnitude x.signedUnits.natAbs 1 = x.magnitude := by
    rw [natAbs_signedUnits]
    exact nearestMagnitude_unitsOf (magnitude_le_of_isNaN h)
  rw [placeOf, hround, position]
  rcases Nat.eq_zero_or_pos x.magnitude with hm | hm
  · simp [hm]
  · have hu := units_pos hm
    cases hs : x.negative <;> simp only [signedUnits, hs, Bool.false_eq_true, if_false, if_true]
    · rw [if_neg (by omega)]
    · rw [if_pos (by omega)]

theorem signedUnits_mono (h : x ≤ y) : x.signedUnits ≤ y.signedUnits := by
  have hle := h.2.2
  unfold position at hle
  unfold signedUnits units
  split <;> split <;> simp_all only [if_true, if_false, Bool.false_eq_true]
  · have := unitsOf_strictMono.monotone (show y.magnitude ≤ x.magnitude by omega)
    omega
  · omega
  · have hx : x.magnitude = 0 := by omega
    have hy : y.magnitude = 0 := by omega
    simp [hx, hy, unitsOf]
  · have := unitsOf_strictMono.monotone (show x.magnitude ≤ y.magnitude by omega)
    omega

theorem position_add (hx : x.isFinite = true) (hy : y.isFinite = true) :
    (x + y).position = placeOf (x.signedUnits + y.signedUnits) := by
  rw [add_eq hx hy]
  unfold addFinite placeOf
  dsimp only
  split
  · rename_i h
    simp [h, position]
  · rw [position, negative_ofQuotient, magnitude_ofQuotient]
    simp only [decide_eq_true_eq]

theorem isNaN_add_of_isFinite (hx : x.isFinite = true) (hy : y.isFinite = true) :
    (x + y).isNaN = false :=
  isNaN_add (isFinite_iff.1 hx).1 (isFinite_iff.1 hy).1 (.inl hx)

theorem add_le (hx : x.isFinite = true) (hy : y.isFinite = true) (hz : z.isNaN = false)
    (h : x.signedUnits + y.signedUnits ≤ z.signedUnits) : x + y ≤ z := by
  refine ⟨isNaN_add_of_isFinite hx hy, hz, ?_⟩
  rw [position_add hx hy, ← placeOf_signedUnits hz]
  exact placeOf_mono h

theorem le_add (hx : x.isFinite = true) (hy : y.isFinite = true) (hz : z.isNaN = false)
    (h : z.signedUnits ≤ x.signedUnits + y.signedUnits) : z ≤ x + y := by
  refine ⟨hz, isNaN_add_of_isFinite hx hy, ?_⟩
  rw [position_add hx hy, ← placeOf_signedUnits hz]
  exact placeOf_mono h

theorem add_of_isInfinite (hx : x.isFinite = true) (hy : y.isInfinite = true) : x + y = y := by
  obtain ⟨hxn, hxi⟩ := isFinite_iff.1 hx
  change add x y = y
  simp [add, hxn, hxi, hy]

theorem position_bounds (h : x.isNaN = false) :
    -(infiniteMagnitude : Int) ≤ x.position ∧ x.position ≤ infiniteMagnitude := by
  have hle := magnitude_le_of_isNaN h
  unfold position
  split <;> omega

theorem isInfinite_iff_position : x.isInfinite = true ↔
    x.position = -(infiniteMagnitude : Int) ∨ x.position = infiniteMagnitude := by
  have hpos : 0 < infiniteMagnitude := by decide
  rw [isInfinite, decide_eq_true_iff, position]
  split <;> omega

theorem add_le_add_left (hx : x.isFinite = true) (h : y ≤ z) : x + y ≤ x + z := by
  obtain ⟨hyn, hzn, hle⟩ := h
  have hxn := (isFinite_iff.1 hx).1
  have hyx := isNaN_add hxn hyn (.inl hx)
  have hzx := isNaN_add hxn hzn (.inl hx)
  refine ⟨hyx, hzx, ?_⟩
  by_cases hyi : y.isInfinite = true
  · by_cases hzi : z.isInfinite = true
    · rwa [add_of_isInfinite hx hyi, add_of_isInfinite hx hzi]
    · rw [add_of_isInfinite hx hyi]
      have hy := isInfinite_iff_position.1 hyi
      have hz := mt isInfinite_iff_position.2 hzi
      have hbound := position_bounds hzn
      have hsum := position_bounds hzx
      omega
  · by_cases hzi : z.isInfinite = true
    · rw [add_of_isInfinite hx hzi]
      have hy := mt isInfinite_iff_position.2 hyi
      have hz := isInfinite_iff_position.1 hzi
      have hbound := position_bounds hyn
      have hsum := position_bounds hyx
      omega
    · have hyf := isFinite_iff.2 ⟨hyn, Bool.eq_false_iff.2 hyi⟩
      have hzf := isFinite_iff.2 ⟨hzn, Bool.eq_false_iff.2 hzi⟩
      rw [position_add hx hyf, position_add hx hzf]
      exact placeOf_mono (Int.add_le_add_left (signedUnits_mono ⟨hyn, hzn, hle⟩) _)

theorem position_neg (x : Binary64) : x.neg.position = -x.position := by
  unfold position
  cases h : x.negative <;> simp [h]

theorem neg_le_neg (h : x ≤ y) : y.neg ≤ x.neg := by
  refine ⟨(isNaN_neg y).trans h.2.1, (isNaN_neg x).trans h.1, ?_⟩
  rw [position_neg, position_neg]
  exact Int.neg_le_neg h.2.2

theorem sub_eq_add_neg (hx : x.isNaN = false) (hy : y.isNaN = false) : x - y = x + y.neg := by
  change sub x y = add x y.neg
  simp only [sub, hx, hy, Bool.false_eq_true, if_false]

theorem sub_le_sub_left (hx : x.isFinite = true) (h : y ≤ z) : x - z ≤ x - y := by
  have hxn := (isFinite_iff.1 hx).1
  rw [sub_eq_add_neg hxn h.1, sub_eq_add_neg hxn h.2.1]
  exact add_le_add_left hx (neg_le_neg h)

theorem sub_nonneg (hx : x.isFinite = true) (hy : y.isFinite = true) (h : y ≤ x) :
    (0.0 : Binary64) ≤ x - y := by
  rw [sub_eq hx hy]
  refine le_add hx ((isFinite_neg y).trans hy) (by decide) ?_
  have hle := signedUnits_mono h
  rw [signedUnits_neg, show (0.0 : Binary64).signedUnits = 0 by decide]
  omega

theorem position_of_nonneg (h : (0.0 : Binary64) ≤ x) : x.position = x.magnitude := by
  obtain ⟨-, hs⟩ := zero_le_iff.1 h
  unfold position
  split
  · simp_all
  · rfl

theorem le_iff_magnitude_le (hx : (0.0 : Binary64) ≤ x) (hy : (0.0 : Binary64) ≤ y) :
    x ≤ y ↔ x.magnitude ≤ y.magnitude := by
  rw [le_iff, position_of_nonneg hx, position_of_nonneg hy, Int.ofNat_le]
  exact ⟨fun h ↦ h.2.2, fun h ↦ ⟨hx.2.1, hy.2.1, h⟩⟩

theorem mul_nonneg_of_nonneg (hx : (0.0 : Binary64) ≤ x) (hxf : x.isFinite = true)
    (hy : (0.0 : Binary64) ≤ y) (hyf : y.isFinite = true) : (0.0 : Binary64) ≤ x * y := by
  rw [mul_eq hxf hyf]
  apply zero_le_ofQuotient
  rcases (zero_le_iff.1 hx).2, (zero_le_iff.1 hy).2 with ⟨hxs | hxm, hys | hym⟩
  · exact .inl (by rw [hxs, hys]; rfl)
  · exact .inr (by rw [units_eq_zero hym, Nat.mul_zero])
  · exact .inr (by rw [units_eq_zero hxm, Nat.zero_mul])
  · exact .inr (by rw [units_eq_zero hxm, Nat.zero_mul])

theorem mul_le_mul_right (hk : (0.0 : Binary64) ≤ k) (h : k ≤ l) (hl : l.isFinite = true)
    (hx : (0.0 : Binary64) ≤ x) (hxf : x.isFinite = true) : k * x ≤ l * x := by
  have hle := (le_iff_magnitude_le hk (le_trans hk h)).1 h
  have hkf := isFinite_of_magnitude_le hle hl
  rw [le_iff_magnitude_le (mul_nonneg_of_nonneg hk hkf hx hxf)
    (mul_nonneg_of_nonneg (le_trans hk h) hl hx hxf), mul_eq hkf hxf, mul_eq hl hxf,
    magnitude_ofQuotient, magnitude_ofQuotient]
  apply nearestMagnitude_mono unit_pos unit_pos
  have hunits : k.units ≤ l.units := unitsOf_strictMono.monotone hle
  exact Nat.mul_le_mul_right _ (Nat.mul_le_mul_right _ hunits)

theorem mul_of_not_isFinite (hk : (0.0 : Binary64) < k) (hl : (0.0 : Binary64) < l)
    (hx : x.isFinite = false) : k * x = l * x := by
  obtain ⟨hkn, hks, hkm⟩ := zero_lt_iff.1 hk
  obtain ⟨hln, hls, hlm⟩ := zero_lt_iff.1 hl
  change mul k x = mul l x
  unfold mul
  dsimp only
  cases hxn : x.isNaN with
  | true => simp [hkn, hln]
  | false =>
    have hxi : x.isInfinite = true := by
      by_contra hxi
      exact Bool.false_ne_true (hx.symm.trans (isFinite_iff.2 ⟨hxn, Bool.eq_false_iff.2 hxi⟩))
    simp [hkn, hln, hks, hls, hxi, Nat.ne_of_gt hkm, Nat.ne_of_gt hlm]

theorem div_le_div_right (hx : (0.0 : Binary64) ≤ x) (h : x ≤ y) (hy : y.isFinite = true)
    (hz : (0.0 : Binary64) < z) (hzf : z.isFinite = true) : x / z ≤ y / z := by
  have hle := (le_iff_magnitude_le hx (le_trans hx h)).1 h
  have hzm := (zero_lt_iff.1 hz).2.2
  rw [le_iff_magnitude_le (div_nonneg hx hz hzf) (div_nonneg (le_trans hx h) hz hzf),
    div_eq (isFinite_of_magnitude_le hle hy) hzf hzm, div_eq hy hzf hzm, magnitude_ofQuotient,
    magnitude_ofQuotient]
  refine nearestMagnitude_mono (units_pos hzm) (units_pos hzm) ?_
  exact Nat.mul_le_mul_right _ (Nat.mul_le_mul_right unit (unitsOf_strictMono.monotone hle))

theorem natCast_le_natCast {m n : Nat} (h : m ≤ n) : (m : Binary64) ≤ (n : Binary64) :=
  (le_iff_magnitude_le (zero_le_natCast m) (zero_le_natCast n)).2
    (unitsOf_strictMono.le_iff_le.1 (units_natCast_mono h))

/-- A larger part of a whole is a larger share, if the whole is finite. A share of an infinite one
is zero or no number. -/
theorem lt_ratio_mono {m n p : Nat} (hx : (0.0 : Binary64) < x) (hmn : m ≤ n) (hnp : n ≤ p)
    (hpos : 0 < p) (h : x < (m : Binary64) / (p : Binary64)) :
    x < (n : Binary64) / (p : Binary64) := by
  cases hp : (p : Binary64).isInfinite with
  | true =>
    rcases div_of_isInfinite (x := (m : Binary64)) hp with hnan | hzero
    · exact absurd (hnan.symm.trans h.2.1) Bool.false_ne_true.symm
    · have hmag := (zero_lt_iff.1 (lt_of_le_of_lt (le_of_lt hx) h)).2.2
      exact absurd hzero (Nat.ne_of_gt hmag)
  | false =>
    have hpf : (p : Binary64).isFinite = true := isFinite_iff.2 ⟨isNaN_natCast p, hp⟩
    have hnf : (n : Binary64).isFinite = true :=
      isFinite_of_magnitude_le (unitsOf_strictMono.le_iff_le.1 (units_natCast_mono hnp)) hpf
    exact lt_of_lt_of_le h (div_le_div_right (zero_le_natCast m) (natCast_le_natCast hmn) hnf
      (zero_lt_natCast hpos) hpf)

theorem isNaN_eq_false (h : x.isNaN = true → y.isNaN = true) (hy : y.isNaN = false) :
    x.isNaN = false := by
  rw [← Bool.not_eq_true] at hy ⊢
  exact mt h hy

theorem negative_mul (h : (x * y).isNaN = false) :
    (x * y).negative = (x.negative != y.negative) := by
  change (mul x y).isNaN = false at h
  change (mul x y).negative = _
  unfold mul at h ⊢
  dsimp only at h ⊢
  split_ifs at h ⊢ with hx hy
  · exact absurd h (by simp [hx])
  · exact absurd h (by simp [hy])
  · exact absurd h (by decide)
  · exact negative_infinity _
  · exact negative_ofQuotient _ _ _

theorem negative_div (h : (x / y).isNaN = false) :
    (x / y).negative = (x.negative != y.negative) := by
  change (div x y).isNaN = false at h
  change (div x y).negative = _
  unfold div at h ⊢
  dsimp only at h ⊢
  split_ifs at h ⊢ with hx hy
  · exact absurd h (by simp [hx])
  · exact absurd h (by simp [hy])
  · exact absurd h (by decide)
  · exact negative_infinity _
  · exact negative_zero _
  · exact absurd h (by decide)
  · exact negative_infinity _
  · exact negative_ofQuotient _ _ _

theorem zero_lt_of_zero_lt_mul (hy : y.negative = false) (h : (0.0 : Binary64) < x * y) :
    (0.0 : Binary64) < x := by
  obtain ⟨hn, hs, hm⟩ := zero_lt_iff.1 h
  have hxn := isNaN_eq_false mul_isNaN_of_left hn
  rw [negative_mul hn, hy, Bool.bne_false] at hs
  refine zero_lt_iff.2 ⟨hxn, hs, Nat.pos_of_ne_zero fun hzero ↦ ?_⟩
  exact Nat.ne_of_gt hm (magnitude_zero_mul hzero hn)

theorem zero_lt_of_zero_lt_div (hy : y.negative = false) (h : (0.0 : Binary64) < x / y) :
    (0.0 : Binary64) < x := by
  obtain ⟨hn, hs, hm⟩ := zero_lt_iff.1 h
  have hxn := isNaN_eq_false div_isNaN_of_left hn
  rw [negative_div hn, hy, Bool.bne_false] at hs
  refine zero_lt_iff.2 ⟨hxn, hs, Nat.pos_of_ne_zero fun hzero ↦ ?_⟩
  exact Nat.ne_of_gt hm (magnitude_zero_div hzero hn)

theorem eq_of_isInfinite_of_le (hx : x.isInfinite = true) (hs : x.negative = false) (h : x ≤ y) :
    x = y := by
  have hbound := (position_bounds h.2.1).2
  have hpos := h.2.2
  have hm := of_decide_eq_true hx
  have hinfinite : 0 < infiniteMagnitude := by decide
  unfold position at hbound hpos
  rw [hs, if_neg Bool.false_ne_true, hm] at hpos
  split at hpos
  · omega
  · rename_i hys
    rw [if_neg hys] at hbound
    rw [← ofMagnitude_self x, ← ofMagnitude_self y, hs, hm, Bool.eq_false_iff.2 hys]
    exact congrArg _ (by omega)

theorem lt_of_zero_lt_sub (h : (0.0 : Binary64) < x - y) : y < x := by
  have hn := (zero_lt_iff.1 h).1
  have hxn := isNaN_eq_false (fun hx ↦ sub_isNaN (.inl hx)) hn
  have hyn := isNaN_eq_false (fun hy ↦ sub_isNaN (.inr hy)) hn
  refine lt_of_not_le hxn hyn fun hle ↦ ?_
  cases hxi : x.isInfinite with
  | false =>
    have hxf : x.isFinite = true := isFinite_iff.2 ⟨hxn, hxi⟩
    have hself : x - x ≤ 0.0 := by
      rw [sub_eq hxf hxf]
      refine add_le hxf ((isFinite_neg x).trans hxf) (by decide) ?_
      rw [signedUnits_neg, show (0.0 : Binary64).signedUnits = 0 by decide]
      omega
    exact not_le_of_lt h (le_trans (sub_le_sub_left hxf hle) hself)
  | true =>
    change (0.0 : Binary64) < sub x y at h
    simp only [sub, add, hxn, hyn, hxi, isNaN_neg, isInfinite_neg, negative_neg, Bool.false_eq_true,
      if_false, if_true] at h
    split at h
    · exact absurd h.2.1 (by decide)
    · rename_i hapart
      obtain rfl := eq_of_isInfinite_of_le hxi (zero_lt_iff.1 h).2.1 hle
      simp [hxi] at hapart

end MetricWatch.Binary64
