import MetricWatch.Proofs.Binary64.Finite
import MetricWatch.Proofs.Binary64.Ratio

namespace MetricWatch.Binary64

variable {x y : Binary64} {d k n s t u : Nat} {negative : Bool}

theorem isZero_iff : Scalar.IsZero x ↔ x.isNaN = false ∧ x.magnitude = 0 := by
  have hn : (0.0 : Binary64).isNaN = false := by decide
  have hp : (0.0 : Binary64).position = 0 := by decide
  rw [Scalar.IsZero, Scalar.NumEq, zero_le_iff, le_iff, hn, hp, position]
  cases x.negative <;> simp +contextual

theorem not_zero_lt_of_isZero (h : Scalar.IsZero x) : ¬ (0.0 : Binary64) < x :=
  fun hlt ↦ not_le_of_lt hlt h.1

theorem magnitude_eq_zero_of_units (h : x.units = 0) : x.magnitude = 0 := by
  by_contra hne
  have hpos := units_pos (Nat.pos_of_ne_zero hne)
  omega

theorem isFinite_of_magnitude_eq_zero (h : x.magnitude = 0) : x.isFinite = true := by
  rw [isFinite, h]
  decide

theorem le_units_of_isFinite_ofQuotient (hk : k ≤ 2 * binade) (hd : 0 < d)
    (h : k * 2 ^ s * d ≤ n) (hf : (ofQuotient negative n d).isFinite = true) :
    k * 2 ^ s ≤ (ofQuotient negative n d).units := by
  have hlt : k * 2 ^ s < limit :=
    Nat.lt_of_mul_lt_mul_right (h.trans_lt (lt_of_isFinite_ofQuotient hd hf))
  exact le_units_ofQuotient (isSize_mul_two_pow hk hlt) hd h

structure AtLeast (u : Nat) (x : Binary64) : Prop where
  nonneg : (0.0 : Binary64) ≤ x
  le_units : x.isFinite = true → u ≤ x.units

theorem signedUnits_of_nonneg (h : (0.0 : Binary64) ≤ x) : x.signedUnits = x.units := by
  obtain ⟨-, hs | hm⟩ := zero_le_iff.1 h
  · rw [signedUnits, hs]
    rfl
  · rw [signedUnits, units_eq_zero hm]
    split <;> rfl

theorem zero_le_mul_self (h : x.isNaN = false) : (0.0 : Binary64) ≤ x * x := by
  change _ ≤ mul x x
  simp only [mul, h, bne_self_eq_false, Bool.false_eq_true, if_false, Bool.or_self]
  split
  · rename_i hi
    have hm : x.magnitude ≠ 0 := by
      rw [of_decide_eq_true hi]
      decide
    rw [if_neg (by simpa using hm)]
    decide
  · exact zero_le_ofQuotient (.inl rfl)

theorem zero_le_sqrt (h : (0.0 : Binary64) ≤ x) : (0.0 : Binary64) ≤ x.sqrt := by
  obtain ⟨hn, hs⟩ := zero_le_iff.1 h
  unfold sqrt
  split
  · exact h
  · rename_i hzero
    rw [hn, Bool.false_or, decide_eq_true_eq] at hzero
    rw [hs.resolve_right hzero, if_neg (by decide)]
    split
    · exact h
    · exact zero_le_ofQuotient (.inl rfl)

theorem sqrt_eq_sqrtFinite (h : (0.0 : Binary64) ≤ x) (hf : x.isFinite = true)
    (hm : 0 < x.magnitude) : x.sqrt = sqrtFinite x := by
  obtain ⟨hn, hs⟩ := zero_le_iff.1 h
  have hi := (isFinite_iff.1 hf).2
  rw [sqrt, hn, hi, hs.resolve_right (Nat.ne_of_gt hm), decide_eq_false (Nat.ne_of_gt hm)]
  rfl

theorem atLeast_one (h : (0.0 : Binary64) ≤ x) (hz : ¬ Scalar.IsZero x) : AtLeast 1 x := by
  refine ⟨h, fun _ ↦ units_pos (Nat.pos_of_ne_zero fun hm ↦ ?_)⟩
  exact hz (isZero_iff.2 ⟨(zero_le_iff.1 h).1, hm⟩)

namespace AtLeast

theorem pos (h : AtLeast u x) (hu : 0 < u) : (0.0 : Binary64) < x := by
  obtain ⟨hn, hs⟩ := zero_le_iff.1 h.nonneg
  have hm : x.magnitude ≠ 0 := by
    intro hm
    have hle := h.le_units (isFinite_of_magnitude_eq_zero hm)
    rw [units_eq_zero hm] at hle
    omega
  exact zero_lt_iff.2 ⟨hn, hs.resolve_right hm, Nat.pos_of_ne_zero hm⟩

theorem add (hx : AtLeast (k * 2 ^ s) x) (hy : AtLeast (2 ^ s) y) (hk : k + 1 ≤ 2 * binade) :
    AtLeast ((k + 1) * 2 ^ s) (x + y) := by
  refine ⟨add_nonneg hx.nonneg hy.nonneg, fun hf ↦ ?_⟩
  obtain ⟨hxf, hyf⟩ := isFinite_of_add hf
  have hxu := hx.le_units hxf
  have hyu := hy.le_units hyf
  have hpos := Nat.two_pow_pos s
  rw [add_eq hxf hyf, addFinite, signedUnits_of_nonneg hx.nonneg,
    signedUnits_of_nonneg hy.nonneg] at hf ⊢
  rw [if_neg (by omega)] at hf ⊢
  refine le_units_of_isFinite_ofQuotient hk Nat.one_pos ?_ hf
  rw [Nat.succ_mul]
  omega

theorem div_natCast (hx : AtLeast (n * 2 ^ s) x) (hpos : 0 < n) (hn : n ≤ 2 * binade) :
    AtLeast (2 ^ s) (x / (n : Binary64)) := by
  have hnpos := zero_lt_natCast hpos
  have hnf := isFinite_natCast_of_le hn
  refine ⟨div_nonneg hx.nonneg hnpos hnf, fun hf ↦ ?_⟩
  have hxf := isFinite_of_div hf
  have hxu := hx.le_units hxf
  rw [div_eq hxf hnf (zero_lt_iff.1 hnpos).2.2] at hf ⊢
  rw [← Nat.one_mul (2 ^ s)]
  refine le_units_of_isFinite_ofQuotient (by decide) ?_ ?_ hf
  · exact units_pos (zero_lt_iff.1 hnpos).2.2
  · rw [units_natCast hn, Nat.one_mul, ← Nat.mul_assoc, Nat.mul_comm (2 ^ s)]
    exact Nat.mul_le_mul_right unit hxu

/-- The unit is `2⁻¹⁰⁷⁴`, so that the root of `2²ᵗ` units has `2ᵗ⁺⁵³⁷` of them. -/
theorem sqrt (hx : AtLeast (2 ^ (2 * t)) x) : AtLeast (2 ^ (t + 537)) x.sqrt := by
  refine ⟨zero_le_sqrt hx.nonneg, fun hf ↦ ?_⟩
  have hxf := isFinite_of_sqrt hf
  have hxu := hx.le_units hxf
  have hm := (zero_lt_iff.1 (hx.pos (Nat.two_pow_pos _))).2.2
  obtain ⟨w, hw, hunit⟩ := unit_eq_two_pow
  have hsquare : 2 ^ (t + 537) * 2 ^ (t + 537) ≤ x.units * unit := by
    rw [← Nat.pow_add, show t + 537 + (t + 537) = 2 * t + w by omega, Nat.pow_add, hunit]
    exact Nat.mul_le_mul_right _ hxu
  have hroot := Nat.le_sqrt.2 hsquare
  rw [sqrt_eq_sqrtFinite hx.nonneg hxf hm, sqrtFinite] at hf ⊢
  rw [← Nat.one_mul (2 ^ (t + 537))]
  exact le_units_of_isFinite_ofQuotient (by decide) (by decide) (by omega) hf

end AtLeast

end MetricWatch.Binary64
