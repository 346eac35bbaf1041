import Mathlib.Data.Real.Basic
import Mathlib.Tactic.FieldSimp
import Mathlib.Tactic.Positivity
import MetricWatch.Proofs.Binary64.Opposite

namespace MetricWatch.Binary64

variable {x y : Binary64} {d n : Nat} {negative : Bool} {u v w : ℝ}

noncomputable def value (x : Binary64) : ℝ := x.signedUnits / unit

theorem unit_real_pos : (0 : ℝ) < unit := Nat.cast_pos.2 unit_pos

theorem value_eq (x : Binary64) :
    x.value = (if x.negative then -(x.units : ℝ) else x.units) / unit := by
  unfold value signedUnits
  cases x.negative <;> simp

theorem value_of_signedUnits {k : Int} (h : x.signedUnits = k * unit) : x.value = k := by
  rw [value, h]
  push_cast
  exact mul_div_cancel_right₀ _ unit_real_pos.ne'

@[simp]
theorem value_neg (x : Binary64) : (-x).value = -x.value := by
  change x.neg.value = _
  rw [value, signedUnits_neg, value]
  push_cast
  exact neg_div _ _

@[simp]
theorem value_abs (x : Binary64) : (Scalar.abs x).value = |x.value| := by
  change x.abs.value = _
  have hunits : x.abs.units = x.units := congrArg unitsOf (magnitude_abs x)
  rw [value_eq, value_eq, negative_abs, hunits, abs_div, abs_of_pos unit_real_pos]
  cases x.negative <;> simp

theorem value_nonneg_of_negative (h : x.negative = false) : 0 ≤ x.value := by
  rw [value_eq, h]
  exact div_nonneg_iff.2 (.inl ⟨Nat.cast_nonneg _, unit_real_pos.le⟩)

theorem value_nonpos_of_negative (h : x.negative = true) : x.value ≤ 0 := by
  rw [value_eq, h]
  exact div_nonpos_of_nonpos_of_nonneg (neg_nonpos.2 (Nat.cast_nonneg _)) unit_real_pos.le

theorem negative_of_value_pos (h : 0 < x.value) : x.negative = false := by
  by_contra hs
  exact (value_nonpos_of_negative (Bool.not_eq_false _ ▸ hs)).not_gt h

theorem value_le_value (h : x ≤ y) : x.value ≤ y.value := by
  have hunits : (x.signedUnits : ℝ) ≤ y.signedUnits := Int.cast_le.2 (signedUnits_mono h)
  exact div_le_div_of_nonneg_right hunits unit_real_pos.le

theorem le_of_value_le (hx : x.isNaN = false) (hy : y.isNaN = false) (h : x.value ≤ y.value) :
    x ≤ y := by
  have hunits : x.signedUnits ≤ y.signedUnits :=
    Int.cast_le.1 ((div_le_div_iff_of_pos_right unit_real_pos).1 h)
  refine ⟨hx, hy, ?_⟩
  rw [← placeOf_signedUnits hx, ← placeOf_signedUnits hy]
  exact placeOf_mono hunits

theorem value_lt_value (h : x < y) : x.value < y.value :=
  lt_of_not_ge fun hle ↦ not_le_of_lt h (le_of_value_le h.2.1 h.1 hle)

theorem lt_of_value_lt (hx : x.isNaN = false) (hy : y.isNaN = false) (h : x.value < y.value) :
    x < y :=
  lt_of_not_le hy hx fun hle ↦ (value_le_value hle).not_gt h

theorem negative_sub (hx : x.isFinite = true) (hy : y.isFinite = true)
    (hxs : x.negative = false) : (x - y).negative = decide (x.value < y.value) := by
  have hlt : x.value < y.value ↔ x.signedUnits + y.neg.signedUnits < 0 := by
    rw [value, value, div_lt_div_iff_of_pos_right unit_real_pos, Int.cast_lt, signedUnits_neg]
    omega
  rw [sub_eq hx hy, add_eq hx ((isFinite_neg y).trans hy), addFinite, decide_eq_decide.2 hlt]
  split
  · rename_i hzero
    rw [negative_zero, hxs, Bool.false_and, decide_eq_false (by omega)]
  · exact negative_ofQuotient _ _ _

/-- The least value with all its digits. -/
noncomputable def leastNormal : ℝ := binade / unit

theorem leastNormal_pos : 0 < leastNormal := div_pos (by norm_num) unit_real_pos

theorem two_mul_nearest (n : Nat) (hd : 0 < d) :
    2 * (nearest n d * d) ≤ 2 * n + d ∧ 2 * n ≤ 2 * (nearest n d * d) + d := by
  have hparts := Nat.div_add_mod n d
  have hmod := Nat.mod_lt n hd
  have hmul : (n / d + 1) * d = d * (n / d) + d := by ring
  have hcomm := Nat.mul_comm (n / d) d
  dsimp only [nearest]
  split <;> omega

theorem exists_shift (hd : 0 < d) (hf : nearestMagnitude n d < infiniteMagnitude) :
    ∃ s, (s = 0 ∨ binade * 2 ^ s * d ≤ n) ∧
      2 * (unitsOf (nearestMagnitude n d) * d) ≤ 2 * n + 2 ^ s * d ∧
      2 * n ≤ 2 * (unitsOf (nearestMagnitude n d) * d) + 2 ^ s * d := by
  obtain ⟨s, hs⟩ : ∃ s, s = (n / d).log2 - 52 := ⟨_, rfl⟩
  have hle := nearest_le_binade (n := n) hd
  have hleads : s = 0 ∨ binade ≤ nearest n (d <<< s) := by
    rcases Nat.eq_zero_or_pos s with h | h
    · exact .inl h
    · rw [hs] at h ⊢
      exact .inr (binade_le_nearest hd h)
  have herror := two_mul_nearest n (shiftLeft_pos hd s)
  have hnearest : nearestMagnitude n d = s * binade + nearest n (d <<< s) := by
    rw [nearestMagnitude, ← hs] at hf ⊢
    omega
  have hunits : unitsOf (nearestMagnitude n d) = nearest n (d <<< s) * 2 ^ s := by
    rw [← hs] at hle
    rw [hnearest]
    rcases Nat.lt_or_eq_of_le hle with hlt | heq
    · exact Parts.units ⟨rfl, hlt, hleads⟩
    · -- What is rounded up to the next binade is one more than the last of this one.
      obtain ⟨q, hq⟩ : ∃ q, q + 1 = 2 * binade := ⟨2 * binade - 1, by decide⟩
      have hlast : Parts (s * binade + q) s q := ⟨rfl, by omega, .inr (by omega)⟩
      rw [heq, ← hq, ← hlast.units_succ, Nat.add_assoc]
  refine ⟨s, ?_, ?_⟩
  · rcases Nat.eq_zero_or_pos s with h | h
    · exact .inl h
    · right
      have hbound := (Nat.le_div_iff_mul_le hd).1 (shiftLeft_shift_le (hs ▸ h))
      rwa [← hs, Nat.shiftLeft_eq] at hbound
  · have hmul (k : Nat) : k * 2 ^ s * d = k * (d <<< s) := by
      rw [Nat.shiftLeft_eq]
      ring
    have hone := hmul 1
    rw [Nat.one_mul, Nat.one_mul] at hone
    rw [hunits, hmul, hone]
    exact herror

theorem abs_unitsOf_sub_le (hd : 0 < d) (hf : nearestMagnitude n d < infiniteMagnitude) :
    |(unitsOf (nearestMagnitude n d) : ℝ) - n / d| ≤ max (n / d : ℝ) binade / 2 ^ 53 := by
  obtain ⟨s, hs, hlow, hhigh⟩ := exists_shift hd hf
  have hdr : (0 : ℝ) < d := Nat.cast_pos.2 hd
  have hbinade : (binade : ℝ) = 2 ^ 52 := by norm_num
  have hstep : (2 : ℝ) ^ s * binade ≤ max (n / d : ℝ) binade := by
    rcases hs with rfl | hs
    · rw [pow_zero, one_mul]
      exact le_max_right _ _
    · refine le_max_of_le_left ((le_div_iff₀ hdr).2 ?_)
      rw [mul_comm ((2 : ℝ) ^ s)]
      exact_mod_cast hs
  have hhalf : (2 : ℝ) ^ s / 2 ≤ max (n / d : ℝ) binade / 2 ^ 53 := by
    rw [hbinade] at hstep ⊢
    rw [div_le_div_iff₀ two_pos (by positivity)]
    linarith
  refine LE.le.trans ?_ hhalf
  have hlow : 2 * ((unitsOf (nearestMagnitude n d) : ℝ) * d) ≤ 2 * n + 2 ^ s * d := by
    exact_mod_cast hlow
  have hhigh : 2 * (n : ℝ) ≤ 2 * (unitsOf (nearestMagnitude n d) * d) + 2 ^ s * d := by
    exact_mod_cast hhigh
  have hnd : (n : ℝ) = n / d * d := (div_mul_cancel₀ _ hdr.ne').symm
  rw [abs_le]
  constructor
  · refine le_of_mul_le_mul_right ?_ hdr
    linarith
  · refine le_of_mul_le_mul_right ?_ hdr
    linarith

/-- The finite value next to a number. -/
structure Rounds (v : ℝ) (x : Binary64) : Prop where
  isFinite : x.isFinite = true
  error : |x.value - v| ≤ max |v| leastNormal / 2 ^ 53

theorem isFinite_ofQuotient (hd : 0 < d) (h : (n / d : ℝ) ≤ 10 ^ 255 * unit) :
    nearestMagnitude n d < infiniteMagnitude := by
  obtain ⟨m, hm, hunits⟩ := isSize_two_pow (e := 2097) (by decide)
  have hlarge : 10 ^ 255 * unit ≤ unitsOf m := by
    rw [hunits]
    decide +kernel
  have hle : (n / d : ℝ) ≤ unitsOf m := h.trans (by exact_mod_cast hlarge)
  refine (nearestMagnitude_le_of_le hd hm.le ?_).trans_lt hm
  exact_mod_cast (div_le_iff₀ (Nat.cast_pos.2 hd)).1 hle

theorem rounds_ofQuotient (hd : 0 < d) (hv : v = (if negative then -(n / d : ℝ) else n / d) / unit)
    (hle : |v| ≤ 10 ^ 255) : Rounds v (ofQuotient negative n d) := by
  have hnd : (0 : ℝ) ≤ n / d := by positivity
  have hunit := unit_real_pos
  have habs : |v| = n / d / unit := by
    rw [hv, abs_div, abs_of_pos hunit]
    split
    · rw [abs_neg, abs_of_nonneg hnd]
    · rw [abs_of_nonneg hnd]
  rw [habs, div_le_iff₀ hunit] at hle
  have hf := isFinite_ofQuotient hd hle
  constructor
  · rw [isFinite, magnitude_ofQuotient]
    exact decide_eq_true hf
  · have herror := abs_unitsOf_sub_le hd hf
    have hdiff : |(ofQuotient negative n d).value - v| =
        |(unitsOf (nearestMagnitude n d) : ℝ) - n / d| / unit := by
      rw [value_eq, hv, negative_ofQuotient, units, magnitude_ofQuotient, ← sub_div, abs_div,
        abs_of_pos hunit]
      cases negative
      · rfl
      · simp only [if_true, neg_sub_neg]
        rw [abs_sub_comm]
    have hmax : max |v| leastNormal = max (n / d : ℝ) binade / unit := by
      rw [habs, leastNormal, max_div_div_right hunit.le]
    rw [hdiff, hmax, div_right_comm]
    exact div_le_div_of_nonneg_right herror hunit.le

theorem value_zero (negative : Bool) : (zero negative).value = 0 := by
  rw [value_eq, units_eq_zero (magnitude_zero negative)]
  simp

theorem rounds_add (hx : x.isFinite = true) (hy : y.isFinite = true)
    (h : |x.value + y.value| ≤ 10 ^ 255) : Rounds (x.value + y.value) (x + y) := by
  have hsum : x.value + y.value = (x.signedUnits + y.signedUnits : Int) / unit := by
    rw [value, value, ← add_div]
    push_cast
    rfl
  rw [hsum] at h ⊢
  rw [add_eq hx hy, addFinite]
  generalize x.signedUnits + y.signedUnits = k at h ⊢
  split
  · rename_i hk
    refine ⟨(atMost_zero _ 0).isFinite, ?_⟩
    have hzero : ((0 : Int) : ℝ) / unit = 0 := by simp
    rw [value_zero, hk, hzero, sub_zero, abs_zero, max_eq_right leastNormal_pos.le]
    exact (div_pos leastNormal_pos (by norm_num)).le
  · refine rounds_ofQuotient Nat.one_pos ?_ h
    have hk : (k : ℝ) = if decide (k < 0) then -((k.natAbs : Nat) : ℝ) else (k.natAbs : Nat) := by
      rw [Nat.cast_natAbs, Int.cast_abs]
      split
      · rename_i hneg
        rw [abs_of_neg (Int.cast_lt_zero.2 (of_decide_eq_true hneg)), neg_neg]
      · rename_i hneg
        rw [abs_of_nonneg (Int.cast_nonneg (Int.not_lt.1 (mt decide_eq_true hneg)))]
    rw [hk]
    simp only [Nat.cast_one, div_one]

theorem rounds_sub (hx : x.isFinite = true) (hy : y.isFinite = true)
    (h : |x.value - y.value| ≤ 10 ^ 255) : Rounds (x.value - y.value) (x - y) := by
  have hneg : y.neg.value = -y.value := value_neg y
  rw [sub_eq hx hy]
  have hsub : x.value - y.value = x.value + y.neg.value := by
    rw [hneg]
    ring
  rw [hsub] at h ⊢
  exact rounds_add hx ((isFinite_neg y).trans hy) h

theorem signed_bne (s t : Bool) (a b : ℝ) :
    (if s then -a else a) * (if t then -b else b) = if s != t then -(a * b) else a * b := by
  cases s <;> cases t <;> simp

theorem rounds_mul (hx : x.isFinite = true) (hy : y.isFinite = true)
    (h : |x.value * y.value| ≤ 10 ^ 255) : Rounds (x.value * y.value) (x * y) := by
  have hunit := unit_real_pos
  rw [mul_eq hx hy]
  refine rounds_ofQuotient unit_pos ?_ h
  rw [value_eq, value_eq, div_mul_div_comm, signed_bne, ← div_div]
  push_cast
  congr 1
  split <;> ring

theorem magnitude_pos_of_value_ne (h : x.value ≠ 0) : 0 < x.magnitude := by
  refine Nat.pos_of_ne_zero fun hzero ↦ h ?_
  rw [value_eq, units_eq_zero hzero]
  simp

theorem rounds_div (hx : x.isFinite = true) (hy : y.isFinite = true) (hpos : y.value ≠ 0)
    (h : |x.value / y.value| ≤ 10 ^ 255) : Rounds (x.value / y.value) (x / y) := by
  have hunit := unit_real_pos
  have hm := magnitude_pos_of_value_ne hpos
  have hunits : y.units ≠ 0 := Nat.ne_of_gt (units_pos hm)
  rw [div_eq hx hy hm]
  refine rounds_ofQuotient (Nat.pos_of_ne_zero hunits) ?_ h
  have hyr : (y.units : ℝ) ≠ 0 := Nat.cast_ne_zero.2 hunits
  rw [value_eq, value_eq]
  push_cast
  cases x.negative <;> cases y.negative <;>
    simp only [Bool.false_eq_true, if_false, if_true, bne_self_eq_false, Bool.true_bne,
      Bool.false_bne, Bool.not_false] <;> field_simp

theorem neg_div_eq (hx : x.isFinite = true) (hy : y.isFinite = true) (hpos : y.value ≠ 0) :
    -x / y = -(x / y) := by
  have hm := magnitude_pos_of_value_ne hpos
  change x.neg / y = (x / y).neg
  rw [div_eq ((isFinite_neg x).trans hx) hy hm, div_eq hx hy hm, negative_neg, units_neg, neg,
    magnitude_ofQuotient, negative_ofQuotient, ofQuotient, Bool.not_bne]

theorem value_nought : (0.0 : Binary64).value = 0 := by
  have h : (0.0 : Binary64) = zero false := by decide
  rw [h, value_zero]

theorem value_one : (1.0 : Binary64).value = 1 := by
  have h := value_of_signedUnits (x := 1.0) (k := 1) (by rw [signedUnits_one, one_mul])
  rw [h, Int.cast_one]

theorem value_two : (2.0 : Binary64).value = 2 :=
  (value_of_signedUnits (k := 2) (by decide +kernel)).trans (Int.cast_ofNat 2)

theorem value_half : (0.5 : Binary64).value = 1 / 2 := by
  have hunits : (0.5 : Binary64).signedUnits * 2 = unit := by decide +kernel
  have hreal : ((0.5 : Binary64).signedUnits : ℝ) * 2 = unit := by exact_mod_cast hunits
  have hpos := unit_real_pos
  rw [← hreal] at hpos
  rw [value, ← hreal, div_mul_cancel_left₀ (left_ne_zero_of_mul hpos.ne'), one_div]

theorem value_natCast (h : n ≤ 2 * binade) : (n : Binary64).value = n := by
  rw [value_eq, negative_natCast, units_natCast h]
  push_cast
  exact mul_div_cancel_right₀ _ unit_real_pos.ne'

theorem rounds_literal {m e : Nat} (hm : 0 < m) (he : 0 < e) (he' : e ≤ 900)
    (h : (m : ℝ) / 10 ^ e ≤ 10 ^ 255) :
    Rounds (m / 10 ^ e) (OfScientific.ofScientific m true e : Binary64) := by
  have hliteral : (OfScientific.ofScientific m true e : Binary64) =
      ofQuotient false (m * unit) (10 ^ e) := by
    change ofDecimal false m (-(e : Int)) = _
    rw [ofDecimal, if_neg hm.ne', if_neg (by omega), if_neg (by omega), if_neg (by omega), neg_neg]
    rfl
  have hpos : (0 : ℝ) ≤ m / 10 ^ e := by positivity
  have hunit := unit_real_pos
  rw [hliteral]
  refine rounds_ofQuotient (Nat.pos_of_ne_zero (by positivity)) ?_ ((abs_of_nonneg hpos).trans_le h)
  rw [if_neg Bool.false_ne_true]
  push_cast
  field_simp

end MetricWatch.Binary64
