import MetricWatch.Proofs.Binary64.Nearest
import MetricWatch.Proofs.Binary64.Sign

namespace MetricWatch.Binary64

variable {x y : Binary64} {a b e k m n d s u : Nat} {negative : Bool}

/-- What is too large for a finite number, in least units. -/
def limit : Nat := unitsOf infiniteMagnitude

theorem limit_eq_two_pow : ∃ w, w = 2098 ∧ limit = 2 ^ w := by
  obtain ⟨w, hw, hlimit⟩ : ∃ w, w = 2098 ∧ limit = 1 <<< w := ⟨_, rfl, by decide⟩
  exact ⟨w, hw, by rw [hlimit, Nat.one_shiftLeft]⟩

theorem units_lt_limit (h : x.isFinite = true) : x.units < limit :=
  unitsOf_strictMono (of_decide_eq_true h)

/-- A count of least units that some finite number has. -/
def IsSize (u : Nat) : Prop := ∃ m < infiniteMagnitude, unitsOf m = u

theorem isSize_of_eq (h : unitsOf m = u) (hu : u < limit) : IsSize u := by
  rw [← h, limit] at hu
  exact ⟨m, unitsOf_strictMono.lt_iff_lt.1 hu, h⟩

theorem isSize_units (h : x.isFinite = true) : IsSize x.units :=
  ⟨x.magnitude, of_decide_eq_true h, rfl⟩

theorem isSize_mul_two_pow (hk : k ≤ 2 * binade) (h : k * 2 ^ s < limit) :
    IsSize (k * 2 ^ s) := by
  obtain ⟨m, hm⟩ := exists_unitsOf hk s
  exact isSize_of_eq hm h

theorem isSize_mul_two_pow_of_lt (hk : k ≤ 2 * binade) (hs : s + 53 < 2098) :
    IsSize (k * 2 ^ s) := by
  apply isSize_mul_two_pow hk
  obtain ⟨w, hw, hlimit⟩ := limit_eq_two_pow
  have htwo : 2 * binade = 2 ^ 53 := by decide
  calc k * 2 ^ s ≤ 2 ^ 53 * 2 ^ s := Nat.mul_le_mul_right _ (htwo ▸ hk)
    _ = 2 ^ (53 + s) := by rw [← Nat.pow_add]
    _ < 2 ^ w := Nat.pow_lt_pow_right (by decide) (by omega)
    _ = limit := hlimit.symm

theorem isSize_two_pow (he : e < 2098) : IsSize (2 ^ e) := by
  obtain ⟨w, hw, hlimit⟩ := limit_eq_two_pow
  rw [← Nat.one_mul (2 ^ e)]
  apply isSize_mul_two_pow (by decide)
  rw [hlimit, Nat.one_mul]
  exact Nat.pow_lt_pow_right (by decide) (by omega)

/-- Finite, and of `u` least units at most. -/
structure AtMost (u : Nat) (x : Binary64) : Prop where
  isFinite : x.isFinite = true
  units_le : x.units ≤ u

instance (u : Nat) (x : Binary64) : Decidable (AtMost u x) :=
  decidable_of_iff (x.isFinite = true ∧ x.units ≤ u)
    ⟨fun h ↦ ⟨h.1, h.2⟩, fun h ↦ ⟨h.isFinite, h.units_le⟩⟩

theorem AtMost.mono (hx : AtMost a x) (h : a ≤ b) : AtMost b x :=
  ⟨hx.isFinite, hx.units_le.trans h⟩

theorem atMost_of_nearestMagnitude_le (hm : m < infiniteMagnitude)
    (h : nearestMagnitude n d ≤ m) : AtMost (unitsOf m) (ofQuotient negative n d) := by
  constructor
  · rw [isFinite, magnitude_ofQuotient]
    exact decide_eq_true (h.trans_lt hm)
  · rw [units, magnitude_ofQuotient]
    exact unitsOf_strictMono.monotone h

theorem atMost_ofQuotient (hu : IsSize u) (hd : 0 < d) (h : n ≤ u * d) :
    AtMost u (ofQuotient negative n d) := by
  obtain ⟨m, hm, rfl⟩ := hu
  exact atMost_of_nearestMagnitude_le hm (nearestMagnitude_le_of_le hd (Nat.le_of_lt hm) h)

theorem le_units_ofQuotient (hu : IsSize u) (hd : 0 < d) (h : u * d ≤ n) :
    u ≤ (ofQuotient negative n d).units := by
  obtain ⟨m, hm, rfl⟩ := hu
  rw [units, magnitude_ofQuotient]
  exact unitsOf_strictMono.monotone (le_nearestMagnitude_of_le hd (Nat.le_of_lt hm) h)

theorem lt_of_isFinite_ofQuotient (hd : 0 < d) (h : (ofQuotient negative n d).isFinite = true) :
    n < limit * d := by
  by_contra hle
  have hmag := le_nearestMagnitude_of_le hd (Nat.le_refl infiniteMagnitude) (Nat.not_lt.1 hle)
  rw [isFinite, magnitude_ofQuotient] at h
  exact Nat.not_lt.2 hmag (of_decide_eq_true h)

theorem natAbs_signedUnits (x : Binary64) : x.signedUnits.natAbs = x.units := by
  unfold signedUnits
  split <;> omega

theorem signedUnits_neg (x : Binary64) : x.neg.signedUnits = -x.signedUnits := by
  unfold signedUnits
  cases h : x.negative <;> simp [h]

theorem isFinite_neg (x : Binary64) : x.neg.isFinite = x.isFinite := by
  simp [isFinite]

theorem add_eq (hx : x.isFinite = true) (hy : y.isFinite = true) : x + y = addFinite x y := by
  obtain ⟨hxn, hxi⟩ := isFinite_iff.1 hx
  obtain ⟨hyn, hyi⟩ := isFinite_iff.1 hy
  change add x y = _
  simp only [add, hxn, hyn, hxi, hyi, Bool.false_eq_true, if_false]

theorem sub_eq (hx : x.isFinite = true) (hy : y.isFinite = true) : x - y = x + y.neg := by
  have hxn := (isFinite_iff.1 hx).1
  have hyn := (isFinite_iff.1 hy).1
  change sub x y = add x y.neg
  simp only [sub, hxn, hyn, Bool.false_eq_true, if_false]

theorem mul_eq (hx : x.isFinite = true) (hy : y.isFinite = true) :
    x * y = ofQuotient (x.negative != y.negative) (x.units * y.units) unit := by
  obtain ⟨hxn, hxi⟩ := isFinite_iff.1 hx
  obtain ⟨hyn, hyi⟩ := isFinite_iff.1 hy
  change mul x y = _
  simp only [mul, hxn, hyn, hxi, hyi, Bool.false_eq_true, if_false, Bool.or_self]

theorem div_eq (hx : x.isFinite = true) (hy : y.isFinite = true) (hpos : 0 < y.magnitude) :
    x / y = ofQuotient (x.negative != y.negative) (x.units * unit) y.units := by
  obtain ⟨hxn, hxi⟩ := isFinite_iff.1 hx
  obtain ⟨hyn, hyi⟩ := isFinite_iff.1 hy
  change div x y = _
  simp only [div, hxn, hyn, hxi, hyi, Bool.false_eq_true, if_false, Nat.ne_of_gt hpos]

theorem atMost_zero (negative : Bool) (u : Nat) : AtMost u (zero negative) := by
  constructor
  · rw [isFinite, magnitude_zero]
    decide
  · rw [units_eq_zero (magnitude_zero negative)]
    exact Nat.zero_le u

theorem atMost_add (hx : x.isFinite = true) (hy : y.isFinite = true) (hm : m < infiniteMagnitude)
    (h : nearestMagnitude (x.signedUnits + y.signedUnits).natAbs 1 ≤ m) :
    AtMost (unitsOf m) (x + y) := by
  rw [add_eq hx hy]
  unfold addFinite
  dsimp only
  split
  · exact atMost_zero _ _
  · exact atMost_of_nearestMagnitude_le hm h

theorem atMost_add_of_le (hx : x.isFinite = true) (hy : y.isFinite = true) (hu : IsSize u)
    (h : (x.signedUnits + y.signedUnits).natAbs ≤ u) : AtMost u (x + y) := by
  obtain ⟨m, hm, rfl⟩ := hu
  exact atMost_add hx hy hm
    (nearestMagnitude_le_of_le Nat.one_pos (Nat.le_of_lt hm) (by rwa [Nat.mul_one]))

theorem atMost_sub_of_le (hx : x.isFinite = true) (hy : y.isFinite = true) (hu : IsSize u)
    (h : (x.signedUnits - y.signedUnits).natAbs ≤ u) : AtMost u (x - y) := by
  rw [sub_eq hx hy]
  apply atMost_add_of_le hx ((isFinite_neg y).trans hy) hu
  rwa [signedUnits_neg]

theorem atMost_of_abs_le (hy : AtMost u y) (h : Scalar.abs x ≤ y) : AtMost u x := by
  have hpos := h.2.2
  rw [position_abs] at hpos
  have hle : x.magnitude ≤ y.magnitude := by
    unfold position at hpos
    split at hpos <;> omega
  constructor
  · exact decide_eq_true (hle.trans_lt (of_decide_eq_true hy.isFinite))
  · exact (unitsOf_strictMono.monotone hle).trans hy.units_le

theorem atMost_of_pos_le (hy : AtMost u y) (hx : ¬ x ≤ 0.0) (h : x ≤ y) : AtMost u x := by
  have hpos : (0.0 : Binary64) < x :=
    ⟨by decide, h.1, Int.not_le.1 fun hle ↦ hx ⟨h.1, by decide, hle⟩⟩
  obtain ⟨-, hnegative, -⟩ := zero_lt_iff.1 hpos
  refine atMost_of_abs_le hy ⟨(isNaN_abs x).trans h.1, h.2.1, ?_⟩
  have hle := h.2.2
  rwa [position, if_neg (Bool.eq_false_iff.1 hnegative), ← position_abs] at hle

theorem natAbs_sub_lt (hx : x.isFinite = true) (hy : y.isFinite = true) (hu : IsSize u)
    (h : (x - y).units < u) : (x.signedUnits - y.signedUnits).natAbs < u := by
  by_contra hle
  rw [sub_eq hx hy, add_eq hx ((isFinite_neg y).trans hy)] at h
  unfold addFinite at h
  rw [signedUnits_neg] at h
  dsimp only at h
  rw [if_neg (by omega)] at h
  exact Nat.not_lt.2 (le_units_ofQuotient hu Nat.one_pos (by omega)) h

namespace AtMost

theorem natAbs_add_le (hx : AtMost a x) (hy : AtMost b y) :
    (x.signedUnits + y.signedUnits).natAbs ≤ a + b := by
  have hxu := hx.units_le
  have hyu := hy.units_le
  rw [← natAbs_signedUnits] at hxu hyu
  omega

theorem neg (hx : AtMost a x) : AtMost a x.neg :=
  ⟨(isFinite_neg x).trans hx.isFinite, (units_neg x).trans_le hx.units_le⟩

theorem add (hx : AtMost a x) (hy : AtMost b y) (hu : IsSize u) (h : a + b ≤ u) :
    AtMost u (x + y) :=
  atMost_add_of_le hx.isFinite hy.isFinite hu ((hx.natAbs_add_le hy).trans h)

theorem sub (hx : AtMost a x) (hy : AtMost b y) (hu : IsSize u) (h : a + b ≤ u) :
    AtMost u (x - y) := by
  rw [sub_eq hx.isFinite hy.isFinite]
  exact hx.add hy.neg hu h

theorem mul (hx : AtMost a x) (hy : AtMost b y) (hu : IsSize u) (h : a * b ≤ u * unit) :
    AtMost u (x * y) := by
  rw [mul_eq hx.isFinite hy.isFinite]
  exact atMost_ofQuotient hu unit_pos ((Nat.mul_le_mul hx.units_le hy.units_le).trans h)

theorem div (hx : AtMost a x) (hy : y.isFinite = true) (hpos : 0 < y.magnitude) (hu : IsSize u)
    (h : a * unit ≤ u * y.units) : AtMost u (x / y) := by
  rw [div_eq hx.isFinite hy hpos]
  exact atMost_ofQuotient hu (units_pos hpos)
    ((Nat.mul_le_mul_right unit hx.units_le).trans h)

theorem sqrt (hx : AtMost a x) (hsign : (0.0 : Binary64) ≤ x) (hu : IsSize u)
    (h : a * unit < u * u) : AtMost u x.sqrt := by
  obtain ⟨hn, hs⟩ := zero_le_iff.1 hsign
  unfold Binary64.sqrt
  split
  · rename_i hzero
    rw [hn, Bool.false_or, decide_eq_true_eq] at hzero
    refine ⟨hx.isFinite, ?_⟩
    rw [units_eq_zero hzero]
    exact Nat.zero_le u
  · rename_i hzero
    rw [hn, Bool.false_or, decide_eq_true_eq] at hzero
    rw [hs.resolve_right hzero, (isFinite_iff.1 hx.isFinite).2]
    have hsquare : x.units * unit < u * u := (Nat.mul_le_mul_right unit hx.units_le).trans_lt h
    have hroot : (x.units * unit).sqrt < u := Nat.sqrt_lt.2 hsquare
    refine atMost_ofQuotient hu (by decide) ?_
    split <;> omega

end AtMost

end MetricWatch.Binary64
