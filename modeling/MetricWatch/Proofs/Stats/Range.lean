import MetricWatch.Proofs.Binary64.Count
import MetricWatch.Proofs.Binary64.Range
import MetricWatch.Proofs.Stats.Finite
import MetricWatch.Proofs.Stats.Sorted

namespace MetricWatch

namespace Binary64

variable {x y : Binary64} {e i n : Nat}

/-- The most that a count of values makes of a rounded sum, in multiples of the largest value. -/
def weight (n : Nat) : Nat := min n (2 * binade)

theorem isSize_weight (he : e + 53 < 2098) (n : Nat) : IsSize (weight n * 2 ^ e) :=
  isSize_mul_two_pow_of_lt (Nat.min_le_right _ _) he

/-- The value is at most half of the unit that the sum has, and the sum is even. -/
theorem atMost_absorb (he : e + 53 < 2098) (hx : AtMost (2 * binade * 2 ^ e) x)
    (hy : AtMost (2 ^ e) y) : AtMost (2 * binade * 2 ^ e) (x + y) := by
  have hparts : Parts ((e + 2) * binade) (e + 1) binade :=
    ⟨Nat.succ_mul _ _, by decide, .inr (Nat.le_refl _)⟩
  have hunits : unitsOf ((e + 2) * binade) = 2 * binade * 2 ^ e := by
    rw [hparts.units, Nat.pow_succ]
    ring
  have hmag : (e + 2) * binade < infiniteMagnitude := by
    unfold binade infiniteMagnitude
    omega
  rw [← hunits]
  refine atMost_add hx.isFinite hy.isFinite hmag
    (nearestMagnitude_le_of_le_midpoint Nat.one_pos (Nat.le_of_lt hmag) ?_ (.inl ?_))
  · have hsum := Nat.mul_le_mul_left 2 (hx.natAbs_add_le hy)
    have hmid : (2 * binade + 1) * 2 ^ (e + 1) = 2 * (2 * binade * 2 ^ e + 2 ^ e) := by
      rw [Nat.pow_succ]
      ring
    rwa [hparts.midpoint, hmid, Nat.mul_one]
  · unfold binade
    omega

theorem atMost_add_weight (he : e + 53 < 2098) (hx : AtMost (weight i * 2 ^ e) x)
    (hy : AtMost (2 ^ e) y) : AtMost (weight (i + 1) * 2 ^ e) (x + y) := by
  rcases Nat.lt_or_ge i (2 * binade) with hi | hi
  · apply hx.add hy (isSize_weight he _)
    have hw : weight i = i := Nat.min_eq_left (Nat.le_of_lt hi)
    have hw' : weight (i + 1) = i + 1 := Nat.min_eq_left hi
    rw [hw, hw', Nat.succ_mul]
  · have hw : weight i = 2 * binade := Nat.min_eq_right hi
    have hw' : weight (i + 1) = 2 * binade := Nat.min_eq_right (Nat.le_succ_of_le hi)
    rw [hw] at hx
    rw [hw']
    exact atMost_absorb he hx hy

theorem le_units_natCast (n : Nat) : weight n * unit ≤ (n : Binary64).units := by
  obtain ⟨w, hw, hunit⟩ := unit_eq_two_pow
  have hsize : IsSize (weight n * unit) := by
    rw [hunit]
    exact isSize_weight (by omega) n
  apply le_units_ofQuotient hsize Nat.one_pos
  rw [Nat.mul_one]
  exact Nat.mul_le_mul_right _ (Nat.min_le_left _ _)

end Binary64

namespace Stats

open Binary64

variable {values : List Binary64} {v : Binary64} {a e f g i u : Nat}

theorem atMost_foldl (he : e + 53 < 2098) (hv : ∀ v ∈ values, AtMost (2 ^ e) v)
    {start : Binary64} (hstart : AtMost (weight i * 2 ^ e) start) :
    AtMost (weight (i + values.length) * 2 ^ e) (values.foldl (· + ·) start) := by
  induction values generalizing start i with
  | nil => exact hstart
  | cons v rest ih =>
    obtain ⟨hv, hrest⟩ := List.forall_mem_cons.1 hv
    have h := ih hrest (atMost_add_weight he hstart hv)
    rwa [Nat.add_right_comm] at h

theorem atMost_sum (he : e + 53 < 2098) (hv : ∀ v ∈ values, AtMost (2 ^ e) v) :
    AtMost (weight values.length * 2 ^ e) (sum values) := by
  rw [sum, neg_zero.1, ← Nat.zero_add values.length]
  exact atMost_foldl he hv (atMost_zero true _)

theorem atMost_average (he : e + 53 < 2098) (hv : ∀ v ∈ values, AtMost (2 ^ e) v)
    (hne : values ≠ []) (hlen : values.length < 2 ^ 64) :
    AtMost (2 ^ e) (sum values / (values.length : Binary64)) := by
  have hpos := zero_lt_natCast (List.length_pos_iff.2 hne)
  refine (atMost_sum he hv).div (isFinite_natCast hlen) (zero_lt_iff.1 hpos).2.2
    (isSize_two_pow (by omega)) ?_
  rw [Nat.mul_assoc, Nat.mul_left_comm]
  exact Nat.mul_le_mul_left _ (le_units_natCast _)

theorem atMost_mean (he : e + 53 < 2098) (hv : ∀ v ∈ values, AtMost (2 ^ e) v)
    (hne : values ≠ []) (hlen : values.length < 2 ^ 64) : AtMost (2 ^ e) (mean values) := by
  rw [mean, if_neg (by simpa using hne)]
  exact atMost_average he hv hne hlen

theorem zero_le_sum (hv : ∀ v ∈ values, (0.0 : Binary64) ≤ v) : (0.0 : Binary64) ≤ sum values := by
  have hfold : ∀ a : Binary64, 0.0 ≤ a → 0.0 ≤ values.foldl (· + ·) a := by
    induction values with
    | nil => exact fun a ha ↦ ha
    | cons v rest ih =>
      obtain ⟨hv, hrest⟩ := List.forall_mem_cons.1 hv
      exact fun a ha ↦ ih hrest (a + v) (add_nonneg ha hv)
  exact hfold _ neg_zero.2

theorem zero_le_square (h : v.isFinite = true) : (0.0 : Binary64) ≤ square v := by
  rw [square, mul_eq h h]
  exact zero_le_ofQuotient (.inl (bne_self_eq_false _))

/-- The deviations are twice as large as the values at most, and their squares have `f` digits. -/
theorem atMost_populationVariance (he : e + 53 < 2098) (hf : f + 53 < 2098)
    (hsquare : 2 * (e + 1) ≤ f + 1074) (hv : ∀ v ∈ values, AtMost (2 ^ e) v) (hne : values ≠ [])
    (hlen : values.length < 2 ^ 64) :
    AtMost (2 ^ f) (populationVariance values) ∧ (0.0 : Binary64) ≤ populationVariance values := by
  have hmean := atMost_mean he hv hne hlen
  have hdeviation (v) (hmem : v ∈ values) : AtMost (2 ^ (e + 1)) (v - mean values) := by
    apply (hv v hmem).sub hmean (isSize_two_pow (by omega))
    rw [Nat.pow_succ]
    omega
  have hsquares : ∀ s ∈ values.map (fun v ↦ square (v - mean values)), AtMost (2 ^ f) s := by
    intro s hs
    obtain ⟨v, hmem, rfl⟩ := List.mem_map.1 hs
    apply (hdeviation v hmem).mul (hdeviation v hmem) (isSize_two_pow (by omega))
    obtain ⟨w, hw, hunit⟩ := unit_eq_two_pow
    rw [hunit, ← Nat.pow_add, ← Nat.pow_add]
    exact Nat.pow_le_pow_right (by decide) (by omega)
  have hpositive : ∀ s ∈ values.map (fun v ↦ square (v - mean values)), (0.0 : Binary64) ≤ s := by
    intro s hs
    obtain ⟨v, hmem, rfl⟩ := List.mem_map.1 hs
    exact zero_le_square (hdeviation v hmem).isFinite
  rw [populationVariance, if_neg (by simpa using hne)]
  constructor
  · have h := atMost_average hf hsquares (by simpa using hne) (by simpa using hlen)
    rwa [List.length_map] at h
  · exact div_nonneg (zero_le_sum hpositive) (zero_lt_natCast (List.length_pos_iff.2 hne))
      (isFinite_natCast hlen)

theorem atMost_populationStdDev (he : e + 53 < 2098) (hf : f + 53 < 2098)
    (hsquare : 2 * (e + 1) ≤ f + 1074) (hroot : f + 1074 < 2 * g) (hg : g < 2098)
    (hv : ∀ v ∈ values, AtMost (2 ^ e) v) (hne : values ≠ []) (hlen : values.length < 2 ^ 64) :
    AtMost (2 ^ g) (populationStdDev values) := by
  obtain ⟨hvariance, hsign⟩ := atMost_populationVariance he hf hsquare hv hne hlen
  rw [populationStdDev, if_neg (by simpa using hne)]
  apply hvariance.sqrt hsign (isSize_two_pow hg)
  obtain ⟨w, hw, hunit⟩ := unit_eq_two_pow
  rw [hunit, ← Nat.pow_add, ← Nat.pow_add]
  exact Nat.pow_lt_pow_right (by decide) (by omega)

theorem exists_percentile_eq (h : 2 ≤ values.length) (p : Binary64) :
    ∃ lower ≤ values.length - 1, ∃ v ∈ values, ∃ w ∈ values, percentile values p =
      v + (p / 100.0 * ((values.length - 1 : Nat) : Binary64) - (lower : Binary64)) * (w - v) := by
  rw [percentile, dif_pos h]
  exact ⟨_, Nat.min_le_right _ _, _, List.getElem_mem _, _, List.getElem_mem _, rfl⟩

theorem percentile_eq_of_lt (h : values.length < 2) (p : Binary64) :
    percentile values p = values.headD 0.0 := dif_neg (Nat.not_le.2 h)

theorem isSize_count (s : Nat) (hs : s ≤ 66) : IsSize (2 ^ s * unit) := by
  obtain ⟨w, hw, hunit⟩ := unit_eq_two_pow
  rw [hunit, ← Nat.pow_add]
  exact isSize_two_pow (by omega)

theorem atMost_natCast {n : Nat} (h : n < 2 ^ 64) : AtMost (2 ^ 64 * unit) (n : Binary64) := by
  apply atMost_ofQuotient (isSize_count 64 (by decide)) Nat.one_pos
  rw [Nat.mul_one]
  exact Nat.mul_le_mul_right _ (Nat.le_of_lt h)

theorem atMost_share {p : Binary64} {last lower : Nat} (hp : AtMost unit (p / 100.0))
    (hlast : last < 2 ^ 64) (hlower : lower ≤ last) :
    AtMost (2 ^ 65 * unit) (p / 100.0 * (last : Binary64) - (lower : Binary64)) := by
  have hrank : AtMost (2 ^ 64 * unit) (p / 100.0 * (last : Binary64)) := by
    apply hp.mul (atMost_natCast hlast) (isSize_count 64 (by decide))
    rw [Nat.mul_comm]
  apply hrank.sub (atMost_natCast (hlower.trans_lt hlast)) (isSize_count 65 (by decide))
  rw [← Nat.add_mul]
  exact Nat.mul_le_mul_right _ (by decide)

theorem atMost_percentile {p : Binary64} (hp : AtMost unit (p / 100.0))
    (hlen : values.length < 2 ^ 64) (hv : ∀ v ∈ values, AtMost a v)
    (hdiff : ∀ v ∈ values, ∀ w ∈ values, AtMost (2 ^ e) (w - v)) (hu : IsSize u)
    (hsum : a + 2 ^ (e + 65) ≤ u) (he : e + 65 < 2098) : AtMost u (percentile values p) := by
  rcases Nat.lt_or_ge values.length 2 with h | h
  · rw [percentile_eq_of_lt h]
    cases values with
    | nil => exact atMost_zero false u
    | cons v rest => exact (hv v List.mem_cons_self).mono ((Nat.le_add_right _ _).trans hsum)
  · obtain ⟨lower, hlower, v, hmem, w, hmem', heq⟩ := exists_percentile_eq h p
    rw [heq]
    have hpart : AtMost (2 ^ (e + 65)) ((p / 100.0 * ((values.length - 1 : Nat) : Binary64) -
        (lower : Binary64)) * (w - v)) := by
      apply (atMost_share hp (by omega) hlower).mul (hdiff v hmem w hmem') (isSize_two_pow he)
      rw [Nat.pow_add]
      exact Nat.le_of_eq (by ring)
    exact (hv v hmem).add hpart hu hsum

theorem units_sub_mean_lt (h : (populationStdDev values).isFinite = true) (hv : v ∈ values)
    (he : 2098 + 1074 ≤ 2 * e) : (v - mean values).units < 2 ^ e := by
  have hfinite := isFinite_sub_mean h hv
  have hsquare := isFinite_square_sub_mean h hv
  rw [square, mul_eq hfinite hfinite] at hsquare
  have hlt := lt_of_isFinite_ofQuotient unit_pos hsquare
  obtain ⟨w, hw, hunit⟩ := unit_eq_two_pow
  obtain ⟨w', hw', hlimit⟩ := limit_eq_two_pow
  by_contra hle
  have hmul := Nat.mul_le_mul (Nat.not_lt.1 hle) (Nat.not_lt.1 hle)
  rw [← Nat.pow_add] at hmul
  rw [hunit, hlimit, ← Nat.pow_add] at hlt
  have hpow : 2 ^ (w' + w) ≤ 2 ^ (e + e) := Nat.pow_le_pow_right (by decide) (by omega)
  omega

theorem natAbs_sub_mean_lt (h : (populationStdDev values).isFinite = true) (hv : v ∈ values)
    (he : 2098 + 1074 ≤ 2 * e) (he' : e < 2098) :
    (v.signedUnits - (mean values).signedUnits).natAbs < 2 ^ e := by
  obtain ⟨hvf, hmf⟩ := isFinite_of_sub (isFinite_sub_mean h hv)
  exact natAbs_sub_lt hvf hmf (isSize_two_pow he') (units_sub_mean_lt h hv he)

theorem atMost_sub (h : (populationStdDev values).isFinite = true) (he : 2098 + 1074 ≤ 2 * e)
    (he' : e + 1 < 2098) (hv : v ∈ values) {w : Binary64} (hw : w ∈ values) :
    AtMost (2 ^ (e + 1)) (w - v) := by
  have hvm := natAbs_sub_mean_lt h hv he (by omega)
  have hwm := natAbs_sub_mean_lt h hw he (by omega)
  have hvf := (isFinite_of_sub (isFinite_sub_mean h hv)).1
  have hwf := (isFinite_of_sub (isFinite_sub_mean h hw)).1
  apply atMost_sub_of_le hwf hvf (isSize_two_pow he')
  rw [Nat.pow_succ]
  omega

theorem atMost_mean_of_isFinite (h : (mean values).isFinite = true) (hlen : 2 ≤ values.length)
    (hlen' : values.length < 2 ^ 64) (he : e = 2097) : AtMost (2 ^ e) (mean values) := by
  have hne : values ≠ [] := List.length_pos_iff.1 (by omega)
  rw [mean, if_neg (by simpa using hne)] at h ⊢
  have hsum : AtMost limit (sum values) :=
    ⟨isFinite_of_div h, Nat.le_of_lt (units_lt_limit (isFinite_of_div h))⟩
  have hpos := zero_lt_natCast (List.length_pos_iff.2 hne)
  refine hsum.div (isFinite_natCast hlen') (zero_lt_iff.1 hpos).2.2 (isSize_two_pow (by omega)) ?_
  have hweight : 2 * unit ≤ ((values.length : Nat) : Binary64).units := by
    refine Nat.le_trans (Nat.mul_le_mul_right _ ?_) (le_units_natCast _)
    exact Nat.le_min.2 ⟨hlen, by decide⟩
  obtain ⟨w, hw, hlimit⟩ := limit_eq_two_pow
  obtain rfl : w = e + 1 := by omega
  calc limit * unit = 2 ^ e * (2 * unit) := by rw [hlimit, Nat.pow_succ, Nat.mul_assoc]
    _ ≤ _ := Nat.mul_le_mul_left _ hweight

theorem atMost_of_isFinite (h : (populationStdDev values).isFinite = true) (hv : v ∈ values)
    (hlen : 2 ≤ values.length) (hlen' : values.length < 2 ^ 64) (he : 2098 + 1074 ≤ 2 * e)
    (he' : e < 2098) (hg : g = 2097) : AtMost (2 ^ g + 2 ^ e) v := by
  obtain ⟨hvf, hmf⟩ := isFinite_of_sub (isFinite_sub_mean h hv)
  have hmean := (atMost_mean_of_isFinite hmf hlen hlen' hg).units_le
  have hnear := natAbs_sub_mean_lt h hv he he'
  refine ⟨hvf, ?_⟩
  rw [← natAbs_signedUnits] at hmean ⊢
  omega

theorem isSize_three_mul (hg : g = 2096) : IsSize (3 * 2 ^ g) := by
  obtain ⟨w, hw, hlimit⟩ := limit_eq_two_pow
  obtain rfl : w = g + 2 := by omega
  apply isSize_mul_two_pow (by decide)
  rw [hlimit, Nat.pow_add, Nat.mul_comm]
  exact Nat.mul_lt_mul_of_pos_left (by decide) (Nat.two_pow_pos g)

/-- A value is at most half of the range and a little more, and interpolation adds a small part of a
difference. A single value may be as large as any. -/
theorem isFinite_percentile {p : Binary64} (h : (populationStdDev values).isFinite = true)
    (hne : values ≠ []) (hlen : values.length < 2 ^ 64) (hp : AtMost unit (p / 100.0)) :
    (percentile (sorted values) p).isFinite = true := by
  rcases Nat.lt_or_ge values.length 2 with hlt | hge
  · rw [percentile_eq_of_lt (by rwa [length_sorted]), List.headD_eq_head?_getD,
      List.head?_eq_some_head (sorted_ne_nil_iff.2 hne), Option.getD_some]
    exact (isFinite_of_sub (isFinite_sub_mean h (mem_sorted.1 (List.head_mem _)))).1
  · obtain ⟨e, he⟩ : ∃ e, e = 1586 := ⟨_, rfl⟩
    obtain ⟨g, hg⟩ : ∃ g, g = 2096 := ⟨_, rfl⟩
    have hvalue : ∀ v ∈ sorted values, AtMost (2 ^ (g + 1) + 2 ^ e) v := fun v hv ↦
      atMost_of_isFinite h (mem_sorted.1 hv) hge hlen (by omega) (by omega) (by omega)
    refine (atMost_percentile hp (by rwa [length_sorted]) hvalue (fun v hv w hw ↦
      atMost_sub h (e := e) (by omega) (by omega) (mem_sorted.1 hv) (mem_sorted.1 hw))
      (isSize_three_mul hg) ?_ (by omega)).isFinite
    have hdouble : 2 ^ (g + 1) = 2 ^ g * 2 := Nat.pow_succ _ _
    have hsmall : 2 ^ e ≤ 2 ^ (e + 66) := Nat.pow_le_pow_right (by decide) (by omega)
    have hsmall' : 2 ^ (e + 66) * 2 ≤ 2 ^ g := by
      rw [← Nat.pow_succ]
      exact Nat.pow_le_pow_right (by decide) (by omega)
    change 2 ^ (g + 1) + 2 ^ e + 2 ^ (e + 66) ≤ _
    omega

end Stats

end MetricWatch
