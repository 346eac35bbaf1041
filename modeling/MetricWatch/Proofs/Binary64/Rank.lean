import MetricWatch.Proofs.Binary64.Exact
import MetricWatch.Proofs.Binary64.Interpolation

namespace MetricWatch.Binary64

variable {x : Binary64} {k n t u w : Nat}

theorem IsSize.dvd (h : IsSize u) (hle : 2 * binade * 2 ^ t ≤ u) : 2 ^ t ∣ u := by
  obtain ⟨m, -, rfl⟩ := h
  obtain ⟨s, q, hparts⟩ := exists_parts m
  rw [hparts.units] at hle ⊢
  refine Dvd.dvd.mul_left (Nat.pow_dvd_pow 2 ?_) q
  by_contra hlt
  have hpow : 2 ^ s ≤ 2 ^ t := Nat.pow_le_pow_right (by decide) (by omega)
  have hmul : q * 2 ^ s < 2 * binade * 2 ^ t :=
    Nat.mul_lt_mul_of_lt_of_le hparts.lt hpow (Nat.two_pow_pos t)
  omega

theorem IsSize.half (h : IsSize (2 * u)) (hle : 2 * binade ≤ 2 * u) : IsSize u := by
  obtain ⟨m, hm, hu⟩ := h
  obtain ⟨s, q, hparts⟩ := exists_parts m
  have hlimit : 2 * u < limit := hu ▸ unitsOf_strictMono hm
  rw [hparts.units] at hu
  have hlt := hparts.lt
  cases s with
  | zero => omega
  | succ s =>
    rw [Nat.pow_succ] at hu
    obtain rfl : u = q * 2 ^ s := by
      rw [← Nat.mul_assoc] at hu
      omega
    exact isSize_mul_two_pow (Nat.le_of_lt hlt) (by omega)

theorem unit_dvd (h : IsSize u) (hle : 2 * binade * unit ≤ u) : unit ∣ u := by
  obtain ⟨v, -, hunit⟩ := unit_eq_two_pow
  rw [hunit] at hle ⊢
  exact h.dvd hle

theorem exists_count (h : (n : Binary64).isFinite = true) :
    ∃ k, (n : Binary64).units = k * unit := by
  rcases Nat.le_total n (2 * binade) with hn | hn
  · exact ⟨n, units_natCast hn⟩
  · have hle := units_natCast_mono hn
    rw [units_natCast (Nat.le_refl _)] at hle
    exact exists_eq_mul_left_of_dvd (unit_dvd (isSize_units h) hle)

theorem natCast_div_unit (h : IsSize u) :
    ((u / unit : Nat) : Binary64).isFinite = true ∧
      ((u / unit : Nat) : Binary64).units = u / unit * unit := by
  rcases Nat.le_total (u / unit) (2 * binade) with hn | hn
  · exact ⟨isFinite_natCast_of_le hn, units_natCast hn⟩
  · have hle : 2 * binade * unit ≤ u :=
      (Nat.mul_le_mul_right unit hn).trans (Nat.div_mul_le_self u unit)
    have hexact := Nat.div_mul_cancel (unit_dvd h hle)
    rw [hexact]
    exact ofQuotient_exact h Nat.one_pos (by rw [hexact, Nat.mul_one])

theorem wholePart_eq (h : (0.0 : Binary64) ≤ x) : Scalar.wholePart x = x.units / unit := by
  obtain ⟨hn, hs⟩ := zero_le_iff.1 h
  change wholePart x = _
  unfold wholePart
  split
  · have hm : x.magnitude = 0 := by simp_all
    rw [units_eq_zero hm, Nat.zero_div]
  · rfl

theorem wholePart_mono {y : Binary64} (hx : (0.0 : Binary64) ≤ x) (h : x ≤ y) :
    Scalar.wholePart x ≤ Scalar.wholePart y := by
  have hy := le_trans hx h
  rw [wholePart_eq hx, wholePart_eq hy]
  exact Nat.div_le_div_right (unitsOf_strictMono.monotone ((le_iff_magnitude_le hx hy).1 h))

theorem sub_natCast_nonneg (hx : (0.0 : Binary64) ≤ x) (hf : x.isFinite = true)
    (hk : k ≤ Scalar.wholePart x) : (0.0 : Binary64) ≤ x - (k : Binary64) := by
  have hle : (k : Binary64).magnitude ≤ x.magnitude := by
    rw [wholePart_eq hx] at hk
    refine unitsOf_strictMono.le_iff_le.1 ((units_natCast_mono hk).trans ?_)
    rw [(natCast_div_unit (isSize_units hf)).2]
    exact Nat.div_mul_le_self _ _
  exact sub_nonneg hf (isFinite_of_magnitude_le hle hf)
    ((le_iff_magnitude_le (zero_le_natCast k) hx).2 hle)

theorem sub_wholePart (hx : (0.0 : Binary64) ≤ x) (hf : x.isFinite = true) (hu : IsSize u)
    (h : x.units % unit ≤ u) : AtMost u (x - ((Scalar.wholePart x : Nat) : Binary64)) := by
  obtain ⟨hwf, hwu⟩ := natCast_div_unit (isSize_units hf)
  rw [wholePart_eq hx]
  apply atMost_sub_of_le hf hwf hu
  rw [signedUnits_of_nonneg hx, signedUnits_of_nonneg (zero_le_natCast _), hwu]
  have hmod := Nat.div_add_mod' x.units unit
  omega

theorem exists_quarter : ∃ v, v = 1072 ∧ unit = 4 * 2 ^ v ∧
    (25.0 / 100.0 : Binary64).units = 2 ^ v ∧ (75.0 / 100.0 : Binary64).units = 3 * 2 ^ v := by
  obtain ⟨v, hv, h⟩ : ∃ v, v = 1072 ∧ unit = 4 * (1 <<< v) ∧
      (25.0 / 100.0 : Binary64).units = 1 <<< v ∧
      (75.0 / 100.0 : Binary64).units = 3 * (1 <<< v) := ⟨_, rfl, by decide +kernel⟩
  rw [Nat.one_shiftLeft] at h
  exact ⟨v, hv, h⟩

theorem quarters_nonneg : (0.0 : Binary64) ≤ 25.0 / 100.0 ∧ (0.0 : Binary64) ≤ 75.0 / 100.0 ∧
    (25.0 / 100.0 : Binary64).isFinite = true ∧ (75.0 / 100.0 : Binary64).isFinite = true := by
  decide +kernel

variable (hpos : 0 < n) (hf : (n : Binary64).isFinite = true) (hk : (n : Binary64).units = k * unit)
include hpos hf hk

theorem count_le : k ≤ 2 * n := by
  obtain ⟨w, -, hunit⟩ := unit_eq_two_pow
  have hpow : n * unit ≤ 1 * 2 ^ (n.log2 + 1 + w) * 1 := by
    rw [Nat.one_mul, Nat.mul_one, Nat.pow_add, hunit]
    exact Nat.mul_le_mul_right _ (Nat.le_of_lt Nat.lt_log2_self)
  have hle : (n : Binary64).units ≤ 1 * 2 ^ (n.log2 + 1 + w) :=
    units_ofQuotient_le (by decide) Nat.one_pos hpow hf
  rw [hk, Nat.one_mul, Nat.pow_add, ← hunit] at hle
  have hcount := Nat.le_of_mul_le_mul_right hle unit_pos
  have hlog := Nat.log2_self_le (Nat.ne_of_gt hpos)
  rw [Nat.pow_succ] at hcount
  omega

theorem isSize_parts {v : Nat} (hunit : unit = 4 * 2 ^ v) (hv : 52 ≤ v) :
    IsSize (2 * (k * 2 ^ v)) ∧ IsSize (k * 2 ^ v) := by
  have hfour : 2 * (2 * (k * 2 ^ v)) = k * unit := by
    rw [hunit]
    ring
  have hone : unit ≤ k * unit := by
    have hmono := units_natCast_mono hpos
    rwa [hk, units_natCast (by decide), Nat.one_mul] at hmono
  have hlarge : 4 * binade ≤ unit := by
    have hpow : 2 ^ 52 ≤ 2 ^ v := Nat.pow_le_pow_right (by decide) hv
    unfold binade
    omega
  have hhalf : IsSize (2 * (k * 2 ^ v)) := by
    refine IsSize.half ?_ (by omega)
    rw [hfour, ← hk]
    exact isSize_units hf
  exact ⟨hhalf, hhalf.half (by omega)⟩

theorem lower_rank :
    let rank := 25.0 / 100.0 * (n : Binary64)
    (0.0 : Binary64) ≤ rank ∧ rank.isFinite = true ∧ Scalar.wholePart rank = k / 4 ∧
      4 * (rank - ((k / 4 : Nat) : Binary64)).units ≤ 3 * unit := by
  intro rank
  obtain ⟨v, hv, hunit, hquarter, -⟩ := exists_quarter
  obtain ⟨hnonneg, -, hqf, -⟩ := quarters_nonneg
  obtain ⟨-, hsize⟩ := isSize_parts hpos hf hk hunit (by omega)
  have hrank : (0.0 : Binary64) ≤ rank := mul_nonneg_of_nonneg hnonneg hqf (zero_le_natCast n) hf
  obtain ⟨hrf, hunits⟩ : rank.isFinite = true ∧ rank.units = k * 2 ^ v := by
    have hexact : 2 ^ v * (k * unit) = k * 2 ^ v * unit := by ring
    rw [show rank = _ from mul_eq hqf hf, hquarter, hk]
    exact ofQuotient_exact hsize unit_pos hexact
  have hwhole : Scalar.wholePart rank = k / 4 := by
    rw [wholePart_eq hrank, hunits, hunit, Nat.mul_div_mul_right _ _ (Nat.two_pow_pos v)]
  refine ⟨hrank, hrf, hwhole, ?_⟩
  have hrest : AtMost (3 * 2 ^ v) (rank - ((Scalar.wholePart rank : Nat) : Binary64)) := by
    apply sub_wholePart hrank hrf (isSize_mul_two_pow_of_lt (by decide) (by omega))
    rw [hunits, hunit, Nat.mul_mod_mul_right]
    exact Nat.mul_le_mul_right _ (by omega)
  rw [hwhole] at hrest
  have hle := hrest.units_le
  omega

theorem upper_rank :
    let rank := 75.0 / 100.0 * (n : Binary64)
    (0.0 : Binary64) ≤ rank ∧ k / 2 ≤ Scalar.wholePart rank := by
  intro rank
  obtain ⟨v, hv, hunit, -, hquarters⟩ := exists_quarter
  obtain ⟨-, hnonneg, -, hqf⟩ := quarters_nonneg
  obtain ⟨hsize, -⟩ := isSize_parts hpos hf hk hunit (by omega)
  have hrank : (0.0 : Binary64) ≤ rank := mul_nonneg_of_nonneg hnonneg hqf (zero_le_natCast n) hf
  refine ⟨hrank, ?_⟩
  have hle : 2 * (k * 2 ^ v) ≤ rank.units := by
    have hthree : 3 * 2 ^ v * (k * unit) = 3 * (k * 2 ^ v) * unit := by ring
    rw [show rank = _ from mul_eq hqf hf, hquarters, hk, hthree]
    exact le_units_ofQuotient hsize unit_pos (Nat.mul_le_mul_right unit (by omega))
  rw [wholePart_eq hrank]
  calc k / 2 = 2 * (k * 2 ^ v) / unit := by
        rw [hunit, ← Nat.mul_assoc, Nat.mul_div_mul_right _ _ (Nat.two_pow_pos v)]
        omega
    _ ≤ rank.units / unit := Nat.div_le_div_right hle

omit hpos hf hk

theorem position_le_of_rank_le {y : Binary64} (h : x.rank ≤ y.rank) : x.position ≤ y.position := by
  unfold rank at h
  unfold position
  split <;> split <;> simp_all only [if_true, if_false, Bool.false_eq_true] <;> omega

/-- Of two values both quartiles lie in the only interval there is. -/
theorem pair_ranks :
    let lower : Binary64 := 25.0 / 100.0 * ((2 - 1 : Nat) : Binary64)
    let upper : Binary64 := 75.0 / 100.0 * ((2 - 1 : Nat) : Binary64)
    let zero : Binary64 := ((0 : Nat) : Binary64)
    Scalar.wholePart lower = 0 ∧ Scalar.wholePart upper = 0 ∧
      (0.0 : Binary64) ≤ lower - zero ∧ lower - zero ≤ upper - zero ∧
      (upper - zero).isFinite = true := by
  decide +kernel

end MetricWatch.Binary64
