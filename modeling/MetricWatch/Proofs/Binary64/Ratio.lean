import MetricWatch.Proofs.Binary64.Count
import MetricWatch.Proofs.Binary64.Range

namespace MetricWatch.Binary64

variable {x y : Binary64} {k n u : Nat}

theorem le_of_atMost (hx : AtMost y.units x) (hy : (0.0 : Binary64) ≤ y) : x ≤ y := by
  obtain ⟨hyn, hys⟩ := zero_le_iff.1 hy
  have hle : x.magnitude ≤ y.magnitude := unitsOf_strictMono.le_iff_le.1 hx.units_le
  refine ⟨(isFinite_iff.1 hx.isFinite).1, hyn, ?_⟩
  unfold position
  rcases hys with hys | hys
  · rw [hys]
    split <;> simp only [Bool.false_eq_true, if_false] <;> omega
  · split <;> split <;> omega

theorem units_natCast_mono (h : k ≤ n) : (k : Binary64).units ≤ (n : Binary64).units := by
  rw [units, units, magnitude_natCast, magnitude_natCast]
  refine unitsOf_strictMono.monotone (nearestMagnitude_mono Nat.one_pos Nat.one_pos ?_)
  exact Nat.mul_le_mul_right 1 (Nat.mul_le_mul_right unit h)

theorem zero_le_natCast (n : Nat) : (0.0 : Binary64) ≤ (n : Binary64) :=
  zero_le_ofQuotient (.inl rfl)

theorem ratio_bounds (h : k ≤ n) (hpos : 0 < n) (hn : n < 2 ^ 64) :
    (0.0 : Binary64) ≤ (k : Binary64) / (n : Binary64) ∧
      (k : Binary64) / (n : Binary64) ≤ 1.0 := by
  have hfinite : (n : Binary64).isFinite = true := isFinite_natCast hn
  refine ⟨div_nonneg (zero_le_natCast k) (zero_lt_natCast hpos) hfinite, ?_⟩
  have hk : AtMost (n : Binary64).units (k : Binary64) :=
    ⟨isFinite_natCast (h.trans_lt hn), units_natCast_mono h⟩
  refine le_of_atMost (hk.div hfinite (zero_lt_iff.1 (zero_lt_natCast hpos)).2.2
    (isSize_units isFinite_one) ?_) Scalar.zero_le_one
  rw [units_one, Nat.mul_comm]

theorem lt_iff_magnitude_lt (hx : (0.0 : Binary64) ≤ x) (hy : (0.0 : Binary64) ≤ y) :
    x < y ↔ x.magnitude < y.magnitude := by
  obtain ⟨hxn, hxs⟩ := zero_le_iff.1 hx
  obtain ⟨hyn, hys⟩ := zero_le_iff.1 hy
  have hposition {z : Binary64} (hz : z.negative = false ∨ z.magnitude = 0) :
      z.position = z.magnitude := by
    unfold position
    split
    · simp_all
    · rfl
  rw [lt_iff, hposition hxs, hposition hys, Int.ofNat_lt]
  exact ⟨fun h ↦ h.2.2, fun h ↦ ⟨hxn, hyn, h⟩⟩

theorem units_natCast (h : n ≤ 2 * binade) : (n : Binary64).units = n * unit := by
  have hsize : IsSize (n * unit) := by
    obtain ⟨w, hw, hunit⟩ := unit_eq_two_pow
    rw [hunit]
    exact isSize_mul_two_pow_of_lt h (by omega)
  apply Nat.le_antisymm
  · exact (atMost_ofQuotient hsize Nat.one_pos (Nat.mul_one _).ge).units_le
  · exact le_units_ofQuotient hsize Nat.one_pos (Nat.mul_one _).le

theorem isFinite_natCast_of_le (h : n ≤ 2 * binade) : (n : Binary64).isFinite = true :=
  isFinite_natCast (h.trans_lt (by decide))

theorem negative_natCast (n : Nat) : (n : Binary64).negative = false := negative_ofQuotient _ _ _

theorem mul_natCast_lt_iff (hx : x.isFinite = true) (hxs : x.negative = false)
    (hn : n ≤ 2 * binade) :
    (n : Binary64) * x < (k : Binary64) ↔
      nearestMagnitude (n * unit * x.units) unit < (k : Binary64).magnitude := by
  rw [mul_eq (isFinite_natCast_of_le hn) hx, hxs, negative_natCast, bne_self_eq_false,
    units_natCast hn, lt_iff_magnitude_lt (zero_le_ofQuotient (.inl rfl)) (zero_le_natCast k),
    magnitude_ofQuotient]

theorem lt_ratio_iff (hx : (0.0 : Binary64) ≤ x) (hk : k ≤ 2 * binade) (hn : n ≤ 2 * binade)
    (hpos : 0 < n) :
    x < (k : Binary64) / (n : Binary64) ↔
      x.magnitude < nearestMagnitude (k * unit * unit) (n * unit) := by
  rw [div_eq (isFinite_natCast_of_le hk) (isFinite_natCast_of_le hn)
    (zero_lt_iff.1 (zero_lt_natCast hpos)).2.2, negative_natCast, negative_natCast,
    bne_self_eq_false, units_natCast hk, units_natCast hn,
    lt_iff_magnitude_lt hx (zero_le_ofQuotient (.inl rfl)), magnitude_ofQuotient]

theorem exists_tenth_units : ∃ w, 0 < w ∧ unit = 2 ^ 57 * w ∧
    (0.1 : Binary64).units = 14411518807585588 * w ∧
    unitsOf ((0.1 : Binary64).magnitude + 1) = 14411518807585590 * w :=
  ⟨1 <<< 1017, by decide +kernel, by decide +kernel, by decide +kernel, by decide +kernel⟩

theorem tenth_finite : (0.0 : Binary64) ≤ 0.1 ∧ (0.1 : Binary64).isFinite = true ∧
    (0.1 : Binary64).negative = false := by decide +kernel

theorem mul_unit_le_tenth (h : 10 * k ≤ n) : k * unit ≤ (0.1 : Binary64).units * n := by
  obtain ⟨w, hw, hunit, htenth, -⟩ := exists_tenth_units
  have hle : k * 2 ^ 57 ≤ 14411518807585588 * n := by omega
  calc k * unit = k * 2 ^ 57 * w := by rw [hunit, Nat.mul_assoc]
    _ ≤ 14411518807585588 * n * w := Nat.mul_le_mul_right w hle
    _ = (0.1 : Binary64).units * n := by rw [htenth, Nat.mul_right_comm]

theorem not_tenth_lt_ratio (h : 10 * k ≤ n) (hn : n ≤ 2 * binade) (hpos : 0 < n) :
    ¬ (0.1 : Binary64) < (k : Binary64) / (n : Binary64) := by
  rw [lt_ratio_iff tenth_finite.1 (by omega) hn hpos, Nat.not_lt]
  apply nearestMagnitude_le_of_le (Nat.mul_pos hpos unit_pos)
    (Nat.le_of_lt (of_decide_eq_true tenth_finite.2.1))
  exact (Nat.mul_le_mul_right unit (mul_unit_le_tenth h)).trans_eq (Nat.mul_assoc _ _ _)

theorem not_mul_tenth_lt (h : 10 * k ≤ n) (hn : n ≤ 2 * binade) :
    ¬ (n : Binary64) * 0.1 < (k : Binary64) := by
  have hk : k ≤ 2 * binade := by omega
  have hfinite : (k : Binary64).isFinite = true := isFinite_natCast_of_le hk
  rw [mul_natCast_lt_iff tenth_finite.2.1 tenth_finite.2.2 hn, Nat.not_lt]
  apply le_nearestMagnitude_of_le unit_pos (Nat.le_of_lt (of_decide_eq_true hfinite))
  change (k : Binary64).units * _ ≤ _
  rw [units_natCast hk]
  refine (Nat.mul_le_mul_right unit (mul_unit_le_tenth h)).trans_eq ?_
  ring

theorem le_of_lt_tenth_bound (hn : n < 3 * 2 ^ 51 + 5) : n ≤ 2 * binade := by
  unfold binade
  omega

theorem tenth_lt_ratio (h : n < 10 * k) (hk : k ≤ n) (hn : n < 3 * 2 ^ 51 + 5) :
    (0.1 : Binary64) < (k : Binary64) / (n : Binary64) := by
  have hword := le_of_lt_tenth_bound hn
  have hpos : 0 < n := by omega
  rw [lt_ratio_iff tenth_finite.1 (hk.trans hword) hword hpos]
  apply lt_nearestMagnitude_of_midpoint_lt (Nat.mul_pos hpos unit_pos)
    (of_decide_eq_true tenth_finite.2.1)
  obtain ⟨w, hw, hunit, htenth, hnext⟩ := exists_tenth_units
  have hlt : 28823037615171178 * n < 2 * (k * 2 ^ 57) := by omega
  rw [hnext]
  change ((0.1 : Binary64).units + _) * _ < _
  calc ((0.1 : Binary64).units + 14411518807585590 * w) * (n * unit) =
        28823037615171178 * n * (w * unit) := by rw [htenth]; ring
    _ < 2 * (k * 2 ^ 57) * (w * unit) :=
        Nat.mul_lt_mul_of_pos_right hlt (Nat.mul_pos hw unit_pos)
    _ = 2 * (k * unit * unit) := by rw [hunit]; ring

theorem exists_eighth_below (h : k ≤ 2 ^ 50) : ∃ m, 8 * unitsOf m = (8 * k - 1) * unit := by
  obtain ⟨w, hw, hunit⟩ := unit_eq_two_pow
  obtain ⟨s, rfl⟩ : ∃ s, w = s + 3 := ⟨1071, hw⟩
  obtain ⟨m, hm⟩ := exists_unitsOf (k := 8 * k - 1) (by unfold binade; omega) s
  exact ⟨m, by rw [hm, hunit, Nat.pow_add, Nat.mul_comm, Nat.mul_assoc]⟩

/-- The exact product lies below the middle of the last eighth before the count. Up to `3 * 2 ^ 51`
one tenth between product and count is enough for that, and from there to the bound they are two
tenths apart. -/
theorem mul_tenth_lt_midpoint (h : n < 10 * k) (hn : n < 3 * 2 ^ 51 + 5)
    (hu : 8 * u = (8 * k - 1) * unit) :
    2 * (n * unit * (0.1 : Binary64).units) < (u + k * unit) * unit := by
  obtain ⟨w, hw, hunit, htenth, -⟩ := exists_tenth_units
  have hlt : 16 * (14411518807585588 * n) < (16 * k - 1) * 2 ^ 57 := by
    rcases Nat.lt_or_ge n (3 * 2 ^ 51) with hsmall | hlarge
    · omega
    · have hcount : 675539944105575 ≤ k := by omega
      omega
  have hmid : (16 * k - 1) * unit = 8 * (u + k * unit) := by
    have hsum : 16 * k - 1 = 8 * k - 1 + 8 * k := by omega
    rw [Nat.mul_add, hu, hsum, Nat.add_mul, Nat.mul_assoc]
  apply Nat.lt_of_mul_lt_mul_left (a := 8)
  calc 8 * (2 * (n * unit * (0.1 : Binary64).units)) =
        16 * (14411518807585588 * n) * (w * unit) := by rw [htenth]; ring
    _ < (16 * k - 1) * 2 ^ 57 * (w * unit) :=
        Nat.mul_lt_mul_of_pos_right hlt (Nat.mul_pos hw unit_pos)
    _ = (16 * k - 1) * unit * unit := by rw [hunit]; ring
    _ = 8 * ((u + k * unit) * unit) := by rw [hmid, Nat.mul_assoc]

theorem mul_tenth_lt (h : n < 10 * k) (hn : n < 3 * 2 ^ 51 + 5) :
    (n : Binary64) * 0.1 < (k : Binary64) := by
  obtain ⟨l, hl⟩ : ∃ l, l = min k (2 ^ 50) := ⟨_, rfl⟩
  have hlk : (l : Binary64).magnitude ≤ (k : Binary64).magnitude :=
    unitsOf_strictMono.le_iff_le.1 (units_natCast_mono (by omega))
  have hunits : unitsOf (l : Binary64).magnitude = l * unit :=
    units_natCast (by unfold binade; omega)
  have hfinite : (l : Binary64).isFinite = true := isFinite_natCast (by omega)
  obtain ⟨m, hm⟩ := exists_eighth_below (k := l) (by omega)
  have hbelow : (8 * l - 1) * unit < 8 * (l * unit) := by
    rw [← Nat.mul_assoc]
    exact Nat.mul_lt_mul_of_pos_right (by omega) unit_pos
  rw [mul_natCast_lt_iff tenth_finite.2.1 tenth_finite.2.2 (le_of_lt_tenth_bound hn)]
  refine Nat.lt_of_lt_of_le ?_ hlk
  apply nearestMagnitude_lt_of_lt_midpoint unit_pos (m := m)
    (Nat.le_of_lt (of_decide_eq_true hfinite))
  · omega
  · rw [hunits]
    exact mul_tenth_lt_midpoint (by omega) hn hm

theorem mul_tenth_lt_iff_tenth_lt_ratio (hk : k ≤ n) (hpos : 0 < n) (hn : n < 3 * 2 ^ 51 + 5) :
    (n : Binary64) * 0.1 < (k : Binary64) ↔ (0.1 : Binary64) < (k : Binary64) / (n : Binary64) := by
  have hword := le_of_lt_tenth_bound hn
  rcases Nat.lt_or_ge n (10 * k) with h | h
  · exact iff_of_true (mul_tenth_lt h hn) (tenth_lt_ratio h hk hn)
  · exact iff_of_false (not_mul_tenth_lt h hword) (not_tenth_lt_ratio h hword hpos)

end MetricWatch.Binary64
