import MetricWatch.Proofs.Binary64.Exact
import MetricWatch.Proofs.Stats.Range

namespace MetricWatch.Stats

open Binary64

variable {c x : Binary64} {e k n q s t : Nat}

theorem sum_nil : sum ([] : List Binary64) = zero true := neg_zero.1

theorem sum_replicate_succ (n : Nat) (x : Binary64) :
    sum (List.replicate (n + 1) x) = sum (List.replicate n x) + x := by
  rw [sum, List.replicate_succ', List.foldl_append]
  rfl

def rest (n : Nat) (c : Binary64) : Binary64 := square (c - mean (List.replicate n c))

theorem not_isEmpty_replicate (hn : 0 < n) : ¬ (List.replicate n c).isEmpty = true := by
  rw [List.isEmpty_replicate, decide_eq_true_eq]
  omega

theorem mean_replicate (hn : 0 < n) :
    mean (List.replicate n c) = sum (List.replicate n c) / (n : Binary64) := by
  rw [mean, if_neg (not_isEmpty_replicate hn), List.length_replicate]

theorem populationStdDev_replicate (hn : 0 < n) :
    populationStdDev (List.replicate n c) =
      (sum (List.replicate n (rest n c)) / (n : Binary64)).sqrt := by
  have hne := not_isEmpty_replicate (c := c) hn
  rw [populationStdDev, if_neg hne, populationVariance, if_neg hne, squaredDeviations,
    List.map_replicate, List.length_replicate]
  rfl

theorem isZero_sum (h : Scalar.IsZero x) (n : Nat) : Scalar.IsZero (sum (List.replicate n x)) := by
  induction n with
  | zero =>
    rw [List.replicate_zero, sum_nil]
    exact isZero_iff.2 ⟨isNaN_zero _, magnitude_zero _⟩
  | succ n ih =>
    have hatMost {y : Binary64} (hy : Scalar.IsZero y) : AtMost 0 y :=
      ⟨isFinite_of_magnitude_eq_zero (isZero_iff.1 hy).2,
        Nat.le_of_eq (units_eq_zero (isZero_iff.1 hy).2)⟩
    have hsum : AtMost 0 (sum (List.replicate n x) + x) :=
      (hatMost ih).add (hatMost h) ⟨0, by decide, rfl⟩ (Nat.le_refl 0)
    rw [sum_replicate_succ]
    exact isZero_iff.2 ⟨(isFinite_iff.1 hsum.isFinite).1,
      magnitude_eq_zero_of_units (Nat.le_zero.1 hsum.units_le)⟩

theorem isZero_populationStdDev (hn : 0 < n) (h : Scalar.IsZero (rest n c)) :
    Scalar.IsZero (populationStdDev (List.replicate n c)) := by
  obtain ⟨hsum, hm⟩ := isZero_iff.1 (isZero_sum h n)
  have hnan := isNaN_div (isFinite_of_magnitude_eq_zero hm) (zero_lt_natCast hn)
  have hzero := magnitude_zero_div hm hnan
  rw [populationStdDev_replicate hn, Binary64.sqrt, if_pos (by simp [hzero])]
  exact isZero_iff.2 ⟨hnan, hzero⟩

theorem atLeast_sum (h : AtLeast (2 ^ s) x) (hn : n ≤ 2 * binade) :
    AtLeast (n * 2 ^ s) (sum (List.replicate n x)) := by
  induction n with
  | zero =>
    rw [List.replicate_zero, sum_nil, Nat.zero_mul]
    exact ⟨by decide, fun _ ↦ Nat.zero_le _⟩
  | succ n ih =>
    rw [sum_replicate_succ]
    exact (ih (Nat.le_of_succ_le hn)).add h hn

theorem atLeast_populationStdDev (h : AtLeast (2 ^ (2 * t)) (rest n c)) (hpos : 0 < n)
    (hn : n ≤ 2 * binade) : AtLeast (2 ^ (t + 537)) (populationStdDev (List.replicate n c)) := by
  rw [populationStdDev_replicate hpos]
  exact ((atLeast_sum h hn).div_natCast hpos hn).sqrt

theorem isNaN_sum (hc : c.isFinite = true) (n : Nat) :
    (sum (List.replicate n c)).isNaN = false := by
  induction n with
  | zero =>
    rw [List.replicate_zero, sum_nil]
    exact isNaN_zero _
  | succ n ih =>
    rw [sum_replicate_succ]
    exact isNaN_add ih (isFinite_iff.1 hc).1 (.inr hc)

theorem zero_le_rest (hc : c.isFinite = true) (hpos : 0 < n) (hn : n ≤ 2 * binade) :
    (0.0 : Binary64) ≤ rest n c := by
  have hmean : (mean (List.replicate n c)).isNaN = false := by
    rw [mean_replicate hpos]
    exact isNaN_div_of_isFinite (isNaN_sum hc n) (zero_lt_natCast hpos) (isFinite_natCast_of_le hn)
  exact zero_le_mul_self (isNaN_sub (isFinite_iff.1 hc).1 hmean (.inl hc))

theorem zero_lt_populationStdDev (hc : c.isFinite = true) (hpos : 0 < n) (hn : n ≤ 2 * binade)
    (hrest : ¬ Scalar.IsZero (rest n c)) :
    (0.0 : Binary64) < populationStdDev (List.replicate n c) := by
  obtain ⟨t, hsquare⟩ : ∃ t, AtLeast (2 ^ (2 * t)) (rest n c) :=
    ⟨0, atLeast_one (zero_le_rest hc hpos hn) hrest⟩
  exact (atLeast_populationStdDev hsquare hpos hn).pos (Nat.two_pow_pos _)

/-- A power of two that a square does not fall below, and with it a bound of what was squared. Where
the square is a few least units only, the power is one. -/
theorem exists_atLeast_square (hx : x.isFinite = true) (hz : ¬ Scalar.IsZero (square x)) :
    ∃ t, AtLeast (2 ^ (2 * t)) (square x) ∧ x.units ≤ (2 * binade - 1) * 2 ^ (t + 485) := by
  obtain ⟨s, q, hparts⟩ := exists_parts x.magnitude
  have hunits : x.units = q * 2 ^ s := hparts.units
  have hsign : (0.0 : Binary64) ≤ square x := zero_le_mul_self (isFinite_iff.1 hx).1
  refine ⟨s - 485, ?_, ?_⟩
  · -- In larger steps the leading digit is there, so that the square itself is large enough. In
    -- smaller ones there is only that the square was not rounded to zero.
    rcases Nat.lt_or_ge 485 s with hs | hs
    · refine ⟨hsign, fun hf ↦ ?_⟩
      obtain ⟨w, hw, hunit⟩ := unit_eq_two_pow
      have hlead : 2 ^ 52 ≤ q := hparts.leads.resolve_left (by omega)
      have hroot : 2 ^ (52 + s) ≤ x.units := by
        rw [hunits, Nat.pow_add]
        exact Nat.mul_le_mul_right _ hlead
      have hsquare : 1 * 2 ^ (2 * (s - 485)) * unit ≤ x.units * x.units := by
        rw [Nat.one_mul, hunit, ← Nat.pow_add, show 2 * (s - 485) + w = 52 + s + (52 + s) by omega,
          Nat.pow_add]
        exact Nat.mul_le_mul hroot hroot
      rw [square, mul_eq hx hx] at hf ⊢
      rw [← Nat.one_mul (2 ^ (2 * (s - 485)))]
      exact le_units_of_isFinite_ofQuotient (by decide) unit_pos hsquare hf
    · rw [Nat.sub_eq_zero_of_le hs]
      exact atLeast_one hsign hz
  · rw [hunits]
    have hlt := hparts.lt
    exact Nat.mul_le_mul (by omega) (Nat.pow_le_pow_right (by decide) (by omega))

theorem abs_div_lt_two {y : Binary64} (hx : x.isFinite = true)
    (hxu : x.units ≤ (2 * binade - 1) * 2 ^ (t + 485)) (hy : AtLeast (2 ^ (t + 537)) y)
    (hyf : y.isFinite = true) : Scalar.abs (x / y) < (2.0 : Binary64) := by
  obtain ⟨w, hw, hunit⟩ := unit_eq_two_pow
  obtain ⟨g, hg⟩ : ∃ g, g = 1022 := ⟨_, rfl⟩
  obtain ⟨hnonneg, htwo, -⟩ := units_two
  have hpos := (zero_lt_iff.1 (hy.pos (Nat.two_pow_pos _))).2.2
  have hquotient : AtMost ((2 * binade - 1) * 2 ^ g) (x / y) := by
    refine AtMost.div ⟨hx, hxu⟩ hyf hpos (isSize_mul_two_pow_of_lt (by decide) (by omega)) ?_
    calc (2 * binade - 1) * 2 ^ (t + 485) * unit
        = (2 * binade - 1) * 2 ^ g * 2 ^ (t + 537) := by
          rw [hunit, Nat.mul_assoc, ← Nat.pow_add, Nat.mul_assoc, ← Nat.pow_add,
            show t + 485 + w = g + (t + 537) by omega]
      _ ≤ _ := Nat.mul_le_mul_left _ (hy.le_units hyf)
  have habs : (0.0 : Binary64) ≤ Scalar.abs (x / y) := by
    apply zero_le_abs
    rw [isNumber_iff]
    exact (isNaN_abs _).trans (isFinite_iff.1 hquotient.isFinite).1
  rw [lt_iff_magnitude_lt habs hnonneg]
  apply unitsOf_strictMono.lt_iff_lt.1
  change unitsOf (x / y).abs.magnitude < (2.0 : Binary64).units
  rw [magnitude_abs, htwo]
  calc (x / y).units ≤ (2 * binade - 1) * 2 ^ g := hquotient.units_le
    _ < 2 ^ 53 * 2 ^ g := Nat.mul_lt_mul_of_pos_right (by decide) (Nat.two_pow_pos g)
    _ = 2 * unit := by
      rw [hunit, ← Nat.pow_add, ← Nat.pow_succ', show 53 + g = w + 1 by omega]

theorem abs_div_lt_two_of_isInfinite {y : Binary64} (hy : y.isInfinite = true) :
    Scalar.abs (x / y) < (2.0 : Binary64) ∨ ¬ Scalar.IsNumber (x / y) := by
  rcases div_of_isInfinite (x := x) hy with h | h
  · exact .inr fun hnumber ↦ Bool.eq_false_iff.1 (isNumber_iff.1 hnumber) h
  · have hnumber : Scalar.IsNumber (Scalar.abs (x / y)) :=
      isNumber_iff.2 ((isNaN_abs _).trans (isFinite_iff.1 (isFinite_of_magnitude_eq_zero h)).1)
    refine .inl ((lt_iff_magnitude_lt (zero_le_abs hnumber) units_two.1).2 ?_)
    change (Binary64.abs _).magnitude < _
    rw [magnitude_abs]
    exact h.trans_lt units_two.2.2

theorem sum_exact (hc : c.isFinite = true) (hsize : ∀ k ≤ n, IsSize (k * c.units)) (hpos : 0 < n) :
    (sum (List.replicate n c)).isFinite = true ∧
      (sum (List.replicate n c)).negative = c.negative ∧
      (sum (List.replicate n c)).units = n * c.units := by
  induction n with
  | zero => omega
  | succ n ih =>
    rw [sum_replicate_succ]
    -- The empty sum is the negative zero, which has no sign to agree with.
    rcases Nat.eq_zero_or_pos n with rfl | hn
    · rw [List.replicate_zero, sum_nil, zero_add_exact hc, Nat.zero_add, Nat.one_mul]
      exact ⟨hc, rfl, rfl⟩
    · obtain ⟨hf, hs, hu⟩ := ih (fun k hk ↦ hsize k (by omega)) hn
      have hnext := hsize (n + 1) (Nat.le_refl _)
      rw [Nat.succ_mul, ← hu] at hnext
      obtain ⟨hf', hs', hu'⟩ := add_exact hf hc hs hnext
      exact ⟨hf', hs'.trans hs, by rw [hu', hu, Nat.succ_mul]⟩

theorem mean_exact (hc : c.isFinite = true) (hsize : ∀ k ≤ n, IsSize (k * c.units)) (hpos : 0 < n)
    (hn : n ≤ 2 * binade) : mean (List.replicate n c) = c := by
  obtain ⟨hf, hs, hu⟩ := sum_exact hc hsize hpos
  have hmagnitude := (zero_lt_iff.1 (zero_lt_natCast hpos)).2.2
  rw [mean_replicate hpos, div_eq hf (isFinite_natCast_of_le hn) hmagnitude,
    hs, negative_natCast, Bool.bne_false, hu, units_natCast hn]
  have hexact : _ ∧ (ofQuotient c.negative (n * c.units * unit) (n * unit)).units = _ :=
    ofQuotient_exact (isSize_units hc) (Nat.mul_pos hpos unit_pos) (by ring)
  exact eq_of_units (negative_ofQuotient _ _ _) hexact.2

theorem isZero_square_sub_self (hc : c.isFinite = true) : Scalar.IsZero (square (c - c)) := by
  rw [sub_self hc]
  exact isZero_zero_mul

theorem isZero_rest (hc : c.isFinite = true) (hmean : mean (List.replicate n c) = c) :
    Scalar.IsZero (rest n c) := by
  rw [rest, hmean]
  exact isZero_square_sub_self hc

theorem isSize_mul_units (hunits : c.units = q * 2 ^ e) (hcount : n * q ≤ 2 ^ 53)
    (hsum : n * q * 2 ^ e < limit) : ∀ k ≤ n, IsSize (k * c.units) := by
  intro k hk
  have hle : k * q ≤ n * q := Nat.mul_le_mul_right q hk
  rw [hunits, ← Nat.mul_assoc]
  exact isSize_mul_two_pow (hle.trans (hcount.trans (by decide)))
    ((Nat.mul_le_mul_right _ hle).trans_lt hsum)

end MetricWatch.Stats
