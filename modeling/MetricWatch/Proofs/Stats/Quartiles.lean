import MetricWatch.Proofs.Binary64.Rank
import MetricWatch.Proofs.Stats.Range

namespace MetricWatch.Stats

open Binary64

variable {values : List Binary64} {i j k : Nat}

theorem getElem_sorted_le (hij : i ≤ j) (hj : j < (sorted values).length)
    (hi : ((sorted values)[i]).isNaN = false) (hj' : ((sorted values)[j]).isNaN = false) :
    (sorted values)[i] ≤ (sorted values)[j] := by
  refine ⟨hi, hj', position_le_of_rank_le ?_⟩
  rcases Nat.lt_or_eq_of_le hij with hlt | rfl
  · have hpairwise := pairwise_sorted rank decide_eq_true_iff values
    exact List.pairwise_iff_getElem.1 hpairwise i j _ hj hlt
  · exact Int.le_refl _

/-- Where a percentile is interpolated. If it is finite, all that it is made of is. -/
theorem exists_interpolation {p : Binary64} (h : 2 ≤ (sorted values).length)
    (hf : (percentile (sorted values) p).isFinite = true) :
    ∃ (lower upper : Nat) (hl : lower < (sorted values).length)
      (hu : upper < (sorted values).length),
      let last := (sorted values).length - 1
      let rank := p / 100.0 * (last : Binary64)
      let a := (sorted values)[lower]
      let b := (sorted values)[upper]
      lower = min (Scalar.wholePart rank) last ∧ upper = min (lower + 1) last ∧
        a.isFinite = true ∧ b.isFinite = true ∧ a ≤ b ∧ rank.isFinite = true ∧
        ((rank - (lower : Binary64)) * (b - a)).isFinite = true ∧
        percentile (sorted values) p = a + (rank - (lower : Binary64)) * (b - a) := by
  rw [percentile, dif_pos h] at hf ⊢
  obtain ⟨ha, hpart⟩ := isFinite_of_add hf
  obtain ⟨hfraction, hdistance⟩ := isFinite_of_mul hpart
  obtain ⟨hb, -⟩ := isFinite_of_sub hdistance
  obtain ⟨hrank, -⟩ := isFinite_of_sub hfraction
  refine ⟨_, _, _, _, rfl, rfl, ha, hb, ?_, hrank, hpart, rfl⟩
  exact getElem_sorted_le (by omega) _ (isFinite_iff.1 ha).1 (isFinite_iff.1 hb).1

theorem lowerQuartile_le (h : 2 ≤ (sorted values).length)
    (hk : (((sorted values).length - 1 : Nat) : Binary64).units = k * unit)
    (hf : (percentile (sorted values) 25.0).isFinite = true) :
    ∃ (j : Nat) (hj : j < (sorted values).length), j ≤ k / 4 + 1 ∧
      ((sorted values)[j]).isNaN = false ∧
      percentile (sorted values) 25.0 ≤ (sorted values)[j] := by
  obtain ⟨lower, upper, hl, hu, hlower, hupper, ha, hb, hab, hrf, hpart, heq⟩ :=
    exists_interpolation h hf
  have hpos : 0 < (sorted values).length - 1 := by omega
  have hn := (isFinite_of_mul hrf).2
  obtain ⟨hrank, -, hwhole, hquarters⟩ := lower_rank hpos hn hk
  have hcount := count_le hpos hn hk
  obtain rfl : lower = k / 4 := by
    rw [hlower, hwhole]
    omega
  refine ⟨upper, hu, hupper.trans_le (Nat.min_le_left _ _), (isFinite_iff.1 hb).1, ?_⟩
  rw [heq]
  exact lerp_le ha hb hab (sub_natCast_nonneg hrank hrf hwhole.ge) hquarters hpart

theorem le_upperQuartile (h : 2 ≤ (sorted values).length)
    (hk : (((sorted values).length - 1 : Nat) : Binary64).units = k * unit)
    (hf : (percentile (sorted values) 75.0).isFinite = true) (hj : j < (sorted values).length)
    (hjn : ((sorted values)[j]).isNaN = false) (hle : j ≤ k / 2) :
    (sorted values)[j] ≤ percentile (sorted values) 75.0 := by
  obtain ⟨lower, upper, hl, hu, hlower, hupper, ha, hb, hab, hrf, hpart, heq⟩ :=
    exists_interpolation h hf
  have hpos : 0 < (sorted values).length - 1 := by omega
  obtain ⟨hrank, hwhole⟩ := upper_rank hpos (isFinite_of_mul hrf).2 hk
  rw [heq]
  refine le_trans (getElem_sorted_le (by omega) hl hjn (isFinite_iff.1 ha).1)
    (le_lerp ha hab ?_ hpart)
  exact sub_natCast_nonneg hrank hrf (hlower.trans_le (Nat.min_le_left _ _))

theorem quartiles_le_pair (h : (sorted values).length = 2)
    (hlower : (percentile (sorted values) 25.0).isFinite = true)
    (hupper : (percentile (sorted values) 75.0).isFinite = true) :
    percentile (sorted values) 25.0 ≤ percentile (sorted values) 75.0 := by
  obtain ⟨hfirst, hfirst', hnonneg, hshares, hfinite⟩ := pair_ranks
  obtain ⟨i, i', hi, hi', hindex, hindex', ha, hb, hab, -, hpart, heq⟩ :=
    exists_interpolation h.ge hlower
  obtain ⟨j, j', hj, hj', hjndex, hjndex', -, -, -, -, -, heq'⟩ :=
    exists_interpolation h.ge hupper
  rw [heq, heq']
  rw [h] at hindex hindex' hjndex hjndex' hpart ⊢
  rw [hfirst, Nat.zero_min] at hindex
  rw [hfirst', Nat.zero_min] at hjndex
  subst hindex hjndex
  subst hindex' hjndex'
  exact Binary64.add_le_add_left ha (Binary64.mul_le_mul_right hnonneg hshares hfinite
    (Binary64.sub_nonneg hb ha hab) (isFinite_of_mul hpart).2)

theorem quartiles_le (hlower : (percentile (sorted values) 25.0).isFinite = true)
    (hupper : (percentile (sorted values) 75.0).isFinite = true) :
    percentile (sorted values) 25.0 ≤ percentile (sorted values) 75.0 := by
  rcases Nat.lt_or_ge (sorted values).length 2 with h | h
  · rw [percentile_eq_of_lt h] at hlower
    rw [percentile_eq_of_lt h, percentile_eq_of_lt h]
    exact isNumber_iff.2 (isFinite_iff.1 hlower).1
  rcases Nat.eq_or_lt_of_le h with h2 | h3
  · exact quartiles_le_pair h2.symm hlower hupper
  · obtain ⟨-, -, -, -, -, -, -, -, -, hrank, -, -⟩ := exists_interpolation h hlower
    obtain ⟨k, hk⟩ := exists_count (isFinite_of_mul hrank).2
    have htwo : 2 ≤ k := by
      have hmono : ((2 : Nat) : Binary64).units ≤
          (((sorted values).length - 1 : Nat) : Binary64).units := units_natCast_mono (by omega)
      rw [hk, units_natCast (by decide)] at hmono
      exact Nat.le_of_mul_le_mul_right hmono unit_pos
    obtain ⟨j, hj, hle, hjn, hlow⟩ := lowerQuartile_le h hk hlower
    exact le_trans hlow (le_upperQuartile h hk hupper hj hjn (by omega))

end MetricWatch.Stats
