import MetricWatch.Proofs.Binary64.Lower
import MetricWatch.Proofs.Binary64.Monotone

namespace MetricWatch.Binary64

variable {a b f x y : Binary64} {d e k n s t : Nat} {negative : Bool}

theorem units_ofQuotient_le (hk : k ≤ 2 * binade) (hd : 0 < d) (h : n ≤ k * 2 ^ s * d)
    (hf : (ofQuotient negative n d).isFinite = true) :
    (ofQuotient negative n d).units ≤ k * 2 ^ s := by
  rcases Nat.lt_or_ge (k * 2 ^ s) limit with hlt | hge
  · exact (atMost_ofQuotient (isSize_mul_two_pow hk hlt) hd h).units_le
  · exact (Nat.le_of_lt (units_lt_limit hf)).trans hge

theorem units_sub_le (hk : k ≤ 2 * binade) (hf : (x - y).isFinite = true)
    (h : (x.signedUnits - y.signedUnits).natAbs ≤ k * 2 ^ s) : (x - y).units ≤ k * 2 ^ s := by
  obtain ⟨hx, hy⟩ := isFinite_of_sub hf
  rcases Nat.lt_or_ge (k * 2 ^ s) limit with hlt | hge
  · exact (atMost_sub_of_le hx hy (isSize_mul_two_pow hk hlt) h).units_le
  · exact (Nat.le_of_lt (units_lt_limit hf)).trans hge

theorem exists_leading (h : 4 ≤ n) :
    ∃ t e, 4 ≤ t ∧ t < 8 ∧ t * 2 ^ e ≤ n ∧ n < (t + 1) * 2 ^ e := by
  have hne : n ≠ 0 := by omega
  obtain ⟨e, he⟩ : ∃ e, n.log2 = e + 2 := Nat.exists_eq_add_of_le' ((Nat.le_log2 hne).2 h)
  have hlow : 4 * 2 ^ e ≤ n := by
    have hle := Nat.log2_self_le hne
    rw [he, Nat.pow_add] at hle
    omega
  have hhigh : n < 8 * 2 ^ e := by
    have hlt := Nat.lt_log2_self (n := n)
    rw [he, Nat.pow_succ, Nat.pow_add] at hlt
    omega
  have hpow := Nat.two_pow_pos e
  refine ⟨n / 2 ^ e, e, (Nat.le_div_iff_mul_le hpow).2 hlow, (Nat.div_lt_iff_lt_mul hpow).2 hhigh,
    Nat.div_mul_le_self n _, ?_⟩
  rw [Nat.mul_comm]
  exact Nat.lt_mul_div_succ n hpow

/-- The distance may be rounded up, by less than its third digit is worth, and then a quarter of it
is worth more. -/
theorem three_quarters_le (hf : 4 * f.units ≤ 3 * unit) (hpart : (f * (x - y)).isFinite = true) :
    (f * (x - y)).units ≤ (x.signedUnits - y.signedUnits).natAbs := by
  obtain ⟨hff, hd⟩ := isFinite_of_mul hpart
  rw [mul_eq hff hd] at hpart ⊢
  generalize hn : (x.signedUnits - y.signedUnits).natAbs = n
  rcases Nat.lt_or_ge n 4 with hlt | hge
  · have hn' : n = n * 2 ^ 0 := by rw [Nat.pow_zero, Nat.mul_one]
    have hsize : n ≤ 2 * binade := by unfold binade; omega
    have hle : (x - y).units ≤ n * 2 ^ 0 := units_sub_le hsize hd (by omega)
    rw [hn']
    refine units_ofQuotient_le hsize unit_pos ?_ hpart
    rw [Nat.mul_comm]
    exact Nat.mul_le_mul hle (by omega)
  · obtain ⟨t, e, ht, ht', hlow, hhigh⟩ := exists_leading hge
    have hle : (x - y).units ≤ (t + 1) * 2 ^ e :=
      units_sub_le (by unfold binade; omega) hd (by omega)
    refine (units_ofQuotient_le (by unfold binade; omega) unit_pos ?_ hpart).trans hlow
    have hshare : f.units * (t + 1) ≤ t * unit := by
      have hthree := Nat.mul_le_mul_right (t + 1) hf
      have hfour : 3 * (t + 1) * unit ≤ 4 * t * unit := Nat.mul_le_mul_right unit (by omega)
      linarith
    calc f.units * (x - y).units ≤ f.units * ((t + 1) * 2 ^ e) := Nat.mul_le_mul_left _ hle
      _ = f.units * (t + 1) * 2 ^ e := (Nat.mul_assoc _ _ _).symm
      _ ≤ t * unit * 2 ^ e := Nat.mul_le_mul_right _ hshare
      _ = t * 2 ^ e * unit := Nat.mul_right_comm _ _ _

theorem lerp_le (ha : a.isFinite = true) (hb : b.isFinite = true) (hab : a ≤ b)
    (hf : (0.0 : Binary64) ≤ f) (hquarters : 4 * f.units ≤ 3 * unit)
    (hpart : (f * (b - a)).isFinite = true) : a + f * (b - a) ≤ b := by
  obtain ⟨hff, hd⟩ := isFinite_of_mul hpart
  have hle := signedUnits_mono hab
  have hunits := three_quarters_le hquarters hpart
  have hnonneg := mul_nonneg_of_nonneg hf hff (sub_nonneg hb ha hab) hd
  refine add_le ha hpart (isFinite_iff.1 hb).1 ?_
  rw [signedUnits_of_nonneg hnonneg]
  omega

theorem le_lerp (ha : a.isFinite = true) (hab : a ≤ b) (hf : (0.0 : Binary64) ≤ f)
    (hpart : (f * (b - a)).isFinite = true) : a ≤ a + f * (b - a) := by
  obtain ⟨hff, hd⟩ := isFinite_of_mul hpart
  have hnonneg := mul_nonneg_of_nonneg hf hff (sub_nonneg (isFinite_of_sub hd).1 ha hab) hd
  refine le_add ha hpart (isFinite_iff.1 ha).1 ?_
  rw [signedUnits_of_nonneg hnonneg]
  omega

end MetricWatch.Binary64
