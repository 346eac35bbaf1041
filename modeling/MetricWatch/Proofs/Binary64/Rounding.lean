import MetricWatch.Proofs.Binary64.Order
import Mathlib.Data.Nat.Log
import Mathlib.Order.Monotone.Basic
import Mathlib.Tactic.Linarith
import Mathlib.Tactic.Ring

namespace MetricWatch.Binary64

variable {n d n' d' : Nat}

theorem unitsOf_lt_succ (m : Nat) : unitsOf m < unitsOf (m + 1) := by
  rcases Nat.lt_trichotomy (m + 1) (2 * binade) with h | h | h
  · simp only [unitsOf, h, Nat.lt_of_succ_lt h, if_true]
    omega
  · obtain rfl : m = 2 * binade - 1 := by omega
    decide
  · have hm : ¬ m < 2 * binade := by omega
    have hm' : ¬ m + 1 < 2 * binade := by omega
    simp only [unitsOf, hm, hm', if_false, Nat.shiftLeft_eq]
    have hb : m % binade < binade := Nat.mod_lt _ (by decide)
    have hpos : 0 < 2 ^ (m / binade - 1) := Nat.two_pow_pos _
    rcases Nat.lt_or_eq_of_le (Nat.succ_le_of_lt hb) with hlt | heq
    · have hmod : (m + 1) % binade = m % binade + 1 := by unfold binade at *; omega
      have hdiv : (m + 1) / binade = m / binade := by unfold binade at *; omega
      rw [hmod, hdiv]
      exact Nat.mul_lt_mul_of_pos_right (by omega) hpos
    · -- The next binade starts here, and its unit is twice as large.
      have hmod : (m + 1) % binade = 0 := by unfold binade at *; omega
      have hdiv : (m + 1) / binade - 1 = m / binade - 1 + 1 := by
        unfold binade at *
        omega
      rw [hmod, hdiv, Nat.pow_succ, Nat.zero_add, Nat.mul_comm _ 2, ← Nat.mul_assoc]
      exact Nat.mul_lt_mul_of_pos_right (by omega) hpos

theorem unitsOf_strictMono : StrictMono unitsOf := strictMono_nat_of_lt_succ unitsOf_lt_succ

theorem div_le_nearest (n d : Nat) : n / d ≤ nearest n d := by
  dsimp only [nearest]
  split <;> omega

theorem nearest_le_succ (n d : Nat) : nearest n d ≤ n / d + 1 := by
  dsimp only [nearest]
  split <;> omega

theorem nearest_one (n : Nat) : nearest n 1 = n := by
  simp [nearest, Nat.mod_one]

theorem div_le_div_of_mul_le (hd : 0 < d) (hd' : 0 < d') (h : n * d' ≤ n' * d) :
    n / d ≤ n' / d' := by
  rw [Nat.le_div_iff_mul_le hd']
  have hq : n / d * d ≤ n := Nat.div_mul_le_self n d
  have hqd : n / d * d' * d ≤ n' * d := by
    calc n / d * d' * d = n / d * d * d' := by ring
      _ ≤ n * d' := Nat.mul_le_mul_right d' hq
      _ ≤ n' * d := h
  exact Nat.le_of_mul_le_mul_right hqd hd

theorem mod_mul_le_mod_mul (h : n * d' ≤ n' * d) (hq : n / d = n' / d') :
    n % d * d' ≤ n' % d' * d := by
  have e : n * d' = n / d * (d * d') + n % d * d' := by
    conv_lhs => rw [← Nat.div_add_mod n d]
    ring
  have e' : n' * d = n / d * (d * d') + n' % d' * d := by
    conv_lhs => rw [← Nat.div_add_mod n' d', ← hq]
    ring
  omega

theorem ties_of_mul_le {r r' : Nat} (hd : 0 < d) (hd' : 0 < d') (h : r * d' ≤ r' * d)
    (hup : d ≤ 2 * r) (hdown : 2 * r' ≤ d') : 2 * r = d ∧ 2 * r' = d' := by
  have h₁ : d * d' ≤ 2 * r * d' := Nat.mul_le_mul_right d' hup
  have h₂ : 2 * r' * d ≤ d' * d := Nat.mul_le_mul_right d hdown
  constructor
  · exact Nat.eq_of_mul_eq_mul_right hd' (by linarith)
  · exact Nat.eq_of_mul_eq_mul_right hd (by linarith)

theorem nearest_mono (hd : 0 < d) (hd' : 0 < d') (h : n * d' ≤ n' * d) :
    nearest n d ≤ nearest n' d' := by
  have hq := div_le_div_of_mul_le hd hd' h
  rcases Nat.lt_or_eq_of_le hq with hlt | heq
  · exact (nearest_le_succ n d).trans (hlt.trans_le (div_le_nearest n' d'))
  · -- The whole parts agree, and the smaller quotient is rounded up alone only at two ties.
    have hr := mod_mul_le_mod_mul h heq
    dsimp only [nearest]
    rw [heq]
    split
    · rename_i hup
      split
      · exact Nat.le_refl _
      · rename_i hdown
        obtain ⟨ht, ht'⟩ := ties_of_mul_le hd hd' hr (by omega) (by omega)
        omega
    · split <;> omega

theorem lt_shiftLeft_shift (q : Nat) : q < (2 * binade) <<< (q.log2 - 52) := by
  have h : q < 2 ^ (q.log2 + 1) := Nat.lt_log2_self
  have hle : 2 ^ (q.log2 + 1) ≤ 2 ^ (53 + (q.log2 - 52)) :=
    Nat.pow_le_pow_right (by decide) (by omega)
  rw [Nat.shiftLeft_eq, show 2 * binade = 2 ^ 53 by decide, ← Nat.pow_add]
  exact h.trans_le hle

theorem shiftLeft_shift_le {q : Nat} (h : 0 < q.log2 - 52) : binade <<< (q.log2 - 52) ≤ q := by
  have hq : q ≠ 0 := by
    rintro rfl
    simp at h
  have he : 52 + (q.log2 - 52) = q.log2 := by omega
  rw [Nat.shiftLeft_eq, show binade = 2 ^ 52 by decide, ← Nat.pow_add, he]
  exact Nat.log2_self_le hq

theorem log2_mono {a b : Nat} (h : a ≤ b) : a.log2 ≤ b.log2 := by
  rcases Nat.eq_zero_or_pos a with rfl | ha
  · simp
  · exact (Nat.le_log2 (by omega)).2 ((Nat.log2_self_le (by omega)).trans h)

theorem shiftLeft_pos (hd : 0 < d) (s : Nat) : 0 < d <<< s := by
  rw [Nat.shiftLeft_eq]
  exact Nat.mul_pos hd (Nat.two_pow_pos s)

theorem unit_pos : 0 < unit := shiftLeft_pos Nat.one_pos 1074

/-- The exponent is kept apart, so that nothing evaluates the power. -/
theorem unit_eq_two_pow : ∃ w, w = 1074 ∧ unit = 2 ^ w := by
  obtain ⟨w, hw⟩ : ∃ w, w = 1074 := ⟨_, rfl⟩
  refine ⟨w, hw, ?_⟩
  rw [unit, ← hw, Nat.one_shiftLeft]

theorem nearest_le_binade (hd : 0 < d) :
    nearest n (d <<< ((n / d).log2 - 52)) ≤ 2 * binade := by
  have h : n < (2 * binade) <<< ((n / d).log2 - 52) * d :=
    (Nat.div_lt_iff_lt_mul hd).1 (lt_shiftLeft_shift (n / d))
  have hle : n * 1 ≤ 2 * binade * d <<< ((n / d).log2 - 52) := by
    rw [Nat.shiftLeft_eq] at h ⊢
    linarith
  simpa only [nearest_one] using nearest_mono (shiftLeft_pos hd _) Nat.one_pos hle

theorem binade_le_nearest (hd : 0 < d) (hs : 0 < (n / d).log2 - 52) :
    binade ≤ nearest n (d <<< ((n / d).log2 - 52)) := by
  have h : binade <<< ((n / d).log2 - 52) * d ≤ n :=
    (Nat.le_div_iff_mul_le hd).1 (shiftLeft_shift_le hs)
  have hle : binade * d <<< ((n / d).log2 - 52) ≤ n * 1 := by
    rw [Nat.shiftLeft_eq] at h ⊢
    linarith
  simpa only [nearest_one] using nearest_mono Nat.one_pos (shiftLeft_pos hd _) hle

/-- A larger quotient is never rounded to a smaller magnitude. -/
theorem nearestMagnitude_mono (hd : 0 < d) (hd' : 0 < d') (h : n * d' ≤ n' * d) :
    nearestMagnitude n d ≤ nearestMagnitude n' d' := by
  have hq := log2_mono (div_le_div_of_mul_le hd hd' h)
  dsimp only [nearestMagnitude]
  apply min_le_min_right
  rcases Nat.lt_or_eq_of_le (Nat.sub_le_sub_right hq 52) with hlt | heq
  · -- Rounding up ends at the start of the next binade at the latest.
    have hn := nearest_le_binade (n := n) hd
    have hn' := binade_le_nearest (n := n') hd' (by omega)
    have hs := Nat.mul_le_mul_right binade (Nat.succ_le_of_lt hlt)
    rw [Nat.succ_mul] at hs
    omega
  · rw [heq]
    apply Nat.add_le_add_left
    apply nearest_mono (shiftLeft_pos hd _) (shiftLeft_pos hd' _)
    rw [Nat.shiftLeft_eq, Nat.shiftLeft_eq, ← Nat.mul_assoc, ← Nat.mul_assoc]
    exact Nat.mul_le_mul_right _ h

theorem nearestMagnitude_le (n d : Nat) : nearestMagnitude n d ≤ infiniteMagnitude :=
  Nat.min_le_right _ _

theorem nearestMagnitude_one {k : Nat} (hk : k < 2 * binade) : nearestMagnitude k 1 = k := by
  have hlog : k.log2 - 52 = 0 := by
    have h := log2_mono (Nat.le_sub_one_of_lt hk)
    have hmax : (2 * binade - 1).log2 = 52 := by decide
    omega
  have hinf : 2 * binade ≤ infiniteMagnitude := by decide
  simp only [nearestMagnitude, Nat.div_one, hlog, Nat.zero_mul, Nat.zero_add, Nat.shiftLeft_zero,
    nearest_one]
  exact Nat.min_eq_left (by omega)

theorem le_nearestMagnitude {k : Nat} (hk : k < 2 * binade) (hd : 0 < d) (h : k * d ≤ n) :
    k ≤ nearestMagnitude n d := by
  have hmono : nearestMagnitude k 1 ≤ nearestMagnitude n d :=
    nearestMagnitude_mono Nat.one_pos hd (by omega)
  rwa [nearestMagnitude_one hk] at hmono

@[simp]
theorem nearestMagnitude_zero (d : Nat) : nearestMagnitude 0 d = 0 := by
  simp [nearestMagnitude, nearest]

theorem nearestMagnitude_lt (n d : Nat) : nearestMagnitude n d < signWeight :=
  Nat.lt_of_le_of_lt (nearestMagnitude_le n d) (by decide)

@[simp]
theorem magnitude_ofQuotient (negative : Bool) (n d : Nat) :
    (ofQuotient negative n d).magnitude = nearestMagnitude n d :=
  magnitude_ofMagnitude _ (nearestMagnitude_lt n d)

@[simp]
theorem negative_ofQuotient (negative : Bool) (n d : Nat) :
    (ofQuotient negative n d).negative = negative :=
  negative_ofMagnitude _ (nearestMagnitude_lt n d)

@[simp]
theorem isNaN_ofQuotient (negative : Bool) (n d : Nat) :
    (ofQuotient negative n d).isNaN = false := by
  simp [isNaN, nearestMagnitude_le]

end MetricWatch.Binary64
