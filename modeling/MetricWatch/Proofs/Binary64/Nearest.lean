import MetricWatch.Proofs.Binary64.Decimal

namespace MetricWatch.Binary64

variable {d k m n q s : Nat}

theorem unitsOf_of_lt (h : m < 2 * binade) : unitsOf m = m := if_pos h

theorem unitsOf_of_le (h : 2 * binade ≤ m) :
    unitsOf m = (m % binade + binade) * 2 ^ (m / binade - 1) := by
  rw [unitsOf, if_neg (Nat.not_lt.2 h), Nat.shiftLeft_eq]

/-- A magnitude as an exponent and a significand. Only below the second binade there is no leading
digit. -/
structure Parts (m s q : Nat) : Prop where
  magnitude : m = s * binade + q
  lt : q < 2 * binade
  leads : s = 0 ∨ binade ≤ q

theorem exists_parts (m : Nat) : ∃ s q, Parts m s q := by
  rcases Nat.lt_or_ge m (2 * binade) with h | h
  · exact ⟨0, m, by omega, h, .inl rfl⟩
  · refine ⟨m / binade - 1, m % binade + binade, ?_, ?_, .inr (Nat.le_add_left _ _)⟩
    · unfold binade at *
      omega
    · unfold binade at *
      omega

namespace Parts

theorem units (h : Parts m s q) : unitsOf m = q * 2 ^ s := by
  have hm := h.magnitude
  have hlt := h.lt
  rcases h.leads with rfl | hq
  · rw [unitsOf_of_lt (by omega), Nat.pow_zero]
    omega
  rcases Nat.eq_zero_or_pos s with rfl | hs
  · rw [unitsOf_of_lt (by omega), Nat.pow_zero]
    omega
  · have hle : 2 * binade ≤ m := by
      have := Nat.mul_le_mul_right binade hs
      omega
    have hmod : m % binade + binade = q := by unfold binade at *; omega
    have hdiv : m / binade - 1 = s := by unfold binade at *; omega
    rw [unitsOf_of_le hle, hmod, hdiv]

/-- Past the end of a binade the next one starts, with a unit twice as large. -/
theorem units_succ (h : Parts m s q) : unitsOf (m + 1) = (q + 1) * 2 ^ s := by
  have hm := h.magnitude
  rcases Nat.lt_or_ge (q + 1) (2 * binade) with hlt | hge
  · exact units ⟨by omega, hlt, h.leads.imp_right fun hq ↦ by omega⟩
  · have hq : q + 1 = 2 * binade := by
      have hlt := h.lt
      omega
    have hnext : Parts (m + 1) (s + 1) binade := by
      refine ⟨?_, by decide, .inr (Nat.le_refl _)⟩
      rw [Nat.succ_mul]
      omega
    rw [hnext.units, hq, Nat.pow_succ]
    ring

theorem midpoint (h : Parts m s q) :
    unitsOf m + unitsOf (m + 1) = (2 * q + 1) * 2 ^ s := by
  rw [h.units, h.units_succ]
  ring

theorem nearestMagnitude_eq (h : Parts m s q) (hd : 0 < d) (hl : unitsOf m * d ≤ n)
    (hu : n < unitsOf (m + 1) * d) :
    nearestMagnitude n d = min (s * binade + nearest n (d <<< s)) infiniteMagnitude := by
  rw [h.units] at hl
  rw [h.units_succ] at hu
  have hlower : q * 2 ^ s ≤ n / d := (Nat.le_div_iff_mul_le hd).2 hl
  have hupper : n / d < (q + 1) * 2 ^ s := (Nat.div_lt_iff_lt_mul hd).2 hu
  have hlt : n / d < 2 ^ (53 + s) := by
    have htwo : 2 * binade = 2 ^ 53 := by decide
    have hq := h.lt
    rw [Nat.pow_add, ← htwo]
    exact hupper.trans_le (Nat.mul_le_mul_right _ (by omega))
  have hshift : (n / d).log2 - 52 = s := by
    rcases h.leads with rfl | hq
    · rcases Nat.eq_zero_or_pos (n / d) with hzero | hpos
      · rw [hzero]
        decide
      · have hlog := (Nat.log2_lt (Nat.ne_of_gt hpos)).2 hlt
        omega
    · have hle : 2 ^ (52 + s) ≤ n / d := by
        have htwo : binade = 2 ^ 52 := by decide
        rw [Nat.pow_add, ← htwo]
        exact (Nat.mul_le_mul_right _ hq).trans hlower
      have hpos : n / d ≠ 0 := Nat.ne_of_gt ((Nat.two_pow_pos _).trans_le hle)
      have hlog := (Nat.log2_eq_iff hpos).2 ⟨hle, by rwa [Nat.add_right_comm]⟩
      omega
  rw [nearestMagnitude, hshift]

end Parts

theorem nearest_le_of_le_midpoint (hd : 0 < d) (h : 2 * n ≤ (2 * q + 1) * d)
    (htie : q % 2 = 0 ∨ 2 * n < (2 * q + 1) * d) : nearest n d ≤ q := by
  have hparts : d * (n / d) + n % d = n := Nat.div_add_mod n d
  rcases Nat.lt_trichotomy (n / d) q with hlt | heq | hgt
  · exact (nearest_le_succ n d).trans hlt
  · have hmul : (2 * q + 1) * d = 2 * (d * q) + d := by ring
    rw [heq] at hparts
    rw [hmul] at h htie
    dsimp only [nearest]
    rw [heq, if_neg (by omega)]
  · have hmul : d * (q + 1) ≤ d * (n / d) := Nat.mul_le_mul_left d hgt
    have hmul' : (2 * q + 1) * d + d = 2 * (d * (q + 1)) := by ring
    omega

theorem lt_nearest_of_midpoint_lt (hd : 0 < d) (h : (2 * q + 1) * d < 2 * n) :
    q < nearest n d := by
  have hparts : d * (n / d) + n % d = n := Nat.div_add_mod n d
  have hmod := Nat.mod_lt n hd
  rcases Nat.lt_trichotomy (n / d) q with hlt | heq | hgt
  · have hmul : d * (n / d + 1) ≤ d * q := Nat.mul_le_mul_left d hlt
    have hmul' : (2 * q + 1) * d = 2 * (d * q) + d := by ring
    rw [Nat.mul_succ] at hmul
    omega
  · have hmul : (2 * q + 1) * d = 2 * (d * q) + d := by ring
    rw [heq] at hparts
    dsimp only [nearest]
    rw [heq, if_pos (by omega)]
    exact Nat.lt_succ_self q
  · exact hgt.trans_le (div_le_nearest n d)

theorem nearestMagnitude_le_of_le (hd : 0 < d) (hm : m ≤ infiniteMagnitude)
    (h : n ≤ unitsOf m * d) : nearestMagnitude n d ≤ m := by
  have hmono : nearestMagnitude n d ≤ nearestMagnitude (unitsOf m) 1 :=
    nearestMagnitude_mono hd Nat.one_pos (by omega)
  rwa [nearestMagnitude_unitsOf hm] at hmono

theorem le_nearestMagnitude_of_le (hd : 0 < d) (hm : m ≤ infiniteMagnitude)
    (h : unitsOf m * d ≤ n) : m ≤ nearestMagnitude n d := by
  have hmono : nearestMagnitude (unitsOf m) 1 ≤ nearestMagnitude n d :=
    nearestMagnitude_mono Nat.one_pos hd (by omega)
  rwa [nearestMagnitude_unitsOf hm] at hmono

theorem nearestMagnitude_le_of_le_midpoint (hd : 0 < d) (hm : m ≤ infiniteMagnitude)
    (h : 2 * n ≤ (unitsOf m + unitsOf (m + 1)) * d)
    (htie : m % 2 = 0 ∨ 2 * n < (unitsOf m + unitsOf (m + 1)) * d) :
    nearestMagnitude n d ≤ m := by
  rcases Nat.le_total n (unitsOf m * d) with hl | hl
  · exact nearestMagnitude_le_of_le hd hm hl
  obtain ⟨s, q, hparts⟩ := exists_parts m
  have hu : n < unitsOf (m + 1) * d := by
    have hlt := Nat.mul_lt_mul_of_pos_right (unitsOf_lt_succ m) hd
    rw [Nat.add_mul] at h
    omega
  rw [hparts.midpoint, Nat.mul_assoc, Nat.mul_comm (2 ^ s), ← Nat.shiftLeft_eq] at h htie
  have heven : m % 2 = q % 2 := by
    have hm := hparts.magnitude
    unfold binade at hm
    omega
  rw [heven] at htie
  have hnearest := nearest_le_of_le_midpoint (shiftLeft_pos hd s) h htie
  have hm := hparts.magnitude
  rw [hparts.nearestMagnitude_eq hd hl hu]
  exact (Nat.min_le_left _ _).trans (by omega)

theorem lt_nearestMagnitude_of_midpoint_lt (hd : 0 < d) (hm : m < infiniteMagnitude)
    (h : (unitsOf m + unitsOf (m + 1)) * d < 2 * n) : m < nearestMagnitude n d := by
  rcases Nat.lt_or_ge n (unitsOf (m + 1) * d) with hu | hu
  · obtain ⟨s, q, hparts⟩ := exists_parts m
    have hl : unitsOf m * d ≤ n := by
      have hlt := Nat.mul_lt_mul_of_pos_right (unitsOf_lt_succ m) hd
      rw [Nat.add_mul] at h
      omega
    rw [hparts.midpoint, Nat.mul_assoc, Nat.mul_comm (2 ^ s), ← Nat.shiftLeft_eq] at h
    have hnearest := lt_nearest_of_midpoint_lt (shiftLeft_pos hd s) h
    have hm' := hparts.magnitude
    rw [hparts.nearestMagnitude_eq hd hl hu]
    exact Nat.lt_min.2 ⟨by omega, hm⟩
  · exact le_nearestMagnitude_of_le hd hm hu

theorem nearestMagnitude_lt_of_lt_midpoint (hd : 0 < d) {k : Nat} (hk : k ≤ infiniteMagnitude)
    (hm : unitsOf m < unitsOf k) (h : 2 * n < (unitsOf m + unitsOf k) * d) :
    nearestMagnitude n d < k := by
  have hlt : m < k := unitsOf_strictMono.lt_iff_lt.1 hm
  have hle : unitsOf m ≤ unitsOf (k - 1) := unitsOf_strictMono.monotone (by omega)
  have hmid : 2 * n < (unitsOf (k - 1) + unitsOf (k - 1 + 1)) * d := by
    rw [show k - 1 + 1 = k by omega]
    exact h.trans_le (Nat.mul_le_mul_right d (Nat.add_le_add_right hle _))
  have hnearest := nearestMagnitude_le_of_le_midpoint hd (m := k - 1) (by omega)
    (Nat.le_of_lt hmid) (.inr hmid)
  omega

theorem exists_unitsOf (hk : k ≤ 2 * binade) (s : Nat) : ∃ m, unitsOf m = k * 2 ^ s := by
  induction s with
  | zero =>
    rw [Nat.pow_zero, Nat.mul_one]
    rcases Nat.lt_or_eq_of_le hk with h | rfl
    · exact ⟨k, unitsOf_of_lt h⟩
    · exact ⟨2 * binade, by decide⟩
  | succ s ih =>
    obtain ⟨m, hm⟩ := ih
    obtain ⟨s', q, hparts⟩ := exists_parts m
    have hdouble : k * 2 ^ (s + 1) = 2 * unitsOf m := by
      rw [hm, Nat.pow_succ]
      ring
    rw [hdouble, hparts.units]
    -- A subnormal number is doubled in place, any other moves up to the next binade.
    rcases Nat.lt_or_ge q binade with hq | hq
    · obtain rfl : s' = 0 := hparts.leads.resolve_right (Nat.not_le.2 hq)
      exact ⟨2 * q, by rw [unitsOf_of_lt (by omega), Nat.pow_zero, Nat.mul_one]⟩
    · have hnext : Parts (m + binade) (s' + 1) q := by
        refine ⟨?_, hparts.lt, .inr hq⟩
        have hm' := hparts.magnitude
        rw [Nat.succ_mul]
        omega
      exact ⟨m + binade, by rw [hnext.units, Nat.pow_succ]; ring⟩

end MetricWatch.Binary64
