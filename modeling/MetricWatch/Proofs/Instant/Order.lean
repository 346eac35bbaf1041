import MetricWatch.Instant

namespace MetricWatch.Instant

variable {t u : Instant} {i j : Nat}

theorem le_refl (t : Instant) : t ≤ t := .inr ⟨rfl, Nat.le_refl _⟩

theorem earliest_le (t : Instant) : earliest ≤ t := by
  rcases Int.lt_or_eq_of_le t.firstSecond_le with h | h
  · exact .inl h
  · exact .inr ⟨h, Nat.zero_le _⟩

def tick (t : Instant) : Int := if t.isLeap = true then t.second + 1 else t.second

theorem tick_bounds (t : Instant) : t.second ≤ t.tick ∧ t.tick ≤ t.second + 1 := by
  unfold tick
  split <;> omega

theorem backBy_eq_earliest (hi : 0 < i) (h : t.tick - i < earliest.second) :
    t.backBy i = earliest := by
  have hback : t.backBy i = (ofParts? (t.tick - i) (t.nano % nanosPerSecond)).getD earliest :=
    if_neg (Nat.ne_of_gt hi)
  have hnone : ofParts? (t.tick - i) (t.nano % nanosPerSecond) = none := dif_neg (Int.not_le.2 h)
  rw [hback, hnone, Option.getD_none]

/-- What is left of an instant after steps back that do not leave the calendar. -/
theorem backBy_parts (hi : 0 < i) (h : earliest.second ≤ t.tick - i) :
    (t.backBy i).second = t.tick - i ∧ (t.backBy i).nano = t.nano % nanosPerSecond := by
  have hlast : t.tick - i < (Date.toDays ⟨Date.lastYear + 1, 1, 1⟩) * 86400 := by
    have hsecond := t.second_lt
    have htick := t.tick_bounds.2
    omega
  have hnano : t.nano % nanosPerSecond < nanosPerSecond := Nat.mod_lt _ (by decide)
  let u : Instant := ⟨t.tick - i, t.nano % nanosPerSecond, h, hlast, by omega, by omega⟩
  have hback : t.backBy i = (ofParts? u.second u.nano).getD earliest := if_neg (Nat.ne_of_gt hi)
  rw [hback, ofParts?_self, Option.getD_some]
  exact ⟨rfl, rfl⟩

theorem tick_backBy (h : (i : Int) ≤ t.second - earliest.second) :
    (t.backBy i).tick = t.tick - i := by
  rcases Nat.eq_zero_or_pos i with rfl | hi
  · simp [backBy]
  have hlow := t.tick_bounds.1
  obtain ⟨hsecond, hnano⟩ := backBy_parts (t := t) hi (by omega)
  have hlt : t.nano % nanosPerSecond < nanosPerSecond := Nat.mod_lt _ (by decide)
  rw [tick, if_neg (by rw [isLeap, hnano]; simpa using hlt), hsecond]

theorem backBy_inj (hi : (i : Int) ≤ t.second - earliest.second)
    (hj : (j : Int) ≤ t.second - earliest.second) (h : t.backBy i = t.backBy j) : i = j := by
  have htick := congrArg tick h
  rw [tick_backBy hi, tick_backBy hj] at htick
  omega

theorem backBy_le (t : Instant) (i : Nat) : t.backBy i ≤ t := by
  rcases Nat.eq_zero_or_pos i with rfl | hi
  · exact le_refl t
  by_cases h : t.tick - i < earliest.second
  · rw [backBy_eq_earliest hi h]
    exact earliest_le t
  · obtain ⟨hsecond, hnano⟩ := backBy_parts (t := t) hi (Int.not_lt.1 h)
    have htick := t.tick_bounds.2
    have hmod : (t.backBy i).nano ≤ t.nano := hnano ▸ Nat.mod_le _ _
    rcases Int.lt_or_eq_of_le (show (t.backBy i).second ≤ t.second by omega) with hlt | heq
    · exact .inl hlt
    · exact .inr ⟨heq, hmod⟩

theorem backBy_anti (t : Instant) (h : i ≤ j) : t.backBy j ≤ t.backBy i := by
  rcases Nat.eq_zero_or_pos i with rfl | hi
  · exact backBy_le t j
  have hj : 0 < j := Nat.lt_of_lt_of_le hi h
  by_cases hout : t.tick - j < earliest.second
  · rw [backBy_eq_earliest hj hout]
    exact earliest_le _
  · obtain ⟨hsecond, hnano⟩ := backBy_parts (t := t) hj (Int.not_lt.1 hout)
    obtain ⟨hsecond', hnano'⟩ := backBy_parts (t := t) hi (by omega)
    rcases Nat.lt_or_eq_of_le h with hlt | rfl
    · exact .inl (by omega)
    · exact le_refl _

end MetricWatch.Instant
