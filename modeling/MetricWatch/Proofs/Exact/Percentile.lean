import Mathlib.Tactic.GCongr
import Mathlib.Tactic.Linarith
import MetricWatch.Proofs.Exact.Statistics

namespace MetricWatch.Stats

open Exact

section Reads

variable {α : Type} [Scalar α]

/-- A percentile by reading from the sample at places that might be missing from it. -/
def percentile? (values : List α) (p : α) : Option α :=
  if values.length = 0 then some 0.0
  else if values.length = 1 then values[0]?
  else do
    let last := values.length - 1
    let rank := p / 100.0 * (last : α)
    let lower := min (Scalar.wholePart rank) last
    let upper := min (lower + 1) last
    let fraction := rank - (lower : α)
    let a ← values[lower]?
    let b ← values[upper]?
    return a + fraction * (b - a)

theorem percentile?_eq_some (values : List α) (p : α) :
    percentile? values p = some (percentile values p) := by
  rcases values with _ | ⟨v, _ | ⟨w, rest⟩⟩
  · rfl
  · rfl
  · have htwo : 2 ≤ (v :: w :: rest).length := Nat.le_add_left 2 rest.length
    rw [percentile, dif_pos htwo, percentile?, if_neg (by omega), if_neg (by omega)]
    dsimp only
    rw [List.getElem?_eq_getElem (by omega), List.getElem?_eq_getElem (by omega)]
    rfl

end Reads

section Segments

variable {values : List ℝ} {i j n : ℕ} {f g p : ℝ}

/-- From the lowest rank on a percentile lies on the segment from one value to the next, as far
along as its rank is. Past the highest rank it stays at the end of the last segment. -/
theorem exists_segment (hn : 2 ≤ n) (hp : 0 ≤ p) :
    ∃ (i : ℕ) (f : ℝ) (hi : i + 1 < n), 0 ≤ f ∧ f ≤ 1 ∧
      (i : ℝ) + f = min (p / 100 * (n - 1 : ℕ)) (n - 1 : ℕ) ∧
      ∀ (values : List ℝ) (h : values.length = n),
        percentile values p = values[i] + f * (values[i + 1] - values[i]) := by
  have hrank : 0 ≤ p / 100 * (n - 1 : ℕ) := by positivity
  have hhundred : (100.0 : ℝ) = 100 := by norm_num
  rcases lt_or_ge (p / 100 * (n - 1 : ℕ)) (n - 1 : ℕ) with hlt | hge
  · -- The rank is below the last one, so that its whole part has a neighbour.
    have hfloor : Nat.floor (p / 100 * (n - 1 : ℕ)) < n - 1 := (Nat.floor_lt hrank).2 hlt
    refine ⟨Nat.floor (p / 100 * (n - 1 : ℕ)), p / 100 * (n - 1 : ℕ) - Nat.floor _, by omega,
      sub_nonneg.2 (Nat.floor_le hrank), ?_, ?_, ?_⟩
    · linarith [Nat.lt_floor_add_one (p / 100 * ((n - 1 : ℕ) : ℝ))]
    · rw [min_eq_left hlt.le]
      ring
    · rintro values rfl
      have hlower : min (Scalar.wholePart (p / 100 * ((values.length - 1 : ℕ) : ℝ)))
          (values.length - 1) = Nat.floor (p / 100 * ((values.length - 1 : ℕ) : ℝ)) :=
        min_eq_left hfloor.le
      rw [percentile, dif_pos hn]
      simp only [hhundred, hlower, min_eq_left (Nat.succ_le_of_lt hfloor)]
  · -- The rank is the last one or past it, at the end of the last segment.
    have hlast : n - 1 ≤ Nat.floor (p / 100 * (n - 1 : ℕ)) := Nat.le_floor hge
    refine ⟨n - 2, 1, by omega, zero_le_one, le_rfl, ?_, ?_⟩
    · rw [min_eq_right hge]
      exact_mod_cast (by omega : n - 2 + 1 = n - 1)
    · rintro values rfl
      have hlower : min (Scalar.wholePart (p / 100 * ((values.length - 1 : ℕ) : ℝ)))
          (values.length - 1) = values.length - 1 := min_eq_right hlast
      rw [percentile, dif_pos hn]
      simp only [hhundred, hlower, min_eq_right (Nat.le_succ (values.length - 1)), sub_self,
        mul_zero, add_zero, one_mul, add_sub_cancel]
      congr 1
      omega

theorem getElem_le (hsorted : values.Pairwise (· ≤ ·)) (hij : i ≤ j) (hj : j < values.length) :
    values[i] ≤ values[j] := by
  rcases hij.lt_or_eq with hlt | rfl
  · exact List.pairwise_iff_getElem.1 hsorted i j _ hj hlt
  · exact le_rfl

theorem le_segment {a b : ℝ} (h : a ≤ b) (hf : 0 ≤ f) : a ≤ a + f * (b - a) :=
  le_add_of_nonneg_right (mul_nonneg hf (sub_nonneg.2 h))

theorem segment_le {a b : ℝ} (h : a ≤ b) (hf : f ≤ 1) : a + f * (b - a) ≤ b := by
  linarith [mul_le_of_le_one_left (sub_nonneg.2 h) hf]

/-- Of two points on the polygon through the values the one further along is not lower. The same
point may be the end of one segment and the start of the next. -/
theorem segment_mono (hsorted : values.Pairwise (· ≤ ·)) (hi : i + 1 < values.length)
    (hj : j + 1 < values.length) (hf : 0 ≤ f) (hf' : f ≤ 1) (hg : 0 ≤ g) (hg' : g ≤ 1)
    (h : (i : ℝ) + f ≤ j + g) :
    values[i] + f * (values[i + 1] - values[i]) ≤ values[j] + g * (values[j + 1] - values[j]) := by
  have hleft : values[i] ≤ values[i + 1] := getElem_le hsorted i.le_succ hi
  have hright : values[j] ≤ values[j + 1] := getElem_le hsorted j.le_succ hj
  rcases lt_trichotomy i j with hlt | rfl | hgt
  · calc values[i] + f * (values[i + 1] - values[i]) ≤ values[i + 1] := segment_le hleft hf'
      _ ≤ values[j] := getElem_le hsorted hlt _
      _ ≤ values[j] + g * (values[j + 1] - values[j]) := le_segment hright hg
  · have hfg : f ≤ g := le_of_add_le_add_left h
    gcongr
  · have hnext : (j : ℝ) + 1 ≤ i := by exact_mod_cast hgt
    obtain rfl : f = 0 := by linarith
    obtain rfl : g = 1 := by linarith
    obtain rfl : i = j + 1 := by
      have hle : (i : ℝ) ≤ (j + 1 : ℕ) := by push_cast; linarith
      exact le_antisymm (by exact_mod_cast hle) hgt
    simp

end Segments

section Order

variable {values values' : List ℝ} {p q : ℝ} {k : ℕ}

theorem percentile_of_length_one (h : values.length = 1) (p : ℝ) :
    percentile values p = values[0] := by
  obtain ⟨v, rfl⟩ := List.length_eq_one_iff.1 h
  rfl

theorem percentile_mono (hsorted : values.Pairwise (· ≤ ·)) (hp : 0 ≤ p) (hpq : p ≤ q) :
    percentile values p ≤ percentile values q := by
  rcases lt_or_ge values.length 2 with hlt | hn
  · rw [percentile, percentile, dif_neg hlt.not_ge, dif_neg hlt.not_ge]
  · obtain ⟨i, f, hi, hf, hf', hrank, hperc⟩ := exists_segment hn hp
    obtain ⟨j, g, hj, hg, hg', hrank', hperc'⟩ := exists_segment hn (hp.trans hpq)
    rw [hperc values rfl, hperc' values rfl]
    refine segment_mono hsorted hi hj hf hf' hg hg' ?_
    rw [hrank, hrank']
    gcongr

theorem percentile_bounds (hsorted : values.Pairwise (· ≤ ·)) (hne : values ≠ []) (hp : 0 ≤ p) :
    values.head hne ≤ percentile values p ∧ percentile values p ≤ values.getLast hne := by
  have hpos : 0 < values.length := List.length_pos_iff.2 hne
  rw [List.head_eq_getElem, List.getLast_eq_getElem]
  rcases Nat.eq_or_lt_of_le (Nat.succ_le_of_lt hpos) with hone | hn
  · rw [percentile_of_length_one hone.symm]
    exact ⟨le_rfl, getElem_le hsorted (Nat.zero_le _) (by omega)⟩
  · obtain ⟨i, f, hi, hf, hf', -, hperc⟩ := exists_segment hn hp
    have hstep : values[i] ≤ values[i + 1] := getElem_le hsorted i.le_succ hi
    rw [hperc values rfl]
    constructor
    · exact (getElem_le hsorted i.zero_le _).trans (le_segment hstep hf)
    · exact (segment_le hstep hf').trans (getElem_le hsorted (by omega) (by omega))

/-- The ranks that are whole numbers are those of the values. -/
theorem percentile_rank (hk : k < values.length) :
    percentile values (100 * k / (values.length - 1)) = values[k] := by
  rcases Nat.eq_or_lt_of_le (Nat.succ_le_of_lt (Nat.zero_lt_of_lt hk)) with hone | hn
  · obtain rfl : k = 0 := by omega
    rw [percentile_of_length_one hone.symm]
  · have hlast : ((values.length - 1 : ℕ) : ℝ) = values.length - 1 := by
      rw [Nat.cast_sub (by omega), Nat.cast_one]
    have hpos : (0 : ℝ) < (values.length : ℝ) - 1 := by
      rw [← hlast]
      exact_mod_cast (by omega : 0 < values.length - 1)
    have hp : (0 : ℝ) ≤ 100 * k / (values.length - 1) := by positivity
    obtain ⟨i, f, hi, hf, hf', hrank, hperc⟩ := exists_segment hn hp
    have hle : (k : ℝ) ≤ (values.length : ℝ) - 1 := by
      rw [← hlast]
      exact_mod_cast (by omega : k ≤ values.length - 1)
    have hrank' : (i : ℝ) + f = k := by
      rw [hrank, hlast, mul_div_assoc, mul_div_right_comm, div_self (by norm_num), one_mul,
        div_mul_cancel₀ _ hpos.ne', min_eq_left hle]
    rw [hperc values rfl]
    -- The rank is at one end of its segment.
    have hik : i = k ∨ i + 1 = k := by
      have hlow : (i : ℝ) ≤ k := by linarith
      have hhigh : (k : ℝ) ≤ (i + 1 : ℕ) := by push_cast; linarith
      have hlow' : i ≤ k := by exact_mod_cast hlow
      have hhigh' : k ≤ i + 1 := by exact_mod_cast hhigh
      omega
    rcases hik with rfl | rfl
    · obtain rfl : f = 0 := by linarith
      rw [zero_mul, add_zero]
    · obtain rfl : f = 1 := by
        push_cast at hrank'
        linarith
      rw [one_mul, add_sub_cancel]

theorem percentile_le_percentile (h : List.Forall₂ (· ≤ ·) values values') (hp : 0 ≤ p) :
    percentile values p ≤ percentile values' p := by
  have hlength := h.length_eq
  rcases lt_or_ge values.length 2 with hlt | hn
  · rw [percentile, percentile, dif_neg hlt.not_ge, dif_neg (hlength ▸ hlt.not_ge)]
    cases h with
    | nil => exact le_rfl
    | cons hle => exact hle
  · obtain ⟨i, f, hi, hf, hf', -, hperc⟩ := exists_segment hn hp
    have hlower : values[i] ≤ values'[i] := h.get (by omega) (by omega)
    have hupper : values[i + 1] ≤ values'[i + 1] := h.get hi (by omega)
    rw [hperc values rfl, hperc values' hlength.symm]
    calc values[i] + f * (values[i + 1] - values[i])
        = (1 - f) * values[i] + f * values[i + 1] := by ring
      _ ≤ (1 - f) * values'[i] + f * values'[i + 1] :=
          add_le_add (mul_le_mul_of_nonneg_left hlower (sub_nonneg.2 hf'))
            (mul_le_mul_of_nonneg_left hupper hf)
      _ = values'[i] + f * (values'[i + 1] - values'[i]) := by ring

/-- A percentile rises from the first value to the last, meets every value at its rank and rises
with the values. No percentile of any kind of numbers is looked up outside of its sample. -/
theorem percentile_order (values : List ℝ) (hne : values ≠ [])
    (hsorted : values.Pairwise (· ≤ ·)) :
    (∀ p q, 0 ≤ p → p ≤ q → percentile values p ≤ percentile values q) ∧
      (∀ p, 0 ≤ p → values.head hne ≤ percentile values p ∧
        percentile values p ≤ values.getLast hne) ∧
      (∀ (k : ℕ) (hk : k < values.length),
        percentile values (100 * k / (values.length - 1)) = values[k]) ∧
      (∀ values' : List ℝ, List.Forall₂ (· ≤ ·) values values' →
        ∀ p, 0 ≤ p → percentile values p ≤ percentile values' p) ∧
      ∀ (α : Type) [Scalar α] (values : List α) (p : α),
        percentile? values p = some (percentile values p) :=
  ⟨fun _ _ ↦ percentile_mono hsorted, fun _ ↦ percentile_bounds hsorted hne,
    fun _ ↦ percentile_rank, fun _ h _ ↦ percentile_le_percentile h,
    fun _ _ ↦ percentile?_eq_some⟩

theorem percentile_order_three :
    let values : List ℝ := [1, 2, 4]
    let values' : List ℝ := [1, 3, 9]
    (values ≠ [] ∧ values.Pairwise (· ≤ ·) ∧ List.Forall₂ (· ≤ ·) values values') ∧
      percentile values 25 ≤ percentile values 99 ∧
      (1 ≤ percentile values 99 ∧ percentile values 99 ≤ 4) ∧
      percentile values (100 * (1 : ℕ) / (values.length - 1)) = 2 ∧
      percentile values 99 ≤ percentile values' 99 ∧
      percentile? values (-400) = some (percentile values (-400)) := by
  intro values values'
  have hne : values ≠ [] := List.cons_ne_nil _ _
  have hsorted : values.Pairwise (· ≤ ·) := by norm_num [values]
  have hpointwise : List.Forall₂ (· ≤ ·) values values' := by norm_num [values, values']
  obtain ⟨hmono, hbounds, hrank, hdata, hreads⟩ := percentile_order values hne hsorted
  exact ⟨⟨hne, hsorted, hpointwise⟩, hmono 25 99 (by norm_num) (by norm_num),
    hbounds 99 (by norm_num), hrank 1 (by decide), hdata values' hpointwise 99 (by norm_num),
    hreads ℝ values (-400)⟩

end Order

end MetricWatch.Stats
