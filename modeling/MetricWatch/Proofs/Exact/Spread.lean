import Mathlib.Algebra.Order.BigOperators.Group.List
import Mathlib.Tactic.Linarith
import MetricWatch.Proofs.Exact.Statistics

namespace MetricWatch.Stats

open Exact

section Totals

variable {values : List ℝ} {p : ℝ → Prop} [DecidablePred p] {f : ℝ → ℝ} {a b : ℝ}

theorem sum_eq_length_mul_mean (values : List ℝ) :
    values.sum = values.length * mean values := by
  cases values with
  | nil => simp
  | cons v rest =>
    rw [mean, sum_eq, List.isEmpty_cons, if_neg Bool.false_ne_true, mul_div_cancel₀]
    exact Nat.cast_ne_zero.2 (Nat.succ_ne_zero rest.length)

theorem mean_bounds (hne : values ≠ []) (h : ∀ x ∈ values, a ≤ x ∧ x ≤ b) :
    a ≤ mean values ∧ mean values ≤ b := by
  have hlength : (0 : ℝ) < values.length := Nat.cast_pos.2 (List.length_pos_iff.2 hne)
  have hlow := List.card_nsmul_le_sum values a fun x hx ↦ (h x hx).1
  have hhigh := List.sum_le_card_nsmul values b fun x hx ↦ (h x hx).2
  rw [nsmul_eq_mul, sum_eq_length_mul_mean] at hlow hhigh
  exact ⟨le_of_mul_le_mul_left hlow hlength, le_of_mul_le_mul_left hhigh hlength⟩

theorem countP_mul_le_sum (hf : ∀ x ∈ values, 0 ≤ f x) (h : ∀ x ∈ values, p x → a ≤ f x) :
    (values.countP p : ℝ) * a ≤ (values.map f).sum := by
  induction values with
  | nil => simp
  | cons v rest ih =>
    have hrest := ih (fun x hx ↦ hf x (List.mem_cons_of_mem v hx))
      fun x hx ↦ h x (List.mem_cons_of_mem v hx)
    rw [List.countP_cons, List.map_cons, List.sum_cons]
    split_ifs with hv
    · have hlevel := h v List.mem_cons_self (of_decide_eq_true hv)
      push_cast
      linarith
    · have hnonneg := hf v List.mem_cons_self
      rw [add_zero]
      linarith

end Totals

variable {values values' : List ℝ} {a b : ℝ}

theorem squaredDeviations_eq (values : List ℝ) :
    squaredDeviations values = (values.map fun x ↦ (x - mean values) ^ 2).sum := by
  simp only [squaredDeviations, sum_eq, square, sq]

/-- Around another centre each deviation grows by the way to it, and the mixed terms cancel. -/
theorem sum_sq_sub (values : List ℝ) (c : ℝ) :
    (values.map fun x ↦ (x - c) ^ 2).sum =
      squaredDeviations values + values.length * (mean values - c) ^ 2 := by
  have hexpand (x : ℝ) : (x - c) ^ 2 = (x - mean values) ^ 2 +
      (x * (2 * (mean values - c)) + (c ^ 2 - mean values ^ 2)) := by ring
  simp only [hexpand, List.sum_map_add, List.sum_map_mul_right, List.map_id', List.map_const',
    List.sum_replicate, nsmul_eq_mul]
  rw [← squaredDeviations_eq, sum_eq_length_mul_mean]
  ring

theorem squaredDeviations_nonneg (values : List ℝ) : 0 ≤ squaredDeviations values := by
  rw [squaredDeviations_eq]
  apply List.sum_nonneg
  intro y hy
  obtain ⟨x, -, rfl⟩ := List.mem_map.1 hy
  exact sq_nonneg _

theorem squaredDeviations_eq_length_mul (values : List ℝ) :
    squaredDeviations values = values.length * populationVariance values := by
  cases values with
  | nil => simp [squaredDeviations, sum_eq]
  | cons v rest =>
    rw [populationVariance, List.isEmpty_cons, if_neg Bool.false_ne_true, mul_div_cancel₀]
    exact Nat.cast_ne_zero.2 (Nat.succ_ne_zero rest.length)

theorem populationVariance_nonneg (values : List ℝ) : 0 ≤ populationVariance values := by
  rw [populationVariance]
  split
  · exact zero_literal.ge
  · exact div_nonneg (squaredDeviations_nonneg values) (Nat.cast_nonneg _)

theorem populationStdDev_eq (values : List ℝ) :
    populationStdDev values = √(populationVariance values) := by
  cases values with
  | nil => simp [populationStdDev, populationVariance, zero_literal]
  | cons => rfl

theorem populationStdDev_nonneg (values : List ℝ) : 0 ≤ populationStdDev values := by
  rw [populationStdDev_eq]
  exact Real.sqrt_nonneg _

theorem sq_populationStdDev (values : List ℝ) :
    populationStdDev values ^ 2 = populationVariance values := by
  rw [populationStdDev_eq, Real.sq_sqrt (populationVariance_nonneg values)]

theorem length_pos_of_spread (h : 0 < populationStdDev values) : 0 < values.length := by
  rw [List.length_pos_iff]
  rintro rfl
  simp [populationStdDev, zero_literal] at h

/-- No value is further than half of the range from the middle of it. -/
theorem populationStdDev_le (hne : values ≠ []) (h : ∀ x ∈ values, a ≤ x ∧ x ≤ b) :
    populationStdDev values ≤ (b - a) / 2 := by
  have hlength : (0 : ℝ) < values.length := Nat.cast_pos.2 (List.length_pos_iff.2 hne)
  have hab : a ≤ b := by
    obtain ⟨hmean, hmean'⟩ := mean_bounds hne h
    exact hmean.trans hmean'
  have hmiddle : ∀ y ∈ values.map (fun x ↦ (x - (a + b) / 2) ^ 2), y ≤ ((b - a) / 2) ^ 2 := by
    intro y hy
    obtain ⟨x, hx, rfl⟩ := List.mem_map.1 hy
    obtain ⟨hlow, hhigh⟩ := h x hx
    apply sq_le_sq'
    · linarith
    · linarith
  have htotal := List.sum_le_card_nsmul _ _ hmiddle
  rw [sum_sq_sub, squaredDeviations_eq_length_mul, List.length_map, nsmul_eq_mul] at htotal
  have hvariance : populationVariance values ≤ ((b - a) / 2) ^ 2 := by
    refine le_of_mul_le_mul_left (le_trans ?_ htotal) hlength
    exact le_add_of_nonneg_right (mul_nonneg hlength.le (sq_nonneg _))
  rw [populationStdDev_eq, ← Real.sqrt_sq (by linarith : 0 ≤ (b - a) / 2)]
  exact Real.sqrt_le_sqrt hvariance

theorem countP_mul_sq_le {p : ℝ → Prop} [DecidablePred p] {t : ℝ}
    (hspread : 0 < populationStdDev values)
    (h : ∀ x ∈ values, p x → (t * populationStdDev values) ^ 2 ≤ (x - mean values) ^ 2) :
    (values.countP p : ℝ) * t ^ 2 ≤ values.length := by
  have htotal := countP_mul_le_sum (f := fun x ↦ (x - mean values) ^ 2)
    (fun x _ ↦ sq_nonneg _) h
  rw [← squaredDeviations_eq, squaredDeviations_eq_length_mul, ← sq_populationStdDev, mul_pow,
    ← mul_assoc] at htotal
  exact le_of_mul_le_mul_right htotal (pow_pos hspread 2)

theorem countP_mul_one_add_sq_le {p : ℝ → Prop} [DecidablePred p] {side t : ℝ}
    (hside : side ^ 2 = 1) (ht : 0 < t) (hspread : 0 < populationStdDev values)
    (h : ∀ x ∈ values, p x → t * populationStdDev values ≤ side * (x - mean values)) :
    (values.countP p : ℝ) * (1 + t ^ 2) ≤ values.length := by
  obtain ⟨u, hu, hunit⟩ : ∃ u, 0 < u ∧ populationStdDev values = t * u :=
    ⟨populationStdDev values / t, div_pos hspread ht, (mul_div_cancel₀ _ ht.ne').symm⟩
  -- Around a centre a little to the other side of the mean all squares together grow by less than
  -- those of the values that are counted.
  have hlevel : ∀ x ∈ values, p x → ((1 + t ^ 2) * u) ^ 2 ≤ (x - (mean values - side * u)) ^ 2 := by
    intro x hx hp
    have hfar := h x hx hp
    rw [hunit] at hfar
    calc ((1 + t ^ 2) * u) ^ 2 ≤ (side * (x - mean values) + u) ^ 2 :=
          pow_le_pow_left₀ (by positivity) (by linarith) 2
      _ = (x - (mean values - side * u)) ^ 2 := by
          linear_combination ((x - mean values) ^ 2 - u ^ 2) * hside
  have htotal := countP_mul_le_sum (fun x _ ↦ sq_nonneg (x - (mean values - side * u))) hlevel
  rw [sum_sq_sub, squaredDeviations_eq_length_mul, ← sq_populationStdDev, hunit, sub_sub_cancel,
    mul_pow side, hside] at htotal
  have hscale : 0 < (1 + t ^ 2) * u ^ 2 := by positivity
  refine le_of_mul_le_mul_right ?_ hscale
  linarith

theorem mean_perm (h : values.Perm values') : mean values = mean values' := by
  simp only [mean, sum_eq, h.sum_eq, h.length_eq, h.isEmpty_eq]

theorem squaredDeviations_perm (h : values.Perm values') :
    squaredDeviations values = squaredDeviations values' := by
  rw [squaredDeviations_eq, squaredDeviations_eq, mean_perm h]
  exact (h.map _).sum_eq

theorem populationVariance_perm (h : values.Perm values') :
    populationVariance values = populationVariance values' := by
  simp only [populationVariance, squaredDeviations_perm h, h.length_eq, h.isEmpty_eq]

theorem length_mul_mean_cons_sub (values : List ℝ) (v : ℝ) :
    (values.length + 1) * (mean (v :: values) - mean values) = v - mean values := by
  have htotal := sum_eq_length_mul_mean (v :: values)
  rw [List.sum_cons, sum_eq_length_mul_mean, List.length_cons, Nat.cast_succ] at htotal
  linarith

/-- The new value moves the mean towards itself, by one part in the new count. -/
theorem length_mul_squaredDeviations_cons (values : List ℝ) (v : ℝ) :
    (values.length + 1) * squaredDeviations (v :: values) =
      (values.length + 1) * squaredDeviations values +
        values.length * (v - mean values) ^ 2 := by
  have hmean := length_mul_mean_cons_sub values v
  have htotal := sum_sq_sub (v :: values) (mean values)
  rw [List.map_cons, List.sum_cons, ← squaredDeviations_eq, List.length_cons,
    Nat.cast_succ] at htotal
  rw [← hmean] at htotal ⊢
  linear_combination (values.length + 1) * (-htotal)

end MetricWatch.Stats
