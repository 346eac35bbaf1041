import MetricWatch.Proofs.Exact.Percentile
import MetricWatch.Proofs.Stats.Sorted

namespace MetricWatch.Stats

section Sorted

variable {values : List ℝ} {x : ℝ}

theorem sorted_pairwise (values : List ℝ) : (sorted values).Pairwise (· ≤ ·) :=
  pairwise_sorted id decide_eq_true_iff values

theorem sorted_eq_of_perm {values' : List ℝ} (h : values.Perm values')
    (hsorted : values'.Pairwise (· ≤ ·)) : sorted values = values' :=
  sorted_eq_of_pairwise id decide_eq_true_iff Function.injective_id h hsorted

theorem sorted_append_cons (before after : List ℝ)
    (h : (before ++ after ++ [x]).Pairwise (· ≤ ·)) :
    sorted (before ++ x :: after) = before ++ after ++ [x] :=
  sorted_eq_of_perm (List.perm_middle.trans (List.perm_append_singleton x _).symm) h

theorem headD_sorted_le (hx : x ∈ values) : (sorted values).headD 0.0 ≤ x := by
  have hmem : x ∈ sorted values := (sorted_perm values).mem_iff.2 hx
  rw [List.headD_eq_head?_getD, List.head?_eq_some_head (List.ne_nil_of_mem hmem)]
  exact (sorted_pairwise values).rel_head hmem

theorem le_getLastD_sorted (hx : x ∈ values) : x ≤ (sorted values).getLastD 0.0 := by
  have hmem : x ∈ sorted values := (sorted_perm values).mem_iff.2 hx
  rw [List.getLastD_eq_getLast?, List.getLast?_eq_some_getLast (List.ne_nil_of_mem hmem)]
  exact (sorted_pairwise values).rel_getLast hmem

end Sorted

section Ranks

variable {values : List ℝ} {k : ℕ} {p q : ℝ}

theorem getElem_le_percentile (hsorted : values.Pairwise (· ≤ ·)) (hk : k < values.length)
    (hp : 0 ≤ p) (h : 100 * k ≤ p * (values.length - 1)) : values[k] ≤ percentile values p := by
  have hlast : (0 : ℝ) ≤ values.length - 1 := by
    rw [sub_nonneg]
    exact_mod_cast Nat.one_le_of_lt hk
  rw [← percentile_rank hk]
  apply percentile_mono hsorted
  · positivity
  · exact div_le_of_le_mul₀ hlast hp h

theorem percentile_le_getElem (hsorted : values.Pairwise (· ≤ ·)) (hk : k < values.length)
    (hp : 0 ≤ p) (h : p * (values.length - 1) ≤ 100 * k) : percentile values p ≤ values[k] := by
  rcases Nat.eq_or_lt_of_le (Nat.one_le_of_lt hk) with hone | hn
  · rw [percentile_of_length_one hone.symm]
    exact getElem_le hsorted (Nat.zero_le k) hk
  · have hlast : (0 : ℝ) < values.length - 1 := by
      rw [sub_pos]
      exact_mod_cast hn
    rw [← percentile_rank hk]
    exact percentile_mono hsorted hp ((le_div_iff₀ hlast).2 h)

theorem countP_lt_of_le_getElem (hsorted : values.Pairwise (· ≤ ·)) (hk : k < values.length)
    (h : q ≤ values[k]) : values.countP (· < q) ≤ k := by
  apply countP_le_of_drop
  intro x hx
  obtain ⟨i, hi, rfl⟩ := List.mem_iff_getElem.1 hx
  rw [List.getElem_drop, decide_eq_true_eq, not_lt]
  exact h.trans (getElem_le hsorted (Nat.le_add_right k i) _)

theorem countP_gt_of_getElem_le (hsorted : values.Pairwise (· ≤ ·)) (hk : k < values.length)
    (h : values[k] ≤ q) : values.countP (q < ·) ≤ values.length - 1 - k := by
  rw [Nat.sub_sub, Nat.add_comm]
  apply countP_le_of_take
  intro x hx
  obtain ⟨i, hi, rfl⟩ := List.mem_iff_getElem.1 hx
  rw [List.length_take] at hi
  rw [List.getElem_take, decide_eq_true_eq, not_lt]
  exact (getElem_le hsorted (by omega) hk).trans h

theorem ceil_mul_pred_le {n : ℕ} {f : ℝ} (hn : 0 < n) (hf : f ≤ 1) :
    ⌈f * ((n : ℝ) - 1)⌉₊ ≤ n - 1 := by
  rw [Nat.ceil_le, ← Nat.cast_pred hn]
  exact mul_le_of_le_one_left (Nat.cast_nonneg _) hf

/-- At most `p` percent of the ranks after the first, rounded up, are below the percentile. -/
theorem countP_lt_percentile (hsorted : values.Pairwise (· ≤ ·)) (hp : 0 ≤ p) (hp' : p ≤ 100) :
    values.countP (· < percentile values p) ≤ ⌈p / 100 * (values.length - 1)⌉₊ := by
  rcases eq_or_ne values [] with rfl | hne
  · exact Nat.zero_le _
  have hpos : 0 < values.length := List.length_pos_iff.2 hne
  have hrank := ceil_mul_pred_le (f := p / 100) hpos (by linarith)
  refine countP_lt_of_le_getElem hsorted (by omega) (percentile_le_getElem hsorted (by omega) hp ?_)
  linarith [Nat.le_ceil (p / 100 * ((values.length : ℝ) - 1))]

theorem countP_gt_percentile (hsorted : values.Pairwise (· ≤ ·)) (hp : 0 ≤ p) :
    values.countP (percentile values p < ·) ≤ ⌈(1 - p / 100) * (values.length - 1)⌉₊ := by
  rcases eq_or_ne values [] with rfl | hne
  · exact Nat.zero_le _
  have hpos : 0 < values.length := List.length_pos_iff.2 hne
  have hrank := ceil_mul_pred_le (f := 1 - p / 100) hpos (by linarith)
  have hcount := countP_gt_of_getElem_le hsorted
    (k := values.length - 1 - ⌈(1 - p / 100) * (values.length - 1)⌉₊) (by omega)
    (getElem_le_percentile hsorted (by omega) hp ?_)
  · omega
  · rw [Nat.cast_sub hrank, Nat.cast_pred hpos]
    linarith [Nat.le_ceil ((1 - p / 100) * ((values.length : ℝ) - 1))]

end Ranks

section Quartiles

variable (values : List ℝ)

theorem countP_lt_lowerQuartile :
    values.countP (· < percentile (sorted values) 25.0) ≤ ⌈((values.length : ℝ) - 1) / 4⌉₊ := by
  have hcount := countP_lt_percentile (p := 25.0) (sorted_pairwise values) (by norm_num)
    (by norm_num)
  have hquarter : (25.0 : ℝ) / 100 = 1 / 4 := by norm_num
  rwa [(sorted_perm values).countP_eq, (sorted_perm values).length_eq, hquarter,
    one_div_mul_eq_div] at hcount

theorem countP_gt_upperQuartile :
    values.countP (percentile (sorted values) 75.0 < ·) ≤ ⌈((values.length : ℝ) - 1) / 4⌉₊ := by
  have hcount := countP_gt_percentile (p := 75.0) (sorted_pairwise values) (by norm_num)
  have hquarter : 1 - (75.0 : ℝ) / 100 = 1 / 4 := by norm_num
  rwa [(sorted_perm values).countP_eq, (sorted_perm values).length_eq, hquarter,
    one_div_mul_eq_div] at hcount

end Quartiles

end MetricWatch.Stats
