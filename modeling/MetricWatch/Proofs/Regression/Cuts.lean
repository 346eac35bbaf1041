import MetricWatch.Proofs.Regression.Resampled
import MetricWatch.Proofs.Stats.Quartiles

namespace MetricWatch

namespace Bootstrap

open Binary64

variable {sorted drawn : List Binary64} {n : ℕ} {q q' : Binary64}

theorem cutIndex_mono (hn : (n : Binary64).isFinite = true) (hq : (0.0 : Binary64) ≤ q)
    (h : q ≤ q') (hq' : q'.isFinite = true) : cutIndex n q ≤ cutIndex n q' := by
  have hqf : q.isFinite = true :=
    isFinite_of_magnitude_le ((le_iff_magnitude_le hq (le_trans hq h)).1 h) hq'
  have hrank : (0.0 : Binary64) ≤ q * (n : Binary64) :=
    mul_nonneg_of_nonneg hq hqf (zero_le_natCast n) hn
  have hwhole := wholePart_mono hrank (mul_le_mul_right hq h hq' (zero_le_natCast n) hn)
  exact min_le_min_right (n - 1) hwhole

theorem shares_ordered : (0.0 : Binary64) ≤ 0.005 ∧ (0.005 : Binary64) ≤ 0.025 ∧
    (0.025 : Binary64) ≤ 0.975 ∧ (0.975 : Binary64) ≤ 0.995 ∧
    (0.025 : Binary64).isFinite = true ∧ (0.975 : Binary64).isFinite = true ∧
    (0.995 : Binary64).isFinite = true := by decide +kernel

theorem cuts_ordered (hn : n < 2 ^ 64) :
    cutIndex n (0.005 : Binary64) ≤ cutIndex n (0.025 : Binary64) ∧
      cutIndex n (0.025 : Binary64) ≤ cutIndex n (0.975 : Binary64) ∧
      cutIndex n (0.975 : Binary64) ≤ cutIndex n (0.995 : Binary64) := by
  obtain ⟨hzero, hlower, hmiddle, hupper, hf, hf', hf''⟩ := shares_ordered
  have hcount := isFinite_natCast hn
  have hpos := le_trans hzero hlower
  exact ⟨cutIndex_mono hcount hzero hlower hf, cutIndex_mono hcount hpos hmiddle hf',
    cutIndex_mono hcount (le_trans hpos hmiddle) hupper hf''⟩

theorem rank_le (hnumbers : ∀ x ∈ drawn, x.isNaN = false) {i j : ℕ} {x y : Binary64}
    (hij : i ≤ j) (hx : (Stats.sorted drawn)[i]? = some x)
    (hy : (Stats.sorted drawn)[j]? = some y) : x ≤ y := by
  obtain ⟨hi, rfl⟩ := List.getElem?_eq_some_iff.1 hx
  obtain ⟨hj, rfl⟩ := List.getElem?_eq_some_iff.1 hy
  have hnumber {k : ℕ} (hk : k < (Stats.sorted drawn).length) :
      ((Stats.sorted drawn)[k]).isNaN = false :=
    hnumbers _ (Stats.mem_sorted.1 (List.getElem_mem hk))
  exact Stats.getElem_sorted_le hij hj (hnumber hi) (hnumber hj)

theorem le_countP_pos (hnumbers : ∀ x ∈ drawn, x.isNaN = false) {k : ℕ} {x : Binary64}
    (hx : (Stats.sorted drawn)[k]? = some x) (hpos : (0.0 : Binary64) < x) :
    drawn.length - k ≤ drawn.countP fun y ↦ (0.0 : Binary64) < y := by
  rw [← Stats.length_sorted, ← (Stats.sorted_perm drawn).countP_eq]
  apply Stats.le_countP_of_drop
  intro y hy
  obtain ⟨i, hi, rfl⟩ := List.mem_iff_getElem.1 hy
  rw [List.getElem_drop]
  rw [List.length_drop] at hi
  have hrank : x ≤ (Stats.sorted drawn)[k + i] :=
    rank_le hnumbers (Nat.le_add_right k i) hx (List.getElem?_eq_getElem _)
  exact decide_eq_true (lt_of_lt_of_le hpos hrank)

theorem countP_pos_le (hnumbers : ∀ x ∈ drawn, x.isNaN = false) {k : ℕ} {x : Binary64}
    (hx : (Stats.sorted drawn)[k]? = some x) (hle : x ≤ (0.0 : Binary64)) :
    (drawn.countP fun y ↦ (0.0 : Binary64) < y) ≤ drawn.length - 1 - k := by
  rw [← Stats.length_sorted, ← (Stats.sorted_perm drawn).countP_eq, Nat.sub_sub, Nat.add_comm]
  apply Stats.countP_le_of_take
  intro y hy
  obtain ⟨i, hi, rfl⟩ := List.mem_iff_getElem.1 hy
  rw [List.length_take] at hi
  rw [List.getElem_take, decide_eq_true_eq]
  intro hpos
  have hrank : (Stats.sorted drawn)[i] ≤ x :=
    rank_le hnumbers (by omega) (List.getElem?_eq_getElem _) hx
  exact not_le_of_lt hpos (le_trans hrank hle)

/-- Whatever words the source gives, the bounds are differences that were drawn and are in order, and
they agree with the share of the positive ones. -/
theorem cuts_coherent {σ : Type} [WordSource σ] (source : σ) {before after : List Binary64}
    (hb : before ≠ []) (ha : after ≠ []) (hn : 1 ≤ n) (hn' : n < 2 ^ 64)
    (hfinite : ∀ x ∈ differences before after n source, x.isFinite = true) :
    let drawn := differences before after n source
    let positive := drawn.countP fun x ↦ (0.0 : Binary64) < x
    let low := cutIndex n (0.025 : Binary64)
    let high := cutIndex n (0.975 : Binary64)
    ∃ r, run? before after n source = some r ∧
      (r.lower99 ≤ r.lower95 ∧ r.lower95 ≤ r.upper95 ∧ r.upper95 ≤ r.upper99) ∧
      (drawn.length = n ∧ (∀ x ∈ drawn, IsResampled before after x) ∧
        [r.lower99, r.lower95, r.upper95, r.upper99] ⊆ drawn) ∧
      (r.probability = (positive : Binary64) / (n : Binary64) ∧
        (0.0 : Binary64) ≤ r.probability ∧ r.probability ≤ (1.0 : Binary64)) ∧
      ((Stats.sorted drawn)[low]? = some r.lower95 ∧
        ((0.0 : Binary64) < r.lower95 → n - low ≤ positive)) ∧
      ((Stats.sorted drawn)[high]? = some r.upper95 ∧
        (r.upper95 ≤ (0.0 : Binary64) → positive ≤ n - 1 - high)) := by
  intro drawn positive low high
  have hlength : drawn.length = n := length_differences hb ha source
  have hnumbers : ∀ x ∈ drawn, x.isNaN = false := fun x hx ↦ (isFinite_iff.1 (hfinite x hx)).1
  have hcut := getElem?_cutIndex hlength hn
  obtain ⟨hlower, hmiddle, hupper⟩ := cuts_ordered hn'
  have hcount : positive = (Stats.sorted drawn).countP fun x ↦ (0.0 : Binary64) < x :=
    ((Stats.sorted_perm drawn).countP_eq _).symm
  have hshare : positive ≤ n := hlength ▸ List.countP_le_length
  refine ⟨_, run?_eq hb ha hn source, ⟨rank_le hnumbers hlower (hcut _) (hcut _),
    rank_le hnumbers hmiddle (hcut _) (hcut _), rank_le hnumbers hupper (hcut _) (hcut _)⟩,
    ⟨hlength, isResampled_differences source, ?_⟩, ⟨?_, ?_⟩, ⟨hcut _, fun hpos ↦ ?_⟩,
    ⟨hcut _, fun hle ↦ ?_⟩⟩
  · simp only [ofSorted, List.cons_subset, List.nil_subset, and_true]
    exact ⟨cut_mem hlength hn _, cut_mem hlength hn _, cut_mem hlength hn _,
      cut_mem hlength hn _⟩
  · rw [hcount]
    rfl
  · rw [ofSorted, ← hcount]
    exact ratio_bounds hshare hn hn'
  · exact hlength ▸ le_countP_pos hnumbers (hcut _) hpos
  · exact hlength ▸ countP_pos_le hnumbers (hcut _) hle

theorem cuts_coherent_risen :
    let source := Cycle.ofWords [0, 0x8000000000000000]
    let before : List Binary64 := [1.0, 2.0]
    let after : List Binary64 := [3.0, 5.0, 4.0]
    let drawn := differences before after 10 source
    (before ≠ [] ∧ after ≠ [] ∧ 1 ≤ 10 ∧ 10 < 2 ^ 64 ∧ ∀ x ∈ drawn, x.isFinite = true) ∧
      ∃ r, run? before after 10 source = some r ∧ (0.0 : Binary64) < r.lower95 ∧
        10 - cutIndex 10 (0.025 : Binary64) ≤ drawn.countP fun x ↦ (0.0 : Binary64) < x := by
  intro source before after drawn
  have hb : before ≠ [] := List.cons_ne_nil _ _
  have ha : after ≠ [] := List.cons_ne_nil _ _
  have hdrawn : ∀ x ∈ drawn, x.isFinite = true ∧ (0.0 : Binary64) < x := by decide +kernel
  have hfinite : ∀ x ∈ drawn, x.isFinite = true := fun x hx ↦ (hdrawn x hx).1
  obtain ⟨r, hrun, -, ⟨-, -, hmem⟩, -, ⟨-, hlow⟩, -⟩ := cuts_coherent source hb ha
    (show 1 ≤ 10 by decide) (by decide) hfinite
  have hpos : (0.0 : Binary64) < r.lower95 := (hdrawn _ (hmem (by simp))).2
  exact ⟨⟨hb, ha, by decide, by decide, hfinite⟩, r, hrun, hpos, hlow hpos⟩

end Bootstrap

end MetricWatch
