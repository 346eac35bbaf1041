import MetricWatch.Proofs.Exact.Spread
import MetricWatch.Proofs.Regression.Resampled

namespace MetricWatch.Bootstrap

open Exact

def bounds {α : Type} (r : Bootstrap α) : List α := [r.lower99, r.lower95, r.upper95, r.upper99]

variable {σ : Type} [WordSource σ] {before after drawn : List ℝ} {low high x : ℝ} {n : ℕ}

theorem resampledMean_bounds {values draws : List ℝ} (hne : values ≠ [])
    (hlength : draws.length = values.length) (hdraws : draws ⊆ values) :
    values.min hne ≤ Stats.mean draws ∧ Stats.mean draws ≤ values.max hne := by
  have hne' : draws ≠ [] := by
    rw [← List.length_pos_iff, hlength]
    exact List.length_pos_iff.2 hne
  exact Stats.mean_bounds hne' fun x hx ↦
    ⟨List.min_le_of_mem (hdraws hx), List.le_max_of_mem (hdraws hx)⟩

theorem IsResampled.bounds (hb : before ≠ []) (ha : after ≠ []) (h : IsResampled before after x) :
    after.min ha - before.max hb ≤ x ∧ x ≤ after.max ha - before.min hb := by
  obtain ⟨a, b, ⟨halength, hadraws⟩, ⟨hblength, hbdraws⟩, rfl⟩ := h
  obtain ⟨halow, hahigh⟩ := resampledMean_bounds ha halength hadraws
  obtain ⟨hblow, hbhigh⟩ := resampledMean_bounds hb hblength hbdraws
  exact ⟨sub_le_sub halow hbhigh, sub_le_sub hahigh hblow⟩

theorem ofSorted_bounds (hlength : drawn.length = n) (hn : 0 < n)
    (hdrawn : ∀ x ∈ drawn, low ≤ x ∧ x ≤ high) :
    let r := ofSorted (Stats.sorted drawn) n
    ∀ x ∈ r.meanDifference :: r.bounds, low ≤ x ∧ x ≤ high := by
  intro r
  have hne : Stats.sorted drawn ≠ [] := by
    rw [← List.length_pos_iff, Stats.length_sorted, hlength]
    exact hn
  have hmean : low ≤ r.meanDifference ∧ r.meanDifference ≤ high :=
    Stats.mean_bounds hne fun x hx ↦ hdrawn x (Stats.mem_sorted.1 hx)
  have hcut (q : ℝ) := hdrawn _ (cut_mem hlength hn q)
  refine List.forall_mem_cons.2 ⟨hmean, ?_⟩
  simp only [bounds, List.forall_mem_cons]
  exact ⟨hcut 0.005, hcut 0.025, hcut 0.975, hcut 0.995, nofun⟩

theorem probability_ofSorted (drawn : List ℝ) (n : ℕ) :
    (ofSorted (Stats.sorted drawn) n).probability = (drawn.countP (0 < ·) : ℝ) / n := by
  rw [ofSorted, (Stats.sorted_perm drawn).countP_eq, zero_literal]

theorem probability_eq_one (hlength : drawn.length = n) (hn : 0 < n) (h : ∀ x ∈ drawn, 0 < x) :
    (ofSorted (Stats.sorted drawn) n).probability = 1 := by
  have hall : drawn.countP (0 < ·) = n := by
    rw [← hlength, List.countP_eq_length]
    exact fun x hx ↦ decide_eq_true (h x hx)
  rw [probability_ofSorted, hall, div_self (Nat.cast_ne_zero.2 hn.ne')]

theorem probability_eq_zero (h : ∀ x ∈ drawn, x ≤ 0) :
    (ofSorted (Stats.sorted drawn) n).probability = 0 := by
  have hnone : drawn.countP (0 < ·) = 0 := by
    rw [List.countP_eq_zero]
    exact fun x hx hpos ↦ (of_decide_eq_true hpos).not_ge (h x hx)
  rw [probability_ofSorted, hnone, Nat.cast_zero, zero_div]

theorem max_le_min_of_constant {values : List ℝ} (hne : values ≠ []) {v : ℝ}
    (h : ∀ x ∈ values, x = v) : values.max hne ≤ values.min hne :=
  ((h _ (List.max_mem hne)).trans (h _ (List.min_mem hne)).symm).le

theorem differences_eq_replicate (hb : before ≠ []) (ha : after ≠ []) {b a : ℝ}
    (hbefore : ∀ x ∈ before, x = b) (hafter : ∀ x ∈ after, x = a) (source : σ) :
    differences before after n source = List.replicate n (after.min ha - before.max hb) := by
  refine List.eq_replicate_iff.2 ⟨length_differences hb ha source, fun x hx ↦ ?_⟩
  obtain ⟨hlow, hhigh⟩ := (isResampled_differences source x hx).bounds hb ha
  have hwidth := sub_le_sub (max_le_min_of_constant ha hafter) (max_le_min_of_constant hb hbefore)
  exact le_antisymm (by linarith) hlow

/-- Nothing is said of the words but that they come from some source. -/
theorem resampled_range (source : σ) (hb : before ≠ []) (ha : after ≠ []) (hn : 1 ≤ n) :
    ∃ r, run? before after n source = some r ∧
      (∀ x ∈ r.meanDifference :: r.bounds,
        after.min ha - before.max hb ≤ x ∧ x ≤ after.max ha - before.min hb) ∧
      (before.max hb < after.min ha →
        r.probability = 1 ∧ ∀ x ∈ r.meanDifference :: r.bounds, 0 < x) ∧
      (after.max ha ≤ before.min hb → r.probability = 0) ∧
      ((∃ b, ∀ x ∈ before, x = b) → (∃ a, ∀ x ∈ after, x = a) →
        ∀ (τ : Type) [WordSource τ] (source' : τ), run? before after n source' = some r) := by
  have hlength : (differences before after n source).length = n := length_differences hb ha source
  have hdrawn : ∀ x ∈ differences before after n source,
      after.min ha - before.max hb ≤ x ∧ x ≤ after.max ha - before.min hb :=
    fun x hx ↦ (isResampled_differences source x hx).bounds hb ha
  have hrange := ofSorted_bounds hlength hn hdrawn
  refine ⟨_, run?_eq hb ha hn source, hrange, fun habove ↦ ⟨?_, fun x hx ↦ ?_⟩, fun hbelow ↦ ?_, ?_⟩
  · exact probability_eq_one hlength hn fun x hx ↦ (sub_pos.2 habove).trans_le (hdrawn x hx).1
  · exact (sub_pos.2 habove).trans_le (hrange x hx).1
  · exact probability_eq_zero fun x hx ↦ (hdrawn x hx).2.trans (sub_nonpos.2 hbelow)
  · rintro ⟨b, hbefore⟩ ⟨a, hafter⟩ τ _ source'
    rw [run?_eq hb ha hn, differences_eq_replicate hb ha hbefore hafter source',
      differences_eq_replicate hb ha hbefore hafter source]

theorem resampled_range_risen :
    let source := Cycle.ofWords [0, 0x8000000000000000]
    ([1, 2] ≠ ([] : List ℝ) ∧ [3, 5, 4] ≠ ([] : List ℝ) ∧ 1 ≤ 10) ∧
      ∃ r, run? ([1, 2] : List ℝ) [3, 5, 4] 10 source = some r ∧
        r.probability = 1 ∧ (1 ≤ r.lower99 ∧ r.upper99 ≤ 4) ∧ ∀ x ∈ r.bounds, 0 < x := by
  intro source
  have hb : [1, 2] ≠ ([] : List ℝ) := List.cons_ne_nil _ _
  have ha : [3, 5, 4] ≠ ([] : List ℝ) := List.cons_ne_nil _ _
  have hmax : ([1, 2] : List ℝ).max hb = 2 := by norm_num [List.max]
  have hmin : ([1, 2] : List ℝ).min hb = 1 := by norm_num [List.min]
  have hmax' : ([3, 5, 4] : List ℝ).max ha = 5 := by norm_num [List.max]
  have hmin' : ([3, 5, 4] : List ℝ).min ha = 3 := by norm_num [List.min]
  obtain ⟨r, hrun, hrange, hrisen, -⟩ := resampled_range source hb ha (show 1 ≤ 10 by decide)
  rw [hmax, hmin, hmax', hmin'] at hrange
  obtain ⟨hprobability, hpos⟩ := hrisen (by rw [hmax, hmin']; norm_num)
  refine ⟨⟨hb, ha, by decide⟩, r, hrun, hprobability, ⟨?_, ?_⟩, (List.forall_mem_cons.1 hpos).2⟩
  · linarith [(hrange r.lower99 (by simp [bounds])).1]
  · linarith [(hrange r.upper99 (by simp [bounds])).2]

end MetricWatch.Bootstrap
