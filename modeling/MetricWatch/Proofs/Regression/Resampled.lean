import MetricWatch.Proofs.Stats.Sorted
import MetricWatch.Regression.Bootstrap

namespace MetricWatch.Bootstrap

variable {α σ : Type} [Scalar α] [WordSource σ]

/-- The difference of the means of two lists that are drawn from two samples, each as long as the
sample. -/
def IsResampled (before after : List α) (difference : α) : Prop :=
  ∃ a b : List α, (a.length = after.length ∧ a ⊆ after) ∧
    (b.length = before.length ∧ b ⊆ before) ∧ difference = Stats.mean a - Stats.mean b

theorem exists_draws (values : Array α) (h : 0 < values.size) (count : Nat) (sum : α)
    (source : σ) : ∃ draws : List α, draws.length = count ∧ draws ⊆ values.toList ∧
      (addDraws values h count sum source).1 = draws.foldl (· + ·) sum := by
  induction count generalizing sum source with
  | zero => exact ⟨[], rfl, List.nil_subset _, rfl⟩
  | succ count ih =>
    let draw := WordSource.index values.size source
    have hdraw : draw.1 < values.size := WordSource.index_lt h source
    obtain ⟨draws, hlength, hmem, hsum⟩ := ih (sum + values[draw.1]) draw.2
    refine ⟨values[draw.1] :: draws, congrArg (· + 1) hlength, ?_, hsum⟩
    exact List.cons_subset.2 ⟨values.getElem_mem_toList hdraw, hmem⟩

theorem exists_resample (values : Array α) (h : 0 < values.size) (source : σ) :
    ∃ draws : List α, (draws.length = values.size ∧ draws ⊆ values.toList) ∧
      (resampledMean values h source).1 = Stats.mean draws := by
  obtain ⟨draws, hlength, hmem, hsum⟩ := exists_draws values h values.size (-0.0) source
  refine ⟨draws, ⟨hlength, hmem⟩, ?_⟩
  have hne : ¬ draws.isEmpty = true := by
    rw [List.isEmpty_iff_length_eq_zero]
    omega
  rw [Stats.mean, if_neg hne, hlength, Stats.sum, ← hsum]
  rfl

theorem length_addDifferences (before after : Array α) (hb : 0 < before.size)
    (ha : 0 < after.size) (iterations : Nat) (drawn : List α) (source : σ) :
    (addDifferences before after hb ha iterations drawn source).length =
      drawn.length + iterations := by
  induction iterations generalizing drawn source with
  | zero => rfl
  | succ iterations ih =>
    unfold addDifferences
    rw [ih, List.length_cons]
    omega

theorem isResampled_addDifferences (before after : Array α) (hb : 0 < before.size)
    (ha : 0 < after.size) (iterations : Nat) {drawn : List α} (source : σ)
    (hdrawn : ∀ x ∈ drawn, IsResampled before.toList after.toList x) :
    ∀ x ∈ addDifferences before after hb ha iterations drawn source,
      IsResampled before.toList after.toList x := by
  -- The invariant is about what has been drawn, from whatever state of the source.
  induction iterations generalizing drawn source with
  | zero => exact hdrawn
  | succ iterations ih =>
    unfold addDifferences
    apply ih
    refine List.forall_mem_cons.2 ⟨?_, hdrawn⟩
    obtain ⟨a, hafter, hmean⟩ := exists_resample after ha source
    obtain ⟨b, hbefore, hmean'⟩ := exists_resample before hb (resampledMean after ha source).2
    refine ⟨a, b, hafter, hbefore, ?_⟩
    rw [← hmean, ← hmean']
    rfl

def differences (before after : List α) (iterations : Nat) (source : σ) : List α :=
  if h : 0 < before.toArray.size ∧ 0 < after.toArray.size then
    addDifferences before.toArray after.toArray h.1 h.2 iterations [] source
  else []

variable {before after : List α} {iterations : Nat}

theorem run?_eq (hb : before ≠ []) (ha : after ≠ []) (hn : 0 < iterations) (source : σ) :
    run? before after iterations source =
      some (ofSorted (Stats.sorted (differences before after iterations source)) iterations) := by
  have hsizes : 0 < before.toArray.size ∧ 0 < after.toArray.size :=
    ⟨List.length_pos_iff.2 hb, List.length_pos_iff.2 ha⟩
  rw [run?, dif_pos ⟨hsizes.1, hsizes.2, hn⟩, differences, dif_pos hsizes]

theorem length_differences (hb : before ≠ []) (ha : after ≠ []) (source : σ) :
    (differences before after iterations source).length = iterations := by
  rw [differences, dif_pos ⟨List.length_pos_iff.2 hb, List.length_pos_iff.2 ha⟩,
    length_addDifferences, List.length_nil, Nat.zero_add]

theorem isResampled_differences (source : σ) :
    ∀ x ∈ differences before after iterations source, IsResampled before after x := by
  unfold differences
  split
  · exact isResampled_addDifferences _ _ _ _ iterations source
      fun _ hx ↦ absurd hx List.not_mem_nil
  · exact fun _ hx ↦ absurd hx List.not_mem_nil

variable {drawn : List α} {n : Nat}

theorem cutIndex_lt (hn : 0 < n) (q : α) : cutIndex n q < n := by
  unfold cutIndex
  omega

theorem getElem?_cutIndex (hlength : drawn.length = n) (hn : 0 < n) (q : α) :
    (Stats.sorted drawn)[cutIndex n q]? = some (cut (Stats.sorted drawn) n q) := by
  have hrank : cutIndex n q < (Stats.sorted drawn).length := by
    rw [Stats.length_sorted, hlength]
    exact cutIndex_lt hn q
  rw [cut, List.getD_eq_getElem?_getD, List.getElem?_eq_getElem hrank, Option.getD_some]

theorem cut_mem (hlength : drawn.length = n) (hn : 0 < n) (q : α) :
    cut (Stats.sorted drawn) n q ∈ drawn :=
  Stats.mem_sorted.1 (List.mem_of_getElem? (getElem?_cutIndex hlength hn q))

end MetricWatch.Bootstrap
