import MetricWatch.Binary64.Text
import MetricWatch.Proofs.Binary64.Decimal
import MetricWatch.Proofs.Stats.Sorted
import MetricWatch.Regression.Distribution
import MetricWatch.Regression.Gate

namespace MetricWatch

namespace Binary64

theorem rank_neg_iff {x : Binary64} : x.rank < 0 ↔ x.negative = true := by
  unfold rank
  split
  · rename_i hx
    rw [iff_true_right hx]
    omega
  · rename_i hx
    rw [iff_false_right hx]
    omega

theorem rank_injective : Function.Injective rank := by
  intro x y h
  have hsign : x.negative = y.negative := by
    rw [Bool.eq_iff_iff, ← rank_neg_iff, ← rank_neg_iff, h]
  have hmagnitude : x.magnitude = y.magnitude := by
    unfold rank at h
    rw [hsign] at h
    split at h
    · omega
    · omega
  rw [← ofMagnitude_self x, hsign, hmagnitude, ofMagnitude_self]

end Binary64

theorem Stats.sorted_of_perm {values values' : List Binary64} (h : values.Perm values') :
    sorted values' = sorted values :=
  sorted_congr Binary64.rank decide_eq_true_iff Binary64.rank_injective h.symm

def Baseline.orderStatistics {α : Type} (b : Baseline α) : List α :=
  [b.minimum, b.maximum, b.median, b.p5, b.p25, b.p75, b.p95, b.p99, b.iqr, b.lowerFence,
    b.upperFence]

def Shape.orderStatistics {α : Type} (s : Shape α) : List α :=
  [s.p50, s.p90, s.p99, s.minimum, s.maximum]

def ShapeComparison.orderStatistics {α : Type} (c : ShapeComparison α) : List α × List α :=
  (c.before.orderStatistics, c.after.orderStatistics)

namespace Detector

variable {d : Detector Binary64} {now : Instant} {metric : String}

theorem fences_of_perm {values values' : List Binary64} (h : values.Perm values') :
    d.fences values' = d.fences values := by
  simp only [fences, Stats.sorted_of_perm h]

theorem byFences_points {α : Type} [Scalar α] [NumberText α] {d : Detector α}
    (points : List (α × Instant)) :
    d.byFences now (points.map (·.1)) metric (some (points.map (·.2))) =
      if points.length < d.minSampleSize then []
      else points.filterMap fun (v, t) ↦ (d.fences (points.map (·.1))).point? now metric v t := by
  have hzip : (points.map (·.1)).zip (points.map (·.2)) = points := (List.zip_of_prod rfl rfl).symm
  simp only [byFences, resolveTimestamps, Option.getD_some, List.length_map, hzip]

theorem byFences_of_perm {points points' : List (Binary64 × Instant)} (h : points.Perm points') :
    (d.byFences now (points'.map (·.1)) metric (some (points'.map (·.2)))).Perm
      (d.byFences now (points.map (·.1)) metric (some (points.map (·.2)))) := by
  rw [byFences_points, byFences_points, h.length_eq, fences_of_perm (h.map _)]
  split
  · exact .refl _
  · exact (h.filterMap _).symm

theorem baseline_of_perm {values values' : List Binary64} (h : values.Perm values')
    (periodDays : Nat) :
    (d.baseline now values' metric periodDays).orderStatistics =
      (d.baseline now values metric periodDays).orderStatistics := by
  have hempty : values'.isEmpty = values.isEmpty := h.symm.isEmpty_eq
  simp only [baseline, Baseline.ofSample, hempty, Stats.sorted_of_perm h]
  split
  · rfl
  · rfl

end Detector

theorem Shape.ofValues_of_perm {values values' : List Binary64} (h : values.Perm values') :
    (ofValues values').orderStatistics = (ofValues values).orderStatistics := by
  simp only [ofValues, Stats.sorted_of_perm h, orderStatistics]

section Samples

variable {before before' after after' : List Binary64} (hbefore : before.Perm before')
  (hafter : after.Perm after')
include hbefore hafter

theorem compareShapes?_of_perm :
    (compareShapes? before' after').map (·.orderStatistics) =
      (compareShapes? before after).map (·.orderStatistics) := by
  simp only [compareShapes?, hbefore.symm.isEmpty_eq, hafter.symm.isEmpty_eq]
  split
  · rfl
  · simp only [Option.map_some, ShapeComparison.orderStatistics, Shape.ofValues_of_perm hbefore,
      Shape.ofValues_of_perm hafter]

theorem Gate.detectBy_of_perm (g : Gate Binary64) (tail : (t df : Binary64) → Binary64)
    (now : Instant) (metric : String) :
    let r := g.detectBy tail now before after metric
    let r' := g.detectBy tail now before' after' metric
    r'.beforeP99 = r.beforeP99 ∧ r'.afterP99 = r.afterP99 ∧ r'.p99Change = r.p99Change := by
  simp only [detectBy, hbefore.symm.isEmpty_eq, hafter.symm.isEmpty_eq]
  split
  · exact ⟨rfl, rfl, rfl⟩
  · simp only [judge, p99, Stats.sorted_of_perm hbefore, Stats.sorted_of_perm hafter, and_self]

end Samples

namespace Detector

/-- The findings arrive in the order of their points, so they are the same up to that order. -/
theorem arrival_order {points points' : List (Binary64 × Instant)} (hpoints : points.Perm points')
    {before before' after after' : List Binary64} (hbefore : before.Perm before')
    (hafter : after.Perm after') (d : Detector Binary64) (g : Gate Binary64) (now : Instant)
    (metric : String) (periodDays : Nat) :
    let values := points.map (·.1)
    let values' := points'.map (·.1)
    let r := g.detect now before after metric
    let r' := g.detect now before' after' metric
    (d.byFences now values' metric (some (points'.map (·.2)))).Perm
        (d.byFences now values metric (some (points.map (·.2)))) ∧
      (d.baseline now values' metric periodDays).orderStatistics =
        (d.baseline now values metric periodDays).orderStatistics ∧
      (compareShapes? before' after').map (·.orderStatistics) =
        (compareShapes? before after).map (·.orderStatistics) ∧
      r'.beforeP99 = r.beforeP99 ∧ r'.afterP99 = r.afterP99 ∧ r'.p99Change = r.p99Change :=
  ⟨byFences_of_perm hpoints, baseline_of_perm (hpoints.map _) periodDays,
    compareShapes?_of_perm hbefore hafter, g.detectBy_of_perm hbefore hafter Tail.pValue now metric⟩

/-- Two values are not numbers. The first of them in the order of arrival becomes the mean. -/
theorem arrival_order_reversed :
    let points : List (Binary64 × Instant) := (.nan true, .epoch) :: (9.0, .epoch) ::
      (-0.0, .epoch) :: (.nan false, .epoch) :: List.replicate 4 (0.0, .epoch)
    let values := points.map (·.1)
    let values' := points.reverse.map (·.1)
    let d : Detector Binary64 := ⟨3.0, 1.5, 2⟩
    let found := d.byFences .epoch values "latency" (some (points.map (·.2)))
    let found' := d.byFences .epoch values' "latency" (some (points.reverse.map (·.2)))
    let b := d.baseline .epoch values "latency" 1
    let b' := d.baseline .epoch values' "latency" 1
    points.Perm points.reverse ∧ values.Perm values' ∧ found.map (·.actual) = [9.0] ∧
      found'.Perm found ∧ b'.orderStatistics = b.orderStatistics ∧ b'.mean ≠ b.mean := by
  intro points values values' d found found' b b'
  have hpoints : points.Perm points.reverse := points.reverse_perm.symm
  have hvalues : values.Perm values' := hpoints.map _
  have hsorted : Stats.sorted values =
      [.nan true, -0.0, 0.0, 0.0, 0.0, 0.0, 9.0, .nan false] :=
    Stats.sorted_eq_of_pairwise Binary64.rank decide_eq_true_iff Binary64.rank_injective
      (by decide +kernel) (by decide +kernel)
  have hactual : found.map (·.actual) = [9.0] := by
    simp only [found, byFences_points, fences, values, hsorted]
    decide +kernel
  have hmean : b'.mean ≠ b.mean := by decide +kernel
  obtain ⟨hfound, hbaseline, -⟩ :=
    arrival_order hpoints hvalues hvalues.symm d .standard .epoch "latency" 1
  exact ⟨hpoints, hvalues, hactual, hfound, hbaseline, hmean⟩

end Detector

end MetricWatch
