import MetricWatch.Proofs.Detection.Selection

namespace MetricWatch

theorem SelectsWhere.countP_kind_le {α : Type} [Scalar α] {values : List α}
    {instants : List Instant} {found : List (Anomaly α)} {kind : AnomalyKind} {p q : α → Prop}
    [DecidablePred p] [DecidablePred q] (h : SelectsWhere p values instants found)
    (hkind : ∀ a ∈ found, a.kind = kind → q a.actual) :
    found.countP (·.kind = kind) ≤ values.countP q := by
  calc found.countP (·.kind = kind) ≤ found.countP fun a ↦ q a.actual := by
        apply List.countP_mono_left
        intro a ha hmatch
        exact decide_eq_true (hkind a ha (of_decide_eq_true hmatch))
    _ = (found.map (·.actual)).countP q := by
        rw [List.countP_map]
        rfl
    _ ≤ values.countP q := (h.actuals_sublist.trans List.filter_sublist).countP_le

namespace Detector

variable {α : Type} [Scalar α] [NumberText α] {d : Detector α} {now t : Instant}
  {metric : String} {values : List α} {timestamps : Option (List Instant)} {mean stdDev v : α}
  {a : Anomaly α}

theorem scorePoint?_kind (h : d.scorePoint? now metric mean stdDev v t = some a) :
    a.kind = if 0.0 < (v - mean) / stdDev then .spike else .drop := by
  simp only [scorePoint?] at h
  split at h
  · cases h
  · obtain rfl := Option.some.inj h
    rfl

theorem kind_of_mem_byZScore (ha : a ∈ d.byZScore now values metric timestamps) :
    a.kind = if 0.0 < ownScore values a.actual then .spike else .drop := by
  obtain ⟨v, t, hfind⟩ := find_of_mem_byZScore ha
  rw [(scorePoint?_eq_some hfind).1]
  exact scorePoint?_kind hfind

theorem Fences.point?_kind {f : Fences α} (h : f.point? now metric v t = some a) :
    a.expected = f.median ∧
      (a.kind = .spike ∧ f.upper < v ∨ a.kind = .drop ∧ v < f.lower) := by
  simp only [point?] at h
  obtain ⟨⟨kind, excess⟩, hexcess, rfl⟩ := Option.map_eq_some_iff.1 h
  refine ⟨rfl, ?_⟩
  simp only [excess?] at hexcess
  split at hexcess
  · rename_i hupper
    cases hexcess
    exact .inl ⟨rfl, hupper⟩
  · split at hexcess
    · rename_i hlower
      cases hexcess
      exact .inr ⟨rfl, hlower⟩
    · cases hexcess

theorem kind_of_mem_byFences (ha : a ∈ d.byFences now values metric timestamps) :
    a.expected = (d.fences values).median ∧
      (a.kind = .spike ∧ (d.fences values).upper < a.actual ∨
        a.kind = .drop ∧ a.actual < (d.fences values).lower) := by
  obtain ⟨v, t, hfind⟩ := find_of_mem_byFences ha
  rw [(Fences.point?_eq_some hfind).1]
  exact Fences.point?_kind hfind

end Detector

end MetricWatch
