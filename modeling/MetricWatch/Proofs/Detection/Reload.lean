import MetricWatch.Proofs.Detection.Baseline
import MetricWatch.Proofs.Stats.Range
import MetricWatch.Proofs.Store
import MetricWatch.Proofs.Validation

namespace MetricWatch.Detector

open Binary64

variable {d : Detector Binary64} {values : List Binary64} {e f s : Nat}

theorem baseline_numbers (now : Instant) (metric : String) (periodDays : Nat) (h : values ≠ []) :
    (d.baseline now values metric periodDays).numbers =
      [Stats.mean values, Stats.median (Stats.sorted values), Stats.populationStdDev values,
        (Stats.sorted values).headD 0.0, (Stats.sorted values).getLastD 0.0,
        Stats.percentile (Stats.sorted values) 5.0, (d.fences values).q1, (d.fences values).q3,
        Stats.percentile (Stats.sorted values) 95.0, Stats.percentile (Stats.sorted values) 99.0,
        (d.fences values).iqr, (d.fences values).lower, (d.fences values).upper] := by
  simp [baseline, Baseline.ofSample, Baseline.numbers, fences, h]

theorem headD_sorted_mem (h : values ≠ []) : (Stats.sorted values).headD 0.0 ∈ values := by
  have hne := Stats.sorted_ne_nil_iff.2 h
  rw [List.headD_eq_head?_getD, List.head?_eq_some_head hne, Option.getD_some]
  exact Stats.mem_sorted.1 (List.head_mem hne)

theorem getLastD_sorted_mem (h : values ≠ []) : (Stats.sorted values).getLastD 0.0 ∈ values := by
  have hne := Stats.sorted_ne_nil_iff.2 h
  rw [List.getLastD_eq_getLast?, List.getLast?_eq_some_getLast hne, Option.getD_some]
  exact Stats.mem_sorted.1 (List.getLast_mem hne)

theorem isFinite_of_fences (h : (d.fences values).lower.isFinite = true)
    (h' : (d.fences values).upper.isFinite = true) :
    (d.fences values).q1.isFinite = true ∧ (d.fences values).q3.isFinite = true ∧
      (d.fences values).iqr.isFinite = true := by
  obtain ⟨hq1, hdistance⟩ := isFinite_of_sub h
  exact ⟨hq1, (isFinite_of_add h').1, (isFinite_of_mul hdistance).2⟩

theorem isFinite_numbers_iff (now : Instant) (metric : String) (periodDays : Nat)
    (h : values ≠ []) (hlen : values.length < 2 ^ 64) :
    (∀ x ∈ (d.baseline now values metric periodDays).numbers, x.isFinite = true) ↔
      (Stats.populationStdDev values).isFinite = true ∧
        (d.fences values).lower.isFinite = true ∧ (d.fences values).upper.isFinite = true := by
  rw [baseline_numbers now metric periodDays h]
  constructor
  · intro hall
    exact ⟨hall _ (by simp), hall _ (by simp), hall _ (by simp)⟩
  · rintro ⟨hdev, hlower, hupper⟩
    have hvalue (v) (hv : v ∈ values) := (isFinite_of_sub (Stats.isFinite_sub_mean hdev hv)).1
    have hmean := (isFinite_of_sub (Stats.isFinite_sub_mean hdev (headD_sorted_mem h))).2
    have hpercentile {p : Binary64} (hp : AtMost unit (p / 100.0)) :=
      Stats.isFinite_percentile hdev h hlen hp
    have hmedian := hpercentile (p := 50.0) (by decide +kernel)
    have hp5 := hpercentile (p := 5.0) (by decide +kernel)
    have hp95 := hpercentile (p := 95.0) (by decide +kernel)
    have hp99 := hpercentile (p := 99.0) (by decide +kernel)
    obtain ⟨hq1, hq3, hiqr⟩ := isFinite_of_fences hlower hupper
    simp only [List.forall_mem_cons, List.not_mem_nil, false_imp_iff, implies_true, and_true]
    exact ⟨hmean, hmedian, hdev, hvalue _ (headD_sorted_mem h), hvalue _ (getLastD_sorted_mem h),
      hp5, hq1, hq3, hp95, hp99, hiqr, hlower, hupper⟩

theorem isFinite_fences (hlen : values.length < 2 ^ 64) (hv : ∀ v ∈ values, AtMost (2 ^ e) v)
    (hk : AtMost (2 ^ s) d.iqrMultiplier) (hroom : e + 67 ≤ f) (hproduct : s + (e + 68) ≤ f + 1074)
    (hf : f + 1 < 2098) :
    (d.fences values).lower.isFinite = true ∧ (d.fences values).upper.isFinite = true := by
  have hvalue : ∀ v ∈ Stats.sorted values, AtMost (2 ^ e) v := fun v h ↦ hv v (Stats.mem_sorted.1 h)
  have hquartile {p : Binary64} (hp : AtMost unit (p / 100.0)) :
      AtMost (2 ^ (e + 67)) (Stats.percentile (Stats.sorted values) p) := by
    refine Stats.atMost_percentile (e := e + 1) hp (by rwa [Stats.length_sorted]) hvalue
      (fun v h w h' ↦ (hvalue w h').sub (hvalue v h) (isSize_two_pow (by omega)) ?_)
      (isSize_two_pow (by omega)) ?_ (by omega)
    · exact (Nat.two_mul _).symm.trans_le (Nat.pow_succ' ▸ Nat.le_refl _)
    · have hstart : 2 ^ e ≤ 2 ^ (e + 66) := Nat.pow_le_pow_right (by decide) (by omega)
      calc 2 ^ e + 2 ^ (e + 1 + 65) ≤ 2 ^ (e + 66) * 2 := by
            rw [show e + 1 + 65 = e + 66 by omega]
            omega
        _ = 2 ^ (e + 67) := (Nat.pow_succ _ _).symm
  have hq1 : AtMost (2 ^ (e + 67)) (d.fences values).q1 := hquartile (by decide +kernel)
  have hq3 : AtMost (2 ^ (e + 67)) (d.fences values).q3 := hquartile (by decide +kernel)
  have hiqr : AtMost (2 ^ (e + 68)) (d.fences values).iqr := by
    apply hq3.sub hq1 (isSize_two_pow (by omega))
    rw [← Nat.two_mul, ← Nat.pow_succ']
  have hdistance : AtMost (2 ^ f) (d.iqrMultiplier * (d.fences values).iqr) := by
    apply hk.mul hiqr (isSize_two_pow (by omega))
    obtain ⟨w, hw, hunit⟩ := unit_eq_two_pow
    rw [hunit, ← Nat.pow_add, ← Nat.pow_add]
    exact Nat.pow_le_pow_right (by decide) (by omega)
  have hfence : 2 ^ (e + 67) + 2 ^ f ≤ 2 ^ (f + 1) := by
    have hle : 2 ^ (e + 67) ≤ 2 ^ f := Nat.pow_le_pow_right (by decide) hroom
    have hdouble : 2 ^ (f + 1) = 2 ^ f * 2 := Nat.pow_succ _ _
    omega
  exact ⟨(hq1.sub hdistance (isSize_two_pow hf) hfence).isFinite,
    (hq3.add hdistance (isSize_two_pow hf) hfence).isFinite⟩

theorem isFinite_of_abs_le (hd : d.validate = .ok ()) (hne : values ≠ [])
    (hlen : values.length < 2 ^ 64) (hv : ∀ v ∈ values, Scalar.abs v ≤ 1e145)
    (hk : d.iqrMultiplier ≤ 1e100) :
    (Stats.populationStdDev values).isFinite = true ∧
      (d.fences values).lower.isFinite = true ∧ (d.fences values).upper.isFinite = true := by
  obtain ⟨e, he, hvalue⟩ : ∃ e, e = 1558 ∧ (1e145 : Binary64).units ≤ 1 <<< e :=
    ⟨_, rfl, by decide +kernel⟩
  obtain ⟨s, hs, hmultiplier⟩ : ∃ s, s = 1407 ∧ (1e100 : Binary64).units ≤ 1 <<< s :=
    ⟨_, rfl, by decide +kernel⟩
  rw [Nat.one_shiftLeft] at hvalue hmultiplier
  have hvalues : ∀ v ∈ values, AtMost (2 ^ e) v := fun v h ↦
    atMost_of_abs_le ⟨by decide +kernel, hvalue⟩ (hv v h)
  obtain ⟨-, ⟨-, hpositive⟩, -⟩ := validate_eq_ok_iff.1 hd
  constructor
  · exact (Stats.atMost_populationStdDev (e := e) (f := e + 486) (g := e + 2) (by omega) (by omega)
      (by omega) (by omega) (by omega) hvalues hne hlen).isFinite
  · exact isFinite_fences (f := e + 401) hlen hvalues
      (atMost_of_pos_le ⟨by decide +kernel, hmultiplier⟩ hpositive hk) (by omega) (by omega)
      (by omega)

theorem storable_baseline_iff (now : Instant) (metric : String) {periodDays : Nat}
    (hne : values ≠ []) (hlen : values.length < 2 ^ 64) (hperiod : periodDays < 2 ^ 32) :
    (d.baseline now values metric periodDays).Storable ↔
      (Stats.populationStdDev values).isFinite = true ∧
        (d.fences values).lower.isFinite = true ∧ (d.fences values).upper.isFinite = true := by
  have hcounts : (d.baseline now values metric periodDays).CountsFit := by
    refine ⟨(baseline_sampleCount hne).trans_lt hlen, ?_⟩
    simpa [baseline, Baseline.ofSample, hne] using hperiod
  rw [Baseline.Storable, and_iff_right hcounts, isFinite_numbers_iff now metric periodDays hne hlen]

/-- The bounds leave room for the squares of the deviations. Finite values beyond them may give
numbers that are not finite, which the text of a baseline cannot hold. -/
theorem reload_baseline (now : Instant) (metric : String) (periodDays : Nat)
    (hd : d.validate = .ok ()) (hne : values ≠ []) (hlen : values.length < 2 ^ 64)
    (hperiod : periodDays < 2 ^ 32) :
    let b := d.baseline now values metric periodDays
    (Store.loadBaseline (Store.saveBaseline b) =
      if b.stdDev.isFinite = true ∧ b.lowerFence.isFinite = true ∧ b.upperFence.isFinite = true
      then .ok b else .error .malformed) ∧
    ((∀ v ∈ values, Scalar.abs v ≤ 1e145) → d.iqrMultiplier ≤ 1e100 →
      Store.loadBaseline (Store.saveBaseline b) = .ok b) := by
  intro b
  have hlower : b.lowerFence = (d.fences values).lower := by
    simp [b, baseline, Baseline.ofSample, fences, hne]
  have hupper : b.upperFence = (d.fences values).upper := by
    simp [b, baseline, Baseline.ofSample, fences, hne]
  have hdev : b.stdDev = Stats.populationStdDev values := baseline_stdDev hne
  have hstorable := storable_baseline_iff (d := d) now metric hne hlen hperiod
  rw [Store.loadBaseline_saveBaseline, hlower, hupper, hdev]
  refine ⟨if_congr hstorable rfl rfl, fun hv hk ↦ if_pos ?_⟩
  exact hstorable.2 (isFinite_of_abs_le hd hne hlen hv hk)

theorem reload_baseline_pair :
    let d : Detector Binary64 := .standard
    let b := d.baseline .epoch [100.0, 1e145] "latency" 7
    d.validate = .ok () ∧ Store.loadBaseline (Store.saveBaseline b) = .ok b := by
  intro d b
  have hd : d.validate = .ok () := validate_eq_ok_iff.2 (by decide +kernel)
  refine ⟨hd, (reload_baseline .epoch "latency" 7 hd (List.cons_ne_nil _ _) (by decide)
    (by decide)).2 ?_ (by decide +kernel)⟩
  simp only [List.forall_mem_cons, List.not_mem_nil, false_imp_iff, implies_true, and_true]
  decide +kernel

theorem reload_baseline_large :
    let d : Detector Binary64 := .standard
    let values : List Binary64 := [1e308, 1e308]
    let b := d.baseline .epoch values "latency" 7
    d.validate = .ok () ∧ (∀ v ∈ values, v.isFinite = true) ∧ b.mean.isFinite = false ∧
      b.stdDev.isFinite = false ∧
      Store.loadBaseline (Store.saveBaseline b) = .error .malformed := by
  intro d values b
  have hdev : b.stdDev.isFinite = false := by decide +kernel
  refine ⟨validate_eq_ok_iff.2 (by decide +kernel), by decide +kernel, by decide +kernel, hdev, ?_⟩
  rw [Store.loadBaseline_saveBaseline, if_neg]
  intro hstorable
  exact Bool.false_ne_true (hdev.symm.trans (hstorable.2 _ (by simp [Baseline.numbers])))

end MetricWatch.Detector
