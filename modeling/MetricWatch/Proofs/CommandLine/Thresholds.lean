import MetricWatch.Proofs.CommandLine.Answers
import MetricWatch.Proofs.Document.Settings
import MetricWatch.Proofs.Regression.Verdict

namespace MetricWatch.CommandLine

open Binary64

variable {d : Detector Binary64} {g : Gate Binary64} {z pct : Binary64}

theorem validate_detectorWith (h : d.validate = .ok ()) (z : Binary64) :
    (detectorWith d (some z)).validate =
      if z.isFinite = true ∧ 0.0 < z then .ok () else .error (.notPositive "z_threshold" z) := by
  obtain ⟨-, hiqr, hsize⟩ := Detector.validate_eq_ok_iff.1 h
  split
  · rename_i hz
    exact Detector.validate_eq_ok_iff.2 ⟨positiveThreshold_iff.2 hz, hiqr, hsize⟩
  · rename_i hz
    exact if_pos (positiveThreshold_iff.not.2 hz)

theorem gateWith_eq (h : Scalar.IsNumber g.critical) (pct : Binary64) :
    gateWith g (some pct) =
      { g with threshold := pct, critical := Scalar.larger g.critical pct } := by
  rw [gateWith, Scalar.larger, if_pos h]

theorem validate_gateWith (h : g.validate = .ok ()) (pct : Binary64) :
    (gateWith g (some pct)).validate =
      if pct.isFinite = true ∧ 0.0 < pct then .ok () else .error (.thresholdNotPositive pct) := by
  obtain ⟨hlevel, heffect, -, hcritical, -⟩ := Gate.validate_eq_ok_iff.1 h
  split
  · rename_i hpct
    refine Gate.validate_eq_ok_iff.2 ⟨hlevel, heffect, positiveThreshold_iff.2 hpct, ?_⟩
    -- a critical change below the threshold is raised to it
    by_cases hraised : g.critical < pct
    · rw [gateWith, if_pos hraised]
      exact ⟨hpct.1, fun hlt ↦ not_le_of_lt hlt (le_of_lt hlt)⟩
    · rw [gateWith, if_neg hraised]
      exact ⟨hcritical, hraised⟩
  · rename_i hpct
    exact (if_neg (not_not.2 hlevel)).trans <|
      (if_neg (not_or.2 ⟨not_not.2 heffect.1, heffect.2⟩)).trans <|
        if_pos (positiveThreshold_iff.not.2 hpct)

theorem critical_le_threshold (h : g.critical ≤ pct) :
    (gateWith g (some pct)).critical ≤ (gateWith g (some pct)).threshold := by
  rw [gateWith]
  split
  · exact Scalar.le_self_right h
  · exact h

variable {s : Surroundings} {text path : String} {settings : Settings Binary64}

theorem loadSettings_eq (hfile : s.read? path = some text)
    (h : Settings.ofToml text = .ok settings) : s.loadSettings (some path) = .ok settings := by
  rw [Surroundings.loadSettings, hfile]
  simp only [h, Except.mapError]

theorem checked_bind {ε ε' β : Type} {p : Prop} [Decidable p] {check : Except ε Unit} {fault : ε}
    (h : check = if p then .ok () else .error fault) (f : ε → ε') (answer : Unit → Except ε' β) :
    check.mapError f >>= answer = if p then answer () else .error (f fault) := by
  rw [h]
  split <;> rfl

/-- Accepted settings are those that are written, and fit for every command. A threshold on the
command line is accepted if it is a positive number, whatever the settings are; one that is not
below their critical change makes every regression a critical one. -/
theorem accepted_settings {text : String} {settings : Settings Binary64}
    (h : Settings.ofToml text = .ok settings) :
    (∃ root, Toml.parse? text = some root ∧ settings.WrittenIn root) ∧
    settings.detector.validate = .ok () ∧ settings.comparator.validate = .ok () ∧
    settings.gate.validate = .ok () ∧
    ∀ (s : Surroundings) (path : String) (format : Format), s.read? path = some text →
      (∀ argument metric method z series, s.loadSeries argument = .ok series →
        run s ⟨some path, format, .detect argument metric method (some z)⟩ =
          if z.isFinite = true ∧ 0.0 < z then
            .ok (.report (reportOn s.now s.later { settings.detector with zThreshold := z } series
              metric method))
          else .error (.threshold (.notPositive "z_threshold" z))) ∧
      ∀ first second metric pct resampling before after,
        s.loadSeries first = .ok before → s.loadSeries second = .ok after →
        let gate := { settings.gate with
          threshold := pct, critical := Scalar.larger settings.gate.critical pct }
        let r := gate.detect s.now before.values after.values metric
        (run s ⟨some path, format, .regression first second metric (some pct) resampling⟩ =
          if pct.isFinite = true ∧ 0.0 < pct then
            if resampling.all Resampling.hasRoom then
              .ok (.regression r (resampling.bind (resample s before after)))
            else .error .crash
          else .error (.threshold (.thresholdNotPositive pct))) ∧
        (settings.gate.critical ≤ pct → r.isRegression = true → r.severity = .critical) := by
  obtain ⟨root, hparse, hread, hvalid⟩ := Settings.ofToml_eq_ok_iff.1 h
  obtain ⟨hdetector, hcomparator, hgate⟩ := Settings.validate_eq_ok_iff.1 hvalid
  refine ⟨⟨root, hparse, Settings.writtenIn_of_reader hread⟩, hdetector, hcomparator, hgate, ?_⟩
  intro s path format hfile
  have hsettings := loadSettings_eq hfile h
  constructor
  · intro argument metric method z series hseries
    rw [run_eq hsettings, execute_detect hseries]
    exact checked_bind (validate_detectorWith hdetector z) _ _
  · intro first second metric pct resampling before after hbefore hafter
    obtain ⟨-, -, -, hfinite, -⟩ := Gate.validate_eq_ok_iff.1 hgate
    have hgateWith := gateWith_eq (isNumber_iff.2 (isFinite_iff.1 hfinite).1) pct
    rw [run_eq hsettings, execute_regression hbefore hafter, ← hgateWith]
    exact ⟨checked_bind (validate_gateWith hgate pct) _ _,
      fun hcritical ↦ Gate.critical_of_isRegression (critical_le_threshold hcritical)⟩

theorem accepted_settings_two_keys :
    let text := "[detector]\nz_threshold = 2.5\n[regression]\ncritical_threshold_percent = 20.0\n"
    let settings : Settings Binary64 :=
      { Settings.standard with
        detector := { Detector.standard with zThreshold := 2.5 }
        gate := { Gate.standard with critical := 20.0 } }
    let s : Surroundings :=
      ⟨fun path ↦ decide (path = "watch.toml"),
        fun path ↦ if path = "watch.toml" then some text else none, fun _ ↦ false, .epoch, .epoch, 0⟩
    let answer := fun threshold ↦ run s ⟨some "watch.toml", .text,
      .regression "1,2" "1e200,1e200" "latency" (some threshold) none⟩
    Settings.ofToml text = .ok settings ∧
      (∃ root, Toml.parse? text = some root ∧ settings.WrittenIn root) ∧
      (∃ r, answer 30.0 = .ok (.regression r none) ∧ r.isRegression = true ∧
        r.severity = .critical) ∧
      answer (.infinity false) = .error (.threshold (.thresholdNotPositive (.infinity false))) := by
  intro text settings s answer
  have hsettings : Settings.ofToml text = .ok settings := ok_of_toOption (by decide +kernel)
  have hbefore : s.loadSeries "1,2" = .ok ⟨[1.0, 2.0], none⟩ :=
    ok_of_toOption (by decide +kernel)
  have hafter : s.loadSeries "1e200,1e200" = .ok ⟨[1e200, 1e200], none⟩ :=
    ok_of_toOption (by decide +kernel)
  obtain ⟨hwritten, -, -, -, hrun⟩ := accepted_settings hsettings
  have hregression := (hrun s "watch.toml" .text rfl).2 "1,2" "1e200,1e200" "latency"
  obtain ⟨hanswer, hcritical⟩ := hregression 30.0 none _ _ hbefore hafter
  obtain ⟨hrefused, -⟩ := hregression (.infinity false) none _ _ hbefore hafter
  rw [if_pos (by decide +kernel)] at hanswer
  rw [if_neg (by decide +kernel)] at hrefused
  exact ⟨hsettings, hwritten,
    ⟨_, hanswer, by decide +kernel, hcritical (by decide +kernel) (by decide +kernel)⟩, hrefused⟩

end MetricWatch.CommandLine
