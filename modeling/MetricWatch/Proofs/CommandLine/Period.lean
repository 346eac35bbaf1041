import MetricWatch.Proofs.CommandLine.Answers
import MetricWatch.Proofs.Detection.Selection
import MetricWatch.Proofs.Instant.Order
import MetricWatch.Proofs.Series.Formats
import MetricWatch.Proofs.Validation

namespace MetricWatch

/-- The period is in the order of time and contains the instants of the anomalies. -/
def Report.Covers (r : Report Binary64) : Prop :=
  r.periodStart ≤ r.periodEnd ∧
    ∀ a ∈ r.anomalies, r.periodStart ≤ a.timestamp ∧ a.timestamp ≤ r.periodEnd

theorem bounds_of_pairwise {instants : List Instant} {first last t : Instant}
    (h : instants.Pairwise (· ≤ ·)) (hfirst : instants.head? = some first)
    (hlast : instants.getLast? = some last) (ht : t ∈ instants) : first ≤ t ∧ t ≤ last := by
  constructor
  · obtain ⟨later, rfl⟩ := List.head?_eq_some_iff.1 hfirst
    rcases List.mem_cons.1 ht with rfl | ht
    · exact t.le_refl
    · exact List.rel_of_pairwise_cons h ht
  · obtain ⟨earlier, rfl⟩ := List.getLast?_eq_some_iff.1 hlast
    rcases List.mem_append.1 ht with ht | ht
    · exact (List.pairwise_append.1 h).2.2 t ht last (List.mem_singleton_self _)
    · rw [List.mem_singleton.1 ht]
      exact last.le_refl

namespace CommandLine

variable {s : Surroundings} {i : Invocation} {settings : Settings Binary64} {series : Series}
  {argument metric : String} {method : Method} {threshold : Option Binary64}

theorem run_detect (hsettings : s.loadSettings i.settings = .ok settings)
    (hcommand : i.command = .detect argument metric method threshold)
    (hseries : s.loadSeries argument = .ok series)
    (hvalid : (detectorWith settings.detector threshold).validate = .ok ()) :
    run s i = .ok (.report
      (reportOn s.now s.later (detectorWith settings.detector threshold) series metric
        method)) := by
  rw [run_eq hsettings, hcommand, execute_detect hseries, hvalid]
  rfl

variable {now later : Instant} {d : Detector Binary64} {t : Instant}

theorem anomalies_reportOn : (reportOn now later d series metric method).anomalies =
    d.detect now series.values metric series.timestamps method := rfl

theorem timestamps_reportOn {a : Anomaly Binary64}
    (ha : a ∈ (reportOn now later d series metric method).anomalies) :
    a.timestamp ∈ resolveTimestamps now series.values.length series.timestamps := by
  rw [anomalies_reportOn] at ha
  exact List.take_subset _ _
    (Detector.timestamps_detect_subset series.timestamps method (List.mem_map_of_mem ha))

theorem covers_reportOn (hperiod : (period later series).1 ≤ (period later series).2)
    (h : ∀ t ∈ resolveTimestamps now series.values.length series.timestamps,
      (period later series).1 ≤ t ∧ t ≤ (period later series).2) :
    (reportOn now later d series metric method).Covers :=
  ⟨hperiod, fun _ ha ↦ h _ (timestamps_reportOn ha)⟩

theorem period_of_none (later : Instant) (h : series.timestamps = none) :
    period later series = (later.backBy (series.values.length - 1), later) := by
  rw [period, h]

theorem covers_of_none (h : series.timestamps = none) :
    (reportOn now now d series metric method).Covers := by
  have hperiod := period_of_none now h
  refine covers_reportOn (hperiod ▸ now.backBy_le _) fun t ht ↦ ?_
  rw [h] at ht
  obtain ⟨i, -, rfl⟩ := List.mem_map.1 ht
  rw [hperiod]
  exact ⟨now.backBy_anti (by omega), now.backBy_le _⟩

theorem period_of_some (later : Instant) {instants : List Instant}
    (h : series.timestamps = some instants) (hne : instants ≠ []) :
    instants.head? = some (period later series).1 ∧
      instants.getLast? = some (period later series).2 := by
  cases instants with
  | nil => exact absurd rfl hne
  | cons first rest =>
    rw [period, h, List.getLast?_cons, ← List.getLastD_eq_getLast?]
    exact ⟨rfl, rfl⟩

/-- The report on a series is over the period from its first to its last instant, and contains no
others. Where all of them lie within, it covers what is found, so it does for a series in the order
of time. Without instants the period ends when the clock is read for it, and covers what is found if
the clock stood still since the detection. -/
theorem report_period (hsettings : s.loadSettings i.settings = .ok settings)
    (hcommand : i.command = .detect argument metric method threshold)
    (hseries : s.loadSeries argument = .ok series)
    (hvalid : (detectorWith settings.detector threshold).validate = .ok ()) :
    ∃ r, run s i = .ok (.report r) ∧
      (series.timestamps = none →
        r.periodStart = s.later.backBy (series.values.length - 1) ∧ r.periodEnd = s.later ∧
        (s.later = s.now → r.Covers)) ∧
      ∀ instants, series.timestamps = some instants →
        instants.head? = some r.periodStart ∧ instants.getLast? = some r.periodEnd ∧
        (∀ a ∈ r.anomalies, a.timestamp ∈ instants) ∧
        ((∀ t ∈ instants, r.periodStart ≤ t ∧ t ≤ r.periodEnd) → r.Covers) ∧
        (instants.Pairwise (· ≤ ·) → r.Covers) := by
  refine ⟨_, run_detect hsettings hcommand hseries hvalid, ?_, ?_⟩
  · intro hnone
    have hperiod := period_of_none s.later hnone
    refine ⟨congrArg Prod.fst hperiod, congrArg Prod.snd hperiod, fun hlater ↦ ?_⟩
    rw [hlater]
    exact covers_of_none hnone
  · intro instants hinstants
    have hsound := Series.sound_of_load (ok_of_mapError hseries)
    have hne : instants ≠ [] := by
      rintro rfl
      exact hsound.values_ne_nil
        (List.length_eq_zero_iff.1 (hsound.length_timestamps [] hinstants).symm)
    obtain ⟨hfirst, hlast⟩ := period_of_some s.later hinstants hne
    have hresolved : resolveTimestamps s.now series.values.length series.timestamps = instants := by
      rw [hinstants]
      rfl
    have hcovers
        (h : ∀ t ∈ instants, (period s.later series).1 ≤ t ∧ t ≤ (period s.later series).2) :
        (reportOn s.now s.later (detectorWith settings.detector threshold) series metric
          method).Covers :=
      covers_reportOn (h _ (List.mem_of_head? hfirst)).2 (hresolved ▸ h)
    exact ⟨hfirst, hlast, fun a ha ↦ hresolved ▸ timestamps_reportOn ha, hcovers,
      fun h ↦ hcovers fun t ht ↦ bounds_of_pairwise h hfirst hlast ht⟩

def spikeFile (seconds : List Nat) : String :=
  "\x7b\"values\": [9, 50, 9], \"timestamps\": [" ++
    ", ".intercalate (seconds.map fun k ↦ "\"1970-01-01T00:00:0" ++ toString k ++ "Z\"") ++ "]\x7d"

def spikeSeries (seconds : List Nat) : Series :=
  ⟨[9.0, 50.0, 9.0], some (seconds.map fun k ↦ (Instant.ofParts? k 0).getD .epoch)⟩

def spikeSettings : Settings Binary64 :=
  { Settings.standard with detector := { Detector.standard with minSampleSize := 3 } }

def spikeSurroundings (seconds : List Nat) : Surroundings where
  isFile path := decide (path ∈ ["watch.toml", "spike.json"])
  read? path :=
    if path = "watch.toml" then some "[detector]\nmin_sample_size = 3\n"
    else if path = "spike.json" then some (spikeFile seconds) else none
  writable _ := false
  now := .epoch
  later := .epoch
  seed := 0

def spikeInvocation : Invocation :=
  ⟨some "watch.toml", .json, .detect "spike.json" "metric" .zScore (some 1.0)⟩

theorem spikeSettings_loaded (seconds : List Nat) :
    (spikeSurroundings seconds).loadSettings spikeInvocation.settings = .ok spikeSettings := by
  have h : Settings.ofToml "[detector]\nmin_sample_size = 3\n" = .ok spikeSettings :=
    ok_of_toOption (by decide +kernel)
  change (Settings.ofToml "[detector]\nmin_sample_size = 3\n").mapError _ = _
  rw [h]
  rfl

theorem spikeSettings_valid : (detectorWith spikeSettings.detector (some 1.0)).validate = .ok () :=
  Detector.validate_eq_ok_iff.2 (by decide +kernel)

theorem report_period_ascending : ∃ r,
    run (spikeSurroundings [0, 1, 2]) spikeInvocation = .ok (.report r) ∧ r.Covers := by
  have hseries : (spikeSurroundings [0, 1, 2]).loadSeries "spike.json" =
      .ok (spikeSeries [0, 1, 2]) := ok_of_toOption (by decide +kernel)
  obtain ⟨r, hrun, -, hperiod⟩ :=
    report_period (spikeSettings_loaded [0, 1, 2]) rfl hseries spikeSettings_valid
  exact ⟨r, hrun, (hperiod _ rfl).2.2.2.2 (by decide +kernel)⟩

/-- In a file that goes back in time the period ends before it starts, and what is found lies before
its start. -/
theorem report_period_descending : ∃ r,
    run (spikeSurroundings [2, 1, 0]) spikeInvocation = .ok (.report r) ∧
      ¬ r.periodStart ≤ r.periodEnd ∧ (∃ a ∈ r.anomalies, ¬ r.periodStart ≤ a.timestamp) ∧
      ¬ r.Covers := by
  have hseries : (spikeSurroundings [2, 1, 0]).loadSeries "spike.json" =
      .ok (spikeSeries [2, 1, 0]) := ok_of_toOption (by decide +kernel)
  have hrun := run_detect (spikeSettings_loaded [2, 1, 0]) rfl hseries spikeSettings_valid
  let r := reportOn .epoch .epoch (detectorWith spikeSettings.detector (some 1.0))
    (spikeSeries [2, 1, 0]) "metric" .zScore
  have hinverted : ¬ r.periodStart ≤ r.periodEnd := by decide +kernel
  have hfound : ∃ a ∈ r.anomalies, ¬ r.periodStart ≤ a.timestamp := by decide +kernel
  exact ⟨r, hrun, hinverted, hfound, fun h ↦ hinverted h.1⟩

end CommandLine

end MetricWatch
