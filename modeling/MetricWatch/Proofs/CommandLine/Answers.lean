import MetricWatch.CommandLine.Run
import MetricWatch.Proofs.Detection.Locality
import MetricWatch.Proofs.Node.Faithful

namespace MetricWatch.CommandLine

/-- The answers to a command, each with what had to be loaded and accepted for it. -/
inductive Answers (s : Surroundings) (settings : Settings Binary64) :
    Command → Result → Prop where
  | detect {argument metric : String} {method : Method} {threshold : Option Binary64}
    {series : Series} (hseries : s.loadSeries argument = .ok series)
    (hvalid : (detectorWith settings.detector threshold).validate = .ok ()) :
    Answers s settings (.detect argument metric method threshold)
      (.report
        (reportOn s.now s.later (detectorWith settings.detector threshold) series metric method))
  | regression {first second metric : String} {threshold : Option Binary64}
    {resampling : Option Resampling} {before after : Series}
    (hbefore : s.loadSeries first = .ok before) (hafter : s.loadSeries second = .ok after)
    (hvalid : (gateWith settings.gate threshold).validate = .ok ())
    (hroom : resampling.all Resampling.hasRoom = true) :
    Answers s settings (.regression first second metric threshold resampling)
      (.regression
        ((gateWith settings.gate threshold).detect s.now before.values after.values metric)
        (resampling.bind (resample s before after)))
  | baseline {argument metric : String} {periodDays : Nat} {output : Option String}
    {series : Series} (hseries : s.loadSeries argument = .ok series)
    (hvalid : settings.detector.validate = .ok ())
    (hwritable : output.all s.writable = true) :
    Answers s settings (.baseline argument metric periodDays output)
      (.baseline (settings.detector.baseline s.now series.values metric periodDays) output)
  | compare {argument path : String} {series : Series} {b : Baseline Binary64}
    (hseries : s.loadSeries argument = .ok series) (hbaseline : s.loadBaseline path = .ok b)
    (hvalid : settings.comparator.validate = .ok ()) :
    Answers s settings (.compare argument path)
      (.comparison (settings.comparator.compare s.now series.values b series.timestamps))
  | drift {paths : List String} {history : List (Baseline Binary64)}
    (hhistory : paths.mapM s.loadBaseline = .ok history)
    (hvalid : settings.comparator.validate = .ok ()) :
    Answers s settings (.drift paths) (.drift (settings.comparator.drift history))
  | changePoints {argument : String} {window : Nat} {series : Series}
    {points : List (Nat × Binary64)} (hseries : s.loadSeries argument = .ok series)
    (hvalid : settings.detector.validate = .ok ())
    (hpoints : settings.detector.changePoints? series.values window = some points) :
    Answers s settings (.changePoints argument window) (.changePoints window points)

theorem ok_of_mapError {β ε ε' : Type} {x : Except ε β} {f : ε → ε'} {b : β}
    (h : x.mapError f = .ok b) : x = .ok b := by
  cases x with
  | error fault => cases h
  | ok a => exact congrArg Except.ok (Except.ok.inj h)

theorem ok_of_toOption {ε β : Type} {x : Except ε β} {b : β} (h : x.toOption = some b) :
    x = .ok b := by
  cases x with
  | error e => cases h
  | ok a => exact congrArg Except.ok (Option.some.inj h)

section Errors

variable {ε ε' β γ : Type} {x : Except ε β} {fault : ε}

theorem ok_ne_error (b : β) : Except.ok b ≠ .error fault := nofun

theorem bind_ne_error {f : β → Except ε γ} (hx : x ≠ .error fault)
    (hf : ∀ a, x = .ok a → f a ≠ .error fault) : x >>= f ≠ .error fault := by
  cases x with
  | error e =>
    intro h
    exact hx (congrArg Except.error (Except.error.inj h))
  | ok a => exact hf a rfl

theorem mapError_ne_error {f : ε → ε'} {fault : ε'} (hf : ∀ e, f e ≠ fault) :
    x.mapError f ≠ .error fault := by
  cases x with
  | error e => exact fun h ↦ hf e (Except.error.inj h)
  | ok a => exact ok_ne_error a

theorem mapM_ne_error {f : β → Except ε γ} (hf : ∀ a, f a ≠ .error fault) (as : List β) :
    as.mapM f ≠ .error fault := by
  induction as with
  | nil => exact ok_ne_error _
  | cons a as ih =>
    rw [List.mapM_cons]
    exact bind_ne_error (hf a) fun _ _ ↦ bind_ne_error ih fun _ _ ↦ ok_ne_error _

end Errors

variable {s : Surroundings} {settings : Settings Binary64} {command : Command} {result : Result}
  {words : List String} {i : Invocation}

theorem run_eq (h : s.loadSettings i.settings = .ok settings) :
    run s i = execute s settings i.command := by
  rw [run, h]
  rfl

theorem execute_detect {argument : String} {series : Series}
    (hseries : s.loadSeries argument = .ok series) (metric : String) (method : Method)
    (threshold : Option Binary64) :
    execute s settings (.detect argument metric method threshold) =
      (detectorWith settings.detector threshold).validate.mapError .threshold >>= fun _ ↦
        .ok (.report (reportOn s.now s.later (detectorWith settings.detector threshold) series
          metric method)) := by
  rw [execute, hseries]
  rfl

theorem execute_regression {first second : String} {before after : Series}
    (hbefore : s.loadSeries first = .ok before) (hafter : s.loadSeries second = .ok after)
    (metric : String) (threshold : Option Binary64) (resampling : Option Resampling) :
    execute s settings (.regression first second metric threshold resampling) =
      (gateWith settings.gate threshold).validate.mapError .threshold >>= fun _ ↦
        if resampling.all Resampling.hasRoom then
          .ok (.regression
            ((gateWith settings.gate threshold).detect s.now before.values after.values metric)
            (resampling.bind (resample s before after)))
        else .error .crash := by
  rw [execute, hbefore, hafter]
  rfl

open Node in
theorem execute_answers (h : execute s settings command = .ok result) :
    Answers s settings command result := by
  cases command with
  | detect =>
    obtain ⟨series, hseries, h⟩ := ok_of_bind h
    obtain ⟨_, hvalid, h⟩ := ok_of_bind h
    obtain rfl := Except.ok.inj h
    exact .detect hseries (ok_of_mapError hvalid)
  | regression =>
    obtain ⟨before, hbefore, h⟩ := ok_of_bind h
    obtain ⟨after, hafter, h⟩ := ok_of_bind h
    obtain ⟨_, hvalid, h⟩ := ok_of_bind h
    split at h
    · rename_i hroom
      obtain rfl := Except.ok.inj h
      exact .regression hbefore hafter (ok_of_mapError hvalid) hroom
    · cases h
  | baseline _ _ _ output =>
    obtain ⟨series, hseries, h⟩ := ok_of_bind h
    obtain ⟨_, hvalid, h⟩ := ok_of_bind h
    cases output with
    | none =>
      obtain rfl := Except.ok.inj h
      exact .baseline hseries (ok_of_mapError hvalid) rfl
    | some path =>
      dsimp only at h
      split at h
      · rename_i hwritable
        obtain rfl := Except.ok.inj h
        exact .baseline hseries (ok_of_mapError hvalid) hwritable
      · cases h
  | compare =>
    obtain ⟨series, hseries, h⟩ := ok_of_bind h
    obtain ⟨b, hbaseline, h⟩ := ok_of_bind h
    obtain ⟨_, hvalid, h⟩ := ok_of_bind h
    obtain rfl := Except.ok.inj h
    exact .compare hseries hbaseline (ok_of_mapError hvalid)
  | drift =>
    obtain ⟨history, hhistory, h⟩ := ok_of_bind h
    obtain ⟨_, hvalid, h⟩ := ok_of_bind h
    obtain rfl := Except.ok.inj h
    exact .drift hhistory (ok_of_mapError hvalid)
  | changePoints =>
    obtain ⟨series, hseries, h⟩ := ok_of_bind h
    obtain ⟨_, hvalid, h⟩ := ok_of_bind h
    split at h
    · rename_i points hpoints
      obtain rfl := Except.ok.inj h
      exact .changePoints hseries (ok_of_mapError hvalid) hpoints
    · cases h

/-- What a command counts has room in the machine. -/
def Command.HasRoom (s : Surroundings) : Command → Prop
  | regression _ _ _ _ resampling => ∀ r ∈ resampling, r.iterations ≤ Bootstrap.mostIterations
  | changePoints argument window => 2 * window < 2 ^ 64 ∧
      ∀ series, s.loadSeries argument = .ok series → series.values.length < 2 ^ 64
  | _ => True

theorem loadSettings_ne_crash (path : Option String) : s.loadSettings path ≠ .error .crash := by
  unfold Surroundings.loadSettings
  split
  · exact ok_ne_error _
  · split
    · exact mapError_ne_error nofun
    · exact nofun

theorem loadSeries_ne_crash (argument : String) : s.loadSeries argument ≠ .error .crash :=
  mapError_ne_error nofun

theorem loadBaseline_ne_crash (path : String) : s.loadBaseline path ≠ .error .crash := by
  unfold Surroundings.loadBaseline
  split
  · exact mapError_ne_error nofun
  · exact nofun

theorem hasRoom_iff {resampling : Option Resampling} : resampling.all Resampling.hasRoom = true ↔
    ∀ r ∈ resampling, r.iterations ≤ Bootstrap.mostIterations := by
  simp [Option.all_eq_true, Resampling.hasRoom]

theorem execute_ne_crash (h : command.HasRoom s) :
    execute s settings command ≠ .error .crash := by
  have hcheck {x : Except (ConfigFault Binary64) Unit} :
      x.mapError Refusal.threshold ≠ .error .crash := mapError_ne_error nofun
  cases command with
  | detect =>
    exact bind_ne_error (loadSeries_ne_crash _) fun _ _ ↦ bind_ne_error hcheck fun _ _ ↦
      ok_ne_error _
  | regression =>
    refine bind_ne_error (loadSeries_ne_crash _) fun _ _ ↦ bind_ne_error (loadSeries_ne_crash _)
      fun _ _ ↦ bind_ne_error hcheck fun _ _ ↦ ?_
    rw [if_pos (hasRoom_iff.2 h)]
    exact ok_ne_error _
  | baseline _ _ _ output =>
    refine bind_ne_error (loadSeries_ne_crash _) fun _ _ ↦ bind_ne_error hcheck fun _ _ ↦ ?_
    cases output with
    | none => exact ok_ne_error _
    | some path =>
      dsimp only
      split
      · exact ok_ne_error _
      · exact nofun
  | compare =>
    exact bind_ne_error (loadSeries_ne_crash _) fun _ _ ↦ bind_ne_error (loadBaseline_ne_crash _)
      fun _ _ ↦ bind_ne_error hcheck fun _ _ ↦ ok_ne_error _
  | drift =>
    exact bind_ne_error (mapM_ne_error loadBaseline_ne_crash _) fun _ _ ↦
      bind_ne_error hcheck fun _ _ ↦ ok_ne_error _
  | changePoints =>
    refine bind_ne_error (loadSeries_ne_crash _) fun series hseries ↦
      bind_ne_error hcheck fun _ _ ↦ ?_
    rw [Detector.changePoints?_eq (Detector.word_of_le_max h.1 (h.2 series hseries))]
    exact ok_ne_error _

theorem run_ne_crash (h : i.command.HasRoom s) : run s i ≠ .error .crash :=
  bind_ne_error (loadSettings_ne_crash _) fun _ _ ↦ execute_ne_crash h

theorem Outcome.ofWords_cases (hread : Invocation.read words = .ok i) :
    (∃ refusal, run s i = .error refusal ∧ ofWords s words = ofRefusal refusal) ∨
    ∃ settings result, s.loadSettings i.settings = .ok settings ∧ run s i = .ok result ∧
      Answers s settings i.command result ∧ ofWords s words = ofResult i.format result := by
  cases hrun : run s i with
  | error refusal => exact .inl ⟨refusal, rfl, by simp only [ofWords, hread, hrun]⟩
  | ok result =>
    obtain ⟨settings, hsettings, hexecute⟩ := Node.ok_of_bind hrun
    exact .inr ⟨settings, result, hsettings, rfl, execute_answers hexecute,
      by simp only [ofWords, hread, hrun]⟩

end MetricWatch.CommandLine
