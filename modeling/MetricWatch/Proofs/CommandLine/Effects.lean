import MetricWatch.Proofs.CommandLine.Answers
import MetricWatch.Proofs.CommandLine.Options
import MetricWatch.Proofs.Detection.Reload
import MetricWatch.Proofs.FileSystem

namespace MetricWatch.CommandLine

def Command.output? : Command → Option String
  | baseline _ _ _ output => output
  | _ => none

def outputOf (words : List String) : Option String :=
  match Invocation.read words with
  | .ok i => i.command.output?
  | .error _ => none

variable {s : Surroundings} {settings : Settings Binary64} {command : Command} {result : Result}
  {words : List String} {i : Invocation} {fs : FileSystem} {now later : Instant}
  {seed : UInt64}

/-- There is a file if and only if a baseline was asked for with a path, which can be written to. -/
theorem Answers.file? (h : Answers s settings command result) :
    (∀ path text, result.file? = some (path, text) →
      command.output? = some path ∧ result.isFinding = false) ∧
    ∀ path, command.output? = some path →
      s.writable path = true ∧ ∃ b, result = .baseline b (some path) := by
  cases h with
  | @baseline _ _ _ output _ _ _ hwritable =>
    cases output with
    | none => exact ⟨nofun, nofun⟩
    | some path =>
      refine ⟨?_, ?_⟩
      · rintro _ _ ⟨⟩
        exact ⟨rfl, rfl⟩
      · rintro _ ⟨⟩
        exact ⟨hwritable, _, rfl⟩
  | detect | regression | compare | drift | changePoints => exact ⟨nofun, nofun⟩

/-- A run that is refused has no file, whatever it is refused for. -/
theorem outputOf_of_file {path text : String}
    (h : (Outcome.ofWords s words).file = some (path, text)) :
    outputOf words = some path ∧ (Outcome.ofWords s words).exit = 0 := by
  cases hread : Invocation.read words with
  | error stop =>
    simp only [Outcome.ofWords, hread] at h
    cases stop <;> cases h
  | ok i =>
    obtain ⟨refusal, -, houtcome⟩ | ⟨settings, result, -, -, hanswers, houtcome⟩ :=
      Outcome.ofWords_cases (s := s) hread
    · rw [houtcome] at h
      cases h
    · rw [houtcome] at h
      obtain ⟨houtput, hfinding⟩ := hanswers.file?.1 path text h
      rw [houtcome, Outcome.ofResult, hfinding, outputOf, hread]
      exact ⟨houtput, rfl⟩

theorem updated_of_exit (h : (Outcome.ofWords s words).exit ≠ 0) :
    (Outcome.ofWords s words).updated fs = fs := by
  unfold Outcome.updated
  split
  · rename_i path text hfile
    exact absurd (outputOf_of_file hfile).2 h
  · rfl

theorem tree_updated (o : Outcome) : (o.updated fs).tree = fs.tree := by
  unfold Outcome.updated
  split
  · exact fs.write_tree _ _
  · rfl

theorem lookup_updated {place : Place}
    (h : ∀ path ∈ outputOf words, fs.tree.place? path ≠ some place) :
    ((Outcome.ofWords s words).updated fs).names.lookup place = fs.names.lookup place := by
  unfold Outcome.updated
  split
  · rename_i path text hfile
    exact FileSystem.lookup_write_of_ne (h path (outputOf_of_file hfile).1)
  · rfl

theorem text_updated {place : Place} {file : Nat} (hplace : fs.names.lookup place = some file)
    (h : ∀ path ∈ outputOf words, fs.file? path ≠ some file) :
    ((Outcome.ofWords s words).updated fs).texts.lookup file = fs.texts.lookup file := by
  unfold Outcome.updated
  split
  · rename_i path text hfile
    exact FileSystem.text_write hplace (h path (outputOf_of_file hfile).1)
  · rfl

theorem exit_of_refused {argument metric : String} {periodDays : Nat} {output : Option String}
    (hread : Invocation.read words = .ok i)
    (hi : i.command = .baseline argument metric periodDays output)
    (h : (∀ settings, s.loadSettings i.settings ≠ .ok settings) ∨
      (∀ series, s.loadSeries argument ≠ .ok series) ∨
      ∃ settings, s.loadSettings i.settings = .ok settings ∧
        settings.detector.validate ≠ .ok ()) :
    (Outcome.ofWords s words).exit = 1 := by
  obtain ⟨refusal, hrun, houtcome⟩ | ⟨settings, result, hsettings, -, hanswers, -⟩ :=
    Outcome.ofWords_cases (s := s) hread
  · -- a baseline counts nothing that might not have room
    have hroom : i.command.HasRoom s := by
      rw [hi]
      exact trivial
    rw [houtcome]
    cases refusal with
    | crash => exact absurd hrun (run_ne_crash hroom)
    | _ => rfl
  · rw [hi] at hanswers
    cases hanswers with
    | baseline hseries hvalid =>
      rcases h with h | h | ⟨settings', hsettings', hinvalid⟩
      · exact absurd hsettings (h settings)
      · exact absurd hseries (h _)
      · obtain rfl := Except.ok.inj (hsettings.symm.trans hsettings')
        exact absurd hvalid hinvalid

theorem loadBaseline_updated {path : String} {b : Baseline Binary64} {format : Format}
    (hwritable : (surroundingsIn fs now later seed).writable path = true) (hb : b.Storable)
    (now' later' : Instant) (seed' : UInt64) :
    let after := (Outcome.ofResult format (.baseline b (some path))).updated fs
    (surroundingsIn after now' later' seed').loadBaseline path = .ok b := by
  intro after
  have htext : after.read? path = some (Store.saveBaseline b) :=
    FileSystem.read?_write_self hwritable
  simp only [Surroundings.loadBaseline, surroundingsIn, htext, Store.loadBaseline_saveBaseline,
    if_pos hb]
  rfl

/-- At every place but that of the output there is the same file as before, and every file but that
of the output has the text that it had. A baseline is read back if it can be written down: its count
has 64 bits, and its numbers are finite. -/
theorem effects_on_files (fs : FileSystem) (now later : Instant) (seed : UInt64)
    (words : List String) :
    let s := surroundingsIn fs now later seed
    let outcome := (runIn fs now later seed words).1
    let after := (runIn fs now later seed words).2
    after.tree = fs.tree ∧
    (∀ place, (∀ path ∈ outputOf words, fs.tree.place? path ≠ some place) →
      after.names.lookup place = fs.names.lookup place) ∧
    (∀ place file, fs.names.lookup place = some file →
      (∀ path ∈ outputOf words, fs.file? path ≠ some file) →
        after.texts.lookup file = fs.texts.lookup file) ∧
    (outcome.exit ≠ 0 → after = fs) ∧
    ∀ i argument metric periodDays output, Invocation.read words = .ok i →
      i.command = .baseline argument metric periodDays output →
      ((∀ settings, s.loadSettings i.settings ≠ .ok settings) ∨
          (∀ series, s.loadSeries argument ≠ .ok series) ∨
          (∃ settings, s.loadSettings i.settings = .ok settings ∧
            settings.detector.validate ≠ .ok ()) →
        outcome.exit = 1 ∧ after = fs) ∧
      ∀ path, output = some path → outcome.exit = 0 →
        ∃ b, run s i = .ok (.baseline b (some path)) ∧
          outcome.output = Outcome.print (.baseline b (some path)) i.format ∧
          (b.sampleCount < 2 ^ 64 → (∀ x ∈ b.numbers, x.isFinite = true) →
            ∀ (now' later' : Instant) (seed' : UInt64),
              (surroundingsIn after now' later' seed').loadBaseline path = .ok b) := by
  intro s outcome after
  refine ⟨tree_updated outcome, fun place ↦ lookup_updated, fun place file ↦ text_updated,
    updated_of_exit, ?_⟩
  intro i argument metric periodDays output hread hi
  constructor
  · intro h
    have hexit : (Outcome.ofWords s words).exit = 1 := exit_of_refused hread hi h
    exact ⟨hexit, updated_of_exit (by rw [hexit]; decide)⟩
  · rintro path rfl hexit
    obtain ⟨refusal, -, houtcome⟩ | ⟨settings, result, -, hrun, hanswers, houtcome⟩ :=
      Outcome.ofWords_cases (s := s) hread
    · rw [show outcome = _ from houtcome] at hexit
      cases refusal with
      | _ => cases hexit
    · obtain ⟨hwritable, b, rfl⟩ := hanswers.file?.2 path (by rw [hi]; rfl)
      refine ⟨b, hrun, congrArg Outcome.output houtcome, fun hcount hfinite now' later' seed' ↦ ?_⟩
      have hperiod : b.periodDays < 0x100000000 := by
        rw [hi] at hanswers
        cases hanswers
        rw [Detector.baseline_periodDays]
        exact periodDays_lt hread hi
      rw [show after = _ from congrArg (Outcome.updated · fs) houtcome]
      exact loadBaseline_updated hwritable ⟨⟨hcount, hperiod⟩, hfinite⟩ now' later' seed'

/-- One run writes over an old baseline, through a link. The other is refused for its data, and
keeps it. -/
theorem effects_on_files_pair :
    let files := FileSystem.ofFiles ["work"] [("kept.json", "old"), ("other.txt", "text")]
    let fs := { files with
      tree := { files.tree with links := [(["latest"], "/work/./kept.json")] } }
    let after := (runIn fs .epoch .epoch 0 ["baseline", "1,2", "-o", "../latest"]).2
    after.names.lookup ["work", "other.txt"] = some 1 ∧ after.texts.lookup 1 = some "text" ∧
      (∃ b, (surroundingsIn after .epoch .epoch 0).loadBaseline "../latest" = .ok b) ∧
      (runIn fs .epoch .epoch 0 ["baseline", "one", "-o", "../latest"]).2 = fs := by
  intro files fs after
  let s := surroundingsIn fs .epoch .epoch 0
  let i : Invocation := ⟨none, .text, .baseline "1,2" "metric" 7 (some "../latest")⟩
  have hread : Invocation.read ["baseline", "1,2", "-o", "../latest"] = .ok i := by decide +kernel
  obtain ⟨-, hplaces, hfiles, -, hbaseline⟩ :=
    effects_on_files fs .epoch .epoch 0 ["baseline", "1,2", "-o", "../latest"]
  obtain ⟨-, hwritten⟩ := hbaseline i _ _ _ _ hread rfl
  obtain ⟨b, hrun, -, hload⟩ := hwritten "../latest" rfl (by decide +kernel)
  have hb : b = Detector.standard.baseline .epoch [1.0, 2.0] "metric" 7 := by
    have hvalues : (s.loadSeries "1,2").toOption.map Series.values = some [1.0, 2.0] := by
      decide +kernel
    obtain ⟨settings, hsettings, hrun⟩ := Node.ok_of_bind hrun
    obtain rfl := Except.ok.inj hsettings
    cases execute_answers hrun with
    | baseline hseries =>
      rw [hseries] at hvalues
      rw [← Option.some.inj hvalues]
      rfl
  have hstorable : b.Storable := by
    rw [hb]
    have hne : [(1.0 : Binary64), 2.0] ≠ [] := List.cons_ne_nil _ _
    have hd : (Detector.standard : Detector Binary64).validate = .ok () :=
      Detector.validate_eq_ok_iff.2 (by decide +kernel)
    refine (Detector.storable_baseline_iff .epoch "metric" hne (by decide) (by decide)).2 ?_
    exact Detector.isFinite_of_abs_le hd hne (by decide) (by decide +kernel) (by decide +kernel)
  refine ⟨?_, ?_, ⟨b, hload hstorable.1.1 hstorable.2 .epoch .epoch 0⟩, ?_⟩
  · exact (hplaces ["work", "other.txt"] (by decide +kernel)).trans (by decide +kernel)
  · exact (hfiles ["work", "other.txt"] 1 (by decide +kernel) (by decide +kernel)).trans
      (by decide +kernel)
  · exact (effects_on_files fs .epoch .epoch 0 ["baseline", "one", "-o", "../latest"]).2.2.2.1
      (by decide +kernel)

end MetricWatch.CommandLine
