import MetricWatch.Proofs.CommandLine.Answers
import MetricWatch.Proofs.Report.Health

namespace MetricWatch.CommandLine

def Command.plain : Command → Command
  | regression before after metric threshold _ => regression before after metric threshold none
  | command => command

def Command.canResample : Command → Bool
  | regression _ _ _ _ resampling => resampling.all Resampling.hasRoom
  | _ => true

def Result.plain : Result → Result
  | regression r _ => regression r none
  | result => result

/-- What a finding says about the result of a command. -/
def Verdict (finding : Prop) : Command → Result → Prop
  | .detect .., .report r => (finding ↔ r.health ≠ .healthy) ∧ (finding ↔ 0 < r.total)
  | .regression .., .regression r _ => finding ↔ r.isRegression = true
  | .compare .., .comparison c => finding ↔ c.status = .degraded ∨ c.status = .critical
  | .baseline .., .baseline .. => ¬ finding
  | .drift .., .drift .. => ¬ finding
  | .changePoints .., .changePoints .. => ¬ finding
  | _, _ => False

variable {s : Surroundings} {settings : Settings Binary64} {command : Command} {result : Result}
  {words words' : List String} {i i' : Invocation}

namespace Result

theorem isFinding_plain : result.plain.isFinding = result.isFinding := by
  cases result with
  | _ => rfl

theorem file?_plain : result.plain.file? = result.file? := by
  cases result with
  | _ => rfl

end Result

/-- A resampling for which there is room is an addition to the result, and nothing else draws on the
seed. -/
theorem execute_plain (hroom : command.canResample = true) (seed : UInt64) :
    execute { s with seed } settings command.plain =
      Result.plain <$> execute s settings command := by
  cases command with
  | regression _ _ _ _ resampling =>
    simp only [execute, Command.plain, map_bind, if_pos (show resampling.all _ = true from hroom), map_pure,
      Result.plain]
    rfl
  | baseline _ _ _ output =>
    simp only [execute, Command.plain, map_bind]
    cases output with
    | none => rfl
    | some path =>
      dsimp only
      split
      · rfl
      · rfl
  | changePoints =>
    simp only [execute, Command.plain, map_bind]
    refine bind_congr fun series ↦ bind_congr fun _ ↦ ?_
    split
    · rfl
    · rfl
  | _ =>
    simp only [execute, Command.plain, map_bind, map_pure, Result.plain]
    rfl

/-- Without room for its resampling a comparison breaks off, when all else has been accepted. -/
theorem execute_crash (hroom : command.canResample ≠ true) (seed : UInt64) :
    execute { s with seed } settings command.plain >>= (fun _ ↦ .error .crash) =
      Result.plain <$> execute s settings command := by
  cases command with
  | regression _ _ _ _ resampling =>
    simp only [execute, Command.plain, map_bind, bind_assoc,
      if_neg (show ¬ resampling.all _ = true from hroom)]
    rfl
  | _ => exact absurd rfl hroom

/-- Two command lines that ask for the same, but for the format and the resampling. There is room
for both resamplings, or for neither. -/
structure Alike (i i' : Invocation) : Prop where
  settings : i'.settings = i.settings
  command : i'.command.plain = i.command.plain
  room : i'.command.canResample = i.command.canResample

theorem Alike.run_plain (h : Alike i i') (seed : UInt64) :
    Result.plain <$> run { s with seed } i' = Result.plain <$> run s i := by
  have hsettings : ({ s with seed } : Surroundings).loadSettings i'.settings =
      s.loadSettings i.settings := by
    rw [h.settings]
    rfl
  rw [run, run, map_bind, map_bind, hsettings]
  refine bind_congr fun settings ↦ ?_
  by_cases hroom : i.command.canResample = true
  · have hroom' : i'.command.canResample = true := h.room.trans hroom
    rw [← execute_plain hroom s.seed, ← execute_plain hroom' s.seed, h.command]
  · have hroom' : i'.command.canResample ≠ true := h.room.trans_ne hroom
    rw [← execute_crash hroom s.seed, ← execute_crash hroom' s.seed, h.command]

def silent : Except Refusal Result → Outcome
  | .ok result => { Outcome.ofResult .text result with output := "" }
  | .error refusal => Outcome.ofRefusal refusal

theorem silent_ofWords (hread : Invocation.read words = .ok i) :
    { Outcome.ofWords s words with output := "" } = silent (Result.plain <$> run s i) := by
  obtain ⟨refusal, hrun, houtcome⟩ | ⟨-, result, -, hrun, -, houtcome⟩ :=
    Outcome.ofWords_cases (s := s) hread
  · rw [houtcome, hrun]
    rfl
  · rw [houtcome, hrun]
    simp only [Except.map_ok, silent, Outcome.ofResult, Result.isFinding_plain, Result.file?_plain]

/-- What a script sees of a run: not its output, which has a format. -/
structure SameEffect (outcome other : Outcome) : Prop where
  exit : other.exit = outcome.exit
  error : other.error = outcome.error
  file : other.file = outcome.file

theorem Alike.sameEffect (h : Alike i i') (hread : Invocation.read words = .ok i)
    (hread' : Invocation.read words' = .ok i') (seed : UInt64) :
    SameEffect (Outcome.ofWords s words) (Outcome.ofWords { s with seed } words') := by
  have hsilent : { Outcome.ofWords { s with seed } words' with output := "" } =
      { Outcome.ofWords s words with output := "" } := by
    rw [silent_ofWords hread', silent_ofWords hread, h.run_plain]
  obtain ⟨hexit, -, herror, hfile⟩ := Outcome.mk.inj hsilent
  exact ⟨hexit, herror, hfile⟩

theorem reportOn_healthy_iff (now later : Instant) (d : Detector Binary64) (series : Series)
    (metric : String) (method : Method) :
    let r := reportOn now later d series metric method
    (r.health = .healthy ↔ r.anomalies = []) ∧ r.total = r.anomalies.length := by
  intro r
  have hr : r.Consistent := Report.refresh_consistent
  constructor
  · rw [hr.healthy_iff hr.exists_anomaly, Report.noCause_iff]
    simp [r, reportOn, Report.addAnomalies, Report.refresh, Report.recount, Report.new]
  · rw [hr.total]
    rfl

theorem Answers.verdict (h : Answers s settings command result) :
    Verdict (result.isFinding = true) command result := by
  cases h with
  | detect =>
    obtain ⟨hhealthy, htotal⟩ := reportOn_healthy_iff s.now s.later _ _ _ _
    constructor
    · rw [Ne, hhealthy, Result.isFinding]
      simp
    · rw [htotal, Result.isFinding, List.length_pos_iff]
      simp
  | regression => exact Iff.rfl
  | compare => exact Report.isAlarm_iff
  | baseline | drift | changePoints => exact Bool.false_ne_true

/-- The run is compared with every other one that asks for the same, in either format and with any
resampling and seed. It only breaks off if there is no room for what it counts. -/
theorem exit_verdict (s : Surroundings) (hread : Invocation.read words = .ok i) :
    let outcome := Outcome.ofWords s words
    (∀ (words' : List String) (i' : Invocation) (seed : UInt64),
      Invocation.read words' = .ok i' → Alike i i' →
        SameEffect outcome (Outcome.ofWords { s with seed } words')) ∧
    (outcome.exit = 0 ∨ outcome.exit = 1 ∨ outcome.exit = 101) ∧
    (i.command.HasRoom s → outcome.exit ≠ 101) ∧
    (outcome.exit = 0 ↔ ∃ result, run s i = .ok result ∧ result.isFinding = false) ∧
    (outcome.error = none ↔ ∃ result, run s i = .ok result) ∧
    ∀ result, run s i = .ok result →
      outcome.output = Outcome.print result i.format ∧
        Verdict (result.isFinding = true) i.command result := by
  intro outcome
  refine ⟨fun words' i' seed hread' h ↦ h.sameEffect hread hread' seed, ?_⟩
  obtain ⟨refusal, hrun, houtcome⟩ | ⟨settings, result, -, hrun, hanswers, houtcome⟩ :=
    Outcome.ofWords_cases (s := s) hread
  · have hexit : outcome.exit = 1 ∨ refusal = .crash ∧ outcome.exit = 101 := by
      rw [show outcome = _ from houtcome]
      cases refusal with
      | crash => exact .inr ⟨rfl, rfl⟩
      | _ => exact .inl rfl
    have herror : outcome.error ≠ none := by
      rw [show outcome = _ from houtcome]
      exact Option.some_ne_none _
    refine ⟨by omega, fun hroom h ↦ ?_, ?_, ?_, ?_⟩
    · obtain hone | ⟨rfl, -⟩ := hexit
      · omega
      · exact run_ne_crash hroom hrun
    · simp only [hrun, reduceCtorEq, false_and, exists_false, iff_false]
      omega
    · simp [hrun, herror]
    · intro answer h
      cases hrun.symm.trans h
  · have hexit : outcome.exit = if result.isFinding then 1 else 0 := congrArg Outcome.exit houtcome
    refine ⟨?_, ?_, ?_, ?_, ?_⟩
    · rw [hexit]
      split <;> simp
    · rw [hexit]
      split <;> simp
    · simp [hexit, hrun]
    · simp [outcome, houtcome, hrun, Outcome.ofResult]
    · intro answer h
      obtain rfl := Except.ok.inj (hrun.symm.trans h)
      exact ⟨congrArg Outcome.output houtcome, hanswers.verdict⟩

theorem exit_verdict_spike :
    let s : Surroundings :=
      ⟨fun _ ↦ false, fun _ ↦ none, fun _ ↦ true, .epoch, .epoch, 0⟩
    let words := ["detect", "1,1,1,1,1,1,1,1,1,9", "--method", "zscore", "--threshold", "2"]
    (Outcome.ofWords s words).exit = 1 ∧
      (Outcome.ofWords s ("--format" :: "json" :: words)).exit = 1 := by
  intro s words
  let i : Invocation := ⟨none, .text,
    .detect "1,1,1,1,1,1,1,1,1,9" "metric" .zScore (some 2.0)⟩
  have hread : Invocation.read words = .ok i := by decide +kernel
  have hread' : Invocation.read ("--format" :: "json" :: words) = .ok { i with format := .json } :=
    by decide +kernel
  obtain ⟨hothers, -⟩ := exit_verdict s hread
  have hexit : (Outcome.ofWords s words).exit = 1 := by decide +kernel
  exact ⟨hexit, (hothers _ _ s.seed hread' ⟨rfl, rfl, rfl⟩).exit.trans hexit⟩

end MetricWatch.CommandLine
