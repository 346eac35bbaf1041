import MetricWatch.CommandLine.Invocation
import MetricWatch.CommandLine.Result
import MetricWatch.Document.Settings
import MetricWatch.FileSystem
import MetricWatch.Random.ChaCha
import MetricWatch.Series

namespace MetricWatch.CommandLine

structure Surroundings where
  isFile : String → Bool
  /-- The text that can be read at a path. -/
  read? : String → Option String
  writable : String → Bool
  now : Instant
  /-- The clock after the detection, when a report is begun. -/
  later : Instant
  /-- The seed of a bootstrap comparison that is given none. -/
  seed : UInt64

inductive Refusal where
  | settings (path : String) (cause : Failure Binary64)
  | series (argument : String) (cause : Failure Binary64)
  | baseline (path : String) (cause : Failure Binary64)
  | output (path : String) (cause : Failure Binary64)
  | threshold (fault : ConfigFault Binary64)
  /-- A count has left the words of the machine, and the run breaks off. -/
  | crash

namespace Refusal

def attempt? : Refusal → Option String
  | settings path _ => some s!"Failed to load config {path}"
  | series argument _ => some s!"Failed to read data from '{argument}'"
  | baseline path _ => some s!"Failed to load baseline {path}"
  | output path _ => some s!"Failed to write baseline {path}"
  | threshold _ => none
  | crash => none

def cause? : Refusal → Option (Failure Binary64)
  | settings _ cause => some cause
  | series _ cause => some cause
  | baseline _ cause => some cause
  | output _ cause => some cause
  | threshold fault => some (.invalidConfig fault)
  | crash => none

def exit : Refusal → Nat
  | crash => 101
  | _ => 1

def indentRest (text : String) : String :=
  String.ofList (text.toList.flatMap fun c ↦ if c = '\n' then "\n    ".toList else [c])

/-- The text of a cause. One that has a cause of its own is numbered, and ends where that would
begin. -/
def causeText : Failure Binary64 → String
  | .io => s!"    0: {Failure.message (.io : Failure Binary64)}"
  | .toml => s!"    0: {Failure.message (.toml : Failure Binary64)}"
  | .json fault => s!"    0: {Failure.message (.json fault)}"
  | failure => s!"    {indentRest failure.message}\n"

def text (r : Refusal) : String :=
  match r.cause?, r.attempt? with
  | some cause, some attempt => s!"Error: {attempt}\n\nCaused by:\n{causeText cause}"
  | some cause, none => s!"Error: {cause.message}\n"
  | none, _ => "thread 'main' panicked\n"

end Refusal

namespace Surroundings

variable (s : Surroundings)

def loadSettings : Option String → Except Refusal (Settings Binary64)
  | none => .ok .standard
  | some path =>
    match s.read? path with
    | some text => (Settings.ofToml text).mapError (.settings path)
    | none => .error (.settings path .io)

def loadSeries (argument : String) : Except Refusal Series :=
  (Series.load s.isFile s.read? argument).mapError (.series argument)

def loadBaseline (path : String) : Except Refusal (Baseline Binary64) :=
  match s.read? path with
  | some text => (Store.loadBaseline text).mapError fun fault ↦ .baseline path (.json fault)
  | none => .error (.baseline path .io)

end Surroundings

section

variable {α : Type} [Scalar α]

def detectorWith (d : Detector α) (threshold : Option α) : Detector α :=
  { d with zThreshold := threshold.getD d.zThreshold }

/-- The gate with another threshold, if there is one. It raises a critical change that is below
it. -/
def gateWith (g : Gate α) : Option α → Gate α
  | some threshold =>
    { g with threshold, critical := if g.critical < threshold then threshold else g.critical }
  | none => g

end

/-- The instants between which a series lies: the first and the last of its own, or as many seconds
up to now as it has steps. -/
def period (now : Instant) (series : Series) : Instant × Instant :=
  match series.timestamps with
  | some (first :: rest) => (first, rest.getLastD first)
  | _ => (now.backBy (series.values.length - 1), now)

/-- The clock is read for the detection, and again for the report. -/
def reportOn (now later : Instant) (detector : Detector Binary64) (series : Series)
    (metric : String) (method : Method) : Report Binary64 :=
  (Report.new later (period later series).1 (period later series).2).addAnomalies
    series.values.length (detector.detect now series.values metric series.timestamps method)

def Resampling.hasRoom (r : Resampling) : Bool := decide (r.iterations ≤ Bootstrap.mostIterations)

def resample (s : Surroundings) (before after : Series) (r : Resampling) :
    Option (Bootstrap Binary64) :=
  Bootstrap.run? before.values after.values r.iterations
    (ChaCha.Stream.ofSeed (r.seed.getD s.seed))

def execute (s : Surroundings) (settings : Settings Binary64) : Command → Except Refusal Result
  | .detect series metric method threshold => do
    let series ← s.loadSeries series
    let detector := detectorWith settings.detector threshold
    detector.validate.mapError .threshold
    return .report (reportOn s.now s.later detector series metric method)
  | .regression before after metric threshold resampling => do
    let before ← s.loadSeries before
    let after ← s.loadSeries after
    let gate := gateWith settings.gate threshold
    gate.validate.mapError .threshold
    if resampling.all Resampling.hasRoom then
      return .regression (gate.detect s.now before.values after.values metric)
        (resampling.bind (resample s before after))
    else throw .crash
  | .baseline series metric periodDays output => do
    let series ← s.loadSeries series
    settings.detector.validate.mapError .threshold
    let baseline := settings.detector.baseline s.now series.values metric periodDays
    match output with
    | some path =>
      if s.writable path then return .baseline baseline (some path)
      else throw (.output path .io)
    | none => return .baseline baseline none
  | .compare series baseline => do
    let series ← s.loadSeries series
    let baseline ← s.loadBaseline baseline
    settings.comparator.validate.mapError .threshold
    return .comparison
      (settings.comparator.compare s.now series.values baseline series.timestamps)
  | .drift baselines => do
    let history ← baselines.mapM s.loadBaseline
    settings.comparator.validate.mapError .threshold
    return .drift (settings.comparator.drift history)
  | .changePoints series window => do
    let series ← s.loadSeries series
    settings.detector.validate.mapError .threshold
    match settings.detector.changePoints? series.values window with
    | some points => return .changePoints window points
    | none => throw .crash

def run (s : Surroundings) (invocation : Invocation) : Except Refusal Result := do
  execute s (← s.loadSettings invocation.settings) invocation.command

structure Outcome where
  exit : Nat
  output : String
  error : Option String
  file : Option (String × String)

namespace Outcome

def versionText : String := "verdandi 0.1.0\n"

def ofStop : Stop → Outcome
  | .help => ⟨0, "", none, none⟩
  | .version => ⟨0, versionText, none, none⟩
  | .misuse => ⟨2, "", none, none⟩

def ofRefusal (r : Refusal) : Outcome := ⟨r.exit, "", some r.text, none⟩

def print (result : Result) : Format → String
  | .text => unlines result.lines
  | .json => Json.pretty result.node ++ "\n"

def ofResult (format : Format) (result : Result) : Outcome :=
  ⟨if result.isFinding then 1 else 0, print result format, none, result.file?⟩

def ofWords (s : Surroundings) (words : List String) : Outcome :=
  match Invocation.read words with
  | .error stop => ofStop stop
  | .ok invocation =>
    match run s invocation with
    | .ok result => ofResult invocation.format result
    | .error refusal => ofRefusal refusal

def updated (o : Outcome) (fs : FileSystem) : FileSystem :=
  match o.file with
  | some (path, text) => fs.write path text
  | none => fs

end Outcome

def surroundingsIn (fs : FileSystem) (now later : Instant) (seed : UInt64) : Surroundings :=
  { isFile := fs.isFile
    read? := fs.read?
    writable := fun path ↦ (fs.target? path).isSome
    now
    later
    seed }

def runIn (fs : FileSystem) (now later : Instant) (seed : UInt64) (words : List String) :
    Outcome × FileSystem :=
  let outcome := Outcome.ofWords (surroundingsIn fs now later seed) words
  (outcome, outcome.updated fs)

end MetricWatch.CommandLine
