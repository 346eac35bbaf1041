import MetricWatch.Binary64.Text
import MetricWatch.CommandLine.Options
import MetricWatch.Detector

namespace MetricWatch.CommandLine

inductive Format where
  | text
  | json
  deriving DecidableEq, Repr

namespace Format

def all : List Format := [text, json]

def name : Format → String
  | text => "text"
  | json => "json"

end Format

/-- A bootstrap comparison. Without a seed it differs from run to run. -/
structure Resampling where
  iterations : Nat
  seed : Option UInt64
  deriving DecidableEq

/-- A series is given by its values or by a path. -/
inductive Command where
  | detect (series metric : String) (method : Method) (threshold : Option Binary64)
  | regression (before after metric : String) (threshold : Option Binary64)
    (resampling : Option Resampling)
  | baseline (series metric : String) (periodDays : Nat) (output : Option String)
  | compare (series baseline : String)
  | drift (baselines : List String)
  | changePoints (series : String) (window : Nat)
  deriving DecidableEq

structure Invocation where
  settings : Option String
  format : Format
  command : Command
  deriving DecidableEq

def Command.inputs : Command → List String
  | detect series .. => [series]
  | regression before after .. => [before, after]
  | baseline series .. => [series]
  | compare series reference => [series, reference]
  | drift baselines => baselines
  | changePoints series _ => [series]

def Invocation.inputs (i : Invocation) : List String := i.settings.toList ++ i.command.inputs

/-- A count below a limit, in digits after an optional plus sign. -/
def readCount? (limit : Nat) (text : String) : Option Nat :=
  let digits := match text.toList with
    | '+' :: rest => rest
    | chars => chars
  if digits ≠ [] ∧ digits.all Char.isDigit ∧ Decimal.ofDigits digits < limit then
    some (Decimal.ofDigits digits)
  else none

/-- A count of days, which fits a word of 32 bits. Zero may have a minus sign. -/
def readDays? (text : String) : Option Nat :=
  match text.toList with
  | '-' :: rest => if rest.head?.all Char.isDigit then readCount? 1 (String.ofList rest) else none
  | _ => readCount? 0x100000000 text

def readSeed? (text : String) : Option UInt64 :=
  (readCount? 0x10000000000000000 text).map fun n ↦ n.toUInt64

def readPath? (text : String) : Option String := if text = "" then none else some text

def readFormat? (text : String) : Option Format := Format.all.find? fun f ↦ f.name = text

def readMethod? (text : String) : Option Method := Method.all.find? fun m ↦ m.name = text

structure Draft where
  format : Format := .text
  settings : Option String := none
  metric : String := "metric"
  method : Method := .combined
  threshold : Option Binary64 := none
  iterations : Option Nat := none
  seed : Option UInt64 := none
  periodDays : Nat := 7
  output : Option String := none
  baseline : Option String := none
  window : Nat := 10

abbrev Rule := OptionRule Draft

def valueRule {β : Type} (name : String) (read? : String → Option β) (put : Draft → β → Draft) :
    Rule :=
  ⟨name, none, .value fun text draft ↦ (read? text).map (put draft)⟩

/-- The options that every command has, and that may also stand before the command. -/
def sharedRules : List Rule :=
  [⟨"help", some 'h', .stop .help⟩, ⟨"debug", none, .mark⟩,
    valueRule "format" readFormat? fun draft format ↦ { draft with format },
    valueRule "config" readPath? fun draft path ↦ { draft with settings := some path }]

def leadingGrammar : Grammar Draft :=
  { rules := sharedRules ++ [⟨"version", some 'V', .stop .version⟩]
    endsAtOperand := true, accepts := fun _ ↦ true, most := some 0, leastRun := 0 }

inductive Verb where
  | detect
  | regression
  | baseline
  | compare
  | drift
  | changePoints
  deriving DecidableEq, Repr

namespace Verb

def all : List Verb := [detect, regression, baseline, compare, drift, changePoints]

def name : Verb → String
  | detect => "detect"
  | regression => "regression"
  | baseline => "baseline"
  | compare => "compare"
  | drift => "drift"
  | changePoints => "change-points"

def read? (text : String) : Option Verb := all.find? fun v ↦ v.name = text

def metricRule : Rule := valueRule "metric" some fun draft metric ↦ { draft with metric }

def thresholdRule : Rule :=
  valueRule "threshold" Binary64.read? fun draft x ↦ { draft with threshold := some x }

def ownRules : Verb → List Rule
  | detect =>
    [metricRule, valueRule "method" readMethod? fun draft method ↦ { draft with method },
      thresholdRule]
  | regression =>
    [metricRule, thresholdRule,
      valueRule "bootstrap" (readCount? 0x10000000000000000) fun draft n ↦
        { draft with iterations := some n },
      valueRule "seed" readSeed? fun draft seed ↦ { draft with seed := some seed }]
  | baseline =>
    [metricRule,
      valueRule "period-days" readDays? fun draft periodDays ↦ { draft with periodDays },
      { valueRule "output" readPath? fun draft path ↦ { draft with output := some path } with
        letter := some 'o' }]
  | compare =>
    [valueRule "baseline" readPath? fun draft path ↦ { draft with baseline := some path }]
  | drift => []
  | changePoints =>
    [valueRule "window" (readCount? 0x10000000000000000) fun draft window ↦ { draft with window }]

def mostOperands : Verb → Option Nat
  | regression => some 2
  | drift => none
  | _ => some 1

def leastRun : Verb → Nat
  | drift => 2
  | _ => 0

/-- Whether a word is fit for an operand. A series may be an empty text, and a path may not. -/
def accepts : Verb → String → Bool
  | drift, word => (readPath? word).isSome
  | _, _ => true

def grammar (v : Verb) : Grammar Draft :=
  { rules := sharedRules ++ v.ownRules
    endsAtOperand := false, accepts := v.accepts, most := v.mostOperands, leastRun := v.leastRun }

/-- The resampling that the options ask for. A seed is for resampling only. -/
def resampling? (draft : Draft) : Option (Option Resampling) :=
  match draft.iterations, draft.seed with
  | some iterations, seed => some (some ⟨iterations, seed⟩)
  | none, none => some none
  | none, some _ => none

def command? (v : Verb) (draft : Draft) (operands : List String) : Option Command :=
  match v, operands with
  | detect, [series] => some (.detect series draft.metric draft.method draft.threshold)
  | regression, [before, after] =>
    (resampling? draft).map (.regression before after draft.metric draft.threshold)
  | baseline, [series] => some (.baseline series draft.metric draft.periodDays draft.output)
  | compare, [series] => draft.baseline.map (.compare series)
  | drift, first :: rest => some (.drift (first :: rest))
  | changePoints, [series] => some (.changePoints series draft.window)
  | _, _ => none

end Verb

def helpWord : String := "help"

def readHelp : List String → Stop
  | [] => .help
  | [word] => if word = helpWord ∨ (Verb.read? word).isSome then .help else .misuse
  | _ => .misuse

def Invocation.read (words : List String) : Except Stop Invocation := do
  let (leading, rest) ← readWords leadingGrammar (.start {}) words
  match rest with
  | [] => throw .misuse
  | word :: rest =>
    if word = helpWord then throw (readHelp rest)
    else match Verb.read? word with
      | none => throw .misuse
      | some verb =>
        let (own, _) ← readWords verb.grammar (.start leading.state) rest
        match verb.command? own.state own.operands with
        | some command => return ⟨own.state.settings, own.state.format, command⟩
        | none => throw .misuse

end MetricWatch.CommandLine
