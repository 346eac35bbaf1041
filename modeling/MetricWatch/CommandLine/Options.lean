namespace MetricWatch.CommandLine

inductive Stop where
  | help
  | version
  | misuse
  deriving DecidableEq, Repr

/-- What an option does. The value of an option is put into a state of type `σ`, if it is
acceptable. -/
inductive Action (σ : Type) where
  | stop (reason : Stop)
  | mark
  | value (put? : String → σ → Option σ)

structure OptionRule (σ : Type) where
  name : String
  letter : Option Char
  action : Action σ

/-- An option as it is written: a name with what is attached to it, or letters. -/
inductive Spelling where
  | name (name : String) (attached : Option String)
  | letters (letters : List Char)

inductive Word where
  | divider
  | option (spelling : Spelling)
  | operand

def splitAtEquals : List Char → List Char × Option (List Char)
  | [] => ([], none)
  | c :: rest =>
    if c = '=' then ([], some rest)
    else ((c :: (splitAtEquals rest).1), (splitAtEquals rest).2)

def Word.ofText (text : String) : Word :=
  match text.toList with
  | ['-', '-'] => divider
  | '-' :: '-' :: rest =>
    let (name, attached) := splitAtEquals rest
    option (.name (String.ofList name) (attached.map String.ofList))
  | '-' :: c :: rest => option (.letters (c :: rest))
  | _ => operand

def isValue (word : String) : Bool :=
  match Word.ofText word with
  | .operand => true
  | _ => false

structure Grammar (σ : Type) where
  rules : List (OptionRule σ)
  endsAtOperand : Bool
  accepts : String → Bool
  most : Option Nat
  /-- The least count of operands that follow each other without an option between them. -/
  leastRun : Nat

structure Progress (σ : Type) where
  state : σ
  seen : List String
  operands : List String
  run : Nat

def Progress.start {σ : Type} (state : σ) : Progress σ := ⟨state, [], [], 0⟩

variable {σ : Type}

namespace Progress

def endRun (p : Progress σ) (g : Grammar σ) : Except Stop (Progress σ) :=
  if 0 < p.run ∧ p.run < g.leastRun then .error .misuse else .ok { p with run := 0 }

def note (p : Progress σ) (rule : OptionRule σ) : Except Stop (Progress σ) :=
  if rule.name ∈ p.seen then .error .misuse else .ok { p with seen := rule.name :: p.seen }

def assign (p : Progress σ) (rule : OptionRule σ) (put? : String → σ → Option σ)
    (value : String) : Except Stop (Progress σ) :=
  match put? value p.state with
  | some state => note { p with state } rule
  | none => .error .misuse

def addOperand (p : Progress σ) (g : Grammar σ) (word : String) : Except Stop (Progress σ) :=
  if g.accepts word && g.most.all fun most ↦ decide (p.operands.length < most) then
    .ok { p with operands := p.operands ++ [word], run := p.run + 1 }
  else .error .misuse

def addOperands (p : Progress σ) (g : Grammar σ) : List String → Except Stop (Progress σ)
  | [] => .ok p
  | word :: words => do (← p.addOperand g word).addOperands g words

end Progress

/-- What an option leads to: it is complete, or its value is the next word. -/
inductive Reading (σ : Type) where
  | complete (p : Progress σ)
  | awaiting (p : Progress σ) (rule : OptionRule σ) (put? : String → σ → Option σ)

def readOption (p : Progress σ) (rule : OptionRule σ) (attached : Option String) :
    Except Stop (Reading σ) :=
  match rule.action, attached with
  | .stop reason, none => .error reason
  | .mark, none => (p.note rule).map .complete
  | .value put?, some value => (p.assign rule put? value).map .complete
  | .value put?, none => .ok (.awaiting p rule put?)
  | _, some _ => .error .misuse

def attachedToLetter : List Char → Option String
  | [] => none
  | '=' :: rest => some (String.ofList rest)
  | rest => some (String.ofList rest)

/-- Reads letters that stand together. What follows a letter that takes a value is the value. -/
def readLetters (g : Grammar σ) (p : Progress σ) : List Char → Except Stop (Reading σ)
  | [] => .ok (.complete p)
  | c :: rest =>
    match g.rules.find? fun rule ↦ rule.letter = some c with
    | none => .error .misuse
    | some rule => match rule.action with
      | .value _ => readOption p rule (attachedToLetter rest)
      | _ => match readOption p rule none with
        | .ok (.complete p) => readLetters g p rest
        | result => result

def readSpelling (g : Grammar σ) (p : Progress σ) : Spelling → Except Stop (Reading σ)
  | .name name attached =>
    match g.rules.find? fun rule ↦ rule.name = name with
    | none => .error .misuse
    | some rule => readOption p rule attached
  | .letters letters => readLetters g p letters

/-- Reads options and operands. The result has the words that are not read. -/
def readWords (g : Grammar σ) (p : Progress σ) :
    List String → Except Stop (Progress σ × List String)
  | [] => do return (← p.endRun g, [])
  | word :: words =>
    match Word.ofText word with
    | .divider => do return (← (← p.addOperands g words).endRun g, [])
    | .operand =>
      if g.endsAtOperand then .ok (p, word :: words)
      else do readWords g (← p.addOperand g word) words
    | .option spelling => do
      match ← readSpelling g (← p.endRun g) spelling with
      | .complete p => readWords g p words
      | .awaiting p rule put? =>
        match words with
        | value :: words =>
          if isValue value then readWords g (← p.assign rule put? value) words
          else .error .misuse
        | [] => .error .misuse

end MetricWatch.CommandLine
