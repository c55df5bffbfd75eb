import CallProvenance.MethodAnalysis

/-! The words of a command line. They are read from left to right. A value that stands as a word of
its own is checked when the next option is reached or the words end, so an unknown word after it is
found first; a value written with an equals sign is checked at once. -/
namespace CallProvenance

inductive OptionError where
  | helpRequested
  | versionRequested
  | noInput
  | unknownWord (word : String)
  /-- A value is missing, is empty or is none of the choices. -/
  | badValue (name : String)
  | repeated (name : String)
  | unwantedValue (name : String)
  deriving DecidableEq, Repr

def OptionError.message : OptionError → String
  | .helpRequested => "help requested"
  | .versionRequested => "version requested"
  | .noInput => "the option --input is required"
  | .unknownWord word => s!"unexpected argument {word}"
  | .badValue name => s!"--{name} needs a valid value"
  | .repeated name => s!"--{name} is given more than once"
  | .unwantedValue name => s!"--{name} takes no value"

inductive Flag where
  | sequential
  | failOnProblems
  | quiet
  | timing
  deriving DecidableEq, Repr

def Flag.name : Flag → String
  | .sequential => "sequential"
  | .failOnProblems => "fail-on-problems"
  | .quiet => "quiet"
  | .timing => "timing"

inductive Setting where
  /-- One or more paths; may be repeated. -/
  | input
  | output
  | fieldConflict
  deriving DecidableEq, Repr

def Setting.name : Setting → String
  | .input => "input"
  | .output => "output"
  | .fieldConflict => "field-conflict"

/-- What a name after two dashes stands for. -/
inductive Switch where
  | flag (flag : Flag)
  | setting (setting : Setting)
  | help
  | version
  deriving DecidableEq, Repr

def Switch.ofName? (name : String) : Option Switch :=
  match name with
  | "sequential" => some (.flag .sequential)
  | "fail-on-problems" => some (.flag .failOnProblems)
  | "quiet" => some (.flag .quiet)
  | "timing" => some (.flag .timing)
  | "input" => some (.setting .input)
  | "output" => some (.setting .output)
  | "field-conflict" => some (.setting .fieldConflict)
  | "help" => some .help
  | "version" => some .version
  | _ => none

structure Options where
  inputs : List String
  output : Option String := none
  policy : ConflictPolicy := .report
  flags : List Flag := []
  deriving DecidableEq, Repr

namespace Options

def has (options : Options) (flag : Flag) : Bool := flag ∈ options.flags

structure Draft where
  inputs : List String := []
  output : Option String := none
  policy : Option ConflictPolicy := none
  flags : List Flag := []
  /-- A setting whose values are still to be checked. -/
  pending : Option (Setting × List String) := none
  deriving DecidableEq, Repr

def choice? (word : String) : Option ConflictPolicy :=
  match word with
  | "report" => some .report
  | "abort" => some .abort
  | _ => none

def Draft.assign (draft : Draft) (setting : Setting) (values : List String) :
    Except OptionError Draft := do
  let value ←
    match values with
    | [] => throw (.badValue setting.name)
    | value :: _ => pure value
  match setting with
  | .input =>
    if "" ∈ values then throw (.badValue setting.name)
    return { draft with inputs := draft.inputs ++ values }
  | .output =>
    if draft.output.isSome then throw (.repeated setting.name)
    if value = "" then throw (.badValue setting.name)
    return { draft with output := some value }
  | .fieldConflict =>
    if draft.policy.isSome then throw (.repeated setting.name)
    match choice? value with
    | some policy => return { draft with policy := some policy }
    | none => throw (.badValue setting.name)

def Draft.settle (draft : Draft) : Except OptionError Draft :=
  match draft.pending with
  | none => .ok draft
  | some (setting, values) => { draft with pending := none }.assign setting values

/-- A word that is no option is a value if the last option can take it. -/
def Draft.addValue (draft : Draft) (word : String) : Except OptionError Draft :=
  match draft.pending with
  | some (.input, values) => .ok { draft with pending := some (.input, values ++ [word]) }
  | some (setting, []) => .ok { draft with pending := some (setting, [word]) }
  | _ => .error (.unknownWord word)

def Draft.addSwitch (draft : Draft) (switch : Switch) : Except OptionError Draft := do
  let draft ← draft.settle
  match switch with
  | .help => throw .helpRequested
  | .version => throw .versionRequested
  | .setting setting => return { draft with pending := some (setting, []) }
  | .flag flag =>
    if flag ∈ draft.flags then throw (.repeated flag.name)
    return { draft with flags := draft.flags ++ [flag] }

def Draft.addAttached (draft : Draft) (name value : String) : Switch → Except OptionError Draft
  | .setting setting => do (← draft.settle).assign setting [value]
  | _ => .error (.unwantedValue name)

def Draft.addLong (draft : Draft) (word : String) (body : List Char) : Except OptionError Draft :=
  let name := String.ofList (body.takeWhile (· ≠ '='))
  match Switch.ofName? name with
  | none => .error (.unknownWord word)
  | some switch =>
    match body.dropWhile (· ≠ '=') with
    | [] => draft.addSwitch switch
    | _ :: value => draft.addAttached name (String.ofList value) switch

/-- The first letter after a single dash decides. -/
def Draft.addShort (draft : Draft) (word : String) : Char → Except OptionError Draft
  | 'h' => draft.addSwitch .help
  | 'V' => draft.addSwitch .version
  | _ => .error (.unknownWord word)

/-- Reads the words. After two bare dashes no word is welcome. -/
def Draft.addWords (draft : Draft) : List String → Except OptionError Draft
  | [] => .ok draft
  | word :: rest =>
    match word.toList with
    | ['-', '-'] =>
      match rest with
      | [] => .ok draft
      | stray :: _ => .error (.unknownWord stray)
    | '-' :: '-' :: body => do (← draft.addLong word body).addWords rest
    | '-' :: letter :: _ => do (← draft.addShort word letter).addWords rest
    | _ => do (← draft.addValue word).addWords rest

def parse (words : List String) : Except OptionError Options := do
  let draft ← (← Draft.addWords {} words).settle
  if draft.inputs.isEmpty then throw .noInput
  return {
    inputs := draft.inputs
    output := draft.output
    policy := draft.policy.getD .report
    flags := draft.flags }

end Options
end CallProvenance
