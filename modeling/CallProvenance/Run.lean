import CallProvenance.Options
import CallProvenance.Report
import CallProvenance.Scan

/-! A whole run: read the options, scan the inputs, analyse the classes and write the report. -/
namespace CallProvenance

inductive Outcome where
  | success
  | problemsFound
  deriving DecidableEq, Repr

inductive Destination where
  | standardOutput
  | file (path : String)
  deriving DecidableEq, Repr

inductive RunFailure where
  | options (cause : OptionError)
  | inputNotFound (path : String)
  | analysis (cause : BatchFailure)
  | output (path : String) (cause : PathFault)
  deriving DecidableEq, Repr

def RunFailure.message : RunFailure → String
  | .options cause => cause.message
  | .inputNotFound path => s!"input not found: {path}"
  | .analysis cause => cause.message
  | .output path cause => s!"failed to open {path}: {cause.message}"

namespace Options

/-- The report goes to standard output unless a path other than a lone dash is given. -/
def destination (options : Options) : Destination :=
  match options.output with
  | none => .standardOutput
  | some path => if Path.significant path = ["-"] then .standardOutput else .file path

/-- Threads can be done with the classes in any order. Here it is the order of the classes. -/
def analyze (options : Options) (classes : List ClassDef) : Except BatchFailure BatchResult :=
  if options.has .sequential then Batch.analyze options.policy classes
  else Batch.analyzeParallel options.policy classes classes

def report (options : Options) (find? : String → Option FileTree) : Except RunFailure Report := do
  let scan ← (Scan.inputs find? options.inputs).mapError .inputNotFound
  let result ← (options.analyze scan.classes).mapError .analysis
  return .make scan.classes.length scan.problems result

/-- Problems fail a run only on request. -/
def outcome (options : Options) (report : Report) : Outcome :=
  if options.has .failOnProblems then
    match report.problems.thenValue Outcome.success with
    | .ok outcome => outcome
    | .error _ => .problemsFound
  else .success

end Options

structure RunResult where
  options : Options
  report : Report

namespace RunResult

def outcome (result : RunResult) : Outcome := result.options.outcome result.report

def destination (result : RunResult) : Destination := result.options.destination

def text (result : RunResult) : String := result.report.text

def standardOutput (result : RunResult) : String :=
  match result.destination with
  | .standardOutput => result.text
  | .file _ => ""

def writtenFile (result : RunResult) : Option String :=
  match result.destination with
  | .standardOutput => none
  | .file _ => some result.text

end RunResult

/-- Runs a command line, given what paths lead to and where files can be written. -/
def runIn (find? : String → Option FileTree) (checkWritable : String → Except PathFault Unit)
    (words : List String) : Except RunFailure RunResult := do
  let options ← (Options.parse words).mapError .options
  let report ← options.report find?
  match options.destination with
  | .standardOutput => pure ()
  | .file path => (checkWritable path).mapError (.output path)
  return { options, report }

def run (tree : FileTree) (words : List String) : Except RunFailure RunResult :=
  runIn tree.find? tree.checkWritable words

end CallProvenance
