import CallProvenance.Json

/-! Failures that are reported and do not stop the rest of a run. -/
namespace CallProvenance

inductive ProblemKind where
  | analysis
  | missingParameter
  | fieldTypeConflict
  | duplicateClass
  | classFormat
  | file
  deriving DecidableEq, Repr

structure Problem where
  kind : ProblemKind
  /-- A method, a field, a class or the path of an artifact. -/
  source : String
  message : String
  deriving DecidableEq, Repr

def ProblemKind.label : ProblemKind → String
  | .analysis => "analysis"
  | .missingParameter => "missingParameter"
  | .fieldTypeConflict => "fieldTypeConflict"
  | .duplicateClass => "duplicateClass"
  | .classFormat => "classFormat"
  | .file => "file"

def Problem.toJson (problem : Problem) : Json :=
  .object [("kind", .string problem.kind.label), ("source", .string problem.source),
    ("message", .string problem.message)]

/-- Problems in the order in which they were found. -/
structure Problems where
  found : List Problem := []
  deriving DecidableEq, Repr

namespace Problems

def add (problems : Problems) (problem : Problem) : Problems := ⟨problems.found ++ [problem]⟩

def append (problems later : Problems) : Problems := ⟨problems.found ++ later.found⟩

def count (problems : Problems) : Nat := problems.found.length

def any (problems : Problems) : Bool := !problems.found.isEmpty

/-- Keeps a success, or records the failure and carries on. -/
def keep {ε α : Type} (problems : Problems) (result : Except ε α) (report : ε → Problem) :
    Option α × Problems :=
  match result with
  | .ok value => (some value, problems)
  | .error failure => (none, problems.add (report failure))

/-- The value if nothing was found, the problems otherwise. -/
def thenValue {α : Type} (problems : Problems) (value : α) : Except (List Problem) α :=
  if problems.any then .error problems.found else .ok value

def toJson (problems : Problems) : Json := .array (problems.found.map Problem.toJson)

end Problems
end CallProvenance
