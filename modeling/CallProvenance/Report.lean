import CallProvenance.Batch

/-! The document written at the end of a run. -/
namespace CallProvenance

structure Summary where
  scannedClasses : Nat
  analyzedClasses : Nat
  methods : Nat
  invocations : Nat
  referencedClasses : Nat
  problems : Nat
  deriving DecidableEq, Repr

structure Report where
  classes : List ClassTrace
  /-- Classes that analysed code refers to and that were not analysed, in order. -/
  referencedClasses : List String
  problems : Problems
  summary : Summary
  deriving Repr

namespace Report

/-- Problems of the scan come before those of the analysis. -/
def make (scannedClasses : Nat) (scanProblems : Problems) (result : BatchResult) : Report :=
  let classes := result.analyzed.classes
  let methods := classes.flatMap (·.methods)
  let referencedClasses := result.analyzed.referenced.names
  let problems := scanProblems.append result.problems
  { classes, referencedClasses, problems
    summary := {
      scannedClasses
      analyzedClasses := classes.length
      methods := methods.length
      invocations := methods.foldl (fun total method => total + method.invocations.length) 0
      referencedClasses := referencedClasses.length
      problems := problems.count } }

def toJson (report : Report) : Json :=
  .object [
    ("classes", .array (report.classes.map ClassTrace.toJson)),
    ("referencedClasses", .strings report.referencedClasses),
    ("problems", report.problems.toJson),
    ("summary", .object [
      ("scannedClasses", .nat report.summary.scannedClasses),
      ("analyzedClasses", .nat report.summary.analyzedClasses),
      ("methods", .nat report.summary.methods),
      ("invocations", .nat report.summary.invocations),
      ("referencedClasses", .nat report.summary.referencedClasses),
      ("problems", .nat report.summary.problems)])]

/-- Indented text that ends with a line break. -/
def text (report : Report) : String := report.toJson.pretty ++ "\n"

end Report
end CallProvenance
