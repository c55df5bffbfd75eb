import CallProvenance.MethodAnalysis

/-! Analysis of many classes. The first class of each name is kept; references to classes that
were analysed themselves are dropped. -/
namespace CallProvenance

/-- A set of names as an increasing list. -/
structure NameSet where
  names : List String := []
  deriving DecidableEq, Repr

namespace NameSet

def insertInto (name : String) : List String → List String
  | [] => [name]
  | first :: rest =>
    if name < first then name :: first :: rest
    else if name = first then first :: rest
    else first :: insertInto name rest

def insert (set : NameSet) (name : String) : NameSet := ⟨insertInto name set.names⟩

def union (set : NameSet) (names : List String) : NameSet := names.foldl insert set

end NameSet

/-- The class behind an internal name or an array descriptor; `none` for arrays of primitives. -/
def elementClass (name : String) : Option String :=
  match name.toList with
  | '[' :: rest =>
    match rest.dropWhile (· = '[') with
    | 'L' :: inner => if inner.getLast? = some ';' then some (String.ofList inner.dropLast) else none
    | _ => none
  | _ => some name

structure AnalyzedClasses where
  classes : List ClassTrace := []
  referenced : NameSet := {}
  deriving Repr

namespace AnalyzedClasses

def names (analyzed : AnalyzedClasses) : List String := analyzed.classes.map (·.name)

def duplicate (name : String) : Problem :=
  ⟨.duplicateClass, name, "class is defined more than once; keeping the first definition"⟩

/-- Adds a class with the names it refers to. A second class of the same name is refused. -/
def add (analyzed : AnalyzedClasses) (trace : ClassTrace) (references : List String) :
    Except Problem AnalyzedClasses :=
  if trace.name ∈ analyzed.names then .error (duplicate trace.name)
  else .ok {
    classes := analyzed.classes ++ [trace]
    referenced := analyzed.referenced.union (references.filterMap elementClass) }

/-- Drops references to classes that were analysed. -/
def finish (analyzed : AnalyzedClasses) : AnalyzedClasses :=
  { analyzed with
    referenced := ⟨analyzed.referenced.names.filter fun name => name ∉ analyzed.names⟩ }

end AnalyzedClasses

structure BatchResult where
  analyzed : AnalyzedClasses := {}
  problems : Problems := {}
  deriving Repr

structure BatchFailure where
  className : String
  source : String
  conflict : FieldConflict
  deriving DecidableEq, Repr

def BatchFailure.message (failure : BatchFailure) : String :=
  s!"failed to analyze {failure.className} from {failure.source}: " ++
    s!"field type conflict while analyzing {failure.className}: {failure.conflict.message}"

namespace Batch

def collect (result : BatchResult) (analysis : ClassAnalysis) : BatchResult :=
  let problems := result.problems.append analysis.problems
  match result.analyzed.add analysis.trace analysis.references with
  | .ok analyzed => { analyzed, problems }
  | .error problem => { result with problems := problems.add problem }

def analyzeClass (policy : ConflictPolicy) (definition : ClassDef) :
    Except BatchFailure ClassAnalysis :=
  (definition.analyze policy).mapError (⟨definition.name, definition.source, ·⟩)

/-- Analyses each class on its own, then collects the results in order. -/
def analyze (policy : ConflictPolicy) (definitions : List ClassDef) :
    Except BatchFailure BatchResult := do
  let analyses ← definitions.mapM (analyzeClass policy)
  let result := analyses.foldl collect {}
  return { result with analyzed := result.analyzed.finish }

/-- The same on several threads, which are done with the classes in the order `finished`. The results are
still collected in the order of the classes, but the first failure to come up is the one returned. -/
def analyzeParallel (policy : ConflictPolicy) (finished definitions : List ClassDef) :
    Except BatchFailure BatchResult := do
  let _ ← finished.mapM (analyzeClass policy)
  analyze policy definitions

end Batch
end CallProvenance
