import CallProvenance.Calls
import CallProvenance.Parameters

/-! Analysis of methods and classes. A method that cannot be simulated is reported and left out
of its class's trace. -/
namespace CallProvenance

inductive ConflictPolicy where
  | report
  /-- Stop the whole run. -/
  | abort
  deriving DecidableEq, Repr

inductive MethodFailure where
  | analysis (className methodName descriptor : String) (cause : Inconsistency)
  | fieldConflict (conflict : FieldConflict)
  deriving DecidableEq, Repr

def MethodFailure.message : MethodFailure → String
  | .analysis className methodName descriptor cause =>
    s!"analysis of {className}#{methodName}{descriptor} failed: {cause.message}"
  | .fieldConflict conflict => conflict.message

/-- What the methods of a class leave behind: the fields they know, the classes they refer to in
the order of the references, and the problems found. -/
structure ClassRecord where
  fields : FieldTable := .empty
  references : List String := []
  problems : Problems := {}
  deriving DecidableEq, Repr

namespace ClassRecord

def refer (record : ClassRecord) (className : String) : ClassRecord :=
  { record with references := record.references ++ [className] }

end ClassRecord

def FieldConflict.problem (conflict : FieldConflict) : Problem :=
  ⟨.fieldTypeConflict, s!"{conflict.className}.{conflict.fieldName}", conflict.message⟩

/-- Enters one field access. The result is the problem to report, if any. -/
def recordAccess (policy : ConflictPolicy) (ref : FieldRef) :
    EStateM MethodFailure ClassRecord Problems := do
  modify (·.refer ref.owner)
  match (← get).fields.access ref.owner ref.name ref.descriptor with
  | .ok fields =>
    modify fun record => { record with fields }
    return {}
  | .error conflict =>
    match policy with
    | .report => return ⟨[conflict.problem]⟩
    | .abort => throw (.fieldConflict conflict)

/-- Enters the accesses of all instructions, reachable or not, after the conflicts found so far. -/
def recordAccesses (policy : ConflictPolicy) :
    List Instruction → Problems → EStateM MethodFailure ClassRecord Problems
  | [], conflicts => return conflicts
  | instruction :: rest, conflicts =>
    match instruction.operand with
    | .field ref => do
      recordAccesses policy rest (conflicts.append (← recordAccess policy ref))
    | _ => recordAccesses policy rest conflicts

namespace Method

def label (method : Method) (className : String) : String :=
  s!"{className}#{method.name}{method.descriptor}"

/-- Turns an inconsistency of the method's code into the failure of its analysis. -/
def orFail {α : Type} (method : Method) (className : String) (result : Except Inconsistency α) :
    EStateM MethodFailure ClassRecord α :=
  match result with
  | .ok value => return value
  | .error cause => throw (.analysis className method.name method.descriptor cause)

/-- Simulates the code and resolves every call, giving the problems of its field accesses too. -/
def traceCode (method : Method) (className : String) (policy : ConflictPolicy) :
    EStateM MethodFailure ClassRecord (List Invocation × Problems) := do
  let simulation ← method.orFail className method.simulate
  let conflicts ← recordAccesses policy method.code {}
  let calls ← method.orFail className (simulation.calls method)
  modify fun record =>
    { record with references := record.references ++ calls.map (·.target.className) }
  return (calls.map method.invocation, conflicts)

/-- Problems that do not prevent a trace are recorded only when the method succeeds. -/
def analyze (method : Method) (className : String) (policy : ConflictPolicy) :
    EStateM MethodFailure ClassRecord MethodTrace := do
  let (parameters, missing) ← method.orFail className (method.parameters (method.label className))
  let (invocations, conflicts) ←
    if method.hasCode then method.traceCode className policy else pure ([], {})
  modify fun record =>
    { record with problems := record.problems.append (missing.append conflicts) }
  return ⟨method.name, method.descriptor, parameters, invocations⟩

end Method

structure ClassAnalysis where
  trace : ClassTrace
  references : List String
  problems : Problems
  deriving DecidableEq, Repr

namespace ClassDef

/-- Analyses methods in order; only a field conflict under the abort policy stops. -/
def analyzeMethods (className : String) (policy : ConflictPolicy) :
    List Method → ClassRecord → Except FieldConflict (List MethodTrace × ClassRecord)
  | [], record => .ok ([], record)
  | method :: rest, record =>
    match method.analyze className policy record with
    | .ok trace record => do
      let (traces, record) ← analyzeMethods className policy rest record
      return (trace :: traces, record)
    | .error (.analysis _ _ _ cause) record =>
      let problem : Problem := ⟨.analysis, method.label className, cause.message⟩
      analyzeMethods className policy rest { record with problems := record.problems.add problem }
    | .error (.fieldConflict conflict) _ => .error conflict

def analyze (definition : ClassDef) (policy : ConflictPolicy) :
    Except FieldConflict ClassAnalysis := do
  let (methods, record) ← analyzeMethods definition.name policy definition.methods
    { fields := .declaredBy definition }
  return {
    trace := ⟨definition.name, definition.superName, methods, record.fields.fields⟩
    references := record.references
    problems := record.problems }

end ClassDef
end CallProvenance
