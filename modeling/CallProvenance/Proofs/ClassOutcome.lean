import CallProvenance.Proofs.MethodOutcome

/-! The outcome of analysing one class. Its methods share a record, yet each has the outcome that it
has on its own, and each is either traced or explained by one problem. -/
namespace CallProvenance

/-- A result without the state that is left behind. -/
def answerOf {ε σ α : Type} : EStateM.Result ε σ α → Except ε α
  | .ok value _ => .ok value
  | .error failure _ => .error failure

namespace Method

variable {method : Method} {className : String} {record : ClassRecord} {findings : MethodFindings}
  {cause : Inconsistency}

def outcome (method : Method) (className : String) (record : ClassRecord) : Except MethodFailure MethodTrace :=
  answerOf (method.analyze className .report record)

theorem outcome_examined (examined : method.examine className = .ok findings) (record : ClassRecord) :
    method.outcome className record = .ok (method.traceOf findings) := by
  rw [outcome, analyze_examined examined, answerOf]

theorem outcome_unexamined (failed : method.examine className = .error cause) (record : ClassRecord) :
    method.outcome className record = .error (method.failure className cause) := by
  obtain ⟨after, fails, -⟩ := analyze_unexamined failed record
  rw [outcome, fails, answerOf]

/-- No record of a class changes the outcome. -/
theorem outcome_eq_alone (method : Method) (className : String) (record : ClassRecord) :
    method.outcome className record = method.outcome className {} := by
  cases examined : method.examine className with
  | ok findings => rw [outcome_examined examined, outcome_examined examined]
  | error cause => rw [outcome_unexamined examined, outcome_unexamined examined]

def traceAlone (method : Method) (className : String) : Option MethodTrace :=
  (method.outcome className {}).toOption

theorem traceAlone_examined (examined : method.examine className = .ok findings) :
    method.traceAlone className = some (method.traceOf findings) := by
  rw [traceAlone, outcome_examined examined]
  rfl

theorem traceAlone_unexamined (failed : method.examine className = .error cause) :
    method.traceAlone className = none := by
  rw [traceAlone, outcome_unexamined failed]
  rfl

section Problems

theorem parametersFrom_missing (source : String) (descriptors : List String) (index slot : Nat) :
    ∀ problem ∈ (method.parametersFrom source index slot descriptors).2.found,
      problem.kind = .missingParameter ∧ problem.source = source := by
  induction descriptors generalizing index slot with
  | nil => simp [parametersFrom]
  | cons descriptor rest ih =>
    intro problem member
    simp only [parametersFrom, Problems.append, List.mem_append] at member
    rcases member with here | later
    · unfold parameterAt at here
      split at here
      · simp at here
      · split at here
        · simp at here
        · obtain rfl := List.mem_singleton.1 here
          exact ⟨rfl, rfl⟩
    · exact ih _ _ problem later

theorem examine_parameters (examined : method.examine className = .ok findings) :
    method.parameters (method.label className) = .ok (findings.parameters, findings.missing) := by
  cases examined_of_ok examined with
  | plain described => exact described
  | coded described => exact described

theorem examine_missing (examined : method.examine className = .ok findings) :
    ∀ problem ∈ findings.missing.found,
      problem.kind = .missingParameter ∧ problem.source = method.label className := by
  obtain ⟨descriptors, -, rest⟩ := except_bind_eq_ok.1 (examine_parameters examined)
  have found : (method.parametersFrom (method.label className) 0 _ descriptors).2 = findings.missing :=
    congrArg Prod.snd (Except.ok.inj rest)
  rw [← found]
  exact parametersFrom_missing _ descriptors 0 _

/-- The problem of an access that the method makes. -/
def ConflictProblem (method : Method) (problem : Problem) : Prop :=
  ∃ instruction ∈ method.code, ∃ ref existing, instruction.operand = .field ref ∧
    problem = (⟨ref.owner, ref.name, existing, ref.descriptor⟩ : FieldConflict).problem

theorem conflictsWith_problem (fields : FieldTable) :
    ∀ problem ∈ (method.conflictsWith fields).found,
      problem.kind = .fieldTypeConflict ∧ method.ConflictProblem problem := by
  intro problem member
  obtain ⟨⟨owner, name, existing, requested⟩, conflicts, rfl⟩ := List.mem_map.1 member
  obtain ⟨ref, accessed, rfl, rfl, rfl⟩ := FieldTable.mem_conflicts conflicts
  obtain ⟨instruction, inside, operand⟩ := mem_accesses.1 accessed
  exact ⟨rfl, instruction, inside, ref, existing, operand, rfl⟩

end Problems

/-- The problems that explain what became of a method. A traced method has those of its parameters
and of its field accesses, and a method that fails has exactly one. -/
inductive Explains (className : String) (method : Method) : List Problem → Prop where
  | traced {trace : MethodTrace} {missing : Problems} {conflicts : List Problem}
      (outcome : method.outcome className {} = .ok trace)
      (named : trace.name = method.name ∧ trace.descriptor = method.descriptor)
      (described : method.parameters (method.label className) = .ok (trace.parameters, missing))
      (unnamed : ∀ problem ∈ missing.found,
        problem.kind = .missingParameter ∧ problem.source = method.label className)
      (accessed : ∀ problem ∈ conflicts, problem.kind = .fieldTypeConflict ∧ method.ConflictProblem problem) :
      Explains className method (missing.found ++ conflicts)
  | failed {cause : Inconsistency}
      (outcome : method.outcome className {} = .error (.analysis className method.name method.descriptor cause)) :
      Explains className method [⟨.analysis, s!"{className}#{method.name}{method.descriptor}", cause.message⟩]

/-- What a class keeps of the analysis of a method with the given label. -/
def settle (label : String) : EStateM.Result MethodFailure ClassRecord MethodTrace → ClassRecord
  | .ok _ after => after
  | .error (.analysis _ _ _ cause) after =>
    { after with problems := after.problems.add ⟨.analysis, label, cause.message⟩ }
  | .error (.fieldConflict _) after => after

def pass (className : String) (record : ClassRecord) (method : Method) : ClassRecord :=
  settle (method.label className) (method.analyze className .report record)

theorem pass_examined (examined : method.examine className = .ok findings) (record : ClassRecord) :
    method.pass className record = method.leave findings record := by
  rw [pass, analyze_examined examined, settle]

theorem pass_examined_problems (examined : method.examine className = .ok findings) (record : ClassRecord) :
    (method.pass className record).problems.found = record.problems.found ++
      (findings.missing.found ++ (method.conflictsWith record.fields).found) := by
  rw [pass_examined examined, leave, Problems.append, Problems.append]

theorem pass_unexamined_problems (failed : method.examine className = .error cause) (record : ClassRecord) :
    (method.pass className record).problems.found =
      record.problems.found ++ [⟨.analysis, method.label className, cause.message⟩] := by
  obtain ⟨after, fails, same⟩ := analyze_unexamined failed record
  simp [pass, fails, failure, settle, same, Problems.add]

theorem pass_explains (method : Method) (className : String) (record : ClassRecord) :
    ∃ block, (method.pass className record).problems.found = record.problems.found ++ block ∧
      method.Explains className block := by
  cases examined : method.examine className with
  | ok findings =>
    refine ⟨_, pass_examined_problems examined record, ?_⟩
    exact .traced (outcome_examined examined {}) ⟨rfl, rfl⟩ (examine_parameters examined)
      (examine_missing examined) (conflictsWith_problem record.fields)
  | error cause =>
    exact ⟨_, pass_unexamined_problems examined record, .failed (outcome_unexamined examined {})⟩

end Method

namespace ClassDef

variable {className : String}

/-- One method of a class, if the policy makes no difference to it. -/
theorem analyzeMethods_cons {policy : ConflictPolicy} {method : Method} {record : ClassRecord}
    (same : method.analyze className policy record = method.analyze className .report record) (rest : List Method) :
    analyzeMethods className policy (method :: rest) record = do
      let (traces, after) ← analyzeMethods className policy rest (method.pass className record)
      return ((method.traceAlone className).toList ++ traces, after) := by
  conv_lhs => unfold analyzeMethods
  rw [same]
  cases examined : method.examine className with
  | ok findings =>
    rw [Method.pass_examined examined, Method.traceAlone_examined examined]
    simp only [Method.analyze_examined examined]
    rfl
  | error cause =>
    obtain ⟨after, fails, -⟩ := Method.analyze_unexamined examined record
    rw [Method.pass, fails, Method.traceAlone_unexamined examined]
    simp only [Method.failure, Method.settle]
    cases analyzeMethods className policy rest _ <;> rfl

/-- A reporting analysis makes one pass for each method and stops nowhere. -/
theorem analyzeMethods_report (className : String) (methods : List Method) (record : ClassRecord) :
    analyzeMethods className .report methods record =
      .ok (methods.filterMap (·.traceAlone className), methods.foldl (Method.pass className) record) := by
  induction methods generalizing record with
  | nil => rfl
  | cons method rest ih =>
    rw [analyzeMethods_cons rfl, ih]
    cases traced : method.traceAlone className <;> simp [traced, bind, Except.bind, pure, Except.pure]

theorem foldl_pass_explains (className : String) (methods : List Method) (record : ClassRecord) :
    ∃ blocks, (methods.foldl (Method.pass className) record).problems.found =
        record.problems.found ++ blocks.flatten ∧
      List.Forall₂ (Method.Explains className) methods blocks := by
  induction methods generalizing record with
  | nil => exact ⟨[], by simp, .nil⟩
  | cons method rest ih =>
    obtain ⟨block, found, explains⟩ := method.pass_explains className record
    obtain ⟨blocks, later, aligned⟩ := ih (method.pass className record)
    refine ⟨block :: blocks, ?_, .cons explains aligned⟩
    simp [later, found]

def finalRecord (definition : ClassDef) : ClassRecord :=
  definition.methods.foldl (Method.pass definition.name) { fields := .declaredBy definition }

/-- What a reporting analysis returns. -/
def reported (definition : ClassDef) : ClassAnalysis where
  trace := ⟨definition.name, definition.superName,
    definition.methods.filterMap (·.traceAlone definition.name), definition.finalRecord.fields.fields⟩
  references := definition.finalRecord.references
  problems := definition.finalRecord.problems

theorem analyze_report (definition : ClassDef) : definition.analyze .report = .ok definition.reported := by
  unfold analyze
  rw [analyzeMethods_report]
  rfl

theorem reported_explains (definition : ClassDef) :
    ∃ blocks, definition.reported.problems.found = blocks.flatten ∧
      List.Forall₂ (Method.Explains definition.name) definition.methods blocks :=
  foldl_pass_explains definition.name definition.methods { fields := .declaredBy definition }

/-- A reporting analysis of a class comes through. It traces, in order of declaration, the methods
that can be traced on their own, and its problems explain the methods one after another. -/
theorem analyze_explains_methods (definition : ClassDef) :
    ∃ analysis blocks, definition.analyze .report = .ok analysis ∧
      analysis.trace.methods = definition.methods.filterMap (·.traceAlone definition.name) ∧
      analysis.problems.found = blocks.flatten ∧
      List.Forall₂ (Method.Explains definition.name) definition.methods blocks ∧
      ∀ method ∈ definition.methods, ∀ record,
        method.outcome definition.name record = method.outcome definition.name {} := by
  obtain ⟨blocks, found, aligned⟩ := definition.reported_explains
  refine ⟨definition.reported, blocks, analyze_report definition, rfl, found, aligned, ?_⟩
  intro method _ record
  exact method.outcome_eq_alone definition.name record

end ClassDef
end CallProvenance
