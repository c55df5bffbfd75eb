import CallProvenance.Proofs.ConflictPolicies
import CallProvenance.Proofs.FieldTypes

/-! The field conflicts of a class against its final fields. Conflicts are found one by one while the
methods fill the table that they share. As a type that is known never changes, they are the
accesses that disagree with the table at the end, and methods that fail have no part in it. -/
namespace CallProvenance

namespace Method

variable {method : Method} {className : String} {findings : MethodFindings} {cause : Inconsistency}

theorem missing_conflicts (examined : method.examine className = .ok findings) :
    findings.missing.found.filter Problem.isConflict = [] := by
  rw [List.filter_eq_nil_iff]
  intro problem member
  simp [Problem.isConflict, (examine_missing examined problem member).1]

theorem conflictsWith_conflicts (method : Method) (fields : FieldTable) :
    (method.conflictsWith fields).found.filter Problem.isConflict = (method.conflictsWith fields).found := by
  rw [List.filter_eq_self]
  intro problem member
  simp [Problem.isConflict, (conflictsWith_problem fields problem member).1]

theorem pass_traced (examined : method.examine className = .ok findings) (record : ClassRecord) :
    (method.pass className record).fields = record.fields.accessAll method.accesses ∧
      (method.pass className record).problems.found.filter Problem.isConflict =
        record.problems.found.filter Problem.isConflict ++
          (record.fields.conflicts method.accesses).map (·.problem) := by
  constructor
  · rw [pass_examined examined, leave]
  · rw [pass_examined_problems examined, List.filter_append, List.filter_append, missing_conflicts examined,
      conflictsWith_conflicts, List.nil_append]
    rfl

theorem pass_failed (matched : method.CallsMatch) (failed : method.examine className = .error cause)
    (record : ClassRecord) :
    (method.pass className record).fields = record.fields ∧
      (method.pass className record).problems.found.filter Problem.isConflict =
        record.problems.found.filter Problem.isConflict := by
  constructor
  · rw [pass, analyze_unexamined_matched matched failed]
    rfl
  · rw [pass_unexamined_problems failed, List.filter_append]
    simp [Problem.isConflict]

end Method

namespace ClassDef

variable {className : String} {methods : List Method} {definition : ClassDef}

/-- The accesses of the methods that can be traced, in method and instruction order. -/
def tracedAccesses (className : String) (methods : List Method) : List FieldRef :=
  (methods.filter fun method => (method.traceAlone className).isSome).flatMap Method.accesses

theorem tracedAccesses_traced {method : Method} {findings : MethodFindings}
    (examined : method.examine className = .ok findings) (rest : List Method) :
    tracedAccesses className (method :: rest) = method.accesses ++ tracedAccesses className rest := by
  simp [tracedAccesses, Method.traceAlone_examined examined]

theorem tracedAccesses_failed {method : Method} {cause : Inconsistency}
    (failed : method.examine className = .error cause) (rest : List Method) :
    tracedAccesses className (method :: rest) = tracedAccesses className rest := by
  simp [tracedAccesses, Method.traceAlone_unexamined failed]

/-- The methods of a class act on its fields as one sequence of accesses. -/
theorem foldl_pass_accesses (className : String) (matched : ∀ method ∈ methods, method.CallsMatch)
    (record : ClassRecord) :
    (methods.foldl (Method.pass className) record).fields =
        record.fields.accessAll (tracedAccesses className methods) ∧
      (methods.foldl (Method.pass className) record).problems.found.filter Problem.isConflict =
        record.problems.found.filter Problem.isConflict ++
          (record.fields.conflicts (tracedAccesses className methods)).map (·.problem) := by
  induction methods generalizing record with
  | nil => simp [tracedAccesses, FieldTable.accessAll, FieldTable.conflicts]
  | cons method rest ih =>
    obtain ⟨fields, problems⟩ :=
      ih (fun other member => matched other (List.mem_cons_of_mem _ member)) (method.pass className record)
    rw [List.foldl_cons, fields, problems]
    cases examined : method.examine className with
    | ok findings =>
      obtain ⟨entered, reported⟩ := Method.pass_traced examined record
      rw [entered, reported, tracedAccesses_traced examined, FieldTable.accessAll_append, FieldTable.conflicts_append,
        List.map_append, List.append_assoc]
      exact ⟨rfl, rfl⟩
    | error cause =>
      obtain ⟨entered, reported⟩ := Method.pass_failed (matched method List.mem_cons_self) examined record
      rw [entered, reported, tracedAccesses_failed examined]
      exact ⟨rfl, rfl⟩

def accesses (definition : ClassDef) : List FieldRef := tracedAccesses definition.name definition.methods

def Declares (definition : ClassDef) (key : String × String) : Prop :=
  key.1 = definition.name ∧ ∃ declaration ∈ definition.fields, declaration.name = key.2

instance (definition : ClassDef) : DecidablePred definition.Declares := fun key =>
  inferInstanceAs (Decidable (key.1 = definition.name ∧ ∃ declaration ∈ definition.fields, declaration.name = key.2))

/-- The fields that the class accesses and does not declare, in the order of their first accesses. -/
def undeclared (definition : ClassDef) : List (String × String) :=
  ((definition.accesses.map (·.key)).filter (¬ definition.Declares ·)).eraseDups

theorem declares_iff (key : String × String) :
    key ∈ (FieldTable.declaredBy definition).keys ↔ definition.Declares key := by
  obtain ⟨className, name⟩ := key
  rw [FieldTable.Raw.keys, FieldTable.declaredBy_fields]
  simp only [FieldTable.declared, FieldTable.lastDeclared, FieldTrace.key, List.map_map, List.mem_map,
    List.mem_eraseDups, Function.comp, Prod.mk.injEq, Declares]
  constructor
  · rintro ⟨_, ⟨declaration, inside, rfl⟩, rfl, rfl⟩
    exact ⟨rfl, declaration, inside, rfl⟩
  · rintro ⟨rfl, declaration, inside, rfl⟩
    exact ⟨_, ⟨declaration, inside, rfl⟩, rfl, rfl⟩

theorem discovered_accesses :
    (FieldTable.declaredBy definition).discovered definition.accesses =
      definition.undeclared.map (FieldTable.firstAccessed definition.accesses) := by
  unfold FieldTable.discovered undeclared
  simp only [declares_iff]

def finalTable (definition : ClassDef) : FieldTable :=
  (FieldTable.declaredBy definition).accessAll definition.accesses

theorem finalTable_settled (definition : ClassDef) : definition.finalTable.Settled :=
  (FieldTable.declaredBy_settled definition).accessAll definition.accesses

theorem reported_fields (matched : definition.CallsMatch) :
    definition.reported.trace.fields = definition.finalTable.fields :=
  congrArg (·.fields) (foldl_pass_accesses definition.name matched { fields := .declaredBy definition }).1

theorem reported_conflicts (matched : definition.CallsMatch) :
    definition.reported.problems.found.filter Problem.isConflict =
      (definition.accesses.filterMap (·.disagreement definition.finalTable.fields)).map (·.problem) := by
  have found := (foldl_pass_accesses definition.name matched { fields := .declaredBy definition }).2
  rw [FieldTable.conflicts_eq_disagreements (FieldTable.declaredBy_settled definition) _ []] at found
  exact found

/-- The fields and the conflicts of an analysed class, said without the order in which they are found. -/
structure ExplainsFields (definition : ClassDef) (analysis : ClassAnalysis) : Prop where
  traced : analysis.trace.methods = definition.methods.filterMap (·.traceAlone definition.name)
  /-- Every access of a traced method, reachable or not, is to a field whose type is known. -/
  known : ∀ method ∈ definition.methods, (method.traceAlone definition.name).isSome = true →
    ∀ instruction ∈ method.code, ∀ ref, instruction.operand = .field ref →
      ∃ field ∈ analysis.trace.fields, field.key = ref.key ∧ field.type.isSome = true
  distinct : (analysis.trace.fields.map (·.key)).Nodup
  /-- One problem for each access that disagrees with the type of its field, in the order of the accesses. -/
  conflicts : analysis.problems.found.filter (·.kind = .fieldTypeConflict) =
    (definition.accesses.filterMap (·.disagreement analysis.trace.fields)).map (·.problem)
  /-- Declared fields come first, and each field after them has the type of its first access. -/
  fields : analysis.trace.fields = FieldTable.declared definition.name definition.fields ++
    definition.undeclared.map (FieldTable.firstAccessed definition.accesses)

theorem mem_accesses {method : Method} {instruction : Instruction} {ref : FieldRef}
    (declared : method ∈ definition.methods) (traced : (method.traceAlone definition.name).isSome = true)
    (inside : instruction ∈ method.code) (operand : instruction.operand = .field ref) :
    ref ∈ definition.accesses :=
  List.mem_flatMap.2 ⟨method, List.mem_filter.2 ⟨declared, traced⟩, Method.mem_accesses.2 ⟨instruction, inside, operand⟩⟩

/-- The conflicts of a class are exactly its accesses that disagree with its final fields. -/
theorem analyze_conflicts_final (matched : definition.CallsMatch) :
    ∃ analysis, definition.analyze .report = .ok analysis ∧ definition.ExplainsFields analysis := by
  have settled := definition.finalTable_settled
  refine ⟨definition.reported, definition.analyze_report, ⟨rfl, ?_, ?_, ?_, ?_⟩⟩
  · intro method declared traced instruction inside ref operand
    have accessed := mem_accesses declared traced inside operand
    have entered : ref.key ∈ definition.finalTable.keys :=
      FieldTable.key_mem_accessAll (FieldTable.declaredBy_settled definition) accessed
    obtain ⟨field, member, same⟩ := List.mem_map.1 entered
    rw [reported_fields matched]
    exact ⟨field, member, same, settled field member⟩
  · rw [reported_fields matched]
    exact definition.finalTable.indexed.distinct
  · rw [reported_fields matched]
    exact reported_conflicts matched
  · rw [reported_fields matched, finalTable,
      FieldTable.accessAll_fields (FieldTable.declaredBy_settled definition), FieldTable.declaredBy_fields,
      discovered_accesses]

/-- A class that declares a field twice, has a method that fails, and reads two fields with two types. -/
def tallying : ClassDef where
  name := "Tally"
  fields := [⟨"count", "J", none⟩, ⟨"count", "I", none⟩]
  methods := [Method.underflowing, {
    name := "read"
    descriptor := "()V"
    isStatic := true
    code := [⟨0, 0xb2, .field ⟨"Tally", "count", "J", .getStatic⟩⟩, ⟨3, 0x58, .none⟩,
      ⟨4, 0xb2, .field ⟨"Store", "size", "J", .getStatic⟩⟩, ⟨7, 0x58, .none⟩, ⟨8, 0xb1, .none⟩,
      ⟨9, 0xb2, .field ⟨"Store", "size", "I", .getStatic⟩⟩] }]
  source := "Tally.class"

/-- The method that fails does not fix the type of the field that it reads, and an access that is never
reached is in conflict all the same. -/
theorem analyze_conflicts_final_tallying : tallying.CallsMatch ∧
    ∃ analysis, tallying.analyze .report = .ok analysis ∧
      analysis.trace.fields = [⟨"Tally", "count", some "I", none⟩, ⟨"Store", "size", some "J", none⟩] ∧
      analysis.problems.found.filter (·.kind = .fieldTypeConflict) =
        [(⟨"Tally", "count", "I", "J"⟩ : FieldConflict).problem, (⟨"Store", "size", "J", "I"⟩ : FieldConflict).problem] := by
  have matched : tallying.CallsMatch := by decide
  obtain ⟨analysis, analyzed, explains⟩ := analyze_conflicts_final matched
  have accessed : tallying.accesses = [⟨"Tally", "count", "J", .getStatic⟩, ⟨"Store", "size", "J", .getStatic⟩,
      ⟨"Store", "size", "I", .getStatic⟩] := by decide +kernel
  have fields := explains.fields
  have conflicts := explains.conflicts
  rw [undeclared, accessed] at fields
  have final : analysis.trace.fields = [⟨"Tally", "count", some "I", none⟩, ⟨"Store", "size", some "J", none⟩] :=
    fields.trans (by decide +kernel)
  rw [accessed, final] at conflicts
  exact ⟨matched, analysis, analyzed, final, conflicts⟩

end ClassDef
end CallProvenance
