import CallProvenance.Proofs.FieldConflicts

/-! Field accesses that fit the declarations of their class. The table of fields goes by name, so of several
declarations of one name it holds the descriptor of one. Accesses that use what it holds, and that
agree with each other where it holds nothing, never conflict, whichever methods fail between them. -/
namespace CallProvenance

namespace FieldTable

variable {table : FieldTable} {ref : FieldRef} {refs made : List FieldRef}

/-- The accesses agree with the table on the fields that it has, and with each other on all others. -/
structure Admits (table : FieldTable) (refs : List FieldRef) : Prop where
  known : ∀ ref ∈ refs, ∀ field, table.get? ref.owner ref.name = some field → field.type = some ref.descriptor
  unknown : ∀ ref ∈ refs, ∀ other ∈ refs, ref.key ∉ table.keys → other.key = ref.key →
    other.descriptor = ref.descriptor

theorem get?_put_of_ne {field : FieldTrace} {className name : String} (fresh : field.key ∉ table.keys)
    (apart : field.key ≠ (className, name)) : (table.put field).get? className name = table.get? className name := by
  have elsewhere : field.isAt className name = false := by
    rw [Bool.eq_false_iff]
    exact fun here => apart (FieldTrace.isAt_iff.1 here)
  simp [get?_eq_find?, fields_put_fresh fresh, List.find?_append, elsewhere]

theorem Admits.put (admits : table.Admits refs) (member : ref ∈ refs) (fresh : ref.key ∉ table.keys) :
    (table.put ref.entry).Admits refs where
  known := by
    intro other inside field found
    by_cases same : other.key = ref.key
    · have agrees := admits.unknown ref member other inside fresh same
      obtain ⟨sameOwner, sameName⟩ := Prod.mk.inj same
      rw [sameOwner, sameName, get?_put_access fresh] at found
      obtain rfl := Option.some.inj found
      rw [agrees]
      rfl
    · have apart : ref.entry.key ≠ (other.owner, other.name) := fun equal => same equal.symm
      rw [get?_put_of_ne fresh apart] at found
      exact admits.known other inside field found
  unknown := by
    intro first inside second inside' unseen same
    refine admits.unknown first inside second inside' (fun seen => unseen ?_) same
    rw [keys_put_fresh (show ref.entry.key ∉ table.keys from fresh)]
    exact List.mem_append_left _ seen

/-- One access that a table admits is no conflict, and the table goes on to admit the others. -/
theorem Admits.access (settled : table.Settled) (admits : table.Admits refs) (member : ref ∈ refs) :
    ∃ next, table.access ref.owner ref.name ref.descriptor = .ok next ∧ next.Settled ∧ next.Admits refs := by
  by_cases seen : ref.key ∈ table.keys
  · obtain ⟨field, existing, found, -⟩ := settled.get?_known seen
    have typed := admits.known ref member field found
    exact ⟨table, access_same found typed, settled, admits⟩
  · exact ⟨_, access_fresh seen, settled.put_access ref, admits.put member seen⟩

theorem Admits.accessAll (settled : table.Settled) (admits : table.Admits refs) (within : ∀ ref ∈ made, ref ∈ refs) :
    table.conflicts made = [] ∧ (table.accessAll made).Admits refs := by
  induction made generalizing table with
  | nil => exact ⟨rfl, admits⟩
  | cons ref rest ih =>
    obtain ⟨next, entered, settled', admits'⟩ := admits.access settled (within ref List.mem_cons_self)
    rw [conflicts, FieldTable.accessAll, entered]
    exact ih settled' admits' fun other inside => within other (List.mem_cons_of_mem _ inside)

theorem declaredBy_get? {definition : ClassDef} {className name : String} {field : FieldTrace}
    (found : (declaredBy definition).get? className name = some field) :
    className = definition.name ∧
      ∃ declaration ∈ definition.fields, declaration.name = name ∧ field.type = some declaration.descriptor := by
  obtain ⟨sameClass, sameName⟩ := get?_isAt found
  have member := mem_of_get? found
  rw [declaredBy_fields] at member
  obtain ⟨name', listed, rfl⟩ := List.mem_map.1 member
  obtain rfl : name' = name := sameName
  refine ⟨sameClass.symm, ?_⟩
  obtain ⟨declaration, inside, named⟩ := List.mem_map.1 (List.mem_eraseDups.1 listed)
  cases last : definition.fields.reverse.find? (·.name = name') with
  | none =>
    have absent := List.find?_eq_none.1 last declaration (List.mem_reverse.2 inside)
    simp [named] at absent
  | some final =>
    have final_named : final.name = name' := by simpa using List.find?_some last
    have declared := List.mem_reverse.1 (List.mem_of_find?_eq_some last)
    exact ⟨final, declared, final_named, by simp [lastDeclared, last]⟩

end FieldTable

namespace Method

variable {method : Method} {className : String} {record : ClassRecord} {refs : List FieldRef}

theorem pass_fields (method : Method) (className : String) (record : ClassRecord) :
    (method.pass className record).fields = record.fields ∨
      (method.pass className record).fields = record.fields.accessAll method.accesses := by
  cases examined : method.examine className with
  | ok findings => exact .inr (pass_traced examined record).1
  | error cause =>
    rw [pass, analyze_eq]
    cases unexamined_of_error examined with
    | parameters failed => exact .inl (by simp [failed, failure, settle])
    | simulation described code failed => exact .inl (by simp [described, code, failed, failure, settle])
    | calls described code simulated failed =>
      right
      simp [described, code, simulated, recordAccesses_report, failed, failure, settle, ClassRecord.enter, accesses]

/-- A method whose accesses are admitted leaves a table that admits the same, adds no conflict and has the
same outcome under both policies. -/
theorem pass_admits (settled : record.fields.Settled) (admits : record.fields.Admits refs)
    (within : ∀ ref ∈ method.accesses, ref ∈ refs) :
    (method.pass className record).fields.Settled ∧ (method.pass className record).fields.Admits refs ∧
      (method.pass className record).problems.found.filter Problem.isConflict =
        record.problems.found.filter Problem.isConflict ∧
      method.analyze className .abort record = method.analyze className .report record := by
  obtain ⟨clean, admits'⟩ := admits.accessAll settled within
  have fields : (method.pass className record).fields.Settled ∧ (method.pass className record).fields.Admits refs := by
    rcases method.pass_fields className record with same | entered
    · rw [same]
      exact ⟨settled, admits⟩
    · rw [entered]
      exact ⟨settled.accessAll _, admits'⟩
  refine ⟨fields.1, fields.2, ?_, analyze_clean clean⟩
  cases examined : method.examine className with
  | ok findings => rw [(pass_traced examined record).2, clean, List.map_nil, List.append_nil]
  | error cause =>
    rw [pass_unexamined_problems examined, List.filter_append]
    simp [Problem.isConflict]

end Method

namespace ClassDef

variable {definition : ClassDef} {refs : List FieldRef}

theorem analyzeMethods_admits (className : String) {methods : List Method} {record : ClassRecord}
    (settled : record.fields.Settled) (admits : record.fields.Admits refs)
    (within : ∀ method ∈ methods, ∀ ref ∈ method.accesses, ref ∈ refs) :
    analyzeMethods className .abort methods record = analyzeMethods className .report methods record ∧
      (methods.foldl (Method.pass className) record).problems.found.filter Problem.isConflict =
        record.problems.found.filter Problem.isConflict := by
  induction methods generalizing record with
  | nil => exact ⟨rfl, rfl⟩
  | cons method rest ih =>
    obtain ⟨settled', admits', added, same⟩ := Method.pass_admits settled admits (within method List.mem_cons_self)
    obtain ⟨later, unchanged⟩ := ih settled' admits' fun other inside => within other (List.mem_cons_of_mem _ inside)
    constructor
    · rw [analyzeMethods_cons same, analyzeMethods_cons rfl, later]
    · rw [List.foldl_cons, unchanged, added]

def fieldAccesses (definition : ClassDef) : List FieldRef := definition.methods.flatMap Method.accesses

/-- Accesses to fields of the class itself are declared as they are made, and accesses to one field of another
class have one descriptor. -/
structure AccessesDeclared (definition : ClassDef) : Prop where
  own : ∀ ref ∈ definition.fieldAccesses, ref.owner = definition.name →
    ∃ declaration ∈ definition.fields, declaration.name = ref.name ∧ declaration.descriptor = ref.descriptor
  foreign : ∀ ref ∈ definition.fieldAccesses, ∀ other ∈ definition.fieldAccesses, ref.owner ≠ definition.name →
    other.key = ref.key → other.descriptor = ref.descriptor

/-- Where a field of the class has another declaration with another descriptor, accesses use the descriptor
that the table of the declarations holds. -/
def OverloadsHeld (definition : ClassDef) : Prop :=
  ∀ ref ∈ definition.fieldAccesses, ref.owner = definition.name →
    (∃ declaration ∈ definition.fields, declaration.name = ref.name ∧ declaration.descriptor ≠ ref.descriptor) →
    ∃ field ∈ (FieldTable.declaredBy definition).get? ref.owner ref.name, field.type = some ref.descriptor

theorem AccessesDeclared.admits (declared : definition.AccessesDeclared) (held : definition.OverloadsHeld) :
    (FieldTable.declaredBy definition).Admits definition.fieldAccesses where
  known := by
    intro ref member field found
    obtain ⟨owner, declaration, inside, named, typed⟩ := FieldTable.declaredBy_get? found
    by_cases same : declaration.descriptor = ref.descriptor
    · rw [typed, same]
    · obtain ⟨field', found', typed'⟩ := held ref member owner ⟨declaration, inside, named, same⟩
      obtain rfl := Option.some.inj (found.symm.trans found')
      exact typed'
  unknown := by
    intro ref member other inside unseen same
    by_cases owner : ref.owner = definition.name
    · obtain ⟨declaration, listed, named, -⟩ := declared.own ref member owner
      exact absurd ((declares_iff ref.key).2 ⟨owner, declaration, listed, named⟩) unseen
    · exact declared.foreign ref member other inside owner same

/-- A class with two fields of one name, of which it reads the one that its table does not hold. -/
def overloading : ClassDef where
  name := "Overloaded"
  fields := [⟨"value", "I", none⟩, ⟨"value", "J", none⟩]
  methods := [{
    name := "read"
    descriptor := "()V"
    isStatic := true
    code := [⟨0, 0xb2, .field ⟨"Overloaded", "value", "I", .getStatic⟩⟩, ⟨3, 0x57, .none⟩, ⟨4, 0xb1, .none⟩] }]
  source := "Overloaded.class"

/-- To be declared is not enough for an access to a field whose name is declared twice. -/
theorem overloading_conflicts : overloading.AccessesDeclared ∧
    (∃ analysis, overloading.analyze .report = .ok analysis ∧
      ∃ problem ∈ analysis.problems.found, problem.kind = .fieldTypeConflict) ∧
    ∃ conflict, overloading.analyze .abort = .error conflict := by
  refine ⟨⟨by decide, by decide⟩, ?_, ?_⟩
  · have found : (overloading.analyze .report).toOption.any
        (·.problems.found.any (·.kind = .fieldTypeConflict)) = true := by decide +kernel
    obtain ⟨analysis, analyzed, conflict⟩ := (Option.any_eq_true _ _).1 found
    obtain ⟨problem, member, kind⟩ := List.any_eq_true.1 conflict
    exact ⟨analysis, Method.ok_of_toOption analyzed, problem, member, of_decide_eq_true kind⟩
  · have stopped : (overloading.analyze .abort).toOption.isNone = true := by decide +kernel
    cases aborted : overloading.analyze .abort with
    | ok analysis => simp [aborted, Except.toOption] at stopped
    | error conflict => exact ⟨conflict, rfl⟩

/-- A class whose accesses are declared, and held where names are declared twice, is analysed without a field
conflict under both policies, and with the same result. -/
theorem declared_accesses_never_conflict (declared : definition.AccessesDeclared) (held : definition.OverloadsHeld) :
    ∃ analysis, definition.analyze .report = .ok analysis ∧ definition.analyze .abort = .ok analysis ∧
      ∀ problem ∈ analysis.problems.found, problem.kind ≠ .fieldTypeConflict := by
  have within : ∀ method ∈ definition.methods, ∀ ref ∈ method.accesses, ref ∈ definition.fieldAccesses :=
    fun method member ref inside => List.mem_flatMap.2 ⟨method, member, inside⟩
  let start : ClassRecord := { fields := .declaredBy definition }
  have settled : start.fields.Settled := FieldTable.declaredBy_settled definition
  have admits : start.fields.Admits definition.fieldAccesses := declared.admits held
  obtain ⟨same, conflicts⟩ := analyzeMethods_admits definition.name settled admits within
  have agree : definition.analyze .abort = definition.analyze .report := by
    unfold analyze
    rw [same]
  refine ⟨definition.reported, definition.analyze_report, agree.trans definition.analyze_report, ?_⟩
  intro problem member conflict
  have none : definition.reported.problems.found.filter Problem.isConflict = [] := conflicts
  have absent := List.filter_eq_nil_iff.1 none problem member
  simp [Problem.isConflict, conflict] at absent

/-- A class that reads, through an overloaded name, the field that its table holds, and twice a field of
another class; the method between fails. -/
def consulting : ClassDef where
  name := "Consult"
  fields := [⟨"value", "I", none⟩, ⟨"size", "I", none⟩, ⟨"value", "J", none⟩]
  methods := [{
    name := "read"
    descriptor := "()V"
    isStatic := true
    code := [⟨0, 0xb2, .field ⟨"Consult", "value", "J", .getStatic⟩⟩, ⟨3, 0x58, .none⟩,
      ⟨4, 0xb2, .field ⟨"Store", "count", "F", .getStatic⟩⟩, ⟨7, 0x57, .none⟩, ⟨8, 0xb1, .none⟩] },
    Method.underflowing, {
    name := "write"
    descriptor := "()V"
    isStatic := true
    code := [⟨0, 0xb2, .field ⟨"Consult", "size", "I", .getStatic⟩⟩, ⟨3, 0x57, .none⟩,
      ⟨4, 0xb2, .field ⟨"Store", "count", "F", .getStatic⟩⟩, ⟨7, 0x57, .none⟩, ⟨8, 0xb1, .none⟩] }]
  source := "Consult.class"

theorem declared_accesses_never_conflict_consulting :
    consulting.AccessesDeclared ∧ consulting.OverloadsHeld ∧
      ∃ analysis, consulting.analyze .report = .ok analysis ∧ consulting.analyze .abort = .ok analysis ∧
        ∀ problem ∈ analysis.problems.found, problem.kind ≠ .fieldTypeConflict := by
  have declared : consulting.AccessesDeclared := ⟨by decide, by decide⟩
  have held : consulting.OverloadsHeld := by
    unfold OverloadsHeld
    decide +kernel
  exact ⟨declared, held, declared_accesses_never_conflict declared held⟩

end ClassDef
end CallProvenance
