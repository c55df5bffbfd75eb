import CallProvenance.MethodAnalysis
import CallProvenance.Proofs.Action

/-! What the field accesses of a method do to the record of its class. A reporting pass always comes
through; a pass that stops at conflicts does the same until the first of them. -/
namespace CallProvenance

def Instruction.fieldRef? (instruction : Instruction) : Option FieldRef :=
  match instruction.operand with
  | .field ref => some ref
  | _ => none

theorem Instruction.fieldRef?_eq_some {instruction : Instruction} {ref : FieldRef} :
    instruction.fieldRef? = some ref ↔ instruction.operand = .field ref := by
  unfold fieldRef?
  cases instruction.operand <;> simp

/-- The accesses in the code of a method, reachable or not, in instruction order. -/
def Method.accesses (method : Method) : List FieldRef := method.code.filterMap Instruction.fieldRef?

theorem Method.mem_accesses {method : Method} {ref : FieldRef} :
    ref ∈ method.accesses ↔ ∃ instruction ∈ method.code, instruction.operand = .field ref := by
  simp [accesses, Instruction.fieldRef?_eq_some]

def FieldTrace.isAt (field : FieldTrace) (className name : String) : Bool :=
  field.className = className && field.name = name

theorem FieldTrace.isAt_iff {field : FieldTrace} {className name : String} :
    field.isAt className name = true ↔ field.key = (className, name) := by
  simp [isAt, key]

namespace FieldTable

namespace Raw

variable {table : Raw} {className name type : String} {field old : FieldTrace} {position : Nat}

/-- Puts a field in the place of its key, or at the end. -/
def put (table : Raw) (field : FieldTrace) : Raw :=
  let resolved := table.resolve field.className field.name
  resolved.2.2.write resolved.1 field

namespace Indexed

theorem put (indexed : table.Indexed) (field : FieldTrace) : (table.put field).Indexed := by
  obtain ⟨next, found, same⟩ := indexed.resolve field.className field.name
  exact next.write found same.symm

theorem put_known (indexed : table.Indexed) (found : table.fields[position]? = some old) (same : old.key = field.key) :
    table.put field = table.write position field := by
  have known : table.find? (field.className, field.name) = some (position, old) :=
    indexed.find?_eq_some.2 ⟨found, same⟩
  simp only [Raw.put, Raw.resolve, known]

theorem put_fresh (indexed : table.Indexed) (fresh : ∀ old ∈ table.fields, old.key ≠ field.key) :
    (table.put field).fields = table.fields ++ [field] := by
  have unknown : table.find? (field.className, field.name) = none := indexed.find?_eq_none.2 fresh
  simp only [Raw.put, Raw.resolve, unknown, Raw.write, List.set_append_right _ _ (Nat.le_refl _), Nat.sub_self,
    List.set_cons_zero]

theorem put_same (indexed : table.Indexed) (member : field ∈ table.fields) : table.put field = table := by
  obtain ⟨position, found⟩ := List.mem_iff_getElem?.1 member
  obtain ⟨inside, here⟩ := List.getElem?_eq_some_iff.1 found
  rw [indexed.put_known found rfl, Raw.write, ← here, List.set_getElem_self]

theorem resolve_known (indexed : table.Indexed) (member : field ∈ table.fields) (same : field.key = (className, name)) :
    ∃ position, table.resolve className name = (position, field, table) := by
  obtain ⟨position, found⟩ := List.mem_iff_getElem?.1 member
  refine ⟨position, ?_⟩
  rw [Raw.resolve, indexed.find?_eq_some.2 ⟨found, same⟩]

theorem resolve_new (indexed : table.Indexed) (fresh : ∀ old ∈ table.fields, old.key ≠ (className, name)) :
    (table.resolve className name).2.1 = { className, name } := by
  rw [Raw.resolve, indexed.find?_eq_none.2 fresh]

/-- An update puts its field with the type, unless that is refused. -/
theorem update_eq (indexed : table.Indexed) (className name type : String) :
    table.update className name type =
      match (table.resolve className name).2.1.withType type with
      | .ok field => (.ok (), table.put field)
      | .error conflict => (.error conflict, (table.resolve className name).2.2) := by
  have key := (indexed.resolve className name).2.2
  unfold Raw.update
  cases typed : (table.resolve className name).2.1.withType type with
  | error conflict => simp only [typed]
  | ok field =>
    obtain ⟨sameClass, sameName⟩ := Prod.mk.inj ((FieldTrace.key_withType typed).trans key)
    simp only [typed, Raw.put, sameClass, sameName]

end Indexed
end Raw

variable {table : FieldTable} {className name type : String} {field : FieldTrace}

theorem ext_raw {other : FieldTable} (same : table.toRaw = other.toRaw) : table = other := by
  cases table
  cases other
  congr

theorem get?_eq_some_iff :
    table.get? className name = some field ↔ field ∈ table.fields ∧ field.key = (className, name) := by
  unfold get?
  rw [Option.map_eq_some_iff]
  constructor
  · rintro ⟨entry, known, rfl⟩
    obtain ⟨found, same⟩ := table.indexed.find?_eq_some.1 known
    exact ⟨List.mem_of_getElem? found, same⟩
  · rintro ⟨member, same⟩
    obtain ⟨position, found⟩ := List.mem_iff_getElem?.1 member
    exact ⟨(position, field), table.indexed.find?_eq_some.2 ⟨found, same⟩, rfl⟩

theorem get?_eq_none_iff :
    table.get? className name = none ↔ ∀ field ∈ table.fields, field.key ≠ (className, name) := by
  rw [get?, Option.map_eq_none_iff]
  exact table.indexed.find?_eq_none

/-- Looking a field up by its position is looking for the first entry of its name. -/
theorem get?_eq_find? (table : FieldTable) (className name : String) :
    table.get? className name = table.fields.find? (·.isAt className name) := by
  cases found : table.fields.find? (·.isAt className name) with
  | some field =>
    have here : field.isAt className name = true := by simpa using List.find?_some found
    exact get?_eq_some_iff.2 ⟨List.mem_of_find?_eq_some found, FieldTrace.isAt_iff.1 here⟩
  | none =>
    refine get?_eq_none_iff.2 fun field member same => ?_
    exact List.find?_eq_none.1 found field member (FieldTrace.isAt_iff.2 same)

theorem get?_isAt (found : table.get? className name = some field) :
    field.className = className ∧ field.name = name :=
  Prod.mk.inj (get?_eq_some_iff.1 found).2

theorem mem_of_get? (found : table.get? className name = some field) : field ∈ table.fields :=
  (get?_eq_some_iff.1 found).1

def put (table : FieldTable) (field : FieldTrace) : FieldTable := ⟨table.toRaw.put field, table.indexed.put field⟩

theorem put_same (member : field ∈ table.fields) : table.put field = table :=
  ext_raw (table.indexed.put_same member)

/-- An access puts the field, old or new, with the type. -/
theorem access_eq (table : FieldTable) (className name type : String) : table.access className name type =
    (((table.get? className name).getD { className, name }).withType type).map table.put := by
  have resolved : (table.toRaw.resolve className name).2.1 = (table.get? className name).getD { className, name } := by
    cases found : table.get? className name with
    | none => exact table.indexed.resolve_new (get?_eq_none_iff.1 found)
    | some field =>
      obtain ⟨member, same⟩ := get?_eq_some_iff.1 found
      obtain ⟨position, known⟩ := table.indexed.resolve_known member same
      rw [known]
      rfl
  have updated := table.indexed.update_eq className name type
  rw [resolved] at updated
  cases typed : ((table.get? className name).getD { className, name }).withType type <;>
  · rw [typed] at updated
    simp only [access, updated]
    rfl

/-- Only a field that is known with another type makes an access fail. -/
theorem access_eq_error {conflict : FieldConflict} :
    table.access className name type = .error conflict ↔
      ∃ field existing, table.get? className name = some field ∧ field.type = some existing ∧
        existing ≠ type ∧ conflict = ⟨className, name, existing, type⟩ := by
  rw [access_eq]
  cases found : table.get? className name with
  | none => simp [FieldTrace.withType, Except.map]
  | some field =>
    obtain ⟨sameClass, sameName⟩ := get?_isAt found
    unfold FieldTrace.withType
    cases known : field.type with
    | none => simp [known, Except.map]
    | some existing =>
      by_cases same : existing = type
      · simp [known, same, Except.map]
      · have apart : type ≠ existing := fun equal => same equal.symm
        simp [known, same, apart, sameClass, sameName, eq_comm, Except.map]

/-- The table after a sequence of accesses, each conflict leaving it as it was. -/
def accessAll (table : FieldTable) : List FieldRef → FieldTable
  | [] => table
  | ref :: rest =>
    match table.access ref.owner ref.name ref.descriptor with
    | .ok next => next.accessAll rest
    | .error _ => table.accessAll rest

def conflicts (table : FieldTable) : List FieldRef → List FieldConflict
  | [] => []
  | ref :: rest =>
    match table.access ref.owner ref.name ref.descriptor with
    | .ok next => next.conflicts rest
    | .error conflict => conflict :: table.conflicts rest

theorem mem_conflicts {refs : List FieldRef} {conflict : FieldConflict}
    (member : conflict ∈ table.conflicts refs) :
    ∃ ref ∈ refs, conflict.className = ref.owner ∧ conflict.fieldName = ref.name ∧
      conflict.requested = ref.descriptor := by
  induction refs generalizing table with
  | nil => simp [conflicts] at member
  | cons ref rest ih =>
    unfold conflicts at member
    split at member
    · obtain ⟨other, inside, same⟩ := ih member
      exact ⟨other, List.mem_cons_of_mem _ inside, same⟩
    · rename_i found failed
      rcases List.mem_cons.1 member with rfl | later
      · obtain ⟨_, existing, -, -, -, rfl⟩ := access_eq_error.1 failed
        exact ⟨ref, List.mem_cons_self, rfl, rfl, rfl⟩
      · obtain ⟨other, inside, same⟩ := ih later
        exact ⟨other, List.mem_cons_of_mem _ inside, same⟩

end FieldTable

def ClassRecord.enter (record : ClassRecord) (refs : List FieldRef) : ClassRecord :=
  { record with
    fields := record.fields.accessAll refs
    references := record.references ++ refs.map (·.owner) }

namespace ClassRecord

variable {record : ClassRecord} {ref : FieldRef} {rest : List FieldRef}

theorem enter_nil (record : ClassRecord) : record.enter [] = record := by
  simp [enter, FieldTable.accessAll]

theorem enter_known {fields : FieldTable}
    (known : record.fields.access ref.owner ref.name ref.descriptor = .ok fields) :
    record.enter (ref :: rest) = ({ record.refer ref.owner with fields } : ClassRecord).enter rest := by
  simp [enter, refer, FieldTable.accessAll, known]

theorem enter_conflict {conflict : FieldConflict}
    (failed : record.fields.access ref.owner ref.name ref.descriptor = .error conflict) :
    record.enter (ref :: rest) = (record.refer ref.owner).enter rest := by
  simp [enter, refer, FieldTable.accessAll, failed]

end ClassRecord

section Passes

variable {policy : ConflictPolicy} {instruction : Instruction} {code : List Instruction}

theorem recordAccess_eq (policy : ConflictPolicy) (ref : FieldRef) (record : ClassRecord) :
    recordAccess policy ref record =
      match record.fields.access ref.owner ref.name ref.descriptor, policy with
      | .ok fields, _ => .ok {} { record.refer ref.owner with fields }
      | .error conflict, .report => .ok ⟨[conflict.problem]⟩ (record.refer ref.owner)
      | .error conflict, .abort => .error (.fieldConflict conflict) (record.refer ref.owner) := by
  change (match record.fields.access ref.owner ref.name ref.descriptor with | .ok _ => _ | .error _ => _ :
    EStateM MethodFailure ClassRecord Problems) (record.refer ref.owner) = _
  cases record.fields.access ref.owner ref.name ref.descriptor with
  | ok fields => rfl
  | error conflict => cases policy <;> rfl

theorem recordAccesses_access {ref : FieldRef} (access : instruction.fieldRef? = some ref)
    (found : Problems) (record : ClassRecord) :
    recordAccesses policy (instruction :: code) found record =
      match recordAccess policy ref record with
      | .ok conflicts after => recordAccesses policy code (found.append conflicts) after
      | .error failure after => .error failure after := by
  rw [Instruction.fieldRef?_eq_some] at access
  simp only [recordAccesses, access, bind, EStateM.bind]
  cases recordAccess policy ref record <;> rfl

theorem recordAccesses_other (other : instruction.fieldRef? = none) (found : Problems) :
    recordAccesses policy (instruction :: code) found = recordAccesses policy code found := by
  cases operand : instruction.operand with
  | field ref => simp [Instruction.fieldRef?, operand] at other
  | _ => simp only [recordAccesses, operand]

theorem recordAccesses_report (code : List Instruction) (found : Problems) (record : ClassRecord) :
    let refs := code.filterMap Instruction.fieldRef?
    recordAccesses .report code found record =
      .ok (found.append ⟨(record.fields.conflicts refs).map (·.problem)⟩) (record.enter refs) := by
  induction code generalizing found record with
  | nil => simp [recordAccesses, FieldTable.conflicts, Problems.append, ClassRecord.enter_nil, pure, EStateM.pure]
  | cons instruction rest ih =>
    cases access : instruction.fieldRef? with
    | none => simpa [recordAccesses_other access, access] using ih found record
    | some ref =>
      rw [recordAccesses_access access, recordAccess_eq]
      cases entered : record.fields.access ref.owner ref.name ref.descriptor with
      | ok fields =>
        simp [ih, access, ClassRecord.enter_known entered, FieldTable.conflicts, entered, Problems.append]
      | error conflict =>
        simp [ih, access, ClassRecord.enter_conflict entered, FieldTable.conflicts, entered, Problems.append,
          ClassRecord.refer]

/-- Both policies make the same pass up to the first conflict. -/
theorem recordAccesses_abort (code : List Instruction) (found : Problems) (record : ClassRecord) :
    ∃ after, recordAccesses .abort code found record =
      match record.fields.conflicts (code.filterMap Instruction.fieldRef?) with
      | [] => recordAccesses .report code found record
      | conflict :: _ => .error (.fieldConflict conflict) after := by
  induction code generalizing found record with
  | nil => exact ⟨record, rfl⟩
  | cons instruction rest ih =>
    cases access : instruction.fieldRef? with
    | none =>
      obtain ⟨after, same⟩ := ih found record
      refine ⟨after, ?_⟩
      rw [recordAccesses_other access, recordAccesses_other access, List.filterMap_cons_none access]
      exact same
    | some ref =>
      rw [List.filterMap_cons_some access, FieldTable.conflicts]
      simp only [recordAccesses_access access, recordAccess_eq]
      cases entered : record.fields.access ref.owner ref.name ref.descriptor with
      | ok fields => exact ih _ _
      | error conflict => exact ⟨_, rfl⟩

end Passes
end CallProvenance
