import CallProvenance.Proofs.CallExtraction
import CallProvenance.Proofs.FieldAccesses

/-! The outcome of analysing one method. What a method is found to contain depends on the method
alone; the record of its class only decides which accesses are conflicts. A method that fails
leaves the record as it was, since nothing can fail once its code has been simulated. -/
namespace CallProvenance

theorem exists_mapM_ok {ε α β : Type} {f : α → Except ε β} {related : α → β → Prop} {xs : List α}
    (total : ∀ x ∈ xs, ∃ y, f x = .ok y ∧ related x y) :
    ∃ ys, xs.mapM f = .ok ys ∧ List.Forall₂ related xs ys := by
  induction xs with
  | nil => exact ⟨[], rfl, .nil⟩
  | cons x xs ih =>
    obtain ⟨y, made, holds⟩ := total x List.mem_cons_self
    obtain ⟨ys, mapped, aligned⟩ := ih fun x member => total x (List.mem_cons_of_mem _ member)
    refine ⟨y :: ys, ?_, .cons holds aligned⟩
    rw [List.mapM_cons, made, mapped]
    rfl

namespace Simulation

variable {simulation : Simulation} {method : Method}

def targetAt (simulation : Simulation) (row : Instruction × Nat) : Option CallTarget :=
  if simulation.frames[row.2]?.join.isSome then row.1.operand.target? else none

def targets (simulation : Simulation) (method : Method) : List CallTarget :=
  method.code.zipIdx.filterMap simulation.targetAt

theorem mem_targets {target : CallTarget} :
    target ∈ simulation.targets method ↔
      ∃ (index : Nat) (instruction : Instruction) (frame : Frame), method.code[index]? = some instruction ∧
        simulation.frames[index]? = some (some frame) ∧ instruction.operand.target? = some target := by
  simp only [targets, List.mem_filterMap, targetAt, Prod.exists, List.mem_zipIdx_iff_getElem?]
  constructor
  · rintro ⟨instruction, index, found, named⟩
    split at named
    · rename_i reached
      obtain ⟨frame, reached⟩ := Option.isSome_iff_exists.1 reached
      exact ⟨index, instruction, frame, found, Option.join_eq_some_iff.1 reached, named⟩
    · cases named
  · rintro ⟨index, instruction, frame, found, reached, named⟩
    exact ⟨instruction, index, found, by simp [reached, named]⟩

theorem callAt_target (matched : method.CallsMatch) (simulated : method.simulate = .ok simulation)
    {row : (Instruction × Nat) × Option Nat} (member : row ∈ method.rows) :
    ∃ call, simulation.callAt row.1.1 row.1.2 row.2 = .ok call ∧
      call.map (·.target) = simulation.targetAt row.1 := by
  obtain ⟨⟨instruction, index⟩, line⟩ := row
  obtain ⟨found, at_line⟩ := Method.mem_rows member
  have fits := matched instruction (List.mem_of_getElem? found)
  cases reaches : simulation.reachesCall (instruction, index) with
  | true =>
    obtain ⟨call, made, instruction', frame, _, found', reached, named, -⟩ :=
      callAt_reached simulated found at_line reaches
    obtain rfl : instruction = instruction' := Option.some.inj (found.symm.trans found')
    exact ⟨some call, made, by simp [targetAt, reached, named]⟩
  | false =>
    refine ⟨none, callAt_other fits reaches, ?_⟩
    cases named : instruction.operand.target? with
    | none => simp [targetAt, named]
    | some target =>
      have calls := Instruction.isCall_of_target fits named
      simp only [reachesCall, calls, Bool.true_and] at reaches
      simp [targetAt, reaches]

theorem calls_targets (matched : method.CallsMatch) (simulated : method.simulate = .ok simulation) :
    ∃ calls, simulation.calls method = .ok calls ∧ calls.map (·.target) = simulation.targets method := by
  obtain ⟨found, mapped, aligned⟩ := exists_mapM_ok fun row member => callAt_target matched simulated member
  -- Rows and what is found at them are aligned, so dropping the empty places drops the same on both sides.
  have named : found.map (Option.map (·.target)) = method.rows.map fun row => simulation.targetAt row.1 :=
    List.forall₂_eq_eq_eq ▸ List.forall₂_map_left_iff.2 (List.forall₂_map_right_iff.2 aligned.flip)
  refine ⟨found.filterMap id, ?_, ?_⟩
  · change (method.rows.mapM (fun row => simulation.callAt row.1.1 row.1.2 row.2) >>= _) = _
    rw [mapped]
    rfl
  · have first : method.rows.map Prod.fst = method.code.zipIdx :=
      List.map_fst_zip (by rw [List.length_zipIdx, Method.length_lineOfEach])
    calc (found.filterMap id).map (·.target)
        = (found.map (Option.map (·.target))).filterMap id := by simp [List.map_filterMap, List.filterMap_map]
      _ = (method.rows.map Prod.fst).filterMap simulation.targetAt := by
        rw [named]
        simp [List.filterMap_map]
      _ = simulation.targets method := by rw [first, targets]

end Simulation

structure MethodFindings where
  parameters : List Parameter
  missing : Problems
  calls : List Call

namespace Method

variable {method : Method} {className : String} {policy : ConflictPolicy} {record : ClassRecord}
  {findings : MethodFindings} {cause : Inconsistency}

/-- The part of an analysis that needs no record. -/
def examine (method : Method) (className : String) : Except Inconsistency MethodFindings := do
  let (parameters, missing) ← method.parameters (method.label className)
  if method.hasCode then
    let simulation ← method.simulate
    return ⟨parameters, missing, ← simulation.calls method⟩
  else return ⟨parameters, missing, []⟩

def failure (method : Method) (className : String) (cause : Inconsistency) : MethodFailure :=
  .analysis className method.name method.descriptor cause

def traceOf (method : Method) (findings : MethodFindings) : MethodTrace :=
  ⟨method.name, method.descriptor, findings.parameters, findings.calls.map method.invocation⟩

/-- The conflicts of a method with the fields known before it, as problems. -/
def conflictsWith (method : Method) (fields : FieldTable) : Problems :=
  ⟨(fields.conflicts method.accesses).map (·.problem)⟩

def leave (method : Method) (findings : MethodFindings) (record : ClassRecord) : ClassRecord :=
  { fields := record.fields.accessAll method.accesses
    references := record.references ++ method.accesses.map (·.owner) ++
      findings.calls.map (·.target.className)
    problems := record.problems.append (findings.missing.append (method.conflictsWith record.fields)) }

/-- The stages of an analysis, in order. -/
theorem analyze_eq (method : Method) (className : String) (policy : ConflictPolicy) (record : ClassRecord) :
    method.analyze className policy record =
      match method.parameters (method.label className) with
      | .error cause => .error (method.failure className cause) record
      | .ok (parameters, missing) =>
        if method.hasCode then
          match method.simulate with
          | .error cause => .error (method.failure className cause) record
          | .ok simulation =>
            match recordAccesses policy method.code {} record with
            | .error stopped after => .error stopped after
            | .ok conflicts after =>
              match simulation.calls method with
              | .error cause => .error (method.failure className cause) after
              | .ok calls => .ok (method.traceOf ⟨parameters, missing, calls⟩)
                  { after with
                    references := after.references ++ calls.map (·.target.className)
                    problems := after.problems.append (missing.append conflicts) }
        else .ok (method.traceOf ⟨parameters, missing, []⟩)
          { record with problems := record.problems.append (missing.append {}) } := by
  unfold analyze
  simp only [bind, EStateM.bind]
  cases method.parameters (method.label className) with
  | error cause => rfl
  | ok found =>
    simp only [orFail, pure, EStateM.pure]
    split
    · unfold traceCode
      simp only [bind, EStateM.bind]
      cases method.simulate with
      | error cause => rfl
      | ok simulation =>
        simp only [orFail, pure, EStateM.pure]
        cases recordAccesses policy method.code {} record with
        | error stopped after => rfl
        | ok conflicts after => cases simulation.calls method <;> rfl
    · rfl

theorem accesses_nil (empty : method.hasCode = false) : method.accesses = [] := by
  have none : method.code = [] := by simpa [hasCode] using empty
  simp [accesses, none]

inductive Examined (method : Method) (className : String) : MethodFindings → Prop where
  | plain {parameters : List Parameter} {missing : Problems}
      (described : method.parameters (method.label className) = .ok (parameters, missing))
      (code : method.hasCode = false) : Examined method className ⟨parameters, missing, []⟩
  | coded {parameters : List Parameter} {missing : Problems} {simulation : Simulation} {calls : List Call}
      (described : method.parameters (method.label className) = .ok (parameters, missing))
      (code : method.hasCode = true) (simulated : method.simulate = .ok simulation)
      (taken : simulation.calls method = .ok calls) : Examined method className ⟨parameters, missing, calls⟩

theorem examined_of_ok (examined : method.examine className = .ok findings) : method.Examined className findings := by
  obtain ⟨⟨parameters, missing⟩, described, rest⟩ := except_bind_eq_ok.1 examined
  cases code : method.hasCode with
  | true =>
    simp only [code, if_true] at rest
    obtain ⟨simulation, simulated, rest⟩ := except_bind_eq_ok.1 rest
    obtain ⟨calls, taken, rest⟩ := except_bind_eq_ok.1 rest
    cases rest
    exact .coded described code simulated taken
  | false =>
    simp only [code] at rest
    cases rest
    exact .plain described code

theorem analyze_examined (examined : method.examine className = .ok findings) (record : ClassRecord) :
    method.analyze className .report record = .ok (method.traceOf findings) (method.leave findings record) := by
  rw [analyze_eq]
  cases examined_of_ok examined with
  | plain described code =>
    simp [described, code, leave, conflictsWith, accesses_nil code, FieldTable.accessAll, FieldTable.conflicts]
  | coded described code simulated taken =>
    simp only [described, code, if_true, simulated, recordAccesses_report, taken]
    simp [leave, ClassRecord.enter, conflictsWith, accesses, Problems.append]

inductive Unexamined (method : Method) (className : String) (cause : Inconsistency) : Prop where
  | parameters (failed : method.parameters (method.label className) = .error cause)
  | simulation {found : List Parameter × Problems}
      (described : method.parameters (method.label className) = .ok found)
      (code : method.hasCode = true) (failed : method.simulate = .error cause)
  | calls {found : List Parameter × Problems} {simulation : Simulation}
      (described : method.parameters (method.label className) = .ok found)
      (code : method.hasCode = true) (simulated : method.simulate = .ok simulation)
      (failed : simulation.calls method = .error cause)

theorem unexamined_of_error (failed : method.examine className = .error cause) : method.Unexamined className cause := by
  unfold examine at failed
  cases described : method.parameters (method.label className) with
  | error first =>
    obtain rfl : first = cause := by simpa [described, bind, Except.bind] using failed
    exact .parameters described
  | ok found =>
    simp only [described, bind, Except.bind] at failed
    split at failed
    · rename_i code
      cases simulated : method.simulate with
      | error first =>
        obtain rfl : first = cause := by simpa [simulated] using failed
        exact .simulation described code simulated
      | ok simulation =>
        cases taken : simulation.calls method with
        | error first =>
          obtain rfl : first = cause := by simpa [simulated, taken] using failed
          exact .calls described code simulated taken
        | ok calls => simp [simulated, taken, pure, Except.pure] at failed
    · cases failed

theorem analyze_unexamined (failed : method.examine className = .error cause) (record : ClassRecord) :
    ∃ after, method.analyze className .report record = .error (method.failure className cause) after ∧
      after.problems = record.problems := by
  rw [analyze_eq]
  cases unexamined_of_error failed with
  | parameters failed => exact ⟨record, by rw [failed], rfl⟩
  | simulation described code failed => exact ⟨record, by simp [described, code, failed], rfl⟩
  | calls described code simulated failed =>
    exact ⟨record.enter method.accesses,
      by simp [described, code, simulated, recordAccesses_report, failed, accesses], rfl⟩

/-- Once the code is simulated, calls that fit their opcodes can be taken from its frames. So a
failure comes before anything is entered. -/
theorem analyze_unexamined_matched (matched : method.CallsMatch) (failed : method.examine className = .error cause)
    (policy : ConflictPolicy) (record : ClassRecord) :
    method.analyze className policy record = .error (method.failure className cause) record := by
  rw [analyze_eq]
  cases unexamined_of_error failed with
  | parameters failed => rw [failed]
  | simulation described code failed => simp [described, code, failed]
  | calls described code simulated failed =>
    obtain ⟨calls, taken, -⟩ := Simulation.calls_targets matched simulated
    simp [taken] at failed

theorem analyze_clean (clean : record.fields.conflicts method.accesses = []) :
    method.analyze className .abort record = method.analyze className .report record := by
  obtain ⟨after, same⟩ := recordAccesses_abort method.code {} record
  rw [← accesses, clean] at same
  rw [analyze_eq, analyze_eq, same]

theorem analyze_stopped {conflict : FieldConflict} {later : List FieldConflict}
    (examined : method.examine className = .ok findings)
    (conflicts : record.fields.conflicts method.accesses = conflict :: later) :
    ∃ after, method.analyze className .abort record = .error (.fieldConflict conflict) after := by
  rw [analyze_eq]
  cases examined_of_ok examined with
  | plain described code => simp [accesses_nil code, FieldTable.conflicts] at conflicts
  | coded described code simulated taken =>
    obtain ⟨after, stopped⟩ := recordAccesses_abort method.code {} record
    rw [← accesses, conflicts] at stopped
    exact ⟨after, by simp only [described, code, if_true, simulated, stopped]⟩

/-- A method whose analysis fails leaves the fields, the references and the problems of its class
as they were. -/
theorem analyze_failure_leaves_record (matched : method.CallsMatch) {className' name descriptor : String}
    {after : ClassRecord}
    (failed : method.analyze className policy record = .error (.analysis className' name descriptor cause) after) :
    after = record := by
  cases examined : method.examine className with
  | error first =>
    rw [analyze_unexamined_matched matched examined] at failed
    cases failed
    rfl
  | ok findings =>
    -- A method that can be examined fails with a conflict or not at all.
    have traced := analyze_examined examined record
    cases policy with
    | report =>
      rw [traced] at failed
      cases failed
    | abort =>
      cases conflicts : record.fields.conflicts method.accesses with
      | nil =>
        rw [analyze_clean conflicts, traced] at failed
        cases failed
      | cons conflict later =>
        obtain ⟨_, stopped⟩ := analyze_stopped examined conflicts
        rw [stopped] at failed
        cases failed

/-- A method that reads a field and then adds it to nothing. -/
def underflowing : Method where
  name := "sum"
  descriptor := "()V"
  isStatic := true
  code := [⟨0, 0xb2, .field ⟨"Store", "size", "I", .getStatic⟩⟩, ⟨3, 0x60, .none⟩, ⟨4, 0xb1, .none⟩]

/-- The field is known with another type, but the method fails before its access is entered. -/
theorem analyze_failure_leaves_record_underflowing :
    let record : ClassRecord :=
      ⟨FieldTable.empty.put ⟨"Store", "size", some "J", none⟩, ["Shelf"],
        ⟨[⟨.missingParameter, "Stock#of(I)V", "none"⟩]⟩⟩
    underflowing.CallsMatch ∧ record.fields.conflicts underflowing.accesses ≠ [] ∧
      ∃ cause, underflowing.analyze "Stock" .abort record = .error (.analysis "Stock" "sum" "()V" cause) record := by
  intro record
  have matched : underflowing.CallsMatch := by decide
  have fails : (match underflowing.analyze "Stock" .abort record with
      | .error (.analysis "Stock" "sum" "()V" _) _ => true
      | _ => false) = true := by decide +kernel
  refine ⟨matched, by decide +kernel, ?_⟩
  split at fails
  · rename_i cause after failed
    obtain rfl := analyze_failure_leaves_record matched failed
    exact ⟨cause, failed⟩
  · cases fails

end Method
end CallProvenance
