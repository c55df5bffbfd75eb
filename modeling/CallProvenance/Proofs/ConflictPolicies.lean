import CallProvenance.Proofs.BatchResult

/-! The two policies for field conflicts, side by side. A run that stops at conflicts returns what a run
that reports them returns, or else stops at the first conflict that the other reports. No later
failure can hide that conflict, as a method fails before its accesses or not at all. -/
namespace CallProvenance

def Problem.isConflict (problem : Problem) : Bool := problem.kind = .fieldTypeConflict

def firstConflict (problems : List Problem) : Option Problem := problems.find? Problem.isConflict

/-- How a run ends that stops at conflicts, if reporting them gives the value and the problems. -/
inductive Stops {ε α : Type} (conflictOf : ε → FieldConflict) (value : α) (problems : List Problem) :
    Except ε α → Prop where
  | nowhere (clean : firstConflict problems = none) : Stops conflictOf value problems (.ok value)
  | first {failure : ε} (found : firstConflict problems = some (conflictOf failure).problem) :
      Stops conflictOf value problems (.error failure)

theorem firstConflict_append (earlier later : List Problem) :
    firstConflict (earlier ++ later) = (firstConflict earlier).or (firstConflict later) :=
  List.find?_append

theorem firstConflict_eq_none {problems : List Problem} :
    firstConflict problems = none ↔ ∀ problem ∈ problems, problem.kind ≠ .fieldTypeConflict := by
  simp [firstConflict, Problem.isConflict]

namespace Stops

variable {ε α β : Type} {conflictOf : ε → FieldConflict} {value : α} {problems : List Problem}
  {run : Except ε α}

theorem congr {problems' : List Problem} (same : firstConflict problems' = firstConflict problems)
    (stops : Stops conflictOf value problems run) : Stops conflictOf value problems' run := by
  cases stops with
  | nowhere clean => exact .nowhere (same.trans clean)
  | first found => exact .first (same.trans found)

theorem map (f : α → β) (stops : Stops conflictOf value problems run) :
    Stops conflictOf (f value) problems (run >>= fun value => pure (f value)) := by
  cases stops with
  | nowhere clean => exact .nowhere clean
  | first found => exact .first found

theorem mapError {η : Type} {f : ε → η} {conflictOf' : η → FieldConflict}
    (same : ∀ failure, conflictOf' (f failure) = conflictOf failure)
    (stops : Stops conflictOf value problems run) : Stops conflictOf' value problems (run.mapError f) := by
  cases stops with
  | nowhere clean => exact .nowhere clean
  | first found => exact .first (by rw [same, found])

end Stops

namespace Method

variable {method : Method} {className : String}

theorem firstConflict_missing {findings : MethodFindings} (examined : method.examine className = .ok findings) :
    firstConflict findings.missing.found = none := by
  rw [firstConflict_eq_none]
  intro problem member
  simp [(examine_missing examined problem member).1]

theorem analyze_abort (matched : method.CallsMatch) (className : String) (record : ClassRecord) :
    ∃ added, (method.pass className record).problems.found = record.problems.found ++ added ∧
      (firstConflict added = none ∧
          method.analyze className .abort record = method.analyze className .report record ∨
        ∃ conflict after, firstConflict added = some conflict.problem ∧
          method.analyze className .abort record = .error (.fieldConflict conflict) after) := by
  cases examined : method.examine className with
  | ok findings =>
    refine ⟨_, pass_examined_problems examined record, ?_⟩
    rw [firstConflict_append, firstConflict_missing examined, Option.none_or]
    cases conflicts : record.fields.conflicts method.accesses with
    | nil => exact .inl ⟨by simp [conflictsWith, conflicts, firstConflict], analyze_clean conflicts⟩
    | cons conflict later =>
      obtain ⟨after, stopped⟩ := analyze_stopped examined conflicts
      refine .inr ⟨conflict, after, ?_, stopped⟩
      simp [conflictsWith, conflicts, firstConflict, FieldConflict.problem, Problem.isConflict]
  | error cause =>
    -- A failure that comes after the accesses could hide a conflict; a failing method has made none.
    refine ⟨_, pass_unexamined_problems examined record, .inl ⟨rfl, ?_⟩⟩
    rw [analyze_unexamined_matched matched examined, analyze_unexamined_matched matched examined]

end Method

namespace ClassDef

variable {className : String} {definition : ClassDef}

theorem analyzeMethods_abort {methods : List Method} (matched : ∀ method ∈ methods, method.CallsMatch)
    (record : ClassRecord) :
    ∃ added, (methods.foldl (Method.pass className) record).problems.found = record.problems.found ++ added ∧
      Stops id (methods.filterMap (·.traceAlone className), methods.foldl (Method.pass className) record) added
        (analyzeMethods className .abort methods record) := by
  induction methods generalizing record with
  | nil => exact ⟨[], by simp, .nowhere rfl⟩
  | cons method rest ih =>
    obtain ⟨added, passed, one⟩ := Method.analyze_abort (matched method List.mem_cons_self) className record
    obtain ⟨later, left, stops⟩ :=
      ih (fun other member => matched other (List.mem_cons_of_mem _ member)) (method.pass className record)
    refine ⟨added ++ later, by rw [List.foldl_cons, left, passed, List.append_assoc], ?_⟩
    rcases one with ⟨clean, same⟩ | ⟨conflict, after, found, stopped⟩
    · have next := stops.map fun found => ((method.traceAlone className).toList ++ found.1, found.2)
      have unchanged : firstConflict (added ++ later) = firstConflict later := by simp [firstConflict_append, clean]
      rw [analyzeMethods_cons same]
      refine .congr unchanged ?_
      cases traced : method.traceAlone className <;> simpa [traced] using next
    · have stop : analyzeMethods className .abort (method :: rest) record = .error conflict := by
        unfold analyzeMethods
        rw [stopped]
      rw [stop]
      exact .first (by simp [firstConflict_append, found])

theorem analyze_abort (matched : definition.CallsMatch) :
    Stops id definition.reported definition.reported.problems.found (definition.analyze .abort) := by
  obtain ⟨added, found, stops⟩ := analyzeMethods_abort matched { fields := .declaredBy definition }
  have problems : definition.reported.problems.found = added := found
  rw [problems]
  exact stops.map fun (found : List MethodTrace × ClassRecord) =>
    (⟨⟨definition.name, definition.superName, found.1, found.2.fields.fields⟩, found.2.references,
      found.2.problems⟩ : ClassAnalysis)

end ClassDef

namespace Batch

variable {definitions : List ClassDef}

theorem mapM_abort (matched : ∀ definition ∈ definitions, definition.CallsMatch) :
    Stops (·.conflict) (definitions.map (·.reported)) (definitions.flatMap (·.reported.problems.found))
      (definitions.mapM (analyzeClass .abort)) := by
  induction definitions with
  | nil => exact .nowhere rfl
  | cons definition rest ih =>
    have one : Stops (·.conflict) definition.reported definition.reported.problems.found
        (analyzeClass .abort definition) :=
      (ClassDef.analyze_abort (matched definition List.mem_cons_self)).mapError fun _ => rfl
    have others := ih fun other member => matched other (List.mem_cons_of_mem _ member)
    rw [List.mapM_cons, List.flatMap_cons, List.map_cons]
    cases analyzed : analyzeClass .abort definition with
    | ok analysis =>
      rw [analyzed] at one
      cases one with
      | nowhere clean => exact (others.map (definition.reported :: ·)).congr (by simp [firstConflict_append, clean])
    | error failure =>
      rw [analyzed] at one
      cases one with
      | first found => exact .first (by simp [firstConflict_append, found])

theorem gather_conflicts (result : BatchResult) (definition : ClassDef) :
    (gather result definition).problems.found.filter Problem.isConflict =
      result.problems.found.filter Problem.isConflict ++
        definition.reported.problems.found.filter Problem.isConflict := by
  by_cases seen : definition.name ∈ result.analyzed.names
  · simp [gather_again seen, Problems.add, Problems.append, AnalyzedClasses.duplicate, Problem.isConflict]
  · simp [gather_new seen, Problems.append]

theorem foldl_gather_conflicts (definitions : List ClassDef) (result : BatchResult) :
    (definitions.foldl gather result).problems.found.filter Problem.isConflict =
      (result.problems.found ++ definitions.flatMap (·.reported.problems.found)).filter Problem.isConflict := by
  induction definitions generalizing result with
  | nil => simp
  | cons definition rest ih => simp [ih, gather_conflicts]

theorem firstConflict_gathered (definitions : List ClassDef) :
    firstConflict (definitions.foldl gather {}).problems.found =
      firstConflict (definitions.flatMap (·.reported.problems.found)) := by
  -- Reports of duplicates stand between the conflicts, so only the filtered lists agree.
  have conflicts := congrArg List.head? (foldl_gather_conflicts definitions {})
  simpa [firstConflict, List.head?_filter] using conflicts

theorem analyze_abort (matched : ∀ definition ∈ definitions, definition.CallsMatch) :
    let result := definitions.foldl gather {}
    Stops (·.conflict) { result with analyzed := result.analyzed.finish } result.problems.found
      (analyze .abort definitions) := by
  have run := (mapM_abort matched).map fun analyses =>
    ({ analyses.foldl collect {} with analyzed := (analyses.foldl collect {}).analyzed.finish } : BatchResult)
  simp only [List.foldl_map] at run
  exact run.congr (firstConflict_gathered definitions)

/-- A run that aborts on conflicts fails exactly if a run that reports them finds one, and then with the
first of them. Otherwise both return the same. -/
theorem analyze_policies_agree (matched : ∀ definition ∈ definitions, definition.CallsMatch) :
    ∃ result, analyze .report definitions = .ok result ∧
      ((∃ failure, analyze .abort definitions = .error failure) ↔
        ∃ problem ∈ result.problems.found, problem.kind = .fieldTypeConflict) ∧
      ((∀ problem ∈ result.problems.found, problem.kind ≠ .fieldTypeConflict) →
        analyze .abort definitions = .ok result) ∧
      ∀ failure, analyze .abort definitions = .error failure →
        result.problems.found.find? (·.kind = .fieldTypeConflict) = some failure.conflict.problem := by
  refine ⟨_, analyze_report definitions, ?_⟩
  have stops := analyze_abort matched
  generalize analyze .abort definitions = run at stops ⊢
  cases stops with
  | nowhere clean =>
    rw [firstConflict_eq_none] at clean
    refine ⟨⟨nofun, ?_⟩, fun _ => rfl, nofun⟩
    rintro ⟨problem, member, conflict⟩
    exact absurd conflict (clean problem member)
  | first found =>
    have member := List.mem_of_find?_eq_some found
    refine ⟨⟨fun _ => ⟨_, member, rfl⟩, fun _ => ⟨_, rfl⟩⟩, fun clean => ?_, ?_⟩
    · exact absurd rfl (clean _ member)
    · rintro _ ⟨⟩
      exact found

/-- A class that reads a field with another type than it declares. -/
def retyping : ClassDef where
  name := "Typed"
  fields := [⟨"value", "I", none⟩]
  methods := [{
    name := "read"
    descriptor := "()V"
    isStatic := true
    code := [⟨0, 0xb2, .field ⟨"Typed", "value", "J", .getStatic⟩⟩, ⟨3, 0x58, .none⟩, ⟨4, 0xb1, .none⟩] }]
  source := "Typed.class"

/-- The class has a conflict, and the class before it has none. -/
theorem analyze_policies_agree_retyping :
    (∃ result failure, analyze .report [dispatcher, retyping] = .ok result ∧
      analyze .abort [dispatcher, retyping] = .error failure ∧
      result.problems.found.find? (·.kind = .fieldTypeConflict) = some failure.conflict.problem) ∧
    ∃ result, analyze .report [dispatcher] = .ok result ∧ analyze .abort [dispatcher] = .ok result := by
  constructor
  · have matched : ∀ definition ∈ [dispatcher, retyping], definition.CallsMatch := by decide
    have fails : (analyze .abort [dispatcher, retyping]).toOption.isNone = true := by decide +kernel
    obtain ⟨result, reported, -, -, first⟩ := analyze_policies_agree matched
    cases aborted : analyze .abort [dispatcher, retyping] with
    | ok other => simp [aborted, Except.toOption] at fails
    | error failure => exact ⟨result, failure, reported, rfl, first failure aborted⟩
  · have matched : ∀ definition ∈ [dispatcher], definition.CallsMatch := by decide
    have clean : (analyze .report [dispatcher]).toOption.any
        (·.problems.found.all (·.kind ≠ .fieldTypeConflict)) = true := by decide +kernel
    obtain ⟨result, reported, -, same, -⟩ := analyze_policies_agree matched
    rw [reported, Except.toOption, Option.any_some, List.all_eq_true] at clean
    exact ⟨result, reported, same fun problem member => by simpa using clean problem member⟩

end Batch
end CallProvenance
