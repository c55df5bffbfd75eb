import CallProvenance.Proofs.ConflictPolicies

/-! A class whose name an earlier class has. It is analysed like any other, so its own problems are
reported and its conflicts can stop a run; what it is found to contain is then dropped, and one
more problem names it. Threads change nothing about this, except that they decide which of several
conflicts stops a run. -/
namespace CallProvenance

theorem Method.analyze_report_or_stop (method : Method) (className : String) (policy : ConflictPolicy)
    (record : ClassRecord) :
    method.analyze className policy record = method.analyze className .report record ∨
      ∃ conflict after, method.analyze className policy record = .error (.fieldConflict conflict) after := by
  cases policy with
  | report => exact .inl rfl
  | abort =>
    obtain ⟨after, pass⟩ := recordAccesses_abort method.code {} record
    rw [analyze_eq, analyze_eq]
    cases method.parameters (method.label className) with
    | error cause => exact .inl rfl
    | ok found =>
      cases method.hasCode with
      | false => exact .inl rfl
      | true =>
        cases method.simulate with
        | error cause => exact .inl rfl
        | ok simulation =>
          simp only [if_true]
          cases conflicts : record.fields.conflicts (method.code.filterMap Instruction.fieldRef?) with
          | nil =>
            rw [conflicts] at pass
            rw [pass]
            exact .inl rfl
          | cons conflict rest =>
            rw [conflicts] at pass
            rw [pass]
            exact .inr ⟨conflict, after, rfl⟩

namespace ClassDef

variable {definition : ClassDef} {policy : ConflictPolicy}

theorem analyzeMethods_eq_ok {className : String} {methods : List Method} {record : ClassRecord}
    {answer : List MethodTrace × ClassRecord}
    (done : analyzeMethods className policy methods record = .ok answer) :
    analyzeMethods className .report methods record = .ok answer := by
  induction methods generalizing record answer with
  | nil => exact done
  | cons method rest ih =>
    rcases method.analyze_report_or_stop className policy record with same | ⟨conflict, after, stopped⟩
    · rw [analyzeMethods_cons same] at done
      rw [analyzeMethods_cons rfl]
      obtain ⟨found, later, traced⟩ := except_bind_eq_ok.1 done
      exact except_bind_eq_ok.2 ⟨found, ih later, traced⟩
    · unfold analyzeMethods at done
      rw [stopped] at done
      cases done

/-- Whatever the policy, an analysis that comes through is the one that reports. -/
theorem analyze_eq_ok {analysis : ClassAnalysis} (done : definition.analyze policy = .ok analysis) :
    analysis = definition.reported := by
  obtain ⟨found, traced, answer⟩ := except_bind_eq_ok.1 done
  have reporting : definition.analyze .report = .ok analysis :=
    except_bind_eq_ok.2 ⟨found, analyzeMethods_eq_ok traced, answer⟩
  rw [analyze_report] at reporting
  exact (Except.ok.inj reporting).symm

end ClassDef

namespace Batch

variable {policy : ConflictPolicy} {definitions earlier later : List ClassDef} {copy : ClassDef}

theorem analyzeClass_ok {analysis : ClassAnalysis} (done : copy.analyze policy = .ok analysis) :
    analyzeClass policy copy = .ok copy.reported := by
  rw [analyzeClass, done, ClassDef.analyze_eq_ok done]
  rfl

theorem analyzeClass_error {conflict : FieldConflict} (stopped : copy.analyze policy = .error conflict) :
    analyzeClass policy copy = .error ⟨copy.name, copy.source, conflict⟩ := by
  rw [analyzeClass, stopped]
  rfl

theorem mapM_eq_ok {analyses : List ClassAnalysis} (done : definitions.mapM (analyzeClass policy) = .ok analyses) :
    analyses = definitions.map (·.reported) := by
  induction definitions generalizing analyses with
  | nil => exact (Except.ok.inj done).symm
  | cons first rest ih =>
    rw [List.mapM_cons] at done
    cases own : first.analyze policy with
    | error conflict =>
      rw [analyzeClass_error own] at done
      cases done
    | ok analysis =>
      rw [analyzeClass_ok own] at done
      obtain ⟨_, ⟨⟩, done⟩ := except_bind_eq_ok.1 done
      obtain ⟨others, there, answer⟩ := except_bind_eq_ok.1 done
      rw [List.map_cons, ← ih there]
      exact (Except.ok.inj answer).symm

/-- What a run over the classes returns if nothing stops it. -/
def gathered (definitions : List ClassDef) : BatchResult :=
  let result := definitions.foldl gather {}
  { result with analyzed := result.analyzed.finish }

theorem analyze_of_mapM {analyses : List ClassAnalysis}
    (done : definitions.mapM (analyzeClass policy) = .ok analyses) :
    analyze policy definitions = .ok (gathered definitions) := by
  unfold analyze
  rw [done, mapM_eq_ok done]
  change Except.ok _ = _
  rw [List.foldl_map]
  rfl

theorem analyze_of_error {failure : BatchFailure}
    (stopped : definitions.mapM (analyzeClass policy) = .error failure) :
    analyze policy definitions = .error failure := by
  unfold analyze
  rw [stopped]
  rfl

section Appending

variable {analyses others : List ClassAnalysis} {failure : BatchFailure}

theorem analyze_append_error (stopped : earlier.mapM (analyzeClass policy) = .error failure) (later : List ClassDef) :
    analyze policy (earlier ++ later) = .error failure := by
  apply analyze_of_error
  rw [List.mapM_append, stopped]
  rfl

theorem analyze_append_later_error (before : earlier.mapM (analyzeClass policy) = .ok analyses)
    (stopped : later.mapM (analyzeClass policy) = .error failure) :
    analyze policy (earlier ++ later) = .error failure := by
  apply analyze_of_error
  rw [List.mapM_append, before, stopped]
  rfl

theorem analyze_append_ok (before : earlier.mapM (analyzeClass policy) = .ok analyses)
    (after : later.mapM (analyzeClass policy) = .ok others) :
    analyze policy (earlier ++ later) = .ok (gathered (earlier ++ later)) := by
  have all : (earlier ++ later).mapM (analyzeClass policy) = .ok (analyses ++ others) := by
    rw [List.mapM_append, before, after]
    rfl
  exact analyze_of_mapM all

end Appending

section Threads

variable {finished : List ClassDef} {result : BatchResult} {failure : BatchFailure}

theorem mapM_of_analyze (done : analyze policy definitions = .ok result) :
    ∃ analyses, definitions.mapM (analyzeClass policy) = .ok analyses := by
  obtain ⟨analyses, analyzed, -⟩ := except_bind_eq_ok.1 done
  exact ⟨analyses, analyzed⟩

/-- Whether a run comes through, and with what, does not depend on the threads. -/
theorem analyzeParallel_ok (order : finished.Perm definitions) (done : analyze policy definitions = .ok result) :
    analyzeParallel policy finished definitions = .ok result := by
  obtain ⟨analyses, each⟩ := mapM_of_analyze done
  refine except_bind_eq_ok.2 ?_
  cases first : finished.mapM (analyzeClass policy) with
  | ok met => exact ⟨met, rfl, done⟩
  | error failure =>
    obtain ⟨definition, member, stopped⟩ := exists_of_mapM_error first
    obtain ⟨analysis, passed⟩ := exists_of_mapM_ok each (order.subset member)
    rw [passed] at stopped
    cases stopped

/-- The failure of a run on threads is that of one of its classes. -/
theorem analyzeParallel_error (order : finished.Perm definitions)
    (stopped : analyze policy definitions = .error failure) :
    ∃ failure', analyzeParallel policy finished definitions = .error failure' ∧
      ∃ definition ∈ definitions, analyzeClass policy definition = .error failure' := by
  cases first : finished.mapM (analyzeClass policy) with
  | error failure' =>
    obtain ⟨definition, member, failed⟩ := exists_of_mapM_error first
    refine ⟨failure', ?_, definition, order.subset member, failed⟩
    rw [analyzeParallel, first]
    rfl
  | ok met =>
    refine ⟨failure, ?_, ?_⟩
    · rw [analyzeParallel, first, ok_bind, stopped]
    · cases all : definitions.mapM (analyzeClass policy) with
      | ok analyses =>
        rw [analyze_of_mapM all] at stopped
        cases stopped
      | error failure' =>
        rw [analyze_of_error all] at stopped
        cases stopped
        exact exists_of_mapM_error all

end Threads

section Gathering

theorem foldl_gather_problems (definitions : List ClassDef) (analyzed : AnalyzedClasses) (problems : Problems) :
    definitions.foldl gather ⟨analyzed, problems⟩ =
      let result := definitions.foldl gather ⟨analyzed, {}⟩
      ⟨result.analyzed, problems.append result.problems⟩ := by
  induction definitions generalizing analyzed problems with
  | nil => simp [Problems.append]
  | cons definition rest ih =>
    simp only [List.foldl_cons]
    by_cases seen : definition.name ∈ analyzed.names
    · rw [gather_again seen, gather_again seen, ih, ih analyzed (Problems.add _ _)]
      simp [Problems.append, Problems.add]
    · rw [gather_new seen, gather_new seen, ih, ih _ (Problems.append _ _)]
      simp [Problems.append]

theorem foldl_gather_seen (again : copy.name ∈ earlier.map (·.name)) :
    copy.name ∈ (earlier.foldl gather {}).analyzed.names := by
  rw [gathered_names]
  exact ClassDef.mem_names_firsts.2 again

/-- A second class of a name leaves only problems behind. -/
theorem gathered_insert (again : copy.name ∈ earlier.map (·.name)) (later : List ClassDef) :
    ∃ analyzed rest, gathered (earlier ++ later) = ⟨analyzed, ⟨(gathered earlier).problems.found ++ rest⟩⟩ ∧
      gathered (earlier ++ copy :: later) = ⟨analyzed, ⟨(gathered earlier).problems.found ++
        (copy.reported.problems.found ++ [AnalyzedClasses.duplicate copy.name]) ++ rest⟩⟩ := by
  have seen := foldl_gather_seen again
  unfold gathered
  simp only [List.foldl_append, List.foldl_cons]
  rw [gather_again seen]
  generalize earlier.foldl gather {} = start
  obtain ⟨analyzed, problems⟩ := start
  rw [foldl_gather_problems later analyzed problems, foldl_gather_problems later analyzed (Problems.add _ _)]
  refine ⟨_, (later.foldl gather ⟨analyzed, {}⟩).problems.found, rfl, ?_⟩
  simp [Problems.append, Problems.add]

end Gathering

/-- How a run changes when a copy of a class is inserted behind the classes `earlier`. Of the failures that come
up with the copy, `may` says which can take the place of a failure without it. -/
inductive CopyInserted (policy : ConflictPolicy) (earlier : List ClassDef) (copy : ClassDef)
    (may : BatchFailure → BatchFailure → Prop) :
    Except BatchFailure BatchResult → Except BatchFailure BatchResult → Prop where
  /-- The copy is analysed and dropped. In its place stand its own problems and one that names it. -/
  | dropped {start : BatchResult} {analysis : ClassAnalysis} {analyzed : AnalyzedClasses} {rest : List Problem}
      (begun : analyze policy earlier = .ok start) (own : copy.analyze policy = .ok analysis)
      (single : ∀ problem ∈ analysis.problems.found, problem.kind ≠ .duplicateClass) :
      CopyInserted policy earlier copy may (.ok ⟨analyzed, ⟨start.problems.found ++ rest⟩⟩)
        (.ok ⟨analyzed, ⟨start.problems.found ++
          (analysis.problems.found ++ [AnalyzedClasses.duplicate copy.name]) ++ rest⟩⟩)
  | stopped {result : BatchResult} {conflict : FieldConflict} (aborting : policy = .abort)
      (own : copy.analyze policy = .error conflict) :
      CopyInserted policy earlier copy may (.ok result) (.error ⟨copy.name, copy.source, conflict⟩)
  | failed {failure failure' : BatchFailure} (instead : may failure failure') :
      CopyInserted policy earlier copy may (.error failure) (.error failure')

/-- One class after the other, either the same class stops the run or the copy does. -/
def SameOrCopy (policy : ConflictPolicy) (copy : ClassDef) (failure failure' : BatchFailure) : Prop :=
  failure' = failure ∨ analyzeClass policy copy = .error failure'

/-- On threads any class with a conflict may stop the run. -/
def OfSomeClass (policy : ConflictPolicy) (definitions : List ClassDef) (_ failure' : BatchFailure) : Prop :=
  ∃ definition ∈ definitions, analyzeClass policy definition = .error failure'

theorem reported_kind (definition : ClassDef) :
    ∀ problem ∈ definition.reported.problems.found, problem.kind ≠ .duplicateClass := by
  have none := duplicates_reported definition
  simpa [duplicates] using none

theorem abort_of_error {conflict : FieldConflict} (own : copy.analyze policy = .error conflict) :
    policy = .abort := by
  cases policy with
  | abort => rfl
  | report =>
    rw [copy.analyze_report] at own
    cases own

theorem insert_copy_sequential (policy : ConflictPolicy) (again : copy.name ∈ earlier.map (·.name))
    (later : List ClassDef) :
    CopyInserted policy earlier copy (SameOrCopy policy copy) (analyze policy (earlier ++ later))
      (analyze policy (earlier ++ copy :: later)) := by
  cases before : earlier.mapM (analyzeClass policy) with
  | error failure =>
    rw [analyze_append_error before, analyze_append_error before]
    exact .failed (.inl rfl)
  | ok analyses =>
    cases own : copy.analyze policy with
    | error conflict =>
      have stopped : (copy :: later).mapM (analyzeClass policy) = .error ⟨copy.name, copy.source, conflict⟩ := by
        rw [List.mapM_cons, analyzeClass_error own]
        rfl
      rw [analyze_append_later_error before stopped]
      cases after : later.mapM (analyzeClass policy) with
      | error failure =>
        rw [analyze_append_later_error before after]
        exact .failed (.inr (analyzeClass_error own))
      | ok others =>
        rw [analyze_append_ok before after]
        exact .stopped (abort_of_error own) own
    | ok analysis =>
      cases after : later.mapM (analyzeClass policy) with
      | error failure =>
        have stopped : (copy :: later).mapM (analyzeClass policy) = .error failure := by
          rw [List.mapM_cons, analyzeClass_ok own, after]
          rfl
        rw [analyze_append_later_error before after, analyze_append_later_error before stopped]
        exact .failed (.inl rfl)
      | ok others =>
        have passed : (copy :: later).mapM (analyzeClass policy) = .ok (copy.reported :: others) := by
          rw [List.mapM_cons, analyzeClass_ok own, after]
          rfl
        obtain ⟨analyzed, rest, without, inserted⟩ := gathered_insert again later
        obtain rfl := ClassDef.analyze_eq_ok own
        rw [analyze_append_ok before after, analyze_append_ok before passed, without, inserted]
        exact .dropped (analyze_of_mapM before) own (reported_kind copy)

/-- If all other classes come through, only the copy can have failed. -/
theorem copy_failed {result : BatchResult} {failure : BatchFailure}
    (others : analyze policy (earlier ++ later) = .ok result)
    (failed : OfSomeClass policy (earlier ++ copy :: later) failure failure) :
    analyzeClass policy copy = .error failure := by
  obtain ⟨definition, member, stopped⟩ := failed
  obtain ⟨analyses, each⟩ := mapM_of_analyze others
  by_cases same : definition = copy
  · rwa [same] at stopped
  · have other : definition ∈ earlier ++ later := by
      simp only [List.mem_append, List.mem_cons, same, false_or] at member ⊢
      exact member
    obtain ⟨analysis, passed⟩ := exists_of_mapM_ok each other
    rw [passed] at stopped
    cases stopped

theorem insert_copy_parallel (policy : ConflictPolicy) (again : copy.name ∈ earlier.map (·.name))
    {finished finished' : List ClassDef} (order : finished.Perm (earlier ++ later))
    (order' : finished'.Perm (earlier ++ copy :: later)) :
    CopyInserted policy earlier copy (OfSomeClass policy (earlier ++ copy :: later))
      (analyzeParallel policy finished (earlier ++ later))
      (analyzeParallel policy finished' (earlier ++ copy :: later)) := by
  -- Threads leave it open only which failure is returned, so the cases are those of the sequential runs.
  have inserted := insert_copy_sequential policy again later
  cases without : analyze policy (earlier ++ later) with
  | ok result =>
    rw [without] at inserted
    rw [analyzeParallel_ok order without]
    cases within : analyze policy (earlier ++ copy :: later) with
    | ok result' =>
      rw [within] at inserted
      rw [analyzeParallel_ok order' within]
      cases inserted with
      | dropped begun own single => exact .dropped begun own single
    | error failure =>
      obtain ⟨failure', stopped, some⟩ := analyzeParallel_error order' within
      rw [stopped]
      cases own : copy.analyze policy with
      | ok analysis =>
        have failed := copy_failed without some
        rw [analyzeClass_ok own] at failed
        cases failed
      | error conflict =>
        have failed := copy_failed without some
        rw [analyzeClass_error own] at failed
        cases failed
        exact .stopped (abort_of_error own) own
  | error failure =>
    rw [without] at inserted
    obtain ⟨first, stopped, -⟩ := analyzeParallel_error order without
    cases within : analyze policy (earlier ++ copy :: later) with
    | ok result' =>
      rw [within] at inserted
      cases inserted
    | error failure' =>
      obtain ⟨first', stopped', some⟩ := analyzeParallel_error order' within
      rw [stopped, stopped']
      exact .failed some

/-- A class whose name an earlier class has adds nothing to the classes and the references of a run, and to its
problems only its own ones and one that names it. It turns no run into a failure but by a conflict of its own. All
this holds on one thread and on several, in whatever order they are done with the classes. -/
theorem analyze_insert_copy (policy : ConflictPolicy) (again : copy.name ∈ earlier.map (·.name))
    (later : List ClassDef) :
    CopyInserted policy earlier copy (SameOrCopy policy copy) (analyze policy (earlier ++ later))
      (analyze policy (earlier ++ copy :: later)) ∧
    ∀ finished finished' : List ClassDef, finished.Perm (earlier ++ later) → finished'.Perm (earlier ++ copy :: later) →
      CopyInserted policy earlier copy (OfSomeClass policy (earlier ++ copy :: later))
        (analyzeParallel policy finished (earlier ++ later))
        (analyzeParallel policy finished' (earlier ++ copy :: later)) :=
  ⟨insert_copy_sequential policy again later, fun _ _ => insert_copy_parallel policy again⟩

/-- A class without members that has the name of another. -/
def untyped : ClassDef where
  name := "Typed"
  source := "lib.jar!Typed.class"

theorem CopyInserted.stops {may : BatchFailure → BatchFailure → Prop} {run run' : Except BatchFailure BatchResult}
    (inserted : CopyInserted policy earlier copy may run run') (passes : run.toOption.isSome = true)
    (stops : (copy.analyze policy).toOption = none) :
    ∃ conflict, run' = .error ⟨copy.name, copy.source, conflict⟩ := by
  cases inserted with
  | dropped _ own =>
    rw [own] at stops
    cases stops
  | stopped _ own => exact ⟨_, rfl⟩
  | failed => cases passes

theorem analyze_insert_copy_retyping : retyping.name ∈ [untyped].map (·.name) ∧
    (∃ conflict, analyze .abort ([untyped] ++ retyping :: [sink]) = .error ⟨"Typed", "Typed.class", conflict⟩) ∧
    (∃ conflict, analyzeParallel .abort [sink, retyping, untyped] ([untyped] ++ retyping :: [sink]) =
      .error ⟨"Typed", "Typed.class", conflict⟩) ∧
    ∃ result result', analyze .report ([untyped] ++ [sink]) = .ok result ∧
      analyze .report ([untyped] ++ retyping :: [sink]) = .ok result' ∧
      result'.analyzed = result.analyzed ∧ AnalyzedClasses.duplicate "Typed" ∈ result'.problems.found := by
  have again : retyping.name ∈ [untyped].map (·.name) := by decide
  have stops : (retyping.analyze .abort).toOption = none := by decide +kernel
  refine ⟨again, ?_, ?_, ?_⟩
  · exact (analyze_insert_copy .abort again [sink]).1.stops (by decide +kernel) stops
  · have inserted := (analyze_insert_copy .abort again [sink]).2 [sink, untyped] [sink, retyping, untyped]
      (.swap ..) (List.reverse_perm [untyped, retyping, sink])
    exact inserted.stops (by decide +kernel) stops
  · have inserted := (analyze_insert_copy .report again [sink]).1
    obtain ⟨run, reported⟩ : ∃ result, analyze .report ([untyped] ++ [sink]) = .ok result := ⟨_, analyze_report _⟩
    rw [reported] at inserted ⊢
    generalize analyze .report ([untyped] ++ retyping :: [sink]) = run' at inserted ⊢
    cases inserted with
    | dropped =>
      refine ⟨_, _, rfl, rfl, rfl, ?_⟩
      simp [retyping]
    | stopped aborting => cases aborting

/-- The copy changes nothing about a run but for one problem that names it. -/
def AddsOneProblem (policy : ConflictPolicy) (earlier : List ClassDef) (copy : ClassDef) (later : List ClassDef) :
    Prop :=
  ∀ result, analyze policy (earlier ++ later) = .ok result →
    ∃ result', analyze policy (earlier ++ copy :: later) = .ok result' ∧
      result'.analyzed.classes = result.analyzed.classes ∧ result'.analyzed.referenced = result.analyzed.referenced ∧
      result'.problems.found.Perm (AnalyzedClasses.duplicate copy.name :: result.problems.found)

/-- A copy with a conflict has that conflict reported, or stops the run. -/
theorem not_addsOneProblem_retyping : retyping.name ∈ [untyped].map (·.name) ∧
    ¬ AddsOneProblem .report [untyped] retyping [] ∧ ¬ AddsOneProblem .abort [untyped] retyping [] := by
  refine ⟨by decide, ?_, ?_⟩
  · intro adds
    obtain ⟨result', run, -, -, problems⟩ := adds _ (analyze_report [untyped])
    obtain rfl := Except.ok.inj ((analyze_report [untyped, retyping]).symm.trans run)
    have counts := problems.length_eq
    revert counts
    decide +kernel
  · intro adds
    have passes : (analyze .abort ([untyped] ++ [])).toOption.isSome = true := by decide +kernel
    have stops : (analyze .abort ([untyped] ++ retyping :: [])).toOption = none := by decide +kernel
    obtain ⟨result, run⟩ := Option.isSome_iff_exists.1 passes
    obtain ⟨result', run', -⟩ := adds result (Method.ok_of_toOption run)
    rw [run'] at stops
    cases stops

end Batch
end CallProvenance
