import CallProvenance.Proofs.References

/-! The result of a reporting run over many classes. The first class of each name is kept, with the
trace that it has on its own; the references of the kept classes are gathered, and names of
classes that were analysed are taken out at the end. -/
namespace CallProvenance

/-- The classes whose name no earlier class has. -/
def ClassDef.firsts : List ClassDef → List ClassDef
  | [] => []
  | first :: rest => first :: (firsts rest).filter (·.name ≠ first.name)

namespace ClassDef

variable {definitions : List ClassDef}

theorem mem_names_firsts {name : String} :
    name ∈ (firsts definitions).map (·.name) ↔ name ∈ definitions.map (·.name) := by
  induction definitions with
  | nil => rfl
  | cons first rest ih =>
    by_cases same : name = first.name
    · simp [firsts, same]
    · simp only [firsts, List.map_cons, List.mem_cons, same, false_or, ← ih]
      simp only [List.mem_map, List.mem_filter, decide_eq_true_eq]
      constructor
      · rintro ⟨definition, ⟨kept, -⟩, named⟩
        exact ⟨definition, kept, named⟩
      · rintro ⟨definition, kept, rfl⟩
        exact ⟨definition, ⟨kept, same⟩, rfl⟩

theorem firsts_sublist (definitions : List ClassDef) : (firsts definitions).Sublist definitions := by
  induction definitions with
  | nil => exact .slnil
  | cons first rest ih => exact .cons_cons first (List.filter_sublist.trans ih)

theorem nodup_names_firsts (definitions : List ClassDef) : ((firsts definitions).map (·.name)).Nodup := by
  induction definitions with
  | nil => exact .nil
  | cons first rest ih =>
    rw [firsts, List.map_cons, List.nodup_cons]
    refine ⟨?_, ih.sublist (List.filter_sublist.map _)⟩
    simp

theorem firsts_of_nodup (distinct : (definitions.map (·.name)).Nodup) : firsts definitions = definitions := by
  induction definitions with
  | nil => rfl
  | cons first rest ih =>
    obtain ⟨fresh, later⟩ := List.nodup_cons.1 distinct
    rw [firsts, ih later]
    congr 1
    refine List.filter_eq_self.2 fun definition member => ?_
    have apart : definition.name ≠ first.name := fun same => fresh (List.mem_map.2 ⟨definition, member, same⟩)
    simp [apart]

end ClassDef

namespace Batch

variable {definition : ClassDef} {definitions : List ClassDef} {result : BatchResult}

def gather (result : BatchResult) (definition : ClassDef) : BatchResult := collect result definition.reported

theorem analyze_report (definitions : List ClassDef) :
    let result := definitions.foldl gather {}
    analyze .report definitions = .ok { result with analyzed := result.analyzed.finish } := by
  have mapped : definitions.mapM (analyzeClass .report) = .ok (definitions.map ClassDef.reported) := by
    induction definitions with
    | nil => rfl
    | cons definition rest ih =>
      rw [List.mapM_cons, analyzeClass, definition.analyze_report, ih]
      rfl
  unfold analyze
  rw [mapped]
  change Except.ok _ = _
  rw [List.foldl_map]
  rfl

def keep (analyzed : AnalyzedClasses) (definition : ClassDef) : AnalyzedClasses where
  classes := analyzed.classes ++ [definition.reported.trace]
  referenced := analyzed.referenced.union (definition.reported.references.filterMap elementClass)

theorem names_keep (analyzed : AnalyzedClasses) (definition : ClassDef) :
    (keep analyzed definition).names = analyzed.names ++ [definition.name] := by
  simp [keep, AnalyzedClasses.names, ClassDef.reported]

theorem gather_new (fresh : definition.name ∉ result.analyzed.names) :
    gather result definition =
      ⟨keep result.analyzed definition, result.problems.append definition.reported.problems⟩ := by
  have fresh : definition.reported.trace.name ∉ result.analyzed.names := fresh
  simp [gather, collect, AnalyzedClasses.add, fresh, keep]

theorem gather_again (seen : definition.name ∈ result.analyzed.names) :
    gather result definition = ⟨result.analyzed,
      (result.problems.append definition.reported.problems).add (AnalyzedClasses.duplicate definition.name)⟩ := by
  have seen : definition.reported.trace.name ∈ result.analyzed.names := seen
  simp only [gather, collect, AnalyzedClasses.add, seen, if_true]
  rfl

/-- Gathering keeps the first class of each name that is not there yet. -/
theorem foldl_gather_analyzed (definitions : List ClassDef) (result : BatchResult) :
    (definitions.foldl gather result).analyzed =
      ((ClassDef.firsts definitions).filter (·.name ∉ result.analyzed.names)).foldl keep result.analyzed := by
  induction definitions generalizing result with
  | nil => rfl
  | cons first rest ih =>
    rw [List.foldl_cons, ih, ClassDef.firsts]
    -- Two filters meet: by names that were there before, and by the name of the class at hand.
    by_cases seen : first.name ∈ result.analyzed.names
    · rw [gather_again seen, List.filter_cons_of_neg (by simpa using seen), List.filter_filter]
      congr 1
      refine List.filter_congr fun definition _ => ?_
      by_cases same : definition.name = first.name <;> simp [same, seen]
    · rw [gather_new seen, List.filter_cons_of_pos (by simpa using seen), List.foldl_cons, List.filter_filter]
      congr 1
      refine List.filter_congr fun definition _ => ?_
      simp [names_keep, Bool.and_comm]

theorem foldl_keep_classes (kept : List ClassDef) (analyzed : AnalyzedClasses) :
    (kept.foldl keep analyzed).classes = analyzed.classes ++ kept.map (·.reported.trace) := by
  induction kept generalizing analyzed with
  | nil => simp
  | cons first rest ih => simp [ih, keep]

theorem mem_foldl_keep_referenced (kept : List ClassDef) (analyzed : AnalyzedClasses) {name : String} :
    name ∈ (kept.foldl keep analyzed).referenced.names ↔ name ∈ analyzed.referenced.names ∨
      ∃ definition ∈ kept, ∃ owner ∈ definition.reported.references, Denotes owner name := by
  induction kept generalizing analyzed with
  | nil => simp
  | cons first rest ih =>
    rw [List.foldl_cons, ih]
    simp [keep, NameSet.mem_union, elementClass_eq_some, or_assoc]

theorem foldl_keep_increasing (kept : List ClassDef) {analyzed : AnalyzedClasses}
    (increasing : analyzed.referenced.Increasing) : (kept.foldl keep analyzed).referenced.Increasing := by
  induction kept generalizing analyzed with
  | nil => exact increasing
  | cons first rest ih => exact ih (NameSet.union_increasing increasing _)

section Gathered

variable (definitions : List ClassDef)

theorem gathered_analyzed :
    (definitions.foldl gather {}).analyzed = (ClassDef.firsts definitions).foldl keep {} := by
  have all : (ClassDef.firsts definitions).filter (·.name ∉ ({} : BatchResult).analyzed.names) =
      ClassDef.firsts definitions := List.filter_eq_self.2 (by simp [AnalyzedClasses.names])
  rw [foldl_gather_analyzed, all]

theorem gathered_classes :
    (definitions.foldl gather {}).analyzed.finish.classes =
      (ClassDef.firsts definitions).map (·.reported.trace) := by
  simp [AnalyzedClasses.finish, gathered_analyzed, foldl_keep_classes]

theorem gathered_names :
    (definitions.foldl gather {}).analyzed.names = (ClassDef.firsts definitions).map (·.name) := by
  rw [gathered_analyzed, AnalyzedClasses.names, foldl_keep_classes]
  simp [ClassDef.reported]

theorem mem_gathered_referenced {name : String} :
    name ∈ (definitions.foldl gather {}).analyzed.finish.referenced.names ↔
      (∃ definition ∈ ClassDef.firsts definitions,
        ∃ owner ∈ definition.reported.references, Denotes owner name) ∧
      name ∉ definitions.map (·.name) := by
  have dropped : name ∉ (definitions.foldl gather {}).analyzed.names ↔ name ∉ definitions.map (·.name) := by
    rw [gathered_names, ClassDef.mem_names_firsts]
  simp only [AnalyzedClasses.finish, List.mem_filter, decide_eq_true_eq, dropped]
  rw [gathered_analyzed, mem_foldl_keep_referenced]
  simp

theorem gathered_increasing :
    (definitions.foldl gather {}).analyzed.finish.referenced.Increasing := by
  have empty : ({} : AnalyzedClasses).referenced.Increasing := .nil
  have increasing := foldl_keep_increasing (ClassDef.firsts definitions) empty
  rw [← gathered_analyzed] at increasing
  exact increasing.sublist List.filter_sublist

end Gathered

section Counting

theorem explains_kind {className : String} {methods : List Method} {blocks : List (List Problem)}
    (aligned : List.Forall₂ (Method.Explains className) methods blocks) :
    ∀ problem ∈ blocks.flatten, problem.kind ≠ .duplicateClass := by
  induction aligned with
  | nil => simp
  | cons explains _ ih =>
    intro problem member
    rw [List.flatten_cons, List.mem_append] at member
    rcases member with here | later
    · cases explains with
      | traced _ _ _ unnamed accessed =>
        rcases List.mem_append.1 here with missing | conflict
        · simp [(unnamed problem missing).1]
        · simp [(accessed problem conflict).1]
      | failed => simp [List.mem_singleton.1 here]
    · exact ih problem later

def duplicates (problems : Problems) : Nat := problems.found.countP (·.kind = .duplicateClass)

theorem duplicates_reported (definition : ClassDef) : duplicates definition.reported.problems = 0 := by
  obtain ⟨blocks, found, aligned⟩ := definition.reported_explains
  rw [duplicates, found, List.countP_eq_zero]
  simpa using explains_kind aligned

theorem gather_counts (result : BatchResult) (definition : ClassDef) :
    (gather result definition).analyzed.classes.length + duplicates (gather result definition).problems =
      result.analyzed.classes.length + duplicates result.problems + 1 := by
  have own := duplicates_reported definition
  by_cases seen : definition.name ∈ result.analyzed.names
  · have more : duplicates (gather result definition).problems = duplicates result.problems + 1 := by
      simp only [duplicates] at own ⊢
      simp [gather_again seen, Problems.add, Problems.append, AnalyzedClasses.duplicate, own]
    rw [more, gather_again seen, Nat.add_assoc]
  · have same : duplicates (gather result definition).problems = duplicates result.problems := by
      simp only [duplicates] at own ⊢
      simp [gather_new seen, Problems.append, own]
    have longer : (keep result.analyzed definition).classes.length = result.analyzed.classes.length + 1 := by
      simp [keep]
    rw [same, gather_new seen, longer, Nat.add_right_comm]

theorem foldl_gather_counts (definitions : List ClassDef) (result : BatchResult) :
    (definitions.foldl gather result).analyzed.classes.length + duplicates (definitions.foldl gather result).problems =
      result.analyzed.classes.length + duplicates result.problems + definitions.length := by
  induction definitions generalizing result with
  | nil => rfl
  | cons first rest ih =>
    rw [List.foldl_cons, ih, gather_counts, List.length_cons]
    omega

end Counting

/-- The result of a reporting run, said without the way in which it is gathered. -/
structure Summarizes (definitions : List ClassDef) (result : BatchResult) : Prop where
  classes : List.Forall₂ (fun definition trace =>
      ∃ analysis, definition.analyze .report = .ok analysis ∧ analysis.trace = trace)
    (ClassDef.firsts definitions) result.analyzed.classes
  distinct : (result.analyzed.classes.map (·.name)).Nodup
  counted : result.analyzed.classes.length + result.problems.found.countP (·.kind = .duplicateClass) =
    definitions.length
  increasing : result.analyzed.referenced.Increasing
  /-- The references of methods that fail, of duplicates and to analysed classes are left out. -/
  referenced : (∀ definition ∈ definitions, definition.CallsMatch) → ∀ name,
    name ∈ result.analyzed.referenced.names ↔
      (∃ definition ∈ ClassDef.firsts definitions, ∃ method ∈ definition.methods, ∃ owner,
        (∃ trace, method.outcome definition.name {} = .ok trace) ∧ method.RefersTo owner ∧ Denotes owner name) ∧
      name ∉ definitions.map (·.name)

theorem gathered_summarizes (definitions : List ClassDef) :
    let result := definitions.foldl gather {}
    Summarizes definitions { result with analyzed := result.analyzed.finish } where
  classes := by
    rw [gathered_classes, List.forall₂_map_right_iff, List.forall₂_same]
    exact fun definition _ => ⟨definition.reported, definition.analyze_report, rfl⟩
  distinct := by
    rw [gathered_classes, List.map_map]
    exact ClassDef.nodup_names_firsts definitions
  counted := by
    have counts := foldl_gather_counts definitions {}
    simpa [AnalyzedClasses.finish, duplicates] using counts
  increasing := gathered_increasing definitions
  referenced := by
    intro matched name
    rw [mem_gathered_referenced]
    refine and_congr_left' (exists_congr fun definition => and_congr_right fun kept => ?_)
    have fits := matched definition ((ClassDef.firsts_sublist definitions).subset kept)
    simp only [ClassDef.mem_reported_references fits]
    constructor
    · rintro ⟨owner, ⟨method, declared, traced, refers⟩, denotes⟩
      exact ⟨method, declared, owner, traced, refers, denotes⟩
    · rintro ⟨method, declared, owner, traced, refers, denotes⟩
      exact ⟨owner, ⟨method, declared, traced, refers⟩, denotes⟩

theorem gathered_perm {other : List ClassDef} (permuted : other.Perm definitions)
    (distinct : (definitions.map (·.name)).Nodup) :
    let result := (definitions.foldl gather {}).analyzed.finish
    let result' := (other.foldl gather {}).analyzed.finish
    result'.classes.Perm result.classes ∧ result'.referenced = result.referenced := by
  intro result result'
  have distinct' : (other.map (·.name)).Nodup := (permuted.map _).nodup_iff.2 distinct
  constructor
  · rw [gathered_classes, gathered_classes, ClassDef.firsts_of_nodup distinct, ClassDef.firsts_of_nodup distinct']
    exact permuted.map _
  · refine NameSet.Increasing.ext (gathered_increasing other) (gathered_increasing definitions) fun name => ?_
    rw [mem_gathered_referenced, mem_gathered_referenced, ClassDef.firsts_of_nodup distinct,
      ClassDef.firsts_of_nodup distinct', (permuted.map _).mem_iff]
    simp only [permuted.mem_iff]

/-- A reporting run comes through with the traces of the first class of each name and the references of
their methods. The order of distinct classes is only that of their traces. -/
theorem analyze_report_summarizes (definitions : List ClassDef) :
    ∃ result, analyze .report definitions = .ok result ∧ Summarizes definitions result ∧
      ∀ other, other.Perm definitions → (definitions.map (·.name)).Nodup →
        ∃ result', analyze .report other = .ok result' ∧
          result'.analyzed.classes.Perm result.analyzed.classes ∧
          result'.analyzed.referenced = result.analyzed.referenced := by
  refine ⟨_, analyze_report definitions, gathered_summarizes definitions, ?_⟩
  intro other permuted distinct
  exact ⟨_, analyze_report other, gathered_perm permuted distinct⟩

/-- A class whose calls refer to an analysed class and to one that is not. -/
def dispatcher : ClassDef where
  name := "Dispatcher"
  methods := [Method.dispatching]
  source := "Dispatcher.class"

def sink : ClassDef where
  name := "Sink"
  source := "Sink.class"

theorem analyze_report_summarizes_dispatching : ∃ result result',
    analyze .report [dispatcher, sink] = .ok result ∧ analyze .report [sink, dispatcher] = .ok result' ∧
      "Linker" ∈ result.analyzed.referenced.names ∧ "Sink" ∉ result.analyzed.referenced.names ∧
      result'.analyzed.classes.Perm result.analyzed.classes ∧
      result'.analyzed.referenced = result.analyzed.referenced := by
  obtain ⟨result, analyzed, summary, permuted⟩ := analyze_report_summarizes [dispatcher, sink]
  obtain ⟨result', analyzed', classes, referenced⟩ := permuted [sink, dispatcher] (.swap ..) (by decide)
  have matched : ∀ definition ∈ [dispatcher, sink], definition.CallsMatch := by decide
  refine ⟨result, result', analyzed, analyzed', ?_, ?_, classes, referenced⟩
  · have traced : ∃ trace, Method.dispatching.outcome "Dispatcher" {} = .ok trace := by
      have succeeds : (Method.dispatching.outcome "Dispatcher" {}).toOption.isSome = true := by decide +kernel
      obtain ⟨trace, found⟩ := Option.isSome_iff_exists.1 succeeds
      exact ⟨trace, Method.ok_of_toOption found⟩
    obtain ⟨simulation, stable, simulated, reached, -⟩ := Method.dispatching_simulates
    let link : CallTarget := .dynamic ⟨"apply", "(I)V", ⟨6, "Linker", "link", "()V"⟩⟩
    have refers : Method.dispatching.RefersTo link.className := .call simulated rfl reached rfl
    have denotes : Denotes "Linker" "Linker" := .inl ⟨by decide, rfl⟩
    exact (summary.referenced matched "Linker").2
      ⟨⟨dispatcher, by simp [ClassDef.firsts], Method.dispatching, by simp [dispatcher], "Linker",
        traced, refers, denotes⟩, by decide⟩
  · intro member
    exact ((summary.referenced matched "Sink").1 member).2 (by decide)

end Batch
end CallProvenance
