import CallProvenance.Batch
import CallProvenance.Proofs.ClassOutcome
import Mathlib.Data.String.Basic

/-! The classes that analysed code refers to. A name in the code is that of a class or of an array; the
classes behind them are kept as an increasing list, and so as a set. -/
namespace CallProvenance

namespace NameSet

variable {name other : String} {names : List String}

def Increasing (set : NameSet) : Prop := set.names.Pairwise (· < ·)

theorem mem_insertInto : other ∈ insertInto name names ↔ other = name ∨ other ∈ names := by
  induction names with
  | nil => simp [insertInto]
  | cons first rest ih =>
    unfold insertInto
    split
    · exact List.mem_cons
    · split
      · rename_i same
        simp [same]
      · simp only [List.mem_cons, ih, or_left_comm]

theorem insertInto_increasing (increasing : names.Pairwise (· < ·)) :
    (insertInto name names).Pairwise (· < ·) := by
  induction names with
  | nil => exact List.pairwise_singleton _ _
  | cons first rest ih =>
    obtain ⟨least, tail⟩ := List.pairwise_cons.1 increasing
    unfold insertInto
    split
    · rename_i before
      refine List.pairwise_cons.2 ⟨?_, increasing⟩
      intro other member
      rcases List.mem_cons.1 member with rfl | later
      · exact before
      · exact before.trans (least other later)
    · rename_i behind
      split
      · exact increasing
      · rename_i apart
        refine List.pairwise_cons.2 ⟨?_, ih tail⟩
        intro other member
        rcases mem_insertInto.1 member with rfl | later
        · exact lt_of_le_of_ne (not_lt.1 behind) (Ne.symm apart)
        · exact least other later

theorem mem_union {set : NameSet} : other ∈ (set.union names).names ↔ other ∈ set.names ∨ other ∈ names := by
  unfold union
  induction names generalizing set with
  | nil => simp
  | cons first rest ih =>
    rw [List.foldl_cons, ih]
    simp only [insert, mem_insertInto, List.mem_cons, or_assoc, or_left_comm]

theorem union_increasing {set : NameSet} (increasing : set.Increasing) (names : List String) :
    (set.union names).Increasing := by
  unfold union
  induction names generalizing set with
  | nil => exact increasing
  | cons first rest ih => exact ih (insertInto_increasing increasing)

theorem Increasing.ext {a b : NameSet} (left : a.Increasing) (right : b.Increasing)
    (same : ∀ name, name ∈ a.names ↔ name ∈ b.names) : a = b := by
  have permuted : a.names.Perm b.names :=
    (List.perm_ext_iff_of_nodup (left.imp ne_of_lt) (right.imp ne_of_lt)).2 same
  have equal : a.names = b.names :=
    permuted.eq_of_pairwise (fun x y _ _ before behind => absurd behind before.asymm) left right
  cases a
  cases b
  exact congrArg mk equal

end NameSet

/-- A text is the name of a class, or the descriptor of an array of any depth whose innermost elements
are of the class. -/
def Denotes (text className : String) : Prop :=
  (text.toList.head? ≠ some '[' ∧ text = className) ∨
    ∃ depth, text.toList = List.replicate (depth + 1) '[' ++ 'L' :: (className.toList ++ [';'])

theorem dropWhile_brackets {rest inner : List Char} :
    rest.dropWhile (· = '[') = 'L' :: inner ↔ ∃ depth, rest = List.replicate depth '[' ++ 'L' :: inner := by
  constructor
  · intro element
    have brackets : ∀ c ∈ rest.takeWhile (· = '['), c = '[' := by
      intro c member
      simpa using List.all_eq_true.1 List.all_takeWhile c member
    refine ⟨(rest.takeWhile (· = '[')).length, ?_⟩
    rw [← List.eq_replicate_of_mem brackets, ← element, List.takeWhile_append_dropWhile]
  · rintro ⟨depth, rfl⟩
    rw [List.dropWhile_append_of_pos (by simp)]
    simp

theorem elementClass_eq_some {text className : String} :
    elementClass text = some className ↔ Denotes text className := by
  unfold elementClass Denotes
  split
  · rename_i rest array
    simp only [array, List.replicate_succ, List.cons_append, List.cons.injEq, true_and, List.head?_cons,
      ne_eq, not_true_eq_false, false_and, false_or, ← dropWhile_brackets]
    split
    · rename_i inner element
      rw [element, List.cons.injEq, eq_self, true_and]
      -- An element type without its semicolon is dropped like a primitive one.
      by_cases closed : inner.getLast? = some ';'
      · obtain ⟨name, rfl⟩ := List.getLast?_eq_some_iff.1 closed
        simp [String.ext_iff]
      · have unclosed : inner ≠ className.toList ++ [';'] := by
          rintro rfl
          simp at closed
        simp [closed, unclosed]
    · rename_i other
      have mismatch := other (className.toList ++ [';'])
      simpa using mismatch
  · rename_i plain
    have named : text.toList.head? ≠ some '[' := by
      intro array
      obtain ⟨rest, shape⟩ := List.head?_eq_some_iff.1 array
      exact plain rest shape
    have noArray : ¬ ∃ depth,
        text.toList = List.replicate (depth + 1) '[' ++ 'L' :: (className.toList ++ [';']) := by
      rintro ⟨depth, shape⟩
      exact plain _ (shape.trans (by rw [List.replicate_succ, List.cons_append]))
    simp [named, noArray]

namespace Method

variable {method : Method} {className owner : String} {findings : MethodFindings} {cause : Inconsistency}

/-- The names that a method's code refers to: the owners of the fields that it accesses, reachable or
not, and the classes of the calls that are reached. -/
inductive RefersTo (method : Method) : String → Prop where
  | access {instruction : Instruction} {ref : FieldRef} (inside : instruction ∈ method.code)
      (operand : instruction.operand = .field ref) : RefersTo method ref.owner
  | call {simulation : Simulation} {index : Nat} {instruction : Instruction} {frame : Frame} {target : CallTarget}
      (simulated : method.simulate = .ok simulation) (found : method.code[index]? = some instruction)
      (reached : simulation.frames[index]? = some (some frame))
      (calls : instruction.operand.target? = some target) : RefersTo method target.className

theorem refersTo_of_simulation {simulation : Simulation} (simulated : method.simulate = .ok simulation) :
    method.RefersTo owner ↔
      owner ∈ method.accesses.map (·.owner) ∨ owner ∈ (simulation.targets method).map (·.className) := by
  simp only [List.mem_map, mem_accesses, Simulation.mem_targets]
  constructor
  · rintro (⟨inside, operand⟩ | ⟨simulated', found, reached, calls⟩)
    · exact .inl ⟨_, ⟨_, inside, operand⟩, rfl⟩
    · obtain rfl := Except.ok.inj (simulated.symm.trans simulated')
      exact .inr ⟨_, ⟨_, _, _, found, reached, calls⟩, rfl⟩
  · rintro (accessed | called)
    · obtain ⟨ref, ⟨instruction, inside, operand⟩, rfl⟩ := accessed
      exact .access inside operand
    · obtain ⟨target, ⟨index, instruction, frame, found, reached, calls⟩, rfl⟩ := called
      exact .call simulated found reached calls

theorem not_refersTo (empty : method.hasCode = false) : ¬ method.RefersTo owner := by
  have none : method.code = [] := by simpa [hasCode] using empty
  rintro (⟨inside, -⟩ | ⟨-, found, -, -⟩)
  · simp [none] at inside
  · simp [none] at found

theorem examine_refersTo (matched : method.CallsMatch) (examined : method.examine className = .ok findings) :
    method.RefersTo owner ↔
      owner ∈ method.accesses.map (·.owner) ∨ owner ∈ findings.calls.map (·.target.className) := by
  cases examined_of_ok examined with
  | plain _ code => simp [not_refersTo code, accesses_nil code]
  | coded _ _ simulated taken =>
    obtain ⟨calls, taken', targets⟩ := Simulation.calls_targets matched simulated
    obtain rfl := Except.ok.inj (taken.symm.trans taken')
    rw [refersTo_of_simulation simulated, ← targets, List.map_map]
    rfl

/-- A method that is traced adds the names that it refers to, and a method that fails adds none. -/
theorem mem_pass_references (matched : method.CallsMatch) (record : ClassRecord) :
    owner ∈ (method.pass className record).references ↔
      owner ∈ record.references ∨
        (∃ trace, method.outcome className {} = .ok trace) ∧ method.RefersTo owner := by
  cases examined : method.examine className with
  | ok findings =>
    rw [pass_examined examined, examine_refersTo matched examined, outcome_examined examined]
    simp [leave]
  | error cause =>
    rw [pass, analyze_unexamined_matched matched examined, outcome_unexamined examined]
    simp [failure, settle]

end Method

/-- Operands that name calls occur on call opcodes only, in every method. -/
def ClassDef.CallsMatch (definition : ClassDef) : Prop := ∀ method ∈ definition.methods, method.CallsMatch

instance (definition : ClassDef) : Decidable definition.CallsMatch :=
  inferInstanceAs (Decidable (∀ method ∈ definition.methods, method.CallsMatch))

namespace ClassDef

theorem mem_foldl_pass_references {className owner : String} {methods : List Method}
    (matched : ∀ method ∈ methods, method.CallsMatch) (record : ClassRecord) :
    owner ∈ (methods.foldl (Method.pass className) record).references ↔ owner ∈ record.references ∨
      ∃ method ∈ methods, (∃ trace, method.outcome className {} = .ok trace) ∧ method.RefersTo owner := by
  induction methods generalizing record with
  | nil => simp
  | cons method rest ih =>
    have first := matched method List.mem_cons_self
    rw [List.foldl_cons, ih fun other member => matched other (List.mem_cons_of_mem _ member),
      Method.mem_pass_references first]
    simp [or_assoc]

theorem mem_reported_references {definition : ClassDef} (matched : definition.CallsMatch) {owner : String} :
    owner ∈ definition.reported.references ↔ ∃ method ∈ definition.methods,
      (∃ trace, method.outcome definition.name {} = .ok trace) ∧ method.RefersTo owner := by
  rw [reported, finalRecord, mem_foldl_pass_references matched]
  simp

end ClassDef
end CallProvenance
