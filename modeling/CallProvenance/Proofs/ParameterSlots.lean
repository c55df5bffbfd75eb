import CallProvenance.FlowGraph
import CallProvenance.Parameters
import Mathlib.Algebra.GroupWithZero.Nat
import Mathlib.Algebra.Order.Group.Nat

/-! Slots of parameters. The slot of a parameter is found twice: from the texts of the descriptors, with
numbers that stop at the largest slot, and from the kinds, by laying out the locals at entry. Both
count two slots for each long or double before the parameter and one for everything else. -/
namespace CallProvenance

def TypeDescriptor.width (type : TypeDescriptor) : Nat := if type = .long ∨ type = .double then 2 else 1

/-- An array has at least one dimension. -/
def TypeDescriptor.Proper : TypeDescriptor → Prop
  | .array dimensions _ => 0 < dimensions
  | _ => True

namespace TypeDescriptor

variable {type : TypeDescriptor}

theorem size_kind (type : TypeDescriptor) : type.kind.size = type.width := by cases type <;> simp [kind, width, Kind.size]

theorem slotWidth_of_head {text : String} {letter : Char} (head : text.toList.head? = some letter)
    (other : letter ≠ 'J' ∧ letter ≠ 'D') : Method.slotWidth text = 1 := by
  have narrow : ¬ (text = "J" ∨ text = "D") := by
    rintro (rfl | rfl)
    · exact other.1 (Option.some.inj head).symm
    · exact other.2 (Option.some.inj head).symm
  exact if_neg narrow

/-- Only the two wide types are written as one of their letters. -/
theorem slotWidth_render (proper : type.Proper) : Method.slotWidth type.render = type.width := by
  cases type with
  | object name =>
    have head : ("L" ++ name ++ ";").toList.head? = some 'L' := by simp
    exact slotWidth_of_head head (by decide)
  | array dimensions element =>
    obtain ⟨more, rfl⟩ := Nat.exists_eq_add_one_of_ne_zero proper.ne'
    have head : (String.ofList (List.replicate (more + 1) '[') ++ element.render).toList.head? = some '[' := by
      simp [List.replicate_succ]
    exact slotWidth_of_head head (by decide)
  | _ => decide

end TypeDescriptor

namespace Descriptor

variable {text rest : List Char} {type : TypeDescriptor}

theorem scalar_proper (read : scalar text = .ok (.type type, rest)) : type.Proper := by
  unfold scalar at read
  split at read
  case h_12 =>
    split at read
    · cases read
    · cases read
      trivial
  all_goals cases read <;> trivial

theorem item_proper (read : item text = .ok (.type type, rest)) : type.Proper := by
  unfold item at read
  split at read
  · exact scalar_proper read
  · rename_i brackets
    split at read
    · cases read
    · split at read <;> cases read
      exact Nat.pos_of_ne_zero brackets

theorem parameterList_proper {types : List TypeDescriptor} (read : parameterList text = .ok (types, rest)) :
    ∀ type ∈ types, type.Proper := by
  fun_induction parameterList text generalizing types with
  | case1 | case3 => cases read
  | case2 => cases read; simp
  | case4 text type after first types' rest' later ih =>
    cases read
    exact List.forall_mem_cons.2 ⟨item_proper first, ih later⟩

theorem method_proper {descriptor : String} {parsed : MethodDescriptor} (accepted : method descriptor = .ok parsed) :
    ∀ type ∈ parsed.parameters, type.Proper := by
  unfold method at accepted
  cases read : parseMethod descriptor.toList with
  | error fault =>
    rw [read] at accepted
    cases accepted
  | ok found =>
    rw [read] at accepted
    cases accepted
    unfold parseMethod at read
    split at read
    · split at read
      · cases read
      · rename_i listed
        split at read <;> cases read
        exact parameterList_proper listed
    · cases read

end Descriptor

theorem Descriptor.parameters_of_method {descriptor : String} {parsed : MethodDescriptor}
    (accepted : method descriptor = .ok parsed) :
    parameterKinds descriptor = .ok (parsed.parameters.map (·.kind)) ∧
      parameterDescriptors descriptor = .ok (parsed.parameters.map (·.render)) := by
  simp [parameterKinds, parameterDescriptors, accepted, Except.map]

namespace Method

variable {method : Method} {source : String} {types : List TypeDescriptor} {index slot : Nat}

/-- The slots of the receiver and of the parameters before a position. -/
def slotsBefore (method : Method) (types : List TypeDescriptor) (index : Nat) : Nat :=
  (if method.isStatic then 0 else 1) + ((types.take index).map (·.width)).sum

/-- The first variable in the slot that is live when the method starts. -/
def variableAtEntry (method : Method) (slot : Nat) : Option LocalVariable :=
  method.localVariables.find? fun entry => entry.slot = slot && entry.covers 0

/-! ## The slots of the texts -/

/-- What is found for each parameter in turn, when the first lives in `slot`. -/
def outcomesFrom (method : Method) (source : String) (index slot : Nat) (types : List TypeDescriptor) :
    List (Parameter × Problems) :=
  types.mapIdx fun i type =>
    method.parameterAt source (index + i) (min maxSlot (slot + ((types.take i).map (·.width)).sum)) type.render

theorem outcomesFrom_cons (type : TypeDescriptor) (types : List TypeDescriptor) (inside : slot ≤ maxSlot) :
    method.outcomesFrom source index slot (type :: types) =
      method.parameterAt source index slot type.render ::
        method.outcomesFrom source (index + 1) (min (slot + type.width) maxSlot) types := by
  have shifted (sum : Nat) : min maxSlot (slot + (type.width + sum)) =
      min maxSlot (min (slot + type.width) maxSlot + sum) := by omega
  simp [outcomesFrom, List.mapIdx_cons, shifted, inside, Nat.add_assoc, Nat.add_comm 1]

/-- Saturating along the way is saturating at the end. -/
theorem parametersFrom_eq (proper : ∀ type ∈ types, type.Proper) (inside : slot ≤ maxSlot) :
    method.parametersFrom source index slot (types.map (·.render)) =
      ((method.outcomesFrom source index slot types).map (·.1),
        ⟨(method.outcomesFrom source index slot types).flatMap (·.2.found)⟩) := by
  induction types generalizing index slot with
  | nil => rfl
  | cons type types ih =>
    obtain ⟨first, rest⟩ := List.forall_mem_cons.1 proper
    have later := @ih (index + 1) (min (slot + type.width) maxSlot) rest (Nat.min_le_right _ _)
    simp only [List.map_cons, parametersFrom, TypeDescriptor.slotWidth_render first, later,
      outcomesFrom_cons type types inside, List.flatMap_cons, Problems.append]

theorem parameters_eq {parsed : MethodDescriptor} (accepted : Descriptor.method method.descriptor = .ok parsed)
    (source : String) :
    let outcomes := parsed.parameters.mapIdx fun i type =>
      method.parameterAt source i (min 65535 (method.slotsBefore parsed.parameters i)) type.render
    method.parameters source = .ok (outcomes.map (·.1), ⟨outcomes.flatMap (·.2.found)⟩) := by
  have descriptors := (Descriptor.parameters_of_method accepted).2
  have start : (if method.isStatic then 0 else 1) ≤ maxSlot := by split <;> decide
  have found := @parametersFrom_eq method source _ 0 _ (Descriptor.method_proper accepted) start
  simp only [outcomesFrom, Nat.zero_add] at found
  simp only [parameters, descriptors]
  exact congrArg Except.ok found

/-! ## The slots of the kinds -/

theorem length_kindSlots (kind : Kind) :
    (if kind.size = 2 then [Value.unknown kind, .unset] else [.unknown kind]).length = kind.size := by
  rcases kind.size_eq_one_or_two with one | two
  · simp [one]
  · simp [two]

theorem getElem?_kindSlots {type : TypeDescriptor} (found : types[index]? = some type) :
    ((types.map (·.kind)).flatMap fun kind => if kind.size = 2 then [Value.unknown kind, .unset] else [.unknown kind])[
      ((types.take index).map (·.width)).sum]? = some (.unknown type.kind) := by
  induction types generalizing index with
  | nil => simp at found
  | cons first types ih =>
    rw [List.map_cons, List.flatMap_cons]
    cases index with
    | zero =>
      obtain rfl := Option.some.inj found
      rw [List.take_zero, List.map_nil, List.sum_nil]
      split <;> rfl
    | succ index =>
      have length := (length_kindSlots first.kind).trans first.size_kind
      rw [List.take_succ_cons, List.map_cons, List.sum_cons, List.getElem?_append_right (by omega), length,
        Nat.add_sub_cancel_left]
      exact ih found

/-- The locals at entry hold each parameter in the slot behind the receiver and the parameters before it. -/
theorem entryLocals_slotsBefore {parsed : MethodDescriptor}
    (accepted : Descriptor.method method.descriptor = .ok parsed) :
    ∃ locals, method.entryLocals = .ok locals ∧ ∀ (i : Nat) type, parsed.parameters[i]? = some type →
      locals[method.slotsBefore parsed.parameters i]? = some (.unknown type.kind) := by
  have kinds : Descriptor.operands method.descriptor = .ok (parsed.parameters.map (·.kind)) := by
    rw [Descriptor.operands, (Descriptor.parameters_of_method accepted).1]
    rfl
  refine ⟨_, by rw [entryLocals, kinds]; rfl, fun i type found => ?_⟩
  have slots : (method.parameterSlots (parsed.parameters.map (·.kind)))[method.slotsBefore parsed.parameters i]? =
      some (.unknown type.kind) := by
    unfold parameterSlots slotsBefore
    split
    · simpa using getElem?_kindSlots found
    · rw [List.getElem?_append_right (by simp)]
      simpa using getElem?_kindSlots found
  rw [List.getElem?_append_left (List.getElem?_eq_some_iff.1 slots).1, slots]

/-! ## The variables of a method with code -/

section Code

variable (concrete : method.isAbstract = false) (code : method.code ≠ [])
include concrete code

/-- With code, the type is that of the variable in the slot, and its absence is the only problem. -/
theorem parameterAt_of_code (source : String) (index slot : Nat) (text : String) :
    let outcome := method.parameterAt source index slot text
    outcome.1.index = index ∧ outcome.1.type = (method.variableAtEntry slot).map (·.descriptor) ∧
      outcome.2.found = if outcome.1.type.isNone then [missingParameter source index slot] else [] := by
  have looked : (method.isAbstract || !method.hasCode) = false := by simp [concrete, hasCode, code]
  cases found : method.variableAtEntry slot with
  | none =>
    rw [variableAtEntry] at found
    simp [parameterAt, looked, found]
  | some entry =>
    rw [variableAtEntry] at found
    simp [parameterAt, looked, found]

theorem missing_of_code (source : String) (slotAt : Nat → Nat) (types : List TypeDescriptor) :
    let outcomes := types.mapIdx fun i type => method.parameterAt source i (slotAt i) type.render
    outcomes.flatMap (·.2.found) = ((outcomes.map (·.1)).filter (·.type.isNone)).map fun parameter =>
      missingParameter source parameter.index (slotAt parameter.index) := by
  intro outcomes
  have each : ∀ outcome ∈ outcomes, outcome.2.found =
      if outcome.1.type.isNone then [missingParameter source outcome.1.index (slotAt outcome.1.index)] else [] := by
    intro outcome member
    obtain ⟨i, _, rfl⟩ := List.mem_mapIdx.1 member
    obtain ⟨index, -, found⟩ := parameterAt_of_code concrete code source i (slotAt i) types[i].render
    rw [index, found]
  clear_value outcomes
  induction outcomes with
  | nil => rfl
  | cons outcome outcomes ih =>
    obtain ⟨here, later⟩ := List.forall_mem_cons.1 each
    rw [List.flatMap_cons, here, ih later]
    cases type : outcome.1.type <;> simp [type]

end Code

/-- For every method with an accepted descriptor, a parameter is looked up in the slot behind the receiver and
the parameters before it, or in the last slot if that lies beyond, and the locals at entry hold an
unknown value of its kind in the same slot. With code, the parameters are listed in order with the
types of their variables, and exactly those without a variable are reported, in order. -/
theorem parameters_agree_with_entry (method : Method) (source : String) {parsed : MethodDescriptor}
    (accepted : Descriptor.method method.descriptor = .ok parsed) :
    let slotAt := fun i => min 65535 (method.slotsBefore parsed.parameters i)
    let outcomes := parsed.parameters.mapIdx fun i type => method.parameterAt source i (slotAt i) type.render
    ∃ kinds locals parameters problems,
      Descriptor.parameterKinds method.descriptor = .ok kinds ∧ method.entryLocals = .ok locals ∧
      method.parameters source = .ok (parameters, problems) ∧
      parameters = outcomes.map (·.1) ∧ problems.found = outcomes.flatMap (·.2.found) ∧
      (∀ (i : Nat) kind, kinds[i]? = some kind → method.slotsBefore parsed.parameters i < 65535 →
        ∃ value, locals[slotAt i]? = some value ∧ value.kind = kind ∧ value.sources = .empty) ∧
      (method.isAbstract = false → method.code ≠ [] →
        parameters.length = parsed.parameters.length ∧
        (∀ (i : Nat) parameter, parameters[i]? = some parameter → parameter.index = i ∧
          parameter.type = (method.variableAtEntry (slotAt i)).map (·.descriptor)) ∧
        problems.found = (parameters.filter (·.type.isNone)).map fun parameter =>
          missingParameter source parameter.index (slotAt parameter.index)) := by
  intro slotAt outcomes
  obtain ⟨locals, entered, laid⟩ := entryLocals_slotsBefore accepted
  refine ⟨_, locals, _, _, (Descriptor.parameters_of_method accepted).1, entered, parameters_eq accepted source,
    rfl, rfl, ?_, ?_⟩
  · intro i kind found small
    rw [List.getElem?_map] at found
    obtain ⟨type, declared, rfl⟩ := Option.map_eq_some_iff.1 found
    have slot : slotAt i = method.slotsBefore parsed.parameters i := Nat.min_eq_right small.le
    exact ⟨_, slot ▸ laid i type declared, rfl, rfl⟩
  · intro concrete code
    refine ⟨by simp, fun i parameter found => ?_, missing_of_code concrete code source slotAt parsed.parameters⟩
    rw [List.getElem?_map, List.getElem?_mapIdx] at found
    obtain ⟨outcome, at_index, rfl⟩ := Option.map_eq_some_iff.1 found
    obtain ⟨type, -, rfl⟩ := Option.map_eq_some_iff.1 at_index
    obtain ⟨index, descriptor, -⟩ := parameterAt_of_code concrete code source i (slotAt i) type.render
    exact ⟨index, descriptor⟩

/-- Waits for some time: a wide parameter and an array of wide elements stand before the last one, which
has no variable. -/
def waiting : Method where
  name := "await"
  descriptor := "(JLjava/util/concurrent/TimeUnit;[DI)Z"
  maxLocals := 6
  code := [⟨0, 0x1a, .slot 5⟩, ⟨1, 0xac, .none⟩]
  localVariables := [⟨0, 2, "this", "LLatch;", 0⟩, ⟨1, 1, "late", "F", 1⟩, ⟨0, 2, "timeout", "J", 1⟩,
    ⟨0, 2, "unit", "Ljava/util/concurrent/TimeUnit;", 3⟩, ⟨0, 2, "weights", "[D", 4⟩]

def waitingTypes : List TypeDescriptor :=
  [.long, .object "java/util/concurrent/TimeUnit", .array 1 .double, .int]

theorem parameters_agree_with_entry_waiting :
    Descriptor.method waiting.descriptor = .ok ⟨waitingTypes, .boolean⟩ ∧
    waiting.isAbstract = false ∧ waiting.code ≠ [] ∧ waiting.slotsBefore waitingTypes 3 = 5 ∧
    ∃ locals parameters problems, waiting.entryLocals = .ok locals ∧
      waiting.parameters "Latch#await" = .ok (parameters, problems) ∧
      parameters.map (·.type) = [some "J", some "Ljava/util/concurrent/TimeUnit;", some "[D", none] ∧
      (∃ value, locals[5]? = some value ∧ value.kind = .int ∧ value.sources = .empty) ∧
      problems.found = [missingParameter "Latch#await" 3 5] := by
  have accepted : Descriptor.method waiting.descriptor = .ok ⟨waitingTypes, .boolean⟩ := by decide +kernel
  have concrete : waiting.isAbstract = false := rfl
  have code : waiting.code ≠ [] := by decide
  have slot : waiting.slotsBefore waitingTypes 3 = 5 := by decide
  obtain ⟨kinds, locals, parameters, problems, read, entered, found, listed, -, laid, coded⟩ :=
    parameters_agree_with_entry waiting "Latch#await" accepted
  obtain rfl : [.long, .reference, .reference, .int] = kinds :=
    Except.ok.inj ((Descriptor.parameters_of_method accepted).1.symm.trans read)
  obtain ⟨-, -, missing⟩ := coded concrete code
  rw [listed] at missing
  refine ⟨accepted, concrete, code, slot, locals, parameters, problems, entered, found, ?_, laid 3 .int rfl (by decide), ?_⟩
  · rw [listed]
    decide +kernel
  · rw [missing]
    decide +kernel

end Method
end CallProvenance
