import CallProvenance.Proofs.CallbackLog
import CallProvenance.Proofs.SlotRange

/-! Opcodes count by what they do. An opcode decides the effect of an instruction and where control goes after it;
beyond that its number is only named in failures. Code in which opcodes are exchanged for others that do the
same is therefore simulated as before, and fails as before with the new numbers. -/
namespace CallProvenance

/-- Exchanges opcodes for others that do the same. -/
structure Renumbering where
  opcode : UInt8 → UInt8
  effect_eq : ∀ old, Opcode.effect? (opcode old) = Opcode.effect? old
  control_eq : ∀ old, Opcode.control (opcode old) = Opcode.control old

theorem mapError_bind {ε δ α β : Type} (name : ε → δ) (first : Except ε α) (rest : α → Except ε β) :
    (first >>= rest).mapError name = first.mapError name >>= fun value => (rest value).mapError name := by
  cases first <;> rfl

namespace Inconsistency

/-- The failure with its opcodes exchanged. -/
def renumber (numbers : Renumbering) : Inconsistency → Inconsistency
  | .unsupportedOpcode opcode => .unsupportedOpcode (numbers.opcode opcode)
  | .malformedOperand opcode => .malformedOperand (numbers.opcode opcode)
  | .located offset opcode cause => .located offset (numbers.opcode opcode) (cause.renumber numbers)
  | cause => cause

def namesOpcode : Inconsistency → Bool
  | .unsupportedOpcode _ | .malformedOperand _ | .located _ _ _ => true
  | _ => false

theorem namesOpcode_spares : SparesOperands namesOpcode :=
  ⟨rfl, fun _ => rfl, fun _ _ => rfl, fun _ => rfl⟩

theorem renumber_of_silent (numbers : Renumbering) {cause : Inconsistency} (silent : cause.namesOpcode = false) :
    cause.renumber numbers = cause := by
  cases cause with
  | unsupportedOpcode | malformedOperand | located => cases silent
  | _ => rfl

end Inconsistency

/-- A result that cannot fail with an opcode is the same for all numbers. -/
theorem Avoids.renumber {α : Type} {result : Except Inconsistency α} (silent : Avoids Inconsistency.namesOpcode result)
    (numbers : Renumbering) : result.mapError (·.renumber numbers) = result := by
  cases result with
  | ok value => rfl
  | error cause => exact congrArg Except.error (Inconsistency.renumber_of_silent numbers (silent cause rfl))

variable (numbers : Renumbering)

namespace Instruction

def renumber (instruction : Instruction) : Instruction :=
  { instruction with opcode := numbers.opcode instruction.opcode }

variable (instruction : Instruction)

theorem renumber_operand : (instruction.renumber numbers).operand = instruction.operand := rfl

theorem effect?_renumber : (instruction.renumber numbers).effect? = instruction.effect? :=
  numbers.effect_eq instruction.opcode

/-- An operand that is another than expected is reported with the opcode. -/
theorem operand_renumber :
    (instruction.renumber numbers).constant = instruction.constant.mapError (·.renumber numbers) ∧
    (instruction.renumber numbers).slot = instruction.slot.mapError (·.renumber numbers) ∧
    (instruction.renumber numbers).incremented = instruction.incremented.mapError (·.renumber numbers) ∧
    (instruction.renumber numbers).site = instruction.site.mapError (·.renumber numbers) ∧
    (instruction.renumber numbers).dynamicSite = instruction.dynamicSite.mapError (·.renumber numbers) ∧
    (instruction.renumber numbers).dimensions = instruction.dimensions.mapError (·.renumber numbers) := by
  obtain ⟨offset, opcode, operand⟩ := instruction
  cases operand <;> exact ⟨rfl, rfl, rfl, rfl, rfl, rfl⟩

theorem fieldKind_renumber :
    (instruction.renumber numbers).fieldKind = instruction.fieldKind.mapError (·.renumber numbers) := by
  obtain ⟨offset, opcode, operand⟩ := instruction
  cases operand with
  | field ref =>
    have silent : Avoids Inconsistency.namesOpcode
        ((Descriptor.fieldKind ref.descriptor).mapError (.invalidDescriptor ref.descriptor)) := .mapError fun _ => rfl
    exact (silent.renumber numbers).symm
  | _ => rfl

theorem action_renumber :
    (instruction.renumber numbers).action = instruction.action.mapError (·.renumber numbers) := by
  obtain ⟨constant, slot, incremented, site, dynamicSite, dimensions⟩ := instruction.operand_renumber numbers
  have operands (descriptor : String) :
      (Descriptor.operands descriptor).mapError (·.renumber numbers) = Descriptor.operands descriptor :=
    (Descriptor.avoids_operands fun _ => rfl).renumber numbers
  have result (descriptor : String) :
      (Descriptor.result descriptor).mapError (·.renumber numbers) = Descriptor.result descriptor :=
    (Descriptor.avoids_result fun _ => rfl).renumber numbers
  unfold action
  rw [effect?_renumber]
  cases instruction.effect? with
  | none => rfl
  | some effect =>
    cases effect with
    | constant => rw [constant, mapError_bind]; rfl
    | load | store | subroutineReturn => rw [slot, mapError_bind]; rfl
    | increment => rw [incremented, mapError_bind]; rfl
    | getStatic | putStatic | getField | putField => rw [fieldKind_renumber, mapError_bind]; rfl
    | invoke => simp only [site, mapError_bind, operands, result]; rfl
    | invokeDynamic => simp only [dynamicSite, mapError_bind, operands, result]; rfl
    | newMultiArray => rw [dimensions, mapError_bind]; rfl
    | leave value => cases value <;> rfl
    | _ => rfl

theorem execute_renumber (index : Nat) (frame : Frame) :
    (instruction.renumber numbers).execute index frame =
      (instruction.execute index frame).mapError (·.renumber numbers) := by
  have silent (action : Action) :
      (action.perform index frame).mapError (·.renumber numbers) = action.perform index frame :=
    (action.avoids_perform Inconsistency.namesOpcode_spares frame index (.inr fun _ _ => rfl)).renumber numbers
  simp only [execute_eq, action_renumber, mapError_bind, silent]

theorem note_renumber (recorded : DynamicArguments) (index : Nat) (frame : Frame) :
    recorded.note (instruction.renumber numbers) index frame = recorded.note instruction index frame := by
  have same : (instruction.renumber numbers).dynamicArguments frame = instruction.dynamicArguments frame := by
    unfold dynamicArguments
    rw [renumber_operand, effect?_renumber]
  unfold DynamicArguments.note
  rw [same]

theorem slotEnd_renumber : (instruction.renumber numbers).slotEnd = instruction.slotEnd := by
  have width : Opcode.slotWidth (numbers.opcode instruction.opcode) = Opcode.slotWidth instruction.opcode := by
    unfold Opcode.slotWidth
    rw [numbers.effect_eq]
  unfold slotEnd renumber
  rw [width]

end Instruction

namespace Method

def renumber (method : Method) : Method := { method with code := method.code.map (·.renumber numbers) }

variable (method : Method)

theorem entryLocals_renumber : (method.renumber numbers).entryLocals = method.entryLocals := by
  have used : (method.renumber numbers).usedSlots = method.usedSlots := by
    simp only [usedSlots_eq, renumber, List.foldl_map, Instruction.slotEnd_renumber]
  unfold entryLocals
  rw [used]
  rfl

theorem budget_renumber : (method.renumber numbers).budget = method.budget := by
  unfold budget
  rw [entryLocals_renumber]
  simp only [renumber, List.length_map]

end Method

namespace FlowGraph

def renumber (graph : FlowGraph) : FlowGraph := { graph with method := graph.method.renumber numbers }

variable (graph : FlowGraph)

theorem ofMethod_renumber (method : Method) :
    ofMethod (method.renumber numbers) = (ofMethod method).map (renumber numbers) := by
  have positions : positionsOf (method.renumber numbers) = positionsOf method := by
    simp only [positionsOf, Method.renumber, List.zipIdx_map, List.map_map]
    rfl
  have handlers : (method.renumber numbers).handlers = method.handlers := rfl
  simp only [ofMethod, positions, handlers]
  cases method.handlers.mapM (protection (positionsOf method)) <;> rfl

theorem next_renumber (point : Nat) : (graph.renumber numbers).next point = graph.next point := by
  simp only [next, renumber, Method.renumber, List.length_map]

theorem returnPoints_renumber : (graph.renumber numbers).returnPoints = graph.returnPoints := by
  simp only [returnPoints, renumber, Method.renumber, List.zipIdx_map, List.filterMap_map, List.length_map]
  refine List.filterMap_congr fun row _ => ?_
  simp only [Function.comp, Prod.map, id, Instruction.renumber, numbers.control_eq]

theorem successors_renumber (point : Nat) (instruction : Instruction) :
    (graph.renumber numbers).successors point (instruction.renumber numbers) =
      (graph.successors point instruction).mapError (·.renumber numbers) := by
  have target (offset : Nat) : (graph.target offset).mapError (·.renumber numbers) = graph.target offset :=
    (avoids_positionAt _ rfl).renumber numbers
  have next : (graph.next point).mapError (·.renumber numbers) = graph.next point :=
    (graph.avoids_next point rfl).renumber numbers
  have jump : (graph.renumber numbers).jumpTarget (instruction.renumber numbers) =
      (graph.jumpTarget instruction).mapError (·.renumber numbers) := by
    obtain ⟨offset, opcode, operand⟩ := instruction
    cases operand with
    | jump offset => exact (target offset).symm
    | _ => rfl
  have control : Opcode.control (instruction.renumber numbers).opcode = Opcode.control instruction.opcode :=
    numbers.control_eq instruction.opcode
  unfold successors
  rw [control]
  cases Opcode.control instruction.opcode with
  | next => simp only [next_renumber, mapError_bind, next]; rfl
  | halt => rfl
  | subroutineReturn => simp only [returnPoints_renumber]; rfl
  | jump | subroutine => simp only [jump, mapError_bind]; rfl
  | branch => simp only [next_renumber, jump, mapError_bind, next]; rfl
  | switch =>
    obtain ⟨offset, opcode, operand⟩ := instruction
    cases operand with
    | switch fallback targets =>
      have silent : Avoids Inconsistency.namesOpcode ((fallback :: targets).mapM graph.target) :=
        .mapM fun offset _ => avoids_positionAt _ rfl
      exact (silent.renumber numbers).symm
    | _ => rfl

theorem flows_renumber (point : Nat) (instruction : Instruction) (frame : Frame) :
    (graph.renumber numbers).flows point (instruction.renumber numbers) frame =
      (graph.flows point instruction frame).mapError (·.renumber numbers) := by
  simp only [flows, Instruction.execute_renumber, successors_renumber, mapError_bind]
  rfl

theorem entry_renumber : Projects id (·.renumber numbers) graph.entry (graph.renumber numbers).entry := by
  intro notes
  have silent : Avoids Inconsistency.namesOpcode graph.method.entryLocals :=
    (Descriptor.avoids_operands fun _ => rfl).bind fun _ _ => .ok _
  have locals : (graph.renumber numbers).method.entryLocals = graph.method.entryLocals :=
    graph.method.entryLocals_renumber numbers
  unfold entry
  rw [locals]
  cases made : graph.method.entryLocals with
  | ok locals => rfl
  | error cause =>
    exact congrArg (EStateM.Result.error · notes) (Inconsistency.renumber_of_silent numbers (silent cause made))

theorem transfer_renumber (point : Nat) (frame : Frame) :
    Projects id (·.renumber numbers) (graph.transfer point frame) ((graph.renumber numbers).transfer point frame) := by
  intro notes
  have found : (graph.renumber numbers).method.code[point]? = (graph.method.code[point]?).map (·.renumber numbers) :=
    List.getElem?_map
  unfold transfer
  rw [found]
  cases graph.method.code[point]? with
  | none => rfl
  | some instruction =>
    simp only [Option.map_some, flows_renumber, Instruction.note_renumber]
    cases graph.flows point instruction frame with
    | error cause => rfl
    | ok flows => rfl

theorem merge_renumber (current incoming : Frame) :
    Projects id (·.renumber numbers) (merge current incoming) (merge current incoming) := by
  intro notes
  have silent (history : History) : Avoids Inconsistency.namesOpcode (current.merge incoming history) :=
    .ite (.error rfl) (.ite (.error rfl) (.ite (.ok _) (.ok _)))
  rw [id]
  cases merged : merge current incoming notes with
  | ok joined notes' => rfl
  | error cause notes' =>
    obtain ⟨history, failed⟩ := merge_failed merged
    exact congrArg (EStateM.Result.error · notes')
      (Inconsistency.renumber_of_silent numbers (silent history cause failed))

theorem semantics_renumber :
    FlowSemantics.Refines id (·.renumber numbers) graph.semantics (graph.renumber numbers).semantics where
  entry := graph.entry_renumber numbers
  transfer := graph.transfer_renumber numbers
  merge := merge_renumber numbers

end FlowGraph

/-- A method whose opcodes are exchanged for others that do the same is simulated as before; a failure names the
new opcodes. -/
theorem Method.simulate_renumber (method : Method) :
    (method.renumber numbers).simulate = method.simulate.mapError (·.renumber numbers) := by
  have count : (method.renumber numbers).code.length = method.code.length := List.length_map ..
  unfold simulate
  rw [FlowGraph.ofMethod_renumber, budget_renumber, count]
  cases built : FlowGraph.ofMethod method with
  | error cause =>
    -- The handler table is refused before any opcode is looked at.
    have silent : Avoids Inconsistency.namesOpcode (FlowGraph.ofMethod method) :=
      FlowGraph.avoids_ofMethod method fun _ => rfl
    exact congrArg Except.error (Inconsistency.renumber_of_silent numbers (silent cause built)).symm
  | ok graph =>
    have solved := (graph.semantics_renumber numbers).solve method.budget method.code.length {}
    rw [id] at solved
    simp only [Except.map, ok_bind, ← solved]
    cases graph.semantics.solve method.budget method.code.length {} with
    | error cause notes => rfl
    | ok answer notes => cases answer <;> rfl

end CallProvenance
