import CallProvenance.FlowGraph
import CallProvenance.Proofs.Action
import CallProvenance.Proofs.Failures

/-! The failures that the steps of a simulation can have. Each lemma is about any sort of failure, given
that the causes which the step can report are not of this sort. -/
namespace CallProvenance

/-- A sort of failure that neither a short stack nor the kind of a value brings about. -/
structure Inconsistency.SparesOperands (sort : Inconsistency → Bool) : Prop where
  underflow : sort .stackUnderflow = false
  wide (op : StackOp) : sort (.wideOperand op) = false
  kind (expected found : Kind) : sort (.kindMismatch expected found) = false
  unset (slot : Nat) : sort (.uninitializedSlot slot) = false

/-- A sort of failure that a missing slot does not bring about. -/
def Inconsistency.SparesSlots (sort : Inconsistency → Bool) : Prop :=
  ∀ slot count, sort (.slotOutOfRange slot count) = false

namespace Action

/-- The slots of a value stored at `slot`, and the one below, whose pair it may tear. -/
def storeSlots (slot : Nat) (kind : Kind) : List Nat :=
  List.range' (slot - 1) (slot + kind.size - (slot - 1))

def slots : Action → List Nat
  | .load slot kind => List.range' slot kind.size
  | .store slot kind => storeSlots slot kind
  | .increment slot => storeSlots slot .int
  | .subroutineReturn slot => [slot]
  | .keep | .consume _ _ | .shuffle _ => []

theorem mem_storeSlots {slot i : Nat} {kind : Kind} :
    i ∈ storeSlots slot kind ↔ slot ≤ i + 1 ∧ i < slot + kind.size := by
  simp only [storeSlots, List.mem_range'_1]
  omega

theorem mem_loadSlots {slot i : Nat} {kind : Kind} :
    i ∈ (load slot kind).slots ↔ slot ≤ i ∧ i < slot + kind.size :=
  List.mem_range'_1

/-- A value that can be stored takes the slots of the kind that was asked for. -/
theorem size_of_stored {kind : Kind} {value : Value} (same : value.kind = stored kind value.kind) :
    value.size = kind.size := by
  unfold stored at same
  split at same
  · rename_i address
    simp [Value.size, address, Kind.size]
  · simp [Value.size, same]

end Action

namespace Frame

variable {sort : Inconsistency → Bool} (frame : Frame) {slot : Nat}

theorem avoids_get (inside : slot < frame.locals.length ∨ Inconsistency.SparesSlots sort) :
    Avoids sort (frame.get slot) := by
  unfold get
  split
  · exact .ok _
  · rename_i missing
    rcases inside with inside | other
    · simp [inside] at missing
    · exact .error (other _ _)

theorem avoids_set {value : Value} (inside : slot + value.size ≤ frame.locals.length ∨ Inconsistency.SparesSlots sort) :
    Avoids sort (frame.set slot value) := by
  unfold set
  split
  · rcases inside with inside | other
    · omega
    · exact .error (other _ _)
  · exact .ok _

end Frame

section Frames

variable {sort : Inconsistency → Bool} (spares : Inconsistency.SparesOperands sort) (frame : Frame) (index : Nat)
include spares

theorem Value.avoids_expect (value : Value) (kind : Kind) : Avoids sort (value.expect kind) :=
  .ite (.ok _) (.error (spares.kind _ _))

theorem Value.avoids_expectAll (values : List Value) (kinds : List Kind) : Avoids sort (expectAll values kinds) := by
  fun_induction expectAll values kinds with
  | case1 value values kind kinds ih => exact (value.avoids_expect spares kind).bind fun _ _ => ih
  | case2 => exact .ok ()

namespace Frame

theorem avoids_pop : Avoids sort frame.pop := by
  unfold pop
  split
  · exact .error spares.underflow
  · exact .ok _

theorem avoids_apply (operands : List Kind) (result : List Value → Option Value) :
    Avoids sort (frame.apply operands result) := by
  have popped : Avoids sort (frame.popN operands.length) := .ite (.error spares.underflow) (.ok _)
  exact popped.bind fun _ _ => (Value.avoids_expectAll spares _ _).bind fun _ _ => .ok _

end Frame

namespace StackOp

theorem avoids_any (stack : List Value) : Avoids sort (any stack) := by
  cases stack with
  | nil => exact .error spares.underflow
  | cons top rest => exact .ok _

theorem avoids_single (op : StackOp) (stack : List Value) : Avoids sort (op.single stack) :=
  (avoids_any spares stack).bind fun _ _ => .ite (.ok _) (.error (spares.wide op))

theorem avoids_apply (op : StackOp) (stack : List Value) : Avoids sort (op.apply stack) := by
  have any := avoids_any spares
  have single := avoids_single spares
  cases op with
  | pop | dup => exact (single _ stack).bind fun _ _ => .ok _
  | dupX1 | swap => exact (single _ stack).bind fun _ _ => (single _ _).bind fun _ _ => .ok _
  | pop2 | dup2 => exact (any stack).bind fun _ _ => .ite ((single _ _).bind fun _ _ => .ok _) (.ok _)
  | dupX2 =>
    refine (single _ stack).bind fun top _ => (any _).bind fun second _ => ?_
    exact .ite ((single _ _).bind fun _ _ => .ok _) (.ok _)
  | dup2X1 =>
    refine (any stack).bind fun top _ => (single _ _).bind fun second _ => ?_
    exact .ite ((single _ _).bind fun _ _ => .ok _) (.ok _)
  | dup2X2 =>
    refine (any stack).bind fun top _ => .ite ?_ ?_
    · refine (single _ _).bind fun second _ => (any _).bind fun third _ => ?_
      exact .ite ((single _ _).bind fun _ _ => .ok _) (.ok _)
    · refine (any _).bind fun second _ => ?_
      exact .ite ((single _ _).bind fun _ _ => .ok _) (.ok _)

end StackOp

/-- Once an instruction is known to be some action, only the frame can be at fault. -/
theorem Action.avoids_perform (action : Action)
    (inside : (∀ i ∈ action.slots, i < frame.locals.length) ∨ Inconsistency.SparesSlots sort) :
    Avoids sort (action.perform index frame) := by
  have expect := fun value kind => Value.avoids_expect spares value kind
  cases action with
  | keep => exact .ok frame
  | consume operands yield => exact frame.avoids_apply spares operands fun values => yield.value index values
  | load slot kind =>
    have positive := kind.size_pos
    have here : slot ∈ (load slot kind).slots := mem_loadSlots.2 (by omega)
    refine (frame.avoids_get (inside.imp_left fun inside => inside slot here)).bind fun value _ => ?_
    exact .ite (.error (spares.unset slot)) ((expect value kind).bind fun _ _ => .ok _)
  | store slot kind =>
    refine (frame.avoids_pop spares).bind fun popped taken => (expect _ _).bind fun _ fits => ?_
    obtain ⟨value, below, -, rfl⟩ := Frame.pop_eq_ok.1 taken
    have size : value.size = kind.size := size_of_stored (Value.expect_eq_ok.1 fits)
    have positive := kind.size_pos
    have last : slot + kind.size - 1 ∈ (store slot kind).slots := mem_storeSlots.2 (by omega)
    have inside : slot + value.size ≤ frame.locals.length ∨ Inconsistency.SparesSlots sort := by
      refine inside.imp_left fun inside => ?_
      have := inside _ last
      omega
    exact Frame.avoids_set _ inside
  | increment slot =>
    have here : slot ∈ (increment slot).slots := mem_storeSlots.2 (by simp [Kind.size])
    have inside := inside.imp_left fun inside => inside slot here
    exact (frame.avoids_get inside).bind fun value _ => (expect value _).bind fun _ _ => frame.avoids_set inside
  | shuffle op => exact (op.avoids_apply spares frame.stack).bind fun _ _ => .ok _
  | subroutineReturn slot =>
    have inside := inside.imp_left fun inside => inside slot (List.mem_singleton.2 rfl)
    exact (frame.avoids_get inside).bind fun value _ => (expect value _).bind fun _ _ => .ok _

end Frames

section Decoding

variable {sort : Inconsistency → Bool} {instruction : Instruction}

theorem Descriptor.avoids_operands {descriptor : String} (other : ∀ cause, sort (.invalidDescriptor descriptor cause) = false) :
    Avoids sort (operands descriptor) :=
  .mapError other

theorem Descriptor.avoids_result {descriptor : String} (other : ∀ cause, sort (.invalidDescriptor descriptor cause) = false) :
    Avoids sort (result descriptor) :=
  .mapError other

/-- Taking an operand apart can only find that it is another one. -/
theorem Instruction.avoids_operand (other : sort instruction.malformed = false) :
    Avoids sort instruction.constant ∧ Avoids sort instruction.slot ∧ Avoids sort instruction.incremented ∧
      Avoids sort instruction.site ∧ Avoids sort instruction.dynamicSite ∧ Avoids sort instruction.dimensions := by
  unfold constant slot incremented site dynamicSite dimensions
  refine ⟨?_, ?_, ?_, ?_, ?_, ?_⟩
  all_goals
    split
    · exact .ok _
    · exact .error other

theorem Instruction.avoids_action (unsupported : sort (.unsupportedOpcode instruction.opcode) = false)
    (malformed : sort instruction.malformed = false)
    (descriptors : ∀ descriptor cause, sort (.invalidDescriptor descriptor cause) = false) :
    Avoids sort instruction.action := by
  obtain ⟨constant, slot, incremented, site, dynamicSite, dimensions⟩ := avoids_operand malformed
  have field : Avoids sort instruction.fieldKind := by
    unfold fieldKind
    split
    · exact .mapError (descriptors _)
    · exact .error malformed
  unfold Instruction.action
  cases instruction.effect? with
  | none => exact .error unsupported
  | some effect =>
    cases effect with
    | constant => exact constant.bind fun _ _ => .ok _
    | load | store | subroutineReturn => exact slot.bind fun _ _ => .ok _
    | increment => exact incremented.bind fun _ _ => .ok _
    | getStatic | putStatic | getField | putField => exact field.bind fun _ _ => .ok _
    | invoke =>
      refine site.bind fun site _ => (Descriptor.avoids_operands (descriptors _)).bind fun _ _ => ?_
      exact (Descriptor.avoids_result (descriptors _)).bind fun _ _ => .ok _
    | invokeDynamic =>
      refine dynamicSite.bind fun site _ => (Descriptor.avoids_operands (descriptors _)).bind fun _ _ => ?_
      exact (Descriptor.avoids_result (descriptors _)).bind fun _ _ => .ok _
    | newMultiArray => exact dimensions.bind fun _ _ => .ok _
    | leave value => cases value <;> exact .ok _
    | _ => exact .ok _

end Decoding

namespace FlowGraph

variable {sort : Inconsistency → Bool} {graph : FlowGraph} {point : Nat} {instruction : Instruction}

theorem avoids_positionAt (positions : List (Nat × Nat)) {offset : Nat} (other : sort (.invalidTarget offset) = false) :
    Avoids sort (positionAt positions offset) := by
  unfold positionAt
  split
  · exact .ok _
  · exact .error other

theorem avoids_next (graph : FlowGraph) (point : Nat) (other : sort .fallOffEnd = false) :
    Avoids sort (graph.next point) :=
  .ite (.ok _) (.error other)

theorem avoids_successors (targets : ∀ offset, sort (.invalidTarget offset) = false) (fall : sort .fallOffEnd = false)
    (malformed : sort instruction.malformed = false) : Avoids sort (graph.successors point instruction) := by
  have target : ∀ offset, Avoids sort (graph.target offset) := fun offset => avoids_positionAt _ (targets offset)
  have next := graph.avoids_next point fall
  have jump : Avoids sort (graph.jumpTarget instruction) := by
    unfold jumpTarget
    split
    · exact target _
    · exact .error malformed
  unfold successors
  cases Opcode.control instruction.opcode with
  | next => exact next.bind fun _ _ => .ok _
  | halt | subroutineReturn => exact .ok _
  | jump | subroutine => exact jump.bind fun _ _ => .ok _
  | branch => exact next.bind fun _ _ => jump.bind fun _ _ => .ok _
  | switch =>
    simp only
    split
    · exact .mapM fun offset _ => target offset
    · exact .error malformed

theorem avoids_ofMethod (method : Method) (targets : ∀ offset, sort (.invalidTarget offset) = false) :
    Avoids sort (ofMethod method) := by
  have resolved : ∀ range ∈ method.handlers, Avoids sort (protection (positionsOf method) range) := by
    intro range _
    refine .ite (.error (targets _)) ((avoids_positionAt _ (targets _)).bind fun entry _ => ?_)
    simp only
    split <;> exact .ok _
  exact (Avoids.mapM resolved).bind fun _ _ => .ok _

end FlowGraph
end CallProvenance
