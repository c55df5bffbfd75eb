import CallProvenance.Proofs.LinearSweep
import CallProvenance.Proofs.StepFailures

/-! The operands that decoding gives to instructions and the operands that the simulation asks for.
Decoding goes by the format of an opcode, the simulation by its effect and its control flow; the
rows of the instruction set make the two agree. Only the wide form lets code put an operand to
an opcode that does not take it. -/
namespace CallProvenance

/-- What sort of operand it is, whatever it holds. -/
inductive Operand.Shape where
  | none
  | constant
  | slot
  | increment
  | jump
  | switch
  | field
  | invoke
  | invokeDynamic
  | dimensions
  deriving DecidableEq, Repr

def Operand.shape : Operand → Shape
  | .none => .none
  | .constant _ => .constant
  | .slot _ => .slot
  | .increment _ => .increment
  | .jump _ => .jump
  | .switch _ _ => .switch
  | .field _ => .field
  | .invoke _ => .invoke
  | .invokeDynamic _ => .invokeDynamic
  | .dimensions _ => .dimensions

/-- The operands that a format encodes; the wide form leaves that to the opcode behind it. -/
def Format.operand? : Format → Option Operand.Shape
  | .bare => some .none
  | .literal _ | .signedByte | .signedShort | .poolByte | .poolShort => some .constant
  | .fixedSlot _ | .slotByte => some .slot
  | .increment => some .increment
  | .branch | .farBranch => some .jump
  | .tableSwitch | .lookupSwitch => some .switch
  | .field _ => some .field
  | .invoke _ => some .invoke
  | .invokeDynamic => some .invokeDynamic
  | .dimensions => some .dimensions
  | .wide => none

/-- The operand that an effect cannot do without. -/
def Effect.operand? : Effect → Option Operand.Shape
  | .constant => some .constant
  | .load _ | .store _ | .subroutineReturn => some .slot
  | .increment => some .increment
  | .getStatic | .putStatic | .getField | .putField => some .field
  | .invoke => some .invoke
  | .invokeDynamic => some .invokeDynamic
  | .newMultiArray => some .dimensions
  | _ => none

def Control.operand? : Control → Option Operand.Shape
  | .jump | .subroutine | .branch => some .jump
  | .switch => some .switch
  | .next | .halt | .subroutineReturn => none

/-- The opcode has an effect, and the effect and the control flow can work with the operand. -/
def OpcodeInfo.Accepts (info : OpcodeInfo) (shape : Operand.Shape) : Prop :=
  (∃ effect ∈ info.effect, ∀ needed ∈ effect.operand?, needed = shape) ∧
    ∀ needed ∈ info.control.operand?, needed = shape

instance (info : OpcodeInfo) (shape : Operand.Shape) : Decidable (info.Accepts shape) :=
  inferInstanceAs (Decidable (_ ∧ _))

def Instruction.WellShaped (instruction : Instruction) : Prop :=
  ∃ info ∈ Opcode.info? instruction.opcode, info.Accepts instruction.operand.shape

instance (instruction : Instruction) : Decidable instruction.WellShaped :=
  inferInstanceAs (Decidable (∃ _ ∈ _, _))

/-- The simulation cannot tell what the instruction does. -/
def Inconsistency.isShapeFault : Inconsistency → Bool
  | .malformedOperand _ | .unsupportedOpcode _ => true
  | _ => false

theorem Inconsistency.isShapeFault_spares : SparesOperands isShapeFault :=
  ⟨rfl, fun _ => rfl, fun _ _ => rfl, fun _ => rfl⟩

namespace Instruction

variable {instruction : Instruction}

theorem WellShaped.action (shaped : instruction.WellShaped) : Avoids Inconsistency.isShapeFault instruction.action := by
  obtain ⟨info, listed, ⟨effect, has, needed⟩, -⟩ := shaped
  have known : instruction.effect? = some effect := by
    rw [effect?, Opcode.effect?, Option.mem_def.1 listed]
    exact has
  obtain ⟨offset, opcode, operand⟩ := instruction
  unfold Instruction.action
  simp only [known]
  cases effect with
  | constant =>
    cases operand with
    | constant value => exact .ok _
    | _ => cases needed _ rfl
  | load | store | subroutineReturn =>
    cases operand with
    | slot slot => exact .ok _
    | _ => cases needed _ rfl
  | increment =>
    cases operand with
    | increment slot => exact .ok _
    | _ => cases needed _ rfl
  | getStatic | putStatic | getField | putField =>
    cases operand with
    | field ref => exact .bind (.mapError fun _ => rfl) fun _ _ => .ok _
    | _ => cases needed _ rfl
  | invoke =>
    cases operand with
    | invoke site =>
      refine .bind (.ok site) fun site _ => (Descriptor.avoids_operands fun _ => rfl).bind fun _ _ => ?_
      exact (Descriptor.avoids_result fun _ => rfl).bind fun _ _ => .ok _
    | _ => cases needed _ rfl
  | invokeDynamic =>
    cases operand with
    | invokeDynamic site =>
      refine .bind (.ok site) fun site _ => (Descriptor.avoids_operands fun _ => rfl).bind fun _ _ => ?_
      exact (Descriptor.avoids_result fun _ => rfl).bind fun _ _ => .ok _
    | _ => cases needed _ rfl
  | newMultiArray =>
    cases operand with
    | dimensions count => exact .ok _
    | _ => cases needed _ rfl
  | leave value => cases value <;> exact .ok _
  | _ => exact .ok _

theorem WellShaped.execute (shaped : instruction.WellShaped) (index : Nat) (frame : Frame) :
    Avoids Inconsistency.isShapeFault (instruction.execute index frame) := by
  rw [execute_eq]
  refine shaped.action.bind fun action _ => ?_
  exact action.avoids_perform Inconsistency.isShapeFault_spares frame index (.inr fun _ _ => rfl)

end Instruction

namespace FlowGraph

variable {instruction : Instruction}

theorem avoids_jumpTarget (graph : FlowGraph) (jumps : instruction.operand.shape = .jump) :
    Avoids Inconsistency.isShapeFault (graph.jumpTarget instruction) := by
  obtain ⟨offset, opcode, operand⟩ := instruction
  cases operand with
  | jump target => exact avoids_positionAt graph.positions rfl
  | _ => cases jumps

end FlowGraph

theorem Instruction.WellShaped.successors {instruction : Instruction} (shaped : instruction.WellShaped)
    (graph : FlowGraph) (point : Nat) :
    Avoids Inconsistency.isShapeFault (graph.successors point instruction) := by
  obtain ⟨info, listed, -, needed⟩ := shaped
  have known : Opcode.control instruction.opcode = info.control := by
    rw [Opcode.control, Option.mem_def.1 listed]
    rfl
  unfold FlowGraph.successors
  rw [known]
  cases flow : info.control with
  | next => exact (graph.avoids_next point rfl).bind fun _ _ => .ok _
  | halt | subroutineReturn => exact .ok _
  | jump | subroutine =>
    rw [flow] at needed
    exact (graph.avoids_jumpTarget (needed _ rfl).symm).bind fun _ _ => .ok _
  | branch =>
    rw [flow] at needed
    refine (graph.avoids_next point rfl).bind fun next _ => ?_
    exact (graph.avoids_jumpTarget (needed _ rfl).symm).bind fun _ _ => .ok _
  | switch =>
    rw [flow] at needed
    obtain ⟨offset, opcode, operand⟩ := instruction
    cases operand with
    | switch fallback targets => exact .mapM fun _ _ => FlowGraph.avoids_positionAt graph.positions rfl
    | _ => cases needed _ rfl

namespace Opcode

/-- The opcode that stands in front of another and widens its operand. -/
def wide : UInt8 := 0xc4

/-- The opcodes that have a wide form: loads and stores of a slot, the return from a subroutine and
the increment. -/
def widenable : List UInt8 :=
  [0x15, 0x16, 0x17, 0x18, 0x19, 0x36, 0x37, 0x38, 0x39, 0x3a, 0xa9, 0x84]

def widened (opcode : UInt8) : Operand.Shape :=
  if format? opcode = some .increment then .increment else .slot

theorem table_accepts : ∀ info ∈ table.toList, ∀ shape ∈ info.format.operand?, info.Accepts shape := by
  decide +kernel

theorem format_eq_wide {opcode : UInt8} (known : format? opcode = some .wide) : opcode = wide := by
  have only : (table.toList.zipIdx.filter (·.1.format = .wide)).map (·.2) = [wide.toNat] := by decide +kernel
  have member : opcode.toNat ∈ (table.toList.zipIdx.filter (·.1.format = .wide)).map (·.2) := by
    obtain ⟨info, listed, format⟩ := Option.map_eq_some_iff.1 known
    simpa [List.mem_zipIdx_iff_getElem?] using ⟨info, listed, format⟩
  rw [only, List.mem_singleton] at member
  exact UInt8.toNat_inj.1 member

theorem widenable_accepts : ∀ opcode ∈ widenable, ∃ info ∈ info? opcode, info.Accepts (widened opcode) := by
  decide +kernel

end Opcode

namespace Bytecode

variable {pool : Pool} {bootstraps : List Nat} {code : Bytes} {offset position : Nat} {opcode : UInt8}
  {operand : Operand} {instructions : List Instruction} {instruction : Instruction}

theorem byte_eq_ok {n : Nat} (read : byte code position = .ok n) : code[position]? = some (UInt8.ofNat n) := by
  unfold byte at read
  split at read
  · rename_i found here
    cases read
    rw [here, UInt8.ofNat_toNat]
  · cases read

/-- The operand goes with the format of the opcode, or the wide form has put it there. Only opcodes that have a length
are defined. -/
theorem instructionAt_shape {count : Nat} (measured : length code offset = .ok count)
    (decoded : instructionAt pool bootstraps code offset = .ok (opcode, operand)) :
    (∃ format ∈ Opcode.format? opcode, format.operand? = some operand.shape) ∨
      code[offset]? = some Opcode.wide ∧ code[offset + 1]? = some opcode ∧
        operand.shape = Opcode.widened opcode := by
  obtain ⟨first, format, read, known, -⟩ := measured_of_length measured
  obtain ⟨first', read', decoded⟩ := except_bind_eq_ok.1 decoded
  obtain rfl : first = first' := Except.ok.inj (read.symm.trans read')
  simp only [known] at decoded
  cases format with
  | bare | literal | fixedSlot =>
    cases decoded
    exact .inl ⟨_, known, rfl⟩
  | signedByte | signedShort | slotByte | increment | dimensions =>
    obtain ⟨n, -, ⟨⟩⟩ := except_bind_eq_ok.1 decoded
    exact .inl ⟨_, known, rfl⟩
  | poolByte | poolShort | branch | farBranch | field | invoke | invokeDynamic =>
    obtain ⟨n, -, decoded⟩ := except_bind_eq_ok.1 decoded
    obtain ⟨found, -, ⟨⟩⟩ := except_bind_eq_ok.1 decoded
    exact .inl ⟨_, known, rfl⟩
  | tableSwitch =>
    obtain ⟨delta, -, decoded⟩ := except_bind_eq_ok.1 decoded
    obtain ⟨fallback, -, decoded⟩ := except_bind_eq_ok.1 decoded
    obtain ⟨low, -, decoded⟩ := except_bind_eq_ok.1 decoded
    obtain ⟨high, -, decoded⟩ := except_bind_eq_ok.1 decoded
    obtain ⟨count, -, decoded⟩ := except_bind_eq_ok.1 decoded
    obtain ⟨targets, -, ⟨⟩⟩ := except_bind_eq_ok.1 decoded
    exact .inl ⟨_, known, rfl⟩
  | lookupSwitch =>
    obtain ⟨delta, -, decoded⟩ := except_bind_eq_ok.1 decoded
    obtain ⟨fallback, -, decoded⟩ := except_bind_eq_ok.1 decoded
    obtain ⟨size, -, decoded⟩ := except_bind_eq_ok.1 decoded
    obtain ⟨count, -, decoded⟩ := except_bind_eq_ok.1 decoded
    obtain ⟨targets, -, ⟨⟩⟩ := except_bind_eq_ok.1 decoded
    exact .inl ⟨_, known, rfl⟩
  | wide =>
    obtain ⟨inner, inner_read, decoded⟩ := except_bind_eq_ok.1 decoded
    obtain ⟨slot, -, decoded⟩ := except_bind_eq_ok.1 decoded
    obtain ⟨rfl, rfl⟩ := Prod.mk.inj (Except.ok.inj decoded)
    refine .inr ⟨?_, byte_eq_ok inner_read, ?_⟩
    · rw [byte_eq_ok read, Opcode.format_eq_wide known]
    · unfold Opcode.widened
      split <;> rfl

/-- A wide form in front of an opcode that has none. -/
def StrayWide (code : Bytes) (offset : Nat) : Prop :=
  code[offset]? = some Opcode.wide ∧ ∃ inner ∈ code[offset + 1]?, inner ∉ Opcode.widenable

theorem wellShaped_or_strayWide {count : Nat} (measured : length code instruction.offset = .ok count)
    (decoded : instruction.DecodedFrom pool bootstraps code) :
    instruction.WellShaped ∨ StrayWide code instruction.offset := by
  rcases instructionAt_shape measured decoded with ⟨format, known, shape⟩ | ⟨wide, inner, shape⟩
  · obtain ⟨info, listed, rfl⟩ := Option.map_eq_some_iff.1 known
    have member : info ∈ Opcode.table.toList := Array.mem_toList_iff.2 (Array.mem_of_getElem? listed)
    exact .inl ⟨info, listed, Opcode.table_accepts info member _ shape⟩
  · by_cases taken : instruction.opcode ∈ Opcode.widenable
    · obtain ⟨info, listed, accepts⟩ := Opcode.widenable_accepts _ taken
      exact .inl ⟨info, listed, shape ▸ accepts⟩
    · exact .inr ⟨wide, _, inner, taken⟩

/-- Decoding and simulation agree on operands: an instruction of accepted code that the simulation cannot
make sense of was written with a stray wide form. -/
theorem decode_wellShaped (accepted : decode pool bootstraps code = .ok instructions)
    (member : instruction ∈ instructions) :
    (∀ index frame cause, instruction.execute index frame = .error cause → cause.isShapeFault = true →
      StrayWide code instruction.offset) ∧
    (∀ (graph : FlowGraph) point cause, graph.successors point instruction = .error cause →
      cause.isShapeFault = true → StrayWide code instruction.offset) ∧
    (¬StrayWide code instruction.offset → instruction.WellShaped) := by
  obtain ⟨tiles, decoded⟩ := decode_eq_ok_iff.1 accepted
  obtain ⟨count, measured⟩ := tiles.measured member
  have shaped := wellShaped_or_strayWide measured (decoded instruction member)
  refine ⟨?_, ?_, shaped.resolve_right⟩
  · intro index frame cause failed fault
    refine shaped.resolve_left fun shaped => ?_
    rw [shaped.execute index frame cause failed] at fault
    cases fault
  · intro graph point cause failed fault
    refine shaped.resolve_left fun shaped => ?_
    rw [shaped.successors graph point cause failed] at fault
    cases fault

/-- A widened increment, and a jump that is widened like it. -/
def wideJump : Bytes := #[0xc4, 0x84, 0, 1, 0, 5, 0xc4, 0xa7, 0, 0]

theorem decode_wellShaped_wideJump :
    let increment : Instruction := ⟨0, 0x84, .increment 1⟩
    let jump : Instruction := ⟨6, 0xa7, .slot 0⟩
    let graph : FlowGraph := ⟨{ name := "count", descriptor := "()V", code := [increment, jump] }, [(6, 1), (0, 0)], []⟩
    decode #[] [] wideJump = .ok [increment, jump] ∧ increment.WellShaped ∧
      graph.successors 1 jump = .error (.malformedOperand 0xa7) ∧ StrayWide wideJump 6 := by
  intro increment jump graph
  have accepted : decode #[] [] wideJump = .ok [increment, jump] := by decide +kernel
  have failed : graph.successors 1 jump = .error (.malformedOperand 0xa7) := by decide +kernel
  have proper : ¬StrayWide wideJump 0 := by
    rintro ⟨-, inner, ⟨⟩, stray⟩
    exact stray (by decide)
  refine ⟨accepted, ?_, failed, ?_⟩
  · exact (decode_wellShaped accepted (by decide)).2.2 proper
  · exact (decode_wellShaped accepted (by decide)).2.1 graph 1 _ failed rfl

end Bytecode
end CallProvenance
