import CallProvenance.Descriptor
import CallProvenance.Opcode

/-! What can be wrong with a method body, and how it is reported. -/
namespace CallProvenance

inductive Inconsistency where
  | stackUnderflow
  | wideOperand (op : StackOp)
  | kindMismatch (expected found : Kind)
  | slotOutOfRange (slot count : Nat)
  | uninitializedSlot (slot : Nat)
  | stackHeightMismatch (expected found : Nat)
  | localCountMismatch (expected found : Nat)
  | invalidTarget (offset : Nat)
  | fallOffEnd
  | invalidDescriptor (descriptor : String) (cause : Descriptor.Error)
  | unsupportedOpcode (opcode : UInt8)
  | malformedOperand (opcode : UInt8)
  /-- The frames were still changing when the step budget ran out. -/
  | unsettled
  | located (offset : Nat) (opcode : UInt8) (cause : Inconsistency)
  deriving DecidableEq, Repr

namespace Inconsistency

def message : Inconsistency → String
  | .stackUnderflow => "operand stack underflow"
  | .wideOperand op => s!"{op.mnemonic} applied to a wide value"
  | .kindMismatch expected found => s!"expected {expected.letter} value but found {found.letter}"
  | .slotOutOfRange slot count => s!"local slot {slot} out of range (max_locals={count})"
  | .uninitializedSlot slot => s!"read of uninitialized local slot {slot}"
  | .stackHeightMismatch expected found => s!"stack height mismatch at join: {expected} vs {found}"
  | .localCountMismatch expected found => s!"local count mismatch at join: {expected} vs {found}"
  | .invalidTarget offset => s!"jump to offset {offset} which is not an instruction"
  | .fallOffEnd => "execution falls off the end of the code"
  | .invalidDescriptor descriptor cause => s!"invalid descriptor {descriptor}: {cause.message}"
  | .unsupportedOpcode opcode => s!"unsupported opcode 0x{Opcode.hex opcode}"
  | .malformedOperand opcode => s!"malformed operand for opcode 0x{Opcode.hex opcode}"
  | .unsettled => "frames do not settle"
  | .located offset opcode cause =>
    s!"at offset {offset} (opcode 0x{Opcode.hex opcode}): {cause.message}"

/-- Reports a failure together with the instruction it arose at. -/
def locate (instruction : Instruction) (cause : Inconsistency) : Inconsistency :=
  .located instruction.offset instruction.opcode cause

end Inconsistency
end CallProvenance
