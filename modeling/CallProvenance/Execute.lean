import CallProvenance.Frame.Shuffle
import CallProvenance.Method

/-! The effect of one instruction on a frame. An instruction that loads a literal, reads a field or
creates an object is the source of the value it pushes; every other result has the sources
of the operands it was computed from. -/
namespace CallProvenance

def Value.expect (value : Value) (kind : Kind) : Except Inconsistency Unit :=
  if value.kind = kind then .ok () else .error (.kindMismatch kind value.kind)

/-- Checks a row of values from the left. -/
def Value.expectAll : List Value → List Kind → Except Inconsistency Unit
  | value :: values, kind :: kinds => do
    value.expect kind
    expectAll values kinds
  | _, _ => .ok ()

/-- Consumes operands of the given kinds and pushes what `result` makes of them. -/
def Frame.apply (frame : Frame) (operands : List Kind) (result : List Value → Option Value) :
    Except Inconsistency Frame := do
  let (values, rest) ← frame.popN operands.length
  Value.expectAll values operands
  return (result values).elim rest rest.push

def Value.computed (result : Option Kind) (operands : List Value) : Option Value :=
  result.map fun kind => .derived kind operands

namespace Instruction

def effect? (instruction : Instruction) : Option Effect := Opcode.effect? instruction.opcode

def malformed (instruction : Instruction) : Inconsistency := .malformedOperand instruction.opcode

def constant (instruction : Instruction) : Except Inconsistency Constant :=
  match instruction.operand with
  | .constant value => .ok value
  | _ => .error instruction.malformed

def slot (instruction : Instruction) : Except Inconsistency Nat :=
  match instruction.operand with
  | .slot slot => .ok slot
  | _ => .error instruction.malformed

def incremented (instruction : Instruction) : Except Inconsistency Nat :=
  match instruction.operand with
  | .increment slot => .ok slot
  | _ => .error instruction.malformed

def site (instruction : Instruction) : Except Inconsistency CallSite :=
  match instruction.operand with
  | .invoke site => .ok site
  | _ => .error instruction.malformed

def dynamicSite (instruction : Instruction) : Except Inconsistency DynamicSite :=
  match instruction.operand with
  | .invokeDynamic site => .ok site
  | _ => .error instruction.malformed

def dimensions (instruction : Instruction) : Except Inconsistency Nat :=
  match instruction.operand with
  | .dimensions count => .ok count
  | _ => .error instruction.malformed

def fieldKind (instruction : Instruction) : Except Inconsistency Kind :=
  match instruction.operand with
  | .field ref => (Descriptor.fieldKind ref.descriptor).mapError (.invalidDescriptor ref.descriptor)
  | _ => .error instruction.malformed

end Instruction

def Descriptor.operands (descriptor : String) : Except Inconsistency (List Kind) :=
  (parameterKinds descriptor).mapError (.invalidDescriptor descriptor)

def Descriptor.result (descriptor : String) : Except Inconsistency (Option Kind) :=
  (resultKind descriptor).mapError (.invalidDescriptor descriptor)

namespace Instruction

def execute (instruction : Instruction) (index : Nat) (frame : Frame) :
    Except Inconsistency Frame := do
  match instruction.effect? with
  | none => .error (.unsupportedOpcode instruction.opcode)
  | some .noop => return frame
  | some (.push kind) => return frame.push (.producedBy kind index)
  | some .constant =>
    let value ← instruction.constant
    return frame.push (.producedBy value.kind index)
  | some (.load kind) =>
    let slot ← instruction.slot
    let value ← frame.get slot
    if value.kind = .uninitialized then .error (.uninitializedSlot slot)
    else
      value.expect kind
      return frame.push value
  | some (.store kind) =>
    let slot ← instruction.slot
    let (value, rest) ← frame.pop
    -- A subroutine's return address is stored like a reference.
    let address := kind = .reference ∧ value.kind = .returnAddress
    value.expect (if address then .returnAddress else kind)
    rest.set slot value
  | some .increment =>
    let slot ← instruction.incremented
    let value ← frame.get slot
    value.expect .int
    frame.set slot (.derived .int [value])
  | some (.shuffle op) => frame.shuffle op
  | some (.unary operand result) => frame.apply [operand] (Value.computed result)
  | some (.binary left right result) => frame.apply [left, right] (Value.computed result)
  | some (.arrayStore element) => frame.apply [.reference, .int, element] fun _ => none
  | some .getStatic =>
    let kind ← instruction.fieldKind
    return frame.push (.producedBy kind index)
  | some .putStatic =>
    let kind ← instruction.fieldKind
    frame.apply [kind] fun _ => none
  | some .getField =>
    let kind ← instruction.fieldKind
    frame.apply [.reference] fun _ => some (.producedBy kind index)
  | some .putField =>
    let kind ← instruction.fieldKind
    frame.apply [.reference, kind] fun _ => none
  | some .invoke =>
    let site ← instruction.site
    let parameters ← Descriptor.operands site.descriptor
    let result ← Descriptor.result site.descriptor
    let operands := if site.kind = .static then parameters else .reference :: parameters
    frame.apply operands (Value.computed result)
  | some .invokeDynamic =>
    let site ← instruction.dynamicSite
    let parameters ← Descriptor.operands site.descriptor
    let result ← Descriptor.result site.descriptor
    frame.apply parameters (Value.computed result)
  | some .checkCast =>
    let (value, rest) ← frame.pop
    value.expect .reference
    return rest.push value
  | some .newMultiArray =>
    let count ← instruction.dimensions
    frame.apply (List.replicate count .int) (Value.computed (some .reference))
  | some (.leave none) => return frame
  | some (.leave (some kind)) => frame.apply [kind] fun _ => none
  | some .raise => frame.apply [.reference] fun _ => none
  | some .subroutineReturn =>
    let slot ← instruction.slot
    let value ← frame.get slot
    value.expect .returnAddress
    return frame

/-- The arguments that a dynamic call takes from a frame on which it executes. -/
def dynamicArguments (instruction : Instruction) (frame : Frame) : Option (List Value) :=
  match instruction.effect?, instruction.operand with
  | some .invokeDynamic, .invokeDynamic site =>
    (do frame.peekN (← Descriptor.operands site.descriptor).length).toOption
  | _, _ => none

end Instruction

/-- The arguments taken by dynamic calls, by instruction position in ascending order. -/
structure DynamicArguments where
  entries : List (Nat × List Value) := []
  deriving Repr

namespace DynamicArguments

/-- A later execution of the same instruction replaces what an earlier one took. -/
def insert (index : Nat) (arguments : List Value) : List (Nat × List Value) → List (Nat × List Value)
  | [] => [(index, arguments)]
  | (i, found) :: rest =>
    if index < i then (index, arguments) :: (i, found) :: rest
    else if index = i then (index, arguments) :: rest
    else (i, found) :: insert index arguments rest

def find? (recorded : DynamicArguments) (index : Nat) : Option (List Value) :=
  recorded.entries.lookup index

/-- Notes what the instruction takes from the frame, if it is a dynamic call. -/
def note (recorded : DynamicArguments) (instruction : Instruction) (index : Nat) (frame : Frame) :
    DynamicArguments :=
  match instruction.dynamicArguments frame with
  | some arguments => ⟨insert index arguments recorded.entries⟩
  | none => recorded

end DynamicArguments
end CallProvenance
