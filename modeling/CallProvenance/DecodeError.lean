import CallProvenance.ClassFile.Reader
import CallProvenance.Opcode

/-! Why bytes are not a class, and where in the class the fault lies. -/
namespace CallProvenance

inductive DecodeStep where
  | className
  | superName
  | fields (className : String)
  | fieldName
  | fieldDescriptor
  | fieldDefault (name : String)
  | methods (className : String)
  | methodName
  | methodDescriptor
  | code (method : String)
  | debugTables (method : String)
  | parameterNames (method : String)
  | variableName
  | variableDescriptor
  | instruction (offset : Nat)
  | owner
  | methodRef
  | dynamicSite
  deriving DecidableEq, Repr

def DecodeStep.message : DecodeStep → String
  | .className => "resolve class name"
  | .superName => "resolve super class name"
  | .fields name => s!"decode fields of {name}"
  | .fieldName => "resolve field name"
  | .fieldDescriptor => "resolve field descriptor"
  | .fieldDefault name => s!"resolve default of field {name}"
  | .methods name => s!"decode methods of {name}"
  | .methodName => "resolve method name"
  | .methodDescriptor => "resolve method descriptor"
  | .code method => s!"decode code of {method}"
  | .debugTables method => s!"decode debug tables of {method}"
  | .parameterNames method => s!"resolve parameter names of {method}"
  | .variableName => "resolve local name"
  | .variableDescriptor => "resolve local descriptor"
  | .instruction offset => s!"decode instruction at offset {offset}"
  | .owner => "resolve owner"
  | .methodRef => "resolve method ref"
  | .dynamicSite => "resolve invokedynamic"

inductive DecodeError where
  | format (cause : FormatError)
  | missingEntry (index : Nat)
  | notUtf8 (index : Nat)
  | notClass (index : Nat)
  | notNameAndType (index : Nat)
  | notMember (index : Nat)
  | notMethodHandle (index : Nat)
  | notLoadable (index : Nat)
  | notInvokeDynamic (index : Nat)
  | missingBootstrap (index : Nat)
  | invalidLength (offset : Nat)
  | byteOutOfBounds
  | shortOutOfBounds
  | wordOutOfBounds
  | branchOutside (offset : Nat)
  | tableRange
  | lookupPairs
  | missingWideOpcode
  | unsupportedOpcode (opcode : UInt8)
  | within (step : DecodeStep) (cause : DecodeError)
  deriving DecidableEq, Repr

namespace DecodeError

def message : DecodeError → String
  | .format cause => s!"failed to parse class file bytes: {cause.message}"
  | .missingEntry index => s!"missing constant pool entry #{index}"
  | .notUtf8 index => s!"constant pool entry #{index} is not utf8"
  | .notClass index => s!"constant pool entry #{index} is not a class"
  | .notNameAndType index => s!"constant pool entry #{index} is not a name and type"
  | .notMember index => s!"constant pool entry #{index} is not a member reference"
  | .notMethodHandle index => s!"constant pool entry #{index} is not a method handle"
  | .notLoadable index => s!"constant pool entry #{index} is not a loadable constant"
  | .notInvokeDynamic index => s!"constant pool entry #{index} is not an invokedynamic"
  | .missingBootstrap index => s!"missing bootstrap method {index}"
  | .invalidLength offset => s!"invalid bytecode length at offset {offset}"
  | .byteOutOfBounds => "operand out of bounds"
  | .shortOutOfBounds => "bytecode u16 out of bounds"
  | .wordOutOfBounds => "bytecode i32 out of bounds"
  | .branchOutside offset => s!"branch at {offset} jumps outside the code"
  | .tableRange => "invalid tableswitch range"
  | .lookupPairs => "invalid lookupswitch pairs"
  | .missingWideOpcode => "missing wide opcode"
  | .unsupportedOpcode opcode => s!"unsupported opcode 0x{Opcode.hex opcode}"
  | .within step cause => s!"{step.message}: {cause.message}"

end DecodeError

/-- Says what was being decoded when something failed. -/
def DecodeStep.run {α : Type} (step : DecodeStep) (result : Except DecodeError α) :
    Except DecodeError α :=
  result.mapError (.within step)

end CallProvenance
