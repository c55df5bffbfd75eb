import CallProvenance.Constant

/-! Instructions with their operands resolved against the constant pool. An operand's shape is
independent of the opcode, so an instruction can be malformed. -/
namespace CallProvenance

inductive FieldAccess where
  | getStatic
  | putStatic
  | getField
  | putField
  deriving DecidableEq, Repr

def FieldAccess.isRead : FieldAccess → Bool
  | .getStatic | .getField => true
  | .putStatic | .putField => false

structure FieldRef where
  owner : String
  name : String
  descriptor : String
  access : FieldAccess
  deriving DecidableEq, Repr

inductive CallKind where
  | virtual
  | interface
  | special
  | static
  | dynamic
  deriving DecidableEq, Repr

structure CallSite where
  owner : String
  name : String
  descriptor : String
  kind : CallKind
  deriving DecidableEq, Repr

/-- A call site linked at run time by its bootstrap method. -/
structure DynamicSite where
  name : String
  descriptor : String
  bootstrap : MethodHandle
  deriving DecidableEq, Repr

inductive Operand where
  /-- No operand, or one that carries nothing to analyse. -/
  | none
  | constant (value : Constant)
  | slot (slot : Nat)
  | increment (slot : Nat)
  | jump (target : Nat)
  | switch (fallback : Nat) (targets : List Nat)
  | field (ref : FieldRef)
  | invoke (site : CallSite)
  | invokeDynamic (site : DynamicSite)
  /-- Number of array lengths taken from the stack. -/
  | dimensions (count : Nat)
  deriving DecidableEq, Repr

structure Instruction where
  offset : Nat
  opcode : UInt8
  operand : Operand
  deriving DecidableEq, Repr

end CallProvenance
