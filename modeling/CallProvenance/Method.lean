import CallProvenance.Instruction

/-! Decoded classes, their fields and their methods. -/
namespace CallProvenance

structure LineMarker where
  start : Nat
  line : Nat
  deriving DecidableEq, Repr

/-- A protected range and the code that handles what is thrown in it. -/
structure HandlerRange where
  start : Nat
  stop : Nat
  handler : Nat
  deriving DecidableEq, Repr

def HandlerRange.covers (range : HandlerRange) (offset : Nat) : Bool := range.start ≤ offset && offset < range.stop

structure LocalVariable where
  start : Nat
  length : Nat
  name : String
  descriptor : String
  slot : Nat
  deriving DecidableEq, Repr

/-- Code offsets are 32-bit words. -/
def maxOffset : Nat := 1 <<< 32 - 1

/-- The variable is live at the offset; the end of its range saturates. -/
def LocalVariable.covers (entry : LocalVariable) (offset : Nat) : Bool :=
  entry.start ≤ offset && offset < min (entry.start + entry.length) maxOffset

structure Method where
  name : String
  descriptor : String
  isStatic : Bool := false
  isAbstract : Bool := false
  maxLocals : Nat := 0
  code : List Instruction := []
  lines : List LineMarker := []
  handlers : List HandlerRange := []
  localVariables : List LocalVariable := []
  /-- Declared parameter names, by parameter position. -/
  parameterNames : List (Option String) := []
  deriving Repr

structure Field where
  name : String
  descriptor : String
  initial : Option Constant := none
  deriving DecidableEq, Repr

structure ClassDef where
  name : String
  superName : Option String := none
  fields : List Field := []
  methods : List Method := []
  /-- The artifact that the class was read from. -/
  source : String
  deriving Repr

end CallProvenance
