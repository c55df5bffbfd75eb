import CallProvenance.Instruction
import CallProvenance.StackOp

/-! The instruction set as one table in opcode order: how operands are encoded, what an
instruction does to a frame, and where control goes next. -/
namespace CallProvenance

inductive Format where
  /-- No operand, or operand bytes that carry nothing to analyse. -/
  | bare
  | literal (value : Constant)
  | signedByte
  | signedShort
  | poolByte
  | poolShort
  /-- A slot that the opcode itself names. -/
  | fixedSlot (slot : Nat)
  | slotByte
  | increment
  | branch
  | farBranch
  | tableSwitch
  | lookupSwitch
  | field (access : FieldAccess)
  | invoke (kind : CallKind)
  | invokeDynamic
  | dimensions
  | wide
  deriving DecidableEq, Repr

/-- How long an instruction is: as long as its opcode says, or as the bytes behind the opcode say. -/
inductive Extent where
  | fixed (count : Nat)
  | tableSwitch
  | lookupSwitch
  | wide
  deriving DecidableEq, Repr

inductive Effect where
  | noop
  | push (kind : Kind)
  | constant
  | load (kind : Kind)
  | store (kind : Kind)
  | increment
  | shuffle (op : StackOp)
  | unary (operand : Kind) (result : Option Kind)
  | binary (left right : Kind) (result : Option Kind)
  | arrayStore (element : Kind)
  | getStatic
  | putStatic
  | getField
  | putField
  | invoke
  | invokeDynamic
  | checkCast
  | newMultiArray
  | leave (value : Option Kind)
  | raise
  | subroutineReturn
  deriving DecidableEq, Repr

inductive Control where
  | next
  | halt
  | jump
  /-- A jump that remembers the instruction after it. -/
  | subroutine
  | branch
  | switch
  | subroutineReturn
  deriving DecidableEq, Repr

/-- One row of the instruction set. The wide form has no effect of its own: it stands in
front of another opcode. -/
structure OpcodeInfo where
  format : Format
  effect : Option Effect
  control : Control := .next
  deriving DecidableEq, Repr

namespace Opcode

def plain (effect : Effect) : OpcodeInfo := { format := .bare, effect := some effect }

def literal (value : Constant) : OpcodeInfo :=
  { format := .literal value, effect := some .constant }

def encoded (format : Format) (effect : Effect) (control : Control := .next) : OpcodeInfo :=
  { format, effect := some effect, control }

def leaving (value : Option Kind) : OpcodeInfo :=
  { format := .bare, effect := some (.leave value), control := .halt }

/-- The order in which typed loads and stores are numbered. -/
def slotKinds : List Kind := [.int, .long, .float, .double, .reference]

def numericKinds : List Kind := [.int, .long, .float, .double]

/-- The order in which array accesses are numbered; the last three are the small integers. -/
def elementKinds : List Kind :=
  [.int, .long, .float, .double, .reference, .int, .int, .int]

def conversions : List (Kind × Kind) :=
  [(.int, .long), (.int, .float), (.int, .double),
   (.long, .int), (.long, .float), (.long, .double),
   (.float, .int), (.float, .long), (.float, .double),
   (.double, .int), (.double, .long), (.double, .float),
   (.int, .int), (.int, .int), (.int, .int)]

def slotAccess (effect : Kind → Effect) : List OpcodeInfo :=
  slotKinds.map fun kind => encoded .slotByte (effect kind)

def fixedSlotAccess (effect : Kind → Effect) : List OpcodeInfo :=
  slotKinds.flatMap fun kind =>
    (List.range 4).map fun slot => encoded (.fixedSlot slot) (effect kind)

def arithmetic (left right : Kind) : OpcodeInfo := plain (.binary left right (some left))

def comparison (kind : Kind) : OpcodeInfo := plain (.binary kind kind (some .int))

def branchOn (effect : Effect) : OpcodeInfo := encoded .branch effect .branch

/-- Opcodes 00 to 14: constants. -/
def constants : List OpcodeInfo :=
  [plain .noop, plain (.push .reference)] ++
  [-1, 0, 1, 2, 3, 4, 5].map (fun value => literal (.int value)) ++
  [literal (.long 0), literal (.long 1),
   literal (.float 0), literal (.float 0x3f800000), literal (.float 0x40000000),
   literal (.double 0), literal (.double 0x3ff0000000000000),
   encoded .signedByte .constant, encoded .signedShort .constant,
   encoded .poolByte .constant, encoded .poolShort .constant, encoded .poolShort .constant]

/-- Opcodes 15 to 56: locals and array elements. -/
def accesses : List OpcodeInfo :=
  slotAccess .load ++ fixedSlotAccess .load ++
  elementKinds.map (fun element => plain (.binary .reference .int (some element))) ++
  slotAccess .store ++ fixedSlotAccess .store ++
  elementKinds.map (fun element => plain (.arrayStore element))

/-- Opcodes 57 to 5f. -/
def shuffles : List OpcodeInfo :=
  [StackOp.pop, .pop2, .dup, .dupX1, .dupX2, .dup2, .dup2X1, .dup2X2, .swap].map
    fun op => plain (.shuffle op)

/-- Opcodes 60 to 98: arithmetic, conversions and comparisons. -/
def computations : List OpcodeInfo :=
  (List.replicate 5 (numericKinds.map fun kind => arithmetic kind kind)).flatten ++
  numericKinds.map (fun kind => plain (.unary kind (some kind))) ++
  (List.replicate 3 [arithmetic .int .int, arithmetic .long .int]).flatten ++
  (List.replicate 3 [arithmetic .int .int, arithmetic .long .long]).flatten ++
  [encoded .increment .increment] ++
  conversions.map (fun (operand, result) => plain (.unary operand (some result))) ++
  [comparison .long, comparison .float, comparison .float, comparison .double, comparison .double]

/-- Opcodes 99 to b1: branches and exits. -/
def transfers : List OpcodeInfo :=
  List.replicate 6 (branchOn (.unary .int none)) ++
  List.replicate 6 (branchOn (.binary .int .int none)) ++
  List.replicate 2 (branchOn (.binary .reference .reference none)) ++
  [encoded .branch .noop .jump,
   encoded .branch (.push .returnAddress) .subroutine,
   encoded .slotByte .subroutineReturn .subroutineReturn,
   encoded .tableSwitch (.unary .int none) .switch,
   encoded .lookupSwitch (.unary .int none) .switch] ++
  slotKinds.map (fun kind => leaving (some kind)) ++
  [leaving none]

/-- Opcodes b2 to c9: fields, calls, objects and the wide forms. -/
def objects : List OpcodeInfo :=
  [encoded (.field .getStatic) .getStatic, encoded (.field .putStatic) .putStatic,
   encoded (.field .getField) .getField, encoded (.field .putField) .putField,
   encoded (.invoke .virtual) .invoke, encoded (.invoke .special) .invoke,
   encoded (.invoke .static) .invoke, encoded (.invoke .interface) .invoke,
   encoded .invokeDynamic .invokeDynamic,
   plain (.push .reference),
   plain (.unary .int (some .reference)), plain (.unary .int (some .reference)),
   plain (.unary .reference (some .int)),
   { format := .bare, effect := some .raise, control := .halt },
   plain .checkCast, plain (.unary .reference (some .int)),
   plain (.unary .reference none), plain (.unary .reference none),
   { format := .wide, effect := none },
   encoded .dimensions .newMultiArray,
   branchOn (.unary .reference none), branchOn (.unary .reference none),
   encoded .farBranch .noop .jump,
   encoded .farBranch (.push .returnAddress) .subroutine]

/-- All defined opcodes, from 00 to c9. -/
def table : Array OpcodeInfo :=
  (constants ++ accesses ++ shuffles ++ computations ++ transfers ++ objects).toArray

def info? (opcode : UInt8) : Option OpcodeInfo := table[opcode.toNat]?

def effect? (opcode : UInt8) : Option Effect := (info? opcode).bind (·.effect)

def format? (opcode : UInt8) : Option Format := (info? opcode).map (·.format)

/-- The opcode whose wide form is longer than the others. -/
def increment : UInt8 := 0x84

/-- Lengths by ranges of opcodes, each from its first opcode to its last. This is a table of its own: it goes by numbers
and knows nothing of operands. -/
def extents : List (Nat × Nat × Extent) :=
  [(0x00, 0x0f, .fixed 1), (0x10, 0x10, .fixed 2), (0x11, 0x11, .fixed 3), (0x12, 0x12, .fixed 2),
   (0x13, 0x14, .fixed 3), (0x15, 0x19, .fixed 2), (0x1a, 0x35, .fixed 1), (0x36, 0x3a, .fixed 2),
   (0x3b, 0x83, .fixed 1), (0x84, 0x84, .fixed 3), (0x85, 0x98, .fixed 1), (0x99, 0xa8, .fixed 3),
   (0xa9, 0xa9, .fixed 2), (0xaa, 0xaa, .tableSwitch), (0xab, 0xab, .lookupSwitch),
   (0xac, 0xb1, .fixed 1), (0xb2, 0xb8, .fixed 3), (0xb9, 0xba, .fixed 5), (0xbb, 0xbb, .fixed 3),
   (0xbc, 0xbc, .fixed 2), (0xbd, 0xbd, .fixed 3), (0xbe, 0xbf, .fixed 1), (0xc0, 0xc1, .fixed 3),
   (0xc2, 0xc3, .fixed 1), (0xc4, 0xc4, .wide), (0xc5, 0xc5, .fixed 4), (0xc6, 0xc7, .fixed 3),
   (0xc8, 0xc9, .fixed 5)]

def extent? (opcode : UInt8) : Option Extent :=
  (extents.find? fun row => row.1 ≤ opcode.toNat && opcode.toNat ≤ row.2.1).map (·.2.2)

def control (opcode : UInt8) : Control := (info? opcode).elim .next (·.control)

/-- Slots touched by a load or store; one for every other opcode. -/
def slotWidth (opcode : UInt8) : Nat :=
  match effect? opcode with
  | some (.load kind) | some (.store kind) => kind.size
  | _ => 1

def hex (opcode : UInt8) : String :=
  let digits := String.ofList (Nat.toDigits 16 opcode.toNat)
  if opcode < 16 then s!"0{digits}" else digits

end Opcode
end CallProvenance
