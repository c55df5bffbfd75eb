import CallProvenance.DecodeError

/-! Decoding of method code. Instructions follow each other without gaps; an instruction is decoded
from its own bytes, its offset and the constant pool. -/
namespace CallProvenance

namespace Pool

def entry (pool : Pool) (index : Nat) : Except DecodeError PoolEntry :=
  match pool[index]? with
  | some entry => .ok entry
  | none => .error (.missingEntry index)

def text (pool : Pool) (index : Nat) : Except DecodeError String := do
  match ← pool.entry index with
  | .utf8 text => return text
  | _ => throw (.notUtf8 index)

def className (pool : Pool) (index : Nat) : Except DecodeError String := do
  match ← pool.entry index with
  | .classRef name => pool.text name
  | _ => throw (.notClass index)

def nameAndType (pool : Pool) (index : Nat) : Except DecodeError (String × String) := do
  match ← pool.entry index with
  | .nameAndType name descriptor => return (← pool.text name, ← pool.text descriptor)
  | _ => throw (.notNameAndType index)

def member (pool : Pool) (index : Nat) : Except DecodeError (String × String × String) := do
  match ← pool.entry index with
  | .fieldRef owner signature | .methodRef owner signature | .interfaceMethodRef owner signature =>
    let owner ← DecodeStep.owner.run (pool.className owner)
    return (owner, ← pool.nameAndType signature)
  | _ => throw (.notMember index)

def methodHandle (pool : Pool) (index : Nat) : Except DecodeError MethodHandle := do
  match ← pool.entry index with
  | .methodHandle kind reference =>
    let (owner, name, descriptor) ← pool.member reference
    return { kind, owner, name, descriptor }
  | _ => throw (.notMethodHandle index)

/-- A constant that code can load and a field can start with. -/
def constant (pool : Pool) (index : Nat) : Except DecodeError Constant := do
  match ← pool.entry index with
  | .integer value => return .int value
  | .float bits => return .float bits
  | .long value => return .long value
  | .double bits => return .double bits
  | .string text => return .string (← pool.text text)
  | .classRef name => return .classRef (← pool.text name)
  | .methodType descriptor => return .methodType (← pool.text descriptor)
  | .methodHandle _ _ => return .methodHandle (← pool.methodHandle index)
  | _ => throw (.notLoadable index)

/-- A dynamic call site, given the method handles of the bootstrap methods. -/
def dynamicSite (pool : Pool) (bootstraps : List Nat) (index : Nat) :
    Except DecodeError DynamicSite := do
  match ← pool.entry index with
  | .invokeDynamic bootstrap signature =>
    let (name, descriptor) ← pool.nameAndType signature
    match bootstraps[bootstrap]? with
    | some handle => return { name, descriptor, bootstrap := ← pool.methodHandle handle }
    | none => throw (.missingBootstrap bootstrap)
  | _ => throw (.notInvokeDynamic index)

end Pool

namespace Bytecode

def byte (code : Bytes) (position : Nat) : Except DecodeError Nat :=
  match code[position]? with
  | some byte => .ok byte.toNat
  | none => .error .byteOutOfBounds

def short (code : Bytes) (position : Nat) : Except DecodeError Nat :=
  match code.number? position 2 with
  | some n => .ok n
  | none => .error .shortOutOfBounds

def word (code : Bytes) (position : Nat) : Except DecodeError Int :=
  match code.number? position 4 with
  | some n => .ok (Bytes.signed 32 n)
  | none => .error .wordOutOfBounds

/-- Bytes between a switch opcode and its operands, which start at a multiple of four. -/
def padding (offset : Nat) : Nat := (4 - (offset + 1) % 4) % 4

def switchBase (offset : Nat) : Nat := offset + 1 + padding offset

/-- The value, unless it overflows a signed word. -/
def word? (value : Int) : Option Int :=
  if -(1 <<< 31 : Nat) ≤ value ∧ value < (1 <<< 31 : Nat) then some value else none

/-- The entries of a jump table from `low` to `high`, counted in signed words: neither the difference nor the count
may overflow. -/
def wordTableCount (low high : Int) : Except DecodeError Nat :=
  match (word? (high - low)).bind fun difference => word? (difference + 1) with
  | none => .error .tableRange
  | some count => if count < 0 then .error .tableRange else .ok count.toNat

/-- The entries of a jump table, counted in integers that are wide enough. -/
def tableCount (low high : Int) : Except DecodeError Nat :=
  let count := high - low + 1
  if 0 ≤ count then .ok count.toNat else .error .tableRange

def pairCount (count : Int) : Except DecodeError Nat :=
  if 0 ≤ count then .ok count.toNat else .error .lookupPairs

def length (code : Bytes) (offset : Nat) : Except DecodeError Nat := do
  let opcode := UInt8.ofNat (← byte code offset)
  match Opcode.extent? opcode with
  | none => throw (.unsupportedOpcode opcode)
  | some (.fixed count) => return count
  | some .wide =>
    match code[offset + 1]? with
    | none => throw .missingWideOpcode
    | some inner => return if inner = Opcode.increment then 6 else 4
  | some .tableSwitch =>
    let low ← word code (switchBase offset + 4)
    let high ← word code (switchBase offset + 8)
    return 1 + padding offset + 12 + 4 * (← wordTableCount low high)
  | some .lookupSwitch =>
    let pairs ← pairCount (← word code (switchBase offset + 4))
    return 1 + padding offset + 8 + 8 * pairs

/-- The absolute target of a branch, which must be a 32-bit offset. -/
def branchTarget (offset : Nat) (delta : Int) : Except DecodeError Nat :=
  let target := offset + delta
  if 0 ≤ target ∧ target < (1 <<< 32 : Nat) then .ok target.toNat else .error (.branchOutside offset)

/-- The targets of a switch, `count` words that stand `stride` bytes apart. -/
def switchTargets (code : Bytes) (offset first stride count : Nat) :
    Except DecodeError (List Nat) :=
  (List.range count).mapM fun k => do branchTarget offset (← word code (first + stride * k))

/-- The opcode and operand of the instruction at an offset. A wide form is given as the
instruction that it widens, and an opcode that is not defined passes as one without operand. -/
def instructionAt (pool : Pool) (bootstraps : List Nat) (code : Bytes) (offset : Nat) :
    Except DecodeError (UInt8 × Operand) := do
  let opcode := UInt8.ofNat (← byte code offset)
  match Opcode.format? opcode with
  | none => return (opcode, .none)
  | some format =>
    match format with
    | .bare => return (opcode, .none)
    | .literal value => return (opcode, .constant value)
    | .signedByte => return (opcode, .constant (.int (Bytes.signed 8 (← byte code (offset + 1)))))
    | .signedShort => return (opcode, .constant (.int (Bytes.signed 16 (← short code (offset + 1)))))
    | .poolByte => return (opcode, .constant (← pool.constant (← byte code (offset + 1))))
    | .poolShort => return (opcode, .constant (← pool.constant (← short code (offset + 1))))
    | .fixedSlot slot => return (opcode, .slot slot)
    | .slotByte => return (opcode, .slot (← byte code (offset + 1)))
    | .increment => return (opcode, .increment (← byte code (offset + 1)))
    | .wide =>
      let inner := UInt8.ofNat (← byte code (offset + 1))
      let slot ← short code (offset + 2)
      let operand := if Opcode.format? inner = some .increment then .increment slot else .slot slot
      return (inner, operand)
    | .branch =>
      let delta := Bytes.signed 16 (← short code (offset + 1))
      return (opcode, .jump (← branchTarget offset delta))
    | .farBranch => return (opcode, .jump (← branchTarget offset (← word code (offset + 1))))
    | .tableSwitch =>
      let base := switchBase offset
      let fallback ← branchTarget offset (← word code base)
      let low ← word code (base + 4)
      let count ← tableCount low (← word code (base + 8))
      return (opcode, .switch fallback (← switchTargets code offset (base + 12) 4 count))
    | .lookupSwitch =>
      let base := switchBase offset
      let fallback ← branchTarget offset (← word code base)
      let count ← pairCount (← word code (base + 4))
      return (opcode, .switch fallback (← switchTargets code offset (base + 12) 8 count))
    | .field access =>
      let (owner, name, descriptor) ← pool.member (← short code (offset + 1))
      return (opcode, .field { owner, name, descriptor, access })
    | .invoke kind =>
      let index ← short code (offset + 1)
      let (owner, name, descriptor) ← DecodeStep.methodRef.run (pool.member index)
      return (opcode, .invoke { owner, name, descriptor, kind })
    | .invokeDynamic =>
      let index ← short code (offset + 1)
      return (opcode, .invokeDynamic (← DecodeStep.dynamicSite.run (pool.dynamicSite bootstraps index)))
    | .dimensions => return (opcode, .dimensions (← byte code (offset + 3)))

/-- Decodes from an offset to the end, after the instructions given in reverse. The code of a class file is shorter than
2³² bytes, so offsets fit into the 32 bits that are kept of them. -/
def decodeFrom (pool : Pool) (bootstraps : List Nat) (code : Bytes) (offset : Nat)
    (reversed : List Instruction) : Except DecodeError (List Instruction) :=
  if offset < code.size then
    match length code offset with
    | .error cause => .error cause
    | .ok count =>
      if count = 0 ∨ code.size < offset + count then .error (.invalidLength offset)
      else
        match (DecodeStep.instruction offset).run (instructionAt pool bootstraps code offset) with
        | .error cause => .error cause
        | .ok (opcode, operand) =>
          decodeFrom pool bootstraps code (offset + count) (⟨offset, opcode, operand⟩ :: reversed)
  else .ok reversed.reverse
  termination_by code.size - offset
  decreasing_by omega

def decode (pool : Pool) (bootstraps : List Nat) (code : Bytes) :
    Except DecodeError (List Instruction) :=
  decodeFrom pool bootstraps code 0 []

end Bytecode
end CallProvenance
