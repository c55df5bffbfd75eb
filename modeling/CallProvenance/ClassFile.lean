import CallProvenance.ClassFile.Attribute
import CallProvenance.ModifiedUtf8

/-! The container format of class files. Indices into the constant pool are not checked here. -/
namespace CallProvenance

/-- A field or a method, by pool indices. -/
structure MemberInfo where
  access : Nat
  name : Nat
  descriptor : Nat
  attributes : List Attribute
  deriving Repr

structure ClassFile where
  pool : Pool
  thisClass : Nat
  superClass : Nat
  fields : List MemberInfo
  methods : List MemberInfo
  attributes : List Attribute
  deriving Repr

namespace ClassFile

open Reader

def magic : Nat := 0xcafebabe

def poolEntry : Reader PoolEntry := do
  match ← u1 with
  | 1 => return .utf8 (ModifiedUtf8.decode (← block (← u2)))
  | 3 => return .integer (Bytes.signed 32 (← u4))
  | 4 =>
    let bits := (← block 4).number? 0 4
    return .float (UInt32.ofNat (bits.getD 0))
  | 5 => return .long (Bytes.signed 64 (← number 8))
  | 6 =>
    let bits := (← block 8).number? 0 8
    return .double (UInt64.ofNat (bits.getD 0))
  | 7 => return .classRef (← u2)
  | 8 => return .string (← u2)
  | 9 => return .fieldRef (← u2) (← u2)
  | 10 => return .methodRef (← u2) (← u2)
  | 11 => return .interfaceMethodRef (← u2) (← u2)
  | 12 => return .nameAndType (← u2) (← u2)
  | 15 => return .methodHandle (UInt8.ofNat (← u1)) (← u2)
  | 16 => return .methodType (← u2)
  | 17 => return .dynamic (← u2) (← u2)
  | 18 => return .invokeDynamic (← u2) (← u2)
  | 19 => return .module (← u2)
  | 20 => return .package (← u2)
  | tag => throw (.unknownTag tag)

/-- Entries up to `count` in number; a wide constant leaves the entry after it empty. -/
def poolEntries (count : Nat) (pool : Pool) : Nat → Reader Pool
  | 0 => return pool
  | fuel + 1 => do
    if count ≤ pool.size then return pool.extract 0 count
    else
      let entry ← poolEntry
      let pool := pool.push entry
      poolEntries count (if entry.isWide then pool.push .empty else pool) fuel

def constantPool : Reader Pool := do
  let count ← u2
  if count = 0 then return #[] else poolEntries count #[.empty] (count + 1)

def memberInfo (pool : Pool) : Reader MemberInfo := do
  return ⟨← u2, ← u2, ← u2, ← Attribute.all pool⟩

def classFile : Reader ClassFile := do
  if (← u4) ≠ magic then throw .badMagic
  skip u2 2
  let pool ← constantPool
  skip u2 1
  let thisClass ← u2
  let superClass ← u2
  skipTable u2
  let fields ← table (memberInfo pool)
  let methods ← table (memberInfo pool)
  let attributes ← Attribute.all pool
  return { pool, thisClass, superClass, fields, methods, attributes }

/-- Reads a whole class file; no bytes may be left over. -/
def parse (bytes : Bytes) : Except FormatError ClassFile := do
  let (found, position) ← (classFile bytes).run 0
  if position = bytes.size then return found else throw (.trailingBytes bytes.size position)

end ClassFile
end CallProvenance
