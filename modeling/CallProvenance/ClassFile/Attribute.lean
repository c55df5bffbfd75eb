import CallProvenance.ClassFile.Reader

/-! Attributes of classes, fields, methods and code. The body of an attribute is read by its own
structure; its stated length is checked only where a block of that length is wanted. Attributes
that say nothing about code or fields are read past. -/
namespace CallProvenance

/-- A row of a local variable table, by pool indices. -/
structure VariableRow where
  start : Nat
  length : Nat
  name : Nat
  descriptor : Nat
  slot : Nat
  deriving DecidableEq, Repr

structure HandlerRow where
  start : Nat
  stop : Nat
  handler : Nat
  deriving DecidableEq, Repr

inductive Attribute where
  | constantValue (index : Nat)
  | code (maxLocals : Nat) (code : Bytes) (handlers : List HandlerRow) (attributes : List Attribute)
  /-- Start offset and line. -/
  | lineNumbers (rows : List (Nat × Nat))
  | localVariables (rows : List VariableRow)
  /-- The method handles of the bootstrap methods. -/
  | bootstrapMethods (handles : List Nat)
  /-- The name indices of the parameters; zero for none. -/
  | methodParameters (names : List Nat)
  | ignored
  deriving Repr

namespace Attribute

open Reader

mutual

/-- An annotation; `depth` bounds the nesting. -/
def annotationBody : Nat → Reader Unit
  | 0 => throw .nestedTooDeep
  | depth + 1 => do
    skip u2 1
    skipTable (do skip u2 1; element depth)

def element : Nat → Reader Unit
  | 0 => throw .nestedTooDeep
  | depth + 1 => do
    let tag ← u1
    match Char.ofNat tag with
    | 'B' | 'C' | 'D' | 'F' | 'I' | 'J' | 'S' | 'Z' | 's' | 'c' => skip u2 1
    | 'e' => skip u2 2
    | '@' => annotationBody depth
    | '[' => skipTable (element depth)
    | _ => throw (.unknownElement tag)

end

def typeAnnotationBody (depth : Nat) : Reader Unit := do
  let tag ← u1
  if tag = 0x00 || tag = 0x01 || tag = 0x16 then skip u1 1
  else if tag = 0x10 || tag = 0x17 || (0x42 ≤ tag && tag ≤ 0x46) then skip u2 1
  else if tag = 0x11 || tag = 0x12 then skip u1 2
  else if 0x13 ≤ tag && tag ≤ 0x15 then pure ()
  else if tag = 0x40 || tag = 0x41 then skipTable (skip u2 3)
  else if 0x47 ≤ tag && tag ≤ 0x4b then do
    skip u2 1
    skip u1 1
  else throw (.unknownTarget tag)
  skip (skip u1 2) (← u1)
  annotationBody depth

def verification : Reader Unit := do
  let tag ← u1
  if tag ≤ 6 then pure ()
  else if tag = 7 || tag = 8 then skip u2 1
  else throw (.unknownVerification tag)

def stackMapFrame : Reader Unit := do
  let tag ← u1
  if tag ≤ 63 then pure ()
  else if tag ≤ 127 then verification
  else if tag = 247 then do
    skip u2 1
    verification
  else if 248 ≤ tag && tag ≤ 251 then skip u2 1
  else if 252 ≤ tag && tag ≤ 254 then do
    skip u2 1
    skip verification (tag - 251)
  else if tag = 255 then do
    skip u2 1
    skipTable verification
    skipTable verification
  else throw (.unknownFrame tag)

def variableRow : Reader VariableRow :=
  return ⟨← u2, ← u2, ← u2, ← u2, ← u2⟩

def handlerRow : Reader HandlerRow := do
  let row : HandlerRow := ⟨← u2, ← u2, ← u2⟩
  skip u2 1
  return row

def bootstrapMethod : Reader Nat := do
  let handle ← u2
  skipTable u2
  return handle

def nameAt (pool : Pool) (index : Nat) : Reader String :=
  match pool[index]? with
  | none => throw (.missingName index)
  | some (.utf8 text) => return text
  | some entry => throw (.notAName entry)

def skipBody (name : String) (length depth : Nat) : Reader Unit := do
  match name with
  | "Exceptions" | "NestMembers" | "PermittedSubclasses" => skipTable u2
  | "Synthetic" | "Deprecated" => pure ()
  | "SourceFile" | "Signature" | "NestHost" => skip u2 1
  | "LocalVariableTypeTable" => skipTable (skip u2 5)
  | "InnerClasses" => skipTable (skip u2 4)
  | "EnclosingMethod" => skip u2 2
  | "SourceDebugExtension" =>
    let _ ← block length
    pure ()
  | "RuntimeVisibleAnnotations" =>
    expectBlock length
    skipTable (annotationBody depth)
  | "RuntimeInvisibleAnnotations" => skipTable (annotationBody depth)
  | "AnnotationDefault" =>
    expectBlock length
    element depth
  | "RuntimeVisibleParameterAnnotations" | "RuntimeInvisibleParameterAnnotations" =>
    skip (skipTable (annotationBody depth)) (← u1)
  | "RuntimeVisibleTypeAnnotations" | "RuntimeInvisibleTypeAnnotations" =>
    skipTable (typeAnnotationBody depth)
  | "StackMapTable" => skipTable stackMapFrame
  | other => throw (.unknownAttribute other)

/-- One attribute; `depth` bounds the nesting of attributes and annotations. -/
def one (pool : Pool) : Nat → Reader Attribute
  | 0 => throw .nestedTooDeep
  | depth + 1 => do
    let name ← nameAt pool (← u2)
    let length ← u4
    match name with
    | "ConstantValue" => return .constantValue (← u2)
    | "Code" =>
      skip u2 1
      let maxLocals ← u2
      let code ← block (← u4)
      let handlers ← table handlerRow
      return .code maxLocals code handlers (← table (one pool depth))
    | "LineNumberTable" => return .lineNumbers (← table (return (← u2, ← u2)))
    | "LocalVariableTable" => return .localVariables (← table variableRow)
    | "BootstrapMethods" => return .bootstrapMethods (← table bootstrapMethod)
    | "MethodParameters" =>
      return .methodParameters (← times (← u1) (do
        let name ← u2
        skip u2 1
        return name))
    | "Record" =>
      skipTable (do
        skip u2 2
        skipTable (one pool depth))
      return .ignored
    | other =>
      skipBody other length depth
      return .ignored

/-- A table of attributes. Each level of nesting takes at least one byte. -/
def all (pool : Pool) : Reader (List Attribute) := do
  table (one pool ((← read).size + 1))

end Attribute
end CallProvenance
