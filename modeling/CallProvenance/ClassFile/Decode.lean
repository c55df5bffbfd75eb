import CallProvenance.Bytecode
import CallProvenance.ClassFile
import CallProvenance.Method

/-! Classes as the analysis sees them, from the bytes of a class file. -/
namespace CallProvenance

namespace ClassFile

def bootstraps (file : ClassFile) : List Nat :=
  file.attributes.flatMap fun
    | .bootstrapMethods handles => handles
    | _ => []

/-- Of several initial values the last counts, but each must be readable. -/
def initialValue (pool : Pool) (name : String) (attributes : List Attribute) :
    Except DecodeError (Option Constant) :=
  attributes.foldlM
    (fun found item =>
      match item with
      | .constantValue index => do
        return some (← (DecodeStep.fieldDefault name).run (pool.constant index))
      | _ => return found)
    none

def field (pool : Pool) (info : MemberInfo) : Except DecodeError Field := do
  let name ← DecodeStep.fieldName.run (pool.text info.name)
  let descriptor ← DecodeStep.fieldDescriptor.run (pool.text info.descriptor)
  return { name, descriptor, initial := ← initialValue pool name info.attributes }

def localVariable (pool : Pool) (row : VariableRow) : Except DecodeError LocalVariable := do
  let name ← DecodeStep.variableName.run (pool.text row.name)
  let descriptor ← DecodeStep.variableDescriptor.run (pool.text row.descriptor)
  return { start := row.start, length := row.length, name, descriptor, slot := row.slot }

/-- Adds the rows of one attribute of the code to the method's tables. -/
def addDebugTable (pool : Pool) (method : Method) (item : Attribute) :
    Except DecodeError Method := do
  match item with
  | .lineNumbers rows =>
    return { method with lines := method.lines ++ rows.map fun (start, line) => ⟨start, line⟩ }
  | .localVariables rows =>
    return { method with localVariables := method.localVariables ++ (← rows.mapM (localVariable pool)) }
  | _ => return method

/-- Adds all tables of the code; lines are kept in order of their offsets. -/
def addDebugTables (pool : Pool) (method : Method) (attributes : List Attribute) :
    Except DecodeError Method := do
  let method ← attributes.foldlM (addDebugTable pool) method
  return { method with lines := method.lines.mergeSort fun a b => a.start ≤ b.start }

def parameterName (pool : Pool) (index : Nat) : Except DecodeError (Option String) :=
  if index = 0 then return none else return some (← pool.text index)

def addAttribute (pool : Pool) (bootstraps : List Nat) (method : Method) (item : Attribute) :
    Except DecodeError Method := do
  let label := method.name ++ method.descriptor
  match item with
  | .code maxLocals code handlers attributes =>
    let code ← (DecodeStep.code label).run (Bytecode.decode pool bootstraps code)
    let handlers := handlers.map fun row => ⟨row.start, row.stop, row.handler⟩
    (DecodeStep.debugTables label).run
      (addDebugTables pool { method with maxLocals, code, handlers } attributes)
  | .methodParameters names =>
    let parameterNames ← (DecodeStep.parameterNames label).run (names.mapM (parameterName pool))
    return { method with parameterNames }
  | _ => return method

def staticFlag : Nat := 3

def abstractFlag : Nat := 10

def method (pool : Pool) (bootstraps : List Nat) (info : MemberInfo) :
    Except DecodeError Method := do
  let name ← DecodeStep.methodName.run (pool.text info.name)
  let descriptor ← DecodeStep.methodDescriptor.run (pool.text info.descriptor)
  let isStatic := info.access.testBit staticFlag
  let isAbstract := info.access.testBit abstractFlag
  info.attributes.foldlM (addAttribute pool bootstraps) { name, descriptor, isStatic, isAbstract }

def toClassDef (file : ClassFile) (source : String) : Except DecodeError ClassDef := do
  let pool := file.pool
  let name ← DecodeStep.className.run (pool.className file.thisClass)
  let superName ←
    if file.superClass = 0 then pure none
    else some <$> DecodeStep.superName.run (pool.className file.superClass)
  let fields ← (DecodeStep.fields name).run (file.fields.mapM (field pool))
  let methods ← (DecodeStep.methods name).run (file.methods.mapM (method pool file.bootstraps))
  return { name, superName, fields, methods, source }

end ClassFile

/-- Decodes one class file; `source` names where the bytes came from. -/
def ClassDef.decode (bytes : Bytes) (source : String) : Except DecodeError ClassDef := do
  match ClassFile.parse bytes with
  | .error cause => throw (.format cause)
  | .ok file => file.toClassDef source

end CallProvenance
