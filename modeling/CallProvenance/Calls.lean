import CallProvenance.Simulation
import CallProvenance.Trace

/-! The calls that a simulated method makes: for each reachable call the values that it takes from
its frame, the source line in force, and the definitions behind those values. -/
namespace CallProvenance

inductive CallTarget where
  | method (site : CallSite)
  | dynamic (site : DynamicSite)
  deriving DecidableEq, Repr

/-- The class that a call refers to: the owner, or that of the bootstrap method. -/
def CallTarget.className : CallTarget → String
  | .method site => site.owner
  | .dynamic site => site.bootstrap.owner

structure Call where
  line : Option Nat
  target : CallTarget
  receiver : Option Value
  /-- In declaration order. -/
  arguments : List Value

/-- The line in force and the markers that lie ahead, in order of their offsets. -/
structure LineCursor where
  ahead : List LineMarker
  current : Option Nat := none
  deriving DecidableEq, Repr

namespace LineCursor

/-- Passes all markers up to an offset. The cursor never moves back. -/
def advance (cursor : LineCursor) (offset : Nat) : LineCursor :=
  let passed := cursor.ahead.takeWhile (·.start ≤ offset)
  { ahead := cursor.ahead.dropWhile (·.start ≤ offset)
    current := (passed.getLast?.map (·.line)).or cursor.current }

/-- Several markers at one offset keep their order, so the last of them counts. -/
def start (markers : List LineMarker) : LineCursor :=
  { ahead := markers.mergeSort fun a b => a.start ≤ b.start }

end LineCursor

namespace Method

def lineOfEach (method : Method) : List (Option Nat) :=
  let (_, reversed) := method.code.foldl
    (fun (cursor, reversed) instruction =>
      let cursor := cursor.advance instruction.offset
      (cursor, cursor.current :: reversed))
    (LineCursor.start method.lines, [])
  reversed.reverse

end Method

namespace Simulation

/-- The call at one instruction, if it is one and is reached. -/
def callAt (simulation : Simulation) (instruction : Instruction) (index : Nat) (line : Option Nat) :
    Except Inconsistency (Option Call) := do
  match simulation.frames[index]?.join, instruction.operand with
  | some frame, .invoke site =>
    let arity := (← Descriptor.operands site.descriptor).length
    if site.kind = .static then
      return some ⟨line, .method site, none, ← frame.peekN arity⟩
    else
      let values ← frame.peekN (arity + 1)
      return some ⟨line, .method site, values.head?, values.tail⟩
  | some frame, .invokeDynamic site =>
    let arguments ←
      match simulation.dynamicArguments.find? index with
      | some arguments => pure arguments
      | none => frame.peekN (← Descriptor.operands site.descriptor).length
    return some ⟨line, .dynamic site, none, arguments⟩
  | _, _ => return none

def calls (simulation : Simulation) (method : Method) : Except Inconsistency (List Call) := do
  let found ← (method.code.zipIdx.zip method.lineOfEach).mapM fun ((instruction, index), line) =>
    simulation.callAt instruction index line
  return found.filterMap id

end Simulation

namespace Method

/-- What an instruction says about a value that it produced. -/
def definition? (instruction : Instruction) : Option ArgumentValue :=
  match instruction.operand with
  | .field ref => if ref.access.isRead then some (.field ref.owner ref.name) else none
  | .constant value => some (.constant value)
  | _ => none

/-- The definitions behind a value, in instruction order. -/
def resolve (method : Method) (value : Value) : Argument :=
  ⟨value.sources.indices.filterMap fun index => (method.code[index]?).bind definition?⟩

def invocation (method : Method) (call : Call) : Invocation :=
  let receiver := call.receiver.map method.resolve
  let arguments := call.arguments.map method.resolve
  match call.target with
  | .method site =>
    ⟨site.owner, site.name, site.descriptor, site.kind, call.line, receiver, arguments, none⟩
  | .dynamic site =>
    ⟨site.bootstrap.owner, site.name, site.descriptor, .dynamic, call.line, receiver, arguments,
      some site.bootstrap⟩

end Method
end CallProvenance
