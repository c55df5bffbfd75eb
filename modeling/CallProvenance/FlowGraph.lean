import CallProvenance.Execute
import CallProvenance.FixedPoint

/-! Control flow of a method body over instruction positions, and the flow problem whose facts are
frames. -/
namespace CallProvenance

/-- A handler and the positions `first`, …, `last` that it protects. -/
structure Protection where
  first : Nat
  last : Nat
  entry : Nat
  deriving DecidableEq, Repr

namespace Protection

def protects (protection : Protection) (point : Nat) : Bool :=
  protection.first ≤ point && point ≤ protection.last

end Protection

structure FlowGraph where
  method : Method
  /-- Offset and position of each instruction, last position first. -/
  positions : List (Nat × Nat)
  protections : List Protection
  deriving Repr

namespace FlowGraph

/-- Of several instructions at one offset the last counts. -/
def positionsOf (method : Method) : List (Nat × Nat) :=
  (method.code.zipIdx.map fun (instruction, index) => (instruction.offset, index)).reverse

def positionAt (positions : List (Nat × Nat)) (offset : Nat) : Except Inconsistency Nat :=
  match positions.find? (·.1 = offset) with
  | some (_, index) => .ok index
  | none => .error (.invalidTarget offset)

/-- The element that comes first under a strict order; the earliest of several. -/
def leastBy {α : Type} (before : α → α → Bool) : List α → Option α
  | [] => none
  | a :: rest => some (rest.foldl (fun least b => if before b least then b else least) a)

/-- Resolves one row of the handler table. A range without instructions protects nothing. -/
def protection (positions : List (Nat × Nat)) (range : HandlerRange) :
    Except Inconsistency (Option Protection) := do
  if range.stop ≤ range.start then .error (.invalidTarget range.stop)
  else
    let entry ← positionAt positions range.handler
    let covered := positions.filter fun row => range.covers row.1
    match leastBy (fun a b => a.1 < b.1) covered, leastBy (fun a b => b.1 < a.1) covered with
    | some first, some last => return some ⟨first.2, last.2, entry⟩
    | _, _ => return none

def ofMethod (method : Method) : Except Inconsistency FlowGraph := do
  let positions := positionsOf method
  let protections ← method.handlers.mapM (protection positions)
  return ⟨method, positions, protections.filterMap id⟩

def target (graph : FlowGraph) (offset : Nat) : Except Inconsistency Nat :=
  positionAt graph.positions offset

def next (graph : FlowGraph) (point : Nat) : Except Inconsistency Nat :=
  if point + 1 < graph.method.code.length then .ok (point + 1) else .error .fallOffEnd

/-- The positions after subroutine jumps, to any of which a subroutine may return. -/
def returnPoints (graph : FlowGraph) : List Nat :=
  graph.method.code.zipIdx.filterMap fun (instruction, index) =>
    if Opcode.control instruction.opcode = .subroutine ∧ index + 1 < graph.method.code.length
    then some (index + 1) else none

def jumpTarget (graph : FlowGraph) (instruction : Instruction) : Except Inconsistency Nat :=
  match instruction.operand with
  | .jump offset => graph.target offset
  | _ => .error instruction.malformed

def successors (graph : FlowGraph) (point : Nat) (instruction : Instruction) :
    Except Inconsistency (List Nat) := do
  match Opcode.control instruction.opcode with
  | .halt => return []
  | .subroutineReturn => return graph.returnPoints
  | .jump | .subroutine => return [← graph.jumpTarget instruction]
  | .branch =>
    let next ← graph.next point
    return [next, ← graph.jumpTarget instruction]
  | .switch =>
    match instruction.operand with
    | .switch fallback targets => (fallback :: targets).mapM graph.target
    | _ => .error instruction.malformed
  | .next => return [← graph.next point]

end FlowGraph

namespace Method

/-- Slots that the instructions name. -/
def usedSlots (method : Method) : Nat :=
  method.code.foldl
    (fun used instruction =>
      match instruction.operand with
      | .slot slot => max used (slot + Opcode.slotWidth instruction.opcode)
      | .increment slot => max used (slot + 1)
      | _ => used)
    0

/-- The slots of the parameters: each wide one is followed by an unset slot. -/
def parameterSlots (method : Method) (parameters : List Kind) : List Value :=
  let receiver := if method.isStatic then [] else [Value.unknown .reference]
  receiver ++ parameters.flatMap fun kind =>
    if kind.size = 2 then [.unknown kind, .unset] else [.unknown kind]

/-- The locals at entry, padded so that every slot that the code names exists. -/
def entryLocals (method : Method) : Except Inconsistency (List Value) := do
  let slots := method.parameterSlots (← Descriptor.operands method.descriptor)
  let size := max method.maxLocals (max slots.length method.usedSlots)
  return slots ++ List.replicate (size - slots.length) .unset

end Method

structure SimulationNotes where
  dynamicArguments : DynamicArguments := {}
  history : History := .empty

namespace FlowGraph

/-- The flows out of an instruction: first to the handlers that protect it, which see the locals
as they were before it, then to its successors. -/
def flows (graph : FlowGraph) (point : Nat) (instruction : Instruction) (frame : Frame) :
    Except Inconsistency (List (Nat × Frame)) := do
  let thrown := (graph.protections.filter (·.protects point)).map fun handler =>
    (handler.entry, frame.caught)
  let after ← instruction.execute point frame
  let successors ← graph.successors point instruction
  return thrown ++ successors.map fun successor => (successor, after)

def transfer (graph : FlowGraph) (point : Nat) (frame : Frame) :
    EStateM Inconsistency SimulationNotes (List (Nat × Frame)) :=
  match graph.method.code[point]? with
  | none => pure []
  | some instruction =>
    match graph.flows point instruction frame with
    | .error cause => throw (cause.locate instruction)
    | .ok flows => do
      modify fun notes =>
        { notes with dynamicArguments := notes.dynamicArguments.note instruction point frame }
      return flows

def merge (current incoming : Frame) : EStateM Inconsistency SimulationNotes (Option Frame) := do
  match current.merge incoming (← get).history with
  | .error cause => throw cause
  | .ok (joined, history) =>
    modify fun notes => { notes with history }
    return joined

def entry (graph : FlowGraph) : EStateM Inconsistency SimulationNotes Frame :=
  match graph.method.entryLocals with
  | .error cause => throw cause
  | .ok locals => return { locals }

def semantics (graph : FlowGraph) : FlowSemantics Inconsistency SimulationNotes Frame :=
  { entry := graph.entry, transfer := graph.transfer, merge := merge }

end FlowGraph
end CallProvenance
