import CallProvenance.Inconsistency
import CallProvenance.Value

/-! Frames: the local slots and the operand stack before one instruction. A wide value is one
stack entry and two slots, of which the second is unset. The head of the stack is its top;
rows of operands are given in the order in which they were pushed. -/
namespace CallProvenance

structure Frame where
  locals : List Value
  stack : List Value := []
  deriving Repr

namespace Frame

def get (frame : Frame) (slot : Nat) : Except Inconsistency Value :=
  match frame.locals[slot]? with
  | some value => .ok value
  | none => .error (.slotOutOfRange slot frame.locals.length)

/-- Writing the upper half of a wide value makes its lower half unreadable. -/
def clobber (locals : List Value) : Nat → List Value
  | 0 => locals
  | below + 1 => if (locals[below]?).any (·.size = 2) then locals.set below .unset else locals

/-- Writes a value and, if it is wide, unsets the slot after it. -/
def write (locals : List Value) (slot : Nat) (value : Value) : List Value :=
  let written := (clobber locals slot).set slot value
  if value.size = 2 then written.set (slot + 1) .unset else written

def set (frame : Frame) (slot : Nat) (value : Value) : Except Inconsistency Frame :=
  if frame.locals.length < slot + value.size then
    .error (.slotOutOfRange (slot + value.size - 1) frame.locals.length)
  else .ok { frame with locals := write frame.locals slot value }

def push (frame : Frame) (value : Value) : Frame := { frame with stack := value :: frame.stack }

def pop (frame : Frame) : Except Inconsistency (Value × Frame) :=
  match frame.stack with
  | [] => .error .stackUnderflow
  | top :: rest => .ok (top, { frame with stack := rest })

/-- The topmost values, the stack left alone. -/
def peekN (frame : Frame) (count : Nat) : Except Inconsistency (List Value) :=
  if frame.stack.length < count then .error .stackUnderflow
  else .ok (frame.stack.take count).reverse

def popN (frame : Frame) (count : Nat) : Except Inconsistency (List Value × Frame) :=
  if frame.stack.length < count then .error .stackUnderflow
  else .ok ((frame.stack.take count).reverse, { frame with stack := frame.stack.drop count })

def clearStack (frame : Frame) : Frame := { frame with stack := [] }

/-- The frame at the start of a handler: the stack holds only what was thrown. -/
def caught (frame : Frame) : Frame := frame.clearStack.push (.unknown .reference)

def values (frame : Frame) : List Value := frame.locals ++ frame.stack

/-- Joins `incoming` into `current`; `none` when that changes nothing. -/
def merge (current incoming : Frame) (history : History) :
    Except Inconsistency (Option Frame × History) :=
  if current.stack.length ≠ incoming.stack.length then
    .error (.stackHeightMismatch current.stack.length incoming.stack.length)
  else if current.locals.length ≠ incoming.locals.length then
    .error (.localCountMismatch current.locals.length incoming.locals.length)
  else if Value.absorbs current.locals incoming.locals && Value.absorbs current.stack incoming.stack then
    .ok (none, history)
  else
    let (locals, history) := Value.mergeAll current.locals incoming.locals history
    let (stack, history) := Value.mergeAll current.stack incoming.stack history
    .ok (some ⟨locals, stack⟩, history)

end Frame
end CallProvenance
