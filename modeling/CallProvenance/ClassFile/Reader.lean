import CallProvenance.Bytes
import CallProvenance.ClassFile.Pool

/-! Sequential reading of class-file bytes, and the ways in which it can fail. -/
namespace CallProvenance

inductive FormatError where
  | badMagic
  /-- A number starts at `position` and does not fit. -/
  | overrun (position size : Nat)
  /-- A block would end at `stop`. -/
  | blockOutOfBounds (stop size : Nat)
  | trailingBytes (size position : Nat)
  | unknownTag (tag : Nat)
  | missingName (index : Nat)
  | notAName (entry : PoolEntry)
  | unknownAttribute (name : String)
  | unknownElement (tag : Nat)
  | unknownTarget (tag : Nat)
  | unknownFrame (tag : Nat)
  | unknownVerification (tag : Nat)
  /-- More nesting than there are bytes. -/
  | nestedTooDeep
  deriving DecidableEq, Repr

def FormatError.message : FormatError → String
  | .badMagic => "InvalidInput Error: Not a valid class-file"
  | .overrun position size =>
    s!"I/O Error: overflow : attempt to read from {position} whereas len is {size}"
  | .blockOutOfBounds stop size => s!"I/O Error: Index out of bounds: {stop} of {size}"
  | .trailingBytes size position =>
    s!"I/O Error: Not all was read : data.len() is {size}, start_from is {position}"
  | .unknownTag tag => s!"I/O Error: unmatched tag: {tag}"
  | .missingName index => s!"I/O Error: element not found at index {index}"
  | .notAName entry => s!"I/O Error: element type is not Uint8 but {entry.describe}"
  | .unknownAttribute name => s!"I/O Error: unmatched attribute: {name}"
  | .unknownElement tag => s!"I/O Error: Unsupported element tag: {tag}"
  | .unknownTarget tag => s!"I/O Error: Invalid target_type: {tag}"
  | .unknownFrame tag => s!"I/O Error: Unsupported frame_type: {tag}"
  | .unknownVerification tag => s!"I/O Error: tag {tag} is not valid"
  | .nestedTooDeep => "I/O Error: nested too deep"

/-- Reads from a position in some bytes and moves the position. -/
abbrev Reader (α : Type) := ReaderT Bytes (StateT Nat (Except FormatError)) α

namespace Reader

def number (count : Nat) : Reader Nat := do
  let bytes ← read
  let position ← get
  match bytes.number? position count with
  | some n =>
    set (position + count)
    return n
  | none => throw (.overrun position bytes.size)

def u1 : Reader Nat := number 1

def u2 : Reader Nat := number 2

def u4 : Reader Nat := number 4

def expectBlock (count : Nat) : Reader Unit := do
  let bytes ← read
  let position ← get
  if bytes.size < position + count then throw (.blockOutOfBounds (position + count) bytes.size)

def block (count : Nat) : Reader Bytes := do
  expectBlock count
  let position ← get
  set (position + count)
  return (← read).slice position count

/-- The items read by `count` repetitions, after those given in reverse. -/
def collect {α : Type} (item : Reader α) : Nat → List α → Reader (List α)
  | 0, reversed => return reversed.reverse
  | count + 1, reversed => do collect item count ((← item) :: reversed)

def times {α : Type} (count : Nat) (item : Reader α) : Reader (List α) := collect item count []

def skip {α : Type} (item : Reader α) : Nat → Reader Unit
  | 0 => return
  | count + 1 => do
    let _ ← item
    skip item count

/-- A two-byte count, then that many items. -/
def table {α : Type} (item : Reader α) : Reader (List α) := do times (← u2) item

def skipTable {α : Type} (item : Reader α) : Reader Unit := do skip item (← u2)

end Reader
end CallProvenance
