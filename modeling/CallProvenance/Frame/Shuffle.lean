import CallProvenance.Frame

/-! The operations that copy, drop and exchange stack entries. Each works on words: a wide
value is two words that must not be torn apart. -/
namespace CallProvenance

namespace StackOp

def any : List Value → Except Inconsistency (Value × List Value)
  | [] => .error .stackUnderflow
  | top :: rest => .ok (top, rest)

/-- Takes the top entry, which must be one word. -/
def single (op : StackOp) (stack : List Value) : Except Inconsistency (Value × List Value) := do
  let (top, rest) ← any stack
  if top.size = 1 then .ok (top, rest) else .error (.wideOperand op)

/-- The stack after the operation, top first. -/
def apply (op : StackOp) (stack : List Value) : Except Inconsistency (List Value) := do
  match op with
  | .pop =>
    let (_, rest) ← single op stack
    return rest
  | .pop2 =>
    let (a, rest) ← any stack
    if a.size = 1 then
      let (_, rest) ← single op rest
      return rest
    else return rest
  | .dup =>
    let (a, rest) ← single op stack
    return a :: a :: rest
  | .dupX1 =>
    let (a, rest) ← single op stack
    let (b, rest) ← single op rest
    return a :: b :: a :: rest
  | .dupX2 =>
    let (a, rest) ← single op stack
    let (b, rest) ← any rest
    if b.size = 1 then
      let (c, rest) ← single op rest
      return a :: b :: c :: a :: rest
    else return a :: b :: a :: rest
  | .dup2 =>
    let (a, rest) ← any stack
    if a.size = 1 then
      let (b, rest) ← single op rest
      return a :: b :: a :: b :: rest
    else return a :: a :: rest
  | .dup2X1 =>
    let (a, rest) ← any stack
    let (b, rest) ← single op rest
    if a.size = 1 then
      let (c, rest) ← single op rest
      return a :: b :: c :: a :: b :: rest
    else return a :: b :: a :: rest
  | .dup2X2 =>
    let (a, rest) ← any stack
    if a.size = 1 then
      let (b, rest) ← single op rest
      let (c, rest) ← any rest
      if c.size = 1 then
        let (d, rest) ← single op rest
        return a :: b :: c :: d :: a :: b :: rest
      else return a :: b :: c :: a :: b :: rest
    else
      let (b, rest) ← any rest
      if b.size = 1 then
        let (c, rest) ← single op rest
        return a :: b :: c :: a :: rest
      else return a :: b :: a :: rest
  | .swap =>
    let (a, rest) ← single op stack
    let (b, rest) ← single op rest
    return b :: a :: rest

end StackOp

def Frame.shuffle (frame : Frame) (op : StackOp) : Except Inconsistency Frame := do
  return { frame with stack := ← op.apply frame.stack }

end CallProvenance
