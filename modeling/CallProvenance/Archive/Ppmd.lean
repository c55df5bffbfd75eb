import CallProvenance.Archive.Ppmd.Model

/-! Decompression of data that is packed by predicting each byte from those before it. Two bytes hold
the parameters of the model, and then an arithmetic code tells, for one context after the other from
the longest on, which symbol follows or that none of its symbols does. -/
namespace CallProvenance
namespace Ppmd

inductive Fault where
  | cut
  | parameters
  | code
  | decoding
  deriving DecidableEq, Repr

def Fault.message : Fault → String
  | .cut => "failed to fill whole buffer"
  | .parameters => "Invalid PPMd parameter"
  | .code => "PPMd range coder initialization failed"
  | .decoding => "Error during PPMd decoding"

/-- How many bytes predict the next one, how much memory the model has, and what happens when that is
used up. -/
structure Parameters where
  order : Nat
  mebibytes : Nat
  restoration : Nat
  deriving DecidableEq, Repr

def Parameters.ofNat (n : Nat) : Parameters := ⟨n % 16 + 1, n / 16 % 256 + 1, n / 4096⟩

/-- A model that is used up is begun anew or cut down. -/
def Parameters.isUsable (parameters : Parameters) : Bool :=
  2 ≤ parameters.order && parameters.restoration ≤ 1

def Parameters.model (parameters : Parameters) : Model :=
  Model.restart {
    heap := Heap.ofSize (parameters.mebibytes * 1 <<< 20)
    order := parameters.order
    cutsDown := parameters.restoration = 1 }

/-! ## The code -/

inductive Stop where
  | cut
  | ending
  | broken
  deriving DecidableEq, Repr

/-- The part of the range of all codes that is still possible. -/
structure Coder where
  next : Nat
  low : UInt32
  range : UInt32
  code : UInt32
  deriving DecidableEq, Repr

namespace Coder

/-- Takes bytes as long as the highest byte of the range is settled or the range is small. -/
def normalize (data : Bytes) : Nat → Coder → Option Coder
  | 0, coder => some coder
  | limit + 1, coder =>
    let isSettled := coder.low ^^^ (coder.low + coder.range) < 0x1000000
    if isSettled || coder.range < 0x8000 then
      let range := if isSettled then coder.range else (0 - coder.low) &&& 0x7fff
      match data[coder.next]? with
      | none => none
      | some byte => normalize data limit {
          next := coder.next + 1
          low := coder.low <<< 8
          range := range <<< 8
          code := (coder.code <<< 8) ||| byte.toUInt32 }
    else some coder

/-- Divides the range into `total` parts; the answer is the part that the code is in. -/
def threshold (coder : Coder) (total : Nat) : Nat × Coder :=
  let range := coder.range / UInt32.ofNat total
  ((coder.code / range).toNat, { coder with range })

/-- Keeps `size` parts of the range from `start` on. -/
def narrow (data : Bytes) (coder : Coder) (start size : Nat) : Option Coder :=
  let skipped := UInt32.ofNat start * coder.range
  normalize data (data.size + 1) {
    next := coder.next
    low := coder.low + skipped
    range := coder.range * UInt32.ofNat size
    code := coder.code - skipped }

end Coder

/-! ## Bytes -/

/-- The mean of a probability in steps, which it moves by. -/
def mean (chance : Nat) : Nat := (chance + 32) / 128

/-- What the frequency of leaving a context with one symbol becomes after the symbol was wrong. -/
def escapes : Array Nat := #[25, 14, 9, 7, 5, 5, 4, 4, 4, 3, 3, 3, 2, 2, 2, 2]

/-- The bytes that cannot follow any more, since a longer context has been left. -/
abbrev RuledOut := Array Bool

def frequencies (heap : Heap) (ruledOut : RuledOut) : Nat → Nat → Nat → Nat
  | 0, _, sum => sum
  | count + 1, place, sum =>
    let isOut := ruledOut.getD (heap.byte place) false
    frequencies heap ruledOut count (place + symbolSize)
      (if isOut then sum else sum + heap.frequency place)

/-- The symbol whose part of the range has the code in it, with the beginning of the part. -/
def locate (heap : Heap) (ruledOut : RuledOut) (code : Nat) :
    Nat → Nat → Nat → Option (Nat × Nat)
  | 0, _, _ => none
  | count + 1, place, start =>
    if ruledOut.getD (heap.byte place) false then
      locate heap ruledOut code count (place + symbolSize) start
    else
      let stop := start + heap.frequency place
      if code < stop then some (place, start)
      else locate heap ruledOut code count (place + symbolSize) stop

def ruleOut (heap : Heap) : Nat → Nat → RuledOut → RuledOut
  | 0, _, ruledOut => ruledOut
  | count + 1, place, ruledOut =>
    ruleOut heap count (place + symbolSize) (ruledOut.setIfInBounds (heap.byte place) true)

def symbolsOf (heap : Heap) (context : Nat) : Nat × Nat :=
  if heap.more context = 0 then (Heap.only context, 1)
  else (heap.symbols context, heap.more context + 1)

structure State where
  model : Model
  coder : Coder

abbrev Step (α : Type) := ReaderT Bytes (EStateM Stop State) α

def narrow (start size : Nat) : Step Unit := fun data state =>
  match state.coder.narrow data start size with
  | some coder => .ok () { state with coder }
  | none => .error .cut state

def threshold (total : Nat) : Step Nat := fun _ state =>
  let (code, coder) := state.coder.threshold total
  .ok code { state with coder }

@[inline] def inspect {α : Type} (f : Model → α) : Step α := fun _ state =>
  .ok (f state.model) state

@[inline] def update (f : Model → Model) : Step Unit := fun _ ⟨model, coder⟩ =>
  .ok () ⟨f model, coder⟩

def accept (place : Nat) (count : Model → Model) : Step Nat := do
  let byte ← inspect (·.heap.byte place)
  update fun model => { model with found := place }
  update count
  return byte

def trySeveral : Step (Option Nat) := do
  let (total, first, count) ← inspect fun model =>
    (model.heap.total model.current, symbolsOf model.heap model.current)
  let code ← threshold total
  match ← inspect (locate ·.heap #[] code count first 0) with
  | some (place, start) =>
    narrow start (← inspect (·.heap.frequency place))
    if place = first then return some (← accept place Model.foundFirst)
    else
      update fun model => { model with success := 0 }
      return some (← accept place Model.foundLater)
  | none =>
    update fun model => { model with success := 0 }
    if total ≤ code then throw .broken
    let sum ← inspect (frequencies ·.heap #[] count first 0)
    narrow sum (total - sum)
    return none

def tryOnly : Step (Option Nat) := do
  let index ← inspect Model.chanceIndex
  let chance ← inspect (·.chances.getD index 0)
  let code ← threshold (1 <<< 14)
  let setChance (chance : Nat) (model : Model) : Model :=
    { model with chances := model.chances.setIfInBounds index chance }
  if code < chance then
    narrow 0 chance
    update (setChance (chance + 128 - mean chance))
    return some (← accept (← inspect fun model => Heap.only model.current) Model.foundOnly)
  else
    narrow chance (1 <<< 14 - chance)
    let chance := chance - mean chance
    update (setChance chance)
    update fun model => { model with escape := escapes.getD (chance / 1024) 0, success := 0 }
    return none

/-- The longest suffix of a context with more symbols than those that are ruled out, and how many
contexts lie between. -/
def widerSuffix (heap : Heap) (more : Nat) : Nat → Nat → Nat → Option (Nat × Nat)
  | 0, _, _ => none
  | limit + 1, context, passed =>
    let suffix := heap.suffix context
    if suffix = 0 then none
    else if heap.more suffix = more then widerSuffix heap more limit suffix (passed + 1)
    else some (suffix, passed + 1)

/-- After a symbol was found, an estimate that has been used often enough becomes slower. -/
def Estimate.settle (estimate : Estimate) : Estimate :=
  if 7 ≤ estimate.shift then estimate
  else if estimate.count = 1 then
    ⟨2 * estimate.sum % 65536, estimate.shift + 1, 3 * 1 <<< estimate.shift % 256⟩
  else { estimate with count := (estimate.count + 255) % 256 }

def updateEstimate (index : Option Nat) (f : Estimate → Estimate) : Step Unit :=
  match index with
  | some index => update fun model => { model with estimates := model.estimates.modify index f }
  | none => pure ()

/-- After a context was left, the next shorter one with other symbols is tried. -/
def tryShorter : Nat → RuledOut → Step Nat
  | 0, _ => throw .broken
  | limit + 1, ruledOut => do
    let more ← inspect fun model => model.heap.more model.current
    match ← inspect fun model => widerSuffix model.heap more chainLimit model.current 0 with
    | none => throw .ending
    | some (current, passed) =>
      update fun model => { model with current, fall := model.fall + passed }
      let index ← inspect (·.estimateIndex more)
      let (first, count) ← inspect (symbolsOf ·.heap current)
      let sum ← inspect (frequencies ·.heap ruledOut count first 0)
      let share ← inspect fun model =>
        match index.bind (model.estimates[·]?) with
        | some estimate => estimate.sum >>> estimate.shift
        | none => 1
      updateEstimate index fun estimate => { estimate with sum := estimate.sum - share }
      let total := sum + max share 1
      let code ← threshold total
      match ← inspect (locate ·.heap ruledOut code count first 0) with
      | some (place, start) =>
        narrow start (← inspect (·.heap.frequency place))
        updateEstimate index Estimate.settle
        accept place Model.foundAfterEscape
      | none =>
        if total ≤ code then throw .broken
        narrow sum (total - sum)
        updateEstimate index fun estimate =>
          { estimate with sum := (estimate.sum + total) % 65536 }
        tryShorter limit (← inspect (ruleOut ·.heap count first ruledOut))

def nextByte : Step Nat := do
  let isOnly ← inspect fun model => model.heap.more model.current == 0
  match ← if isOnly then tryOnly else trySeveral with
  | some byte => return byte
  | none =>
    let ruledOut ← inspect fun model =>
      let (first, count) := symbolsOf model.heap model.current
      ruleOut model.heap count first (Array.replicate 256 false)
    tryShorter chainLimit ruledOut

def bytesUntil (data : Bytes) : Nat → State → Bytes → Except Fault Bytes
  | 0, _, output => .ok output
  | limit + 1, state, output =>
    match nextByte.run data |>.run state with
    | .ok byte state => bytesUntil data limit state (output.push (UInt8.ofNat byte))
    | .error .cut _ => .ok output
    | .error .ending state => if state.coder.code = 0 then .ok output else .error .decoding
    | .error .broken _ => .error .decoding

/-- A byte of the data stands for fewer bytes than this, since no symbol is certain. -/
def bytesPerByte : Nat := 1 <<< 20

end Ppmd

/-- What the data decompresses to. It may end before the code does. -/
def unppmd (data : Bytes) : Except Ppmd.Fault Bytes := do
  let some given := data.littleEndian? 0 2 | throw .cut
  let parameters := Ppmd.Parameters.ofNat given
  unless parameters.isUsable do throw .parameters
  let some code := data.number? 2 4 | throw .cut
  if code = 0xffffffff then throw .code
  let coder : Ppmd.Coder := { next := 6, low := 0, range := 0xffffffff, code := UInt32.ofNat code }
  Ppmd.bytesUntil data (Ppmd.bytesPerByte * (data.size + 1)) ⟨parameters.model, coder⟩ #[]

end CallProvenance
