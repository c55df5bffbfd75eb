import CallProvenance.Archive.Lzma

/-! Packed bytes in chunks. A chunk is packed or stands as it is, and may begin anew with the
dictionary, the properties or the probabilities. -/
namespace CallProvenance
namespace Chunks

inductive Fault where
  | cut
  | head (place : Nat)
  | size
  | lzma (fault : Lzma.Fault)
  | finish
  deriving DecidableEq, Repr

def Fault.message : Fault → String
  | .cut => "failed to fill whole buffer"
  | .head place => s!"corrupted input data (LZMA2:{place})"
  | .size => "buffer len must >= 5"
  | .lzma fault => fault.message
  | .finish => "rc not finished or lz has pending"

/-- Bytes, and the fault that is met behind them. -/
structure Flow where
  bytes : Bytes
  fault : Option Fault := none
  deriving DecidableEq, Repr

structure Mark where
  isPacked : Bool
  input : Nat
  output : Nat
  deriving DecidableEq, Repr

structure State where
  position : Nat := 0
  progress : Lzma.Progress := {}
  properties : Lzma.Properties := ⟨0, 0, 0⟩
  start : Nat := 0
  needsReset : Bool := true
  needsProperties : Bool := true
  marks : Array Mark := #[]
  deriving DecidableEq, Repr

abbrev Step (α : Type) := ReaderT Flow (EStateM Fault State) α

def skip (count : Nat) : Step Unit := do
  let flow ← read
  let position := (← get).position + count
  if flow.bytes.size < position then throw (flow.fault.getD .cut)
  modify fun state => { state with position }

def byte : Step Nat := do
  skip 1
  return (← read).bytes.littleEndian ((← get).position - 1) 1

def pair : Step Nat := do
  let high ← byte
  return 256 * high + (← byte)

/-- Probabilities, distances and what came last begin anew. -/
def State.restart (state : State) : State :=
  { state with
    progress := {
      output := state.progress.output
      probabilities := Lzma.probabilities state.properties } }

def readProperties : Step Unit := do
  match Lzma.Properties.ofByte? (← byte) with
  | none => throw (.head 3)
  | some properties =>
    if 4 < properties.literalContext + properties.literalPosition then throw (.head 4)
    modify fun state => { state with properties, needsProperties := false }.restart

def mark (isPacked : Bool) : Step Unit :=
  modify fun state => { state with
    marks := state.marks.push ⟨isPacked, state.position, state.progress.output.size⟩ }

/-- Decodes `size` bytes from `packed` bytes, all of which have to be used. -/
def unpack (dictionary size packed : Nat) : Step Unit := do
  if packed < 5 then throw .size
  let flow ← read
  let start := (← get).position
  if (← byte) ≠ 0 then throw (.lzma .badStart)
  skip (packed - 1)
  let finish := start + packed
  let code := UInt32.ofNat ((flow.bytes.number? (start + 1) 4).getD 0)
  let state ← modifyGet fun state => (state, { state with progress := {} })
  let source : Lzma.Source := {
    data := flow.bytes, finish, properties := state.properties, dictionary, start := state.start }
  let target := state.progress.output.size + size
  let progress := { state.progress with next := start + 5, code, range := 0xffffffff }
  match (Lzma.decisions target size).run source |>.run progress with
  | .error fault progress =>
    modify fun state => { state with progress }
    if fault = .overrun then throw .finish else throw (.lzma fault)
  | .ok _ progress =>
    let progress := progress.normalize source
    let isFinished := progress.next = finish && progress.code = 0
    modify fun state => { state with progress }
    unless isFinished do throw .finish
    mark true

def copy (size : Nat) : Step Unit := do
  let flow ← read
  skip size
  modify fun state => { state with
    progress := { state.progress with
      output := state.progress.output ++ flow.bytes.slice (state.position - size) size } }
  mark false

def readAll (dictionary : Nat) : Nat → Step Unit
  | 0 => throw .cut
  | limit + 1 => do
    let control ← byte
    if control = 0 then return
    if 0xe0 ≤ control || control = 1 then
      modify fun state => { state with
        start := state.progress.output.size, needsReset := false, needsProperties := true }
    else if (← get).needsReset then throw (.head 0)
    if 0x80 ≤ control then
      let size := (control % 0x20) * 0x10000 + (← pair) + 1
      let packed := (← pair) + 1
      if 0xc0 ≤ control then readProperties
      else if (← get).needsProperties then throw (.head 1)
      else if 0xa0 ≤ control then modify State.restart
      unpack dictionary size packed
    else if 2 < control then throw (.head 2)
    else copy ((← pair) + 1)
    readAll dictionary limit

def State.inputFor (state : State) (count : Nat) : Nat :=
  match state.marks.find? (count ≤ ·.output) with
  | none => state.position
  | some mark => if mark.isPacked then mark.input else mark.input - (mark.output - count)

end Chunks

/-- The content of chunks. The answer is also how the input has been read. -/
def unchunk (dictionarySize : Nat) (input : Chunks.Flow) : Chunks.Flow × Chunks.State :=
  let dictionary := Lzma.dictionarySize dictionarySize
  match (Chunks.readAll dictionary (input.bytes.size + 1)).run input |>.run {} with
  | .ok _ state => (⟨state.progress.output, none⟩, state)
  | .error fault state => (⟨state.progress.output, some fault⟩, state)

end CallProvenance
