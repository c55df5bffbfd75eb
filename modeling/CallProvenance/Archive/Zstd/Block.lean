import CallProvenance.Archive.Inflate
import CallProvenance.Archive.Zstd.Table

/-! The packed blocks of zstd data. A block holds literal bytes and sequences; a sequence takes
literal bytes and then repeats bytes that stand some way back. -/
namespace CallProvenance
namespace Zstd

inductive Fault where
  | magic
  | header
  | window
  | dictionary
  | noCode
  | literalsHeader
  | corrupt
  | sequencesCut
  | noRoom
  | checksum
  | cut
  deriving DecidableEq, Repr

def Fault.message : Fault → String
  | .magic => "Unknown frame descriptor"
  | .header => "Unsupported frame parameter"
  | .window => "Frame requires too much memory for decoding"
  | .dictionary => "Dictionary mismatch"
  | .noCode => "Dictionary is corrupted"
  | .literalsHeader => "Header of Literals' block doesn't respect format specification"
  | .corrupt => "Data corruption detected"
  | .sequencesCut => "Src size is incorrect"
  | .noRoom => "Destination buffer is too small"
  | .checksum => "Restored data doesn't match checksum"
  | .cut => "incomplete frame"

def orCorrupt {α : Type} : Option α → Except Fault α
  | some value => .ok value
  | none => .error .corrupt

/-- What a block may hold: at most `limit` literal bytes, and content for `room` bytes. -/
structure Bounds where
  limit : Nat
  room : Nat
  deriving DecidableEq, Repr

/-! ## Literals -/

/-- The literal bytes of a block, how many bytes of the block they take, and the code that later
blocks may use. -/
structure Literals where
  bytes : Bytes
  size : Nat
  code : Option PrefixTable
  deriving DecidableEq, Repr

/-- Literal bytes that stand as they are, or a byte that is repeated. -/
def plainLiterals (bounds : Bounds) (isRepeated : Bool) (code : Option PrefixTable)
    (data : Bytes) : Except Fault Literals := do
  let head := data.littleEndian 0 1
  let headSize := match head / 4 % 4 with | 1 => 2 | 3 => 3 | _ => 1
  let count := if headSize = 1 then head / 8 else data.littleEndian 0 headSize / 16
  let size := if isRepeated then 1 else count
  if data.size < headSize || isRepeated && data.size < headSize + 1 then throw .corrupt
  if bounds.limit < count then throw .corrupt
  if bounds.room < count then throw .noRoom
  if data.size < headSize + size then throw .corrupt
  let bytes :=
    if isRepeated then Array.replicate count (data.getD headSize 0)
    else data.slice headSize count
  return ⟨bytes, headSize + size, code⟩

/-- A stream from `start` to `stop` that has to use all its bits. -/
def wholeStream? (code : PrefixTable) (data : Bytes) (start stop count : Nat) (output : Bytes) :
    Option Bytes := do
  let (bits, output) ← code.decode? count (← Backward.ofBytes? (data.extract start stop)) output
  if bits.left = 0 then some output else none

/-- A stream from `start` to `stop` that may leave bits, or take some more in front of it. -/
def freeStream? (code : PrefixTable) (data : Bytes) (start stop count : Nat) (output : Bytes) :
    Option Bytes := do
  let bits := (Backward.ofBytes? (data.extract 0 stop)).getD ⟨data, 8 * stop⟩
  let (bits, output) ← code.decode? count bits output
  if 8 * start ≤ bits.left + 64 then some output else none

/-- Four streams, of which the first three have the same number of symbols. The sizes of these three
stand in front. Where all are of some length it does not matter whether they end with their last
symbol. -/
def fourStreams? (code : PrefixTable) (count : Nat) (data : Bytes) : Option Bytes := do
  let first := 6 + data.littleEndian 0 2
  let second := first + data.littleEndian 2 2
  let third := second + data.littleEndian 4 2
  let share := (count + 3) / 4
  if data.size < 10 || data.size < third || count < 3 * share then none
  let isLong := code.log < PrefixTable.maxLog && 14 ≤ first && first + 8 ≤ second &&
    second + 8 ≤ third && third + 8 ≤ data.size && 3 * share < count
  let stream? := if isLong then freeStream? code data else wholeStream? code data
  let output ← stream? 6 first share #[]
  let output ← stream? first second share output
  let output ← stream? second third share output
  stream? third data.size (count - 3 * share) output

/-- Literal bytes in a prefix code, which is new or that of an earlier block. -/
def codedLiterals (bounds : Bounds) (isNew : Bool) (code : Option PrefixTable) (data : Bytes) :
    Except Fault Literals := do
  if !isNew && code.isNone then throw .noCode
  if data.size < 5 then throw .corrupt
  let form := data.littleEndian 0 1 / 4 % 4
  let headSize := match form with | 2 => 4 | 3 => 5 | _ => 3
  let width := match form with | 2 => 14 | 3 => 18 | _ => 10
  let count := bitsAt data 4 width
  let size := bitsAt data (4 + width) width
  if bounds.limit < count then throw .corrupt
  if form ≠ 0 && count < 6 then throw .literalsHeader
  if data.size < headSize + size then throw .corrupt
  if bounds.room < count then throw .noRoom
  let packed := data.slice headSize size
  let (code, start) ←
    if isNew then orCorrupt (PrefixTable.read? packed)
    else orCorrupt (code.map fun code => (code, 0))
  let streams := packed.extract start packed.size
  let bytes ← orCorrupt <|
    if form = 0 then wholeStream? code streams 0 streams.size count #[]
    else fourStreams? code count streams
  return ⟨bytes, headSize + size, some code⟩

def literals (bounds : Bounds) (code : Option PrefixTable) (data : Bytes) :
    Except Fault Literals :=
  if data.size < 2 then .error .corrupt
  else
    match data.littleEndian 0 1 % 4 with
    | 0 => plainLiterals bounds false code data
    | 1 => plainLiterals bounds true code data
    | 2 => codedLiterals bounds true code data
    | _ => codedLiterals bounds false code data

/-! ## Sequences -/

/-- Ranges that follow one another from `least`, each as large as its number of bits allows. -/
def ranges (least : Nat) : List Nat → List (Nat × Nat)
  | [] => []
  | bits :: rest => (least, bits) :: ranges (least + 1 <<< bits) rest

/-- The numbers of literal bytes by code: the least one and how many bits are added. -/
def literalCounts : Array (Nat × Nat) :=
  List.toArray <| ranges 0 (List.replicate 16 0 ++
    [1, 1, 1, 1, 2, 2, 3, 3, 4, 6, 7, 8, 9, 10, 11, 12, 13, 14, 15, 16])

def matchLengths : Array (Nat × Nat) :=
  List.toArray <| ranges 3 (List.replicate 32 0 ++
    [1, 1, 1, 1, 2, 2, 3, 3, 4, 4, 5, 7, 8, 9, 10, 11, 12, 13, 14, 15, 16])

structure Kind where
  maxLog : Nat
  maxSymbol : Nat
  standard : StateTable
  deriving DecidableEq, Repr

def evenly (count : Nat) : List Share := List.replicate count (.states 1)

def seldom (count : Nat) : List Share := List.replicate count .rare

def literalKind : Kind :=
  ⟨9, 35, .ofShares 6 ([.states 4, .states 3] ++ List.replicate 11 (.states 2) ++ evenly 3 ++
    List.replicate 9 (.states 2) ++ [.states 3, .states 2] ++ evenly 5 ++ seldom 4)⟩

def offsetKind : Kind :=
  ⟨8, 31, .ofShares 5 (evenly 6 ++ List.replicate 3 (.states 2) ++ evenly 15 ++ seldom 5)⟩

def matchKind : Kind :=
  ⟨9, 52, .ofShares 6 ([.states 1, .states 4, .states 3] ++ List.replicate 6 (.states 2) ++
    evenly 37 ++ seldom 7)⟩

structure SequenceCodes where
  literals : StateTable
  offsets : StateTable
  matched : StateTable
  deriving DecidableEq, Repr

def sequenceCode? (kind : Kind) (mode : Nat) (known : Option StateTable) (data : Bytes)
    (position : Nat) : Option (StateTable × Nat) :=
  match mode with
  | 0 => some (kind.standard, position)
  | 1 => do
    let symbol ← data.littleEndian? position 1
    if symbol ≤ kind.maxSymbol then some (.single symbol, position + 1) else none
  | 2 => do
    let (table, size) ← StateTable.read? kind.maxLog kind.maxSymbol
      (data.extract position data.size)
    return (table, position + size)
  | _ => known.map fun table => (table, position)

structure Recent where
  first : Nat := 1
  second : Nat := 4
  third : Nat := 8
  deriving DecidableEq, Repr

/-- An offset is new or one of the last ones. After no literal bytes the latest offset itself is not
repeated, and the last choice is one less than it. -/
def Recent.offset (recent : Recent) (afterNone : Bool) (code bits : Nat) : Nat × Recent :=
  if 1 < code then
    let offset := 1 <<< code + bits - 3
    (offset, ⟨offset, recent.first, recent.second⟩)
  else
    match (if code = 0 then 0 else 1 + bits) + (if afterNone then 1 else 0) with
    | 0 => (recent.first, recent)
    | 1 => (recent.second, ⟨recent.second, recent.first, recent.third⟩)
    | 2 => (recent.third, ⟨recent.third, recent.first, recent.second⟩)
    | _ => (recent.first - 1, ⟨recent.first - 1, recent.first, recent.second⟩)

structure Memory where
  literals : Option PrefixTable := none
  sequences : Option SequenceCodes := none
  recent : Recent := {}
  deriving DecidableEq, Repr

structure Cursor where
  literals : Nat
  offsets : Nat
  matched : Nat
  bits : Backward
  deriving DecidableEq, Repr

def Cursor.start? (codes : SequenceCodes) (bits : Backward) : Option Cursor := do
  let (literals, bits) ← bits.read? codes.literals.log
  let (offsets, bits) ← bits.read? codes.offsets.log
  let (matched, bits) ← bits.read? codes.matched.log
  return ⟨literals, offsets, matched, bits⟩

def Cursor.advance? (codes : SequenceCodes) (cursor : Cursor) : Option Cursor := do
  let literals := codes.literals.get cursor.literals
  let matched := codes.matched.get cursor.matched
  let offsets := codes.offsets.get cursor.offsets
  let (literalBits, bits) ← cursor.bits.read? literals.bits
  let (matchBits, bits) ← bits.read? matched.bits
  let (offsetBits, bits) ← bits.read? offsets.bits
  return ⟨literals.base + literalBits, offsets.base + offsetBits, matched.base + matchBits, bits⟩

/-- So many literal bytes, then so many bytes from `offset` back. -/
structure Sequence where
  literals : Nat
  count : Nat
  offset : Nat
  deriving DecidableEq, Repr

def Cursor.sequence? (codes : SequenceCodes) (recent : Recent) (cursor : Cursor) :
    Option (Sequence × Recent × Cursor) := do
  let literalCode := (codes.literals.get cursor.literals).symbol
  let offsetCode := (codes.offsets.get cursor.offsets).symbol
  let (leastLiterals, literalWidth) ← literalCounts[literalCode]?
  let (leastCount, countWidth) ← matchLengths[(codes.matched.get cursor.matched).symbol]?
  let (offsetBits, bits) ← cursor.bits.read? offsetCode
  let (countBits, bits) ← bits.read? countWidth
  let (literalBits, bits) ← bits.read? literalWidth
  let (offset, recent) := recent.offset (literalCode = 0) offsetCode offsetBits
  return (⟨leastLiterals + literalBits, leastCount + countBits, offset⟩, recent,
    { cursor with bits })

/-- Where a block stands in the content: its frame begins at `origin`, and the block at `start`. -/
structure Place where
  origin : Nat
  start : Nat
  deriving DecidableEq, Repr

/-- Carries out `limit` sequences, which have to use all bits. The answer is also the offsets for the
next block, and how many literal bytes are used. -/
def runSequences (bounds : Bounds) (place : Place) (codes : SequenceCodes) (literals : Bytes) :
    Nat → Cursor → Recent → Nat → Bytes → Except Fault (Recent × Nat × Bytes)
  | 0, cursor, recent, used, output =>
    if cursor.bits.left = 0 then .ok (recent, used, output) else .error .corrupt
  | limit + 1, cursor, recent, used, output => do
    let (sequence, recent, cursor) ← orCorrupt (cursor.sequence? codes recent)
    let size := output.size - place.start + sequence.literals + sequence.count
    if bounds.room < size then throw .noRoom
    if literals.size < used + sequence.literals then throw .corrupt
    let output := output ++ literals.slice used sequence.literals
    if sequence.offset = 0 || output.size - place.origin < sequence.offset then throw .corrupt
    let output := Inflate.copyBack sequence.offset sequence.count output
    let cursor ← if limit = 0 then pure cursor else orCorrupt (cursor.advance? codes)
    runSequences bounds place codes literals limit cursor recent (used + sequence.literals) output

def sequenceCount (data : Bytes) (position : Nat) : Except Fault (Nat × Nat) :=
  match data.littleEndian? position 1 with
  | none => .error .sequencesCut
  | some head =>
    if head < 128 then .ok (head, position + 1)
    else if head < 255 then
      match data.littleEndian? (position + 1) 1 with
      | some low => .ok (256 * (head - 128) + low, position + 2)
      | none => .error .sequencesCut
    else
      match data.littleEndian? (position + 1) 2 with
      | some more => .ok (0x7f00 + more, position + 3)
      | none => .error .sequencesCut

def sequenceCodes? (known : Option SequenceCodes) (modes : Nat) (data : Bytes) (position : Nat) :
    Option (SequenceCodes × Nat) := do
  let (literals, position) ←
    sequenceCode? literalKind (modes / 64) (known.map (·.literals)) data position
  let (offsets, position) ←
    sequenceCode? offsetKind (modes / 16 % 4) (known.map (·.offsets)) data position
  let (matched, position) ←
    sequenceCode? matchKind (modes / 4 % 4) (known.map (·.matched)) data position
  return (⟨literals, offsets, matched⟩, position)

def unpackBlock (bounds : Bounds) (origin : Nat) (data : Bytes) (memory : Memory) (output : Bytes) :
    Except Fault (Memory × Bytes) := do
  let place : Place := ⟨origin, output.size⟩
  let literals ← literals bounds memory.literals data
  let memory := { memory with literals := literals.code }
  let (count, position) ← sequenceCount data literals.size
  let (memory, used, output) ←
    if count = 0 then
      if position ≠ data.size then throw .corrupt
      pure (memory, 0, output)
    else do
      let some modes := data.littleEndian? position 1 | throw .sequencesCut
      if modes % 4 ≠ 0 then throw .corrupt
      let (codes, position) ←
        orCorrupt (sequenceCodes? memory.sequences modes data (position + 1))
      let bits ← orCorrupt (Backward.ofBytes? (data.extract position data.size))
      let cursor ← orCorrupt (Cursor.start? codes bits)
      let (recent, used, output) ←
        runSequences bounds place codes literals.bytes count cursor memory.recent 0 output
      pure ({ memory with sequences := some codes, recent }, used, output)
  let rest := literals.bytes.extract used literals.bytes.size
  let size := output.size - place.start + rest.size
  if bounds.room < size then throw .noRoom
  return (memory, output ++ rest)

end Zstd
end CallProvenance
