import CallProvenance.Archive.PrefixCode
import CallProvenance.Bytes

/-! Decompression of deflated data: blocks that are stored as they are or written in prefix codes,
with copies of earlier output. Bits are read only when they are needed, so of two faults the one met
first is found; what follows the last block is not looked at. Each block and each symbol takes at
least one bit, so the number of bits bounds all repetition. -/
namespace CallProvenance
namespace Inflate

inductive Fault where
  | incomplete
  | corrupt
  deriving DecidableEq, Repr

def Fault.message : Fault → String
  | .incomplete => "incomplete deflate stream"
  | .corrupt => "corrupt deflate stream"

structure Progress where
  /-- Bits read so far; the lowest bit of a byte comes first. -/
  position : Nat := 0
  output : Bytes := #[]
  deriving DecidableEq, Repr

abbrev Step (α : Type) := ReaderT Bytes (EStateM Fault Progress) α

def bit : Step Nat := do
  let position := (← get).position
  match (← read)[position / 8]? with
  | none => throw .incomplete
  | some byte =>
    modify fun progress => { progress with position := position + 1 }
    return (byte.toNat >>> (position % 8)) % 2

def number : Nat → Step Nat
  | 0 => return 0
  | count + 1 => do
    let low ← bit
    return low + 2 * (← number count)

def emit (byte : UInt8) : Step Unit :=
  modify fun progress => { progress with output := progress.output.push byte }

/-! ## Codes -/

def next (code : PrefixCode) : Step Nat := do
  match ← code.next? bit with
  | some symbol => return symbol
  | none => throw .corrupt

/-- A code for literals or distances is complete, or it has at most one codeword, of a single bit. -/
def isUsable (code : PrefixCode) : Bool :=
  code.isComplete || (code.longest = 1 && code.symbols.size ≤ 1)

def checked (lengths : List Nat) : Step PrefixCode :=
  let code := PrefixCode.ofLengths lengths
  if isUsable code then return code else throw .corrupt

/-! ## Blocks -/

/-- The shortest copy of each length symbol, and how many bits tell how much longer it is. -/
def copyLengths : Array (Nat × Nat) := #[
  (3, 0), (4, 0), (5, 0), (6, 0), (7, 0), (8, 0), (9, 0), (10, 0), (11, 1), (13, 1),
  (15, 1), (17, 1), (19, 2), (23, 2), (27, 2), (31, 2), (35, 3), (43, 3), (51, 3), (59, 3),
  (67, 4), (83, 4), (99, 4), (115, 4), (131, 5), (163, 5), (195, 5), (227, 5), (258, 0)]

/-- The nearest start of each distance symbol, and how many bits tell how much farther it is. -/
def copyDistances : Array (Nat × Nat) := #[
  (1, 0), (2, 0), (3, 0), (4, 0), (5, 1), (7, 1), (9, 2), (13, 2), (17, 3), (25, 3),
  (33, 4), (49, 4), (65, 5), (97, 5), (129, 6), (193, 6), (257, 7), (385, 7), (513, 8), (769, 8),
  (1025, 9), (1537, 9), (2049, 10), (3073, 10), (4097, 11), (6145, 11), (8193, 12), (12289, 12),
  (16385, 13), (24577, 13)]

def ranged (table : Array (Nat × Nat)) (symbol : Nat) : Step Nat := do
  match table[symbol]? with
  | none => throw .corrupt
  | some (least, extra) => return least + (← number extra)

/-- Appends `count` bytes, each the one that stands `distance` before the end. -/
def copyBack (distance : Nat) : Nat → Bytes → Bytes
  | 0, output => output
  | count + 1, output =>
    match output[output.size - distance]? with
    | some byte => copyBack distance count (output.push byte)
    | none => output

def endOfBlock : Nat := 256

def symbols (literals distances : PrefixCode) : Nat → Step Unit
  | 0 => throw .incomplete
  | limit + 1 => do
    let symbol ← next literals
    if symbol < endOfBlock then
      emit (UInt8.ofNat symbol)
      symbols literals distances limit
    else if symbol = endOfBlock then return
    else
      let count ← ranged copyLengths (symbol - endOfBlock - 1)
      let distance ← ranged copyDistances (← next distances)
      let progress ← get
      if progress.output.size < distance then throw .corrupt
      set { progress with output := copyBack distance count progress.output }
      symbols literals distances limit

def fixedLiterals : PrefixCode :=
  .ofLengths (List.replicate 144 8 ++ List.replicate 112 9 ++ List.replicate 24 7 ++
    List.replicate 8 8)

def fixedDistances : PrefixCode := .ofLengths (List.replicate 32 5)

def lengthOrder : List Nat := [16, 17, 18, 0, 8, 7, 9, 6, 10, 5, 11, 4, 12, 3, 13, 2, 14, 1, 15]

/-- The code for lengths is complete or has no codeword. -/
def lengthCode (lengths : List Nat) : Step PrefixCode :=
  let code := PrefixCode.ofLengths lengths
  if code.isComplete || code.isEmpty then return code else throw .corrupt

/-- Without codewords each bit stands for the length zero. -/
def nextLength (code : PrefixCode) : Step Nat := do
  if code.isEmpty then
    let _ ← bit
    return 0
  else next code

/-- Reads code lengths until there are `wanted`, each symbol giving at least one. -/
def lengths (code : PrefixCode) (wanted : Nat) : Nat → List Nat → Step (List Nat)
  | 0, reversed => if reversed.length = wanted then return reversed.reverse else throw .corrupt
  | limit + 1, reversed => do
    if wanted ≤ reversed.length then lengths code wanted 0 reversed
    else
      let more (count length : Nat) :=
        lengths code wanted limit (List.replicate count length ++ reversed)
      match ← nextLength code with
      | 16 =>
        let count := 3 + (← number 2)
        match reversed.head? with
        | none => throw .corrupt
        | some length => more count length
      | 17 => more (3 + (← number 3)) 0
      | 18 => more (11 + (← number 7)) 0
      | length => more 1 length

def literalLimit : Nat := 286

def distanceLimit : Nat := 30

/-- The codes for literals and for distances that a block brings along. Without a codeword for its
end the block could not end. -/
def ownCodes : Step (PrefixCode × PrefixCode) := do
  let literals := 257 + (← number 5)
  let distances := 1 + (← number 5)
  let given := 4 + (← number 4)
  if literalLimit < literals || distanceLimit < distances then throw .corrupt
  let short ← (List.range given).mapM fun _ => number 3
  let ordered := (List.range lengthOrder.length).map fun symbol =>
    ((lengthOrder.zip short).lookup symbol).getD 0
  let all ← lengths (← lengthCode ordered) (literals + distances) (literals + distances) []
  if all.getD endOfBlock 0 = 0 then throw .corrupt
  return (← checked (all.take literals), ← checked (all.drop literals))

/-- Copies bytes from the next byte boundary, after their number and its complement. -/
def storedBlock : Step Unit := do
  modify fun progress => { progress with position := (progress.position + 7) / 8 * 8 }
  let count ← number 16
  let complement ← number 16
  if count + complement ≠ 0xffff then throw .corrupt
  let data ← read
  let progress ← get
  let start := progress.position / 8
  if data.size < start + count then throw .incomplete
  set { progress with
    position := progress.position + 8 * count
    output := progress.output ++ data.slice start count }

def blocks (bits : Nat) : Nat → Step Unit
  | 0 => throw .incomplete
  | limit + 1 => do
    let last ← bit
    match ← number 2 with
    | 0 => storedBlock
    | 1 => symbols fixedLiterals fixedDistances bits
    | 2 =>
      let (literals, distances) ← ownCodes
      symbols literals distances bits
    | _ => throw .corrupt
    if last = 1 then return else blocks bits limit

end Inflate

def inflate (data : Bytes) : Except Inflate.Fault Bytes :=
  let bits := 8 * data.size + 1
  match (Inflate.blocks bits bits).run data |>.run {} with
  | .ok _ progress => .ok progress.output
  | .error fault _ => .error fault

end CallProvenance
