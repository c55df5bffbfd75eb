import CallProvenance.Bytes

/-! Decompression of LZMA data. Every decision of the compressor, which are bytes or copies of earlier
output, is a bit whose probability adapts to those before it; a range coder spreads the bits over
the data. -/
namespace CallProvenance
namespace Lzma

inductive Fault where
  | cut
  | propertySize (size : Nat)
  | badProperties
  | dictionarySize
  | badStart
  | distance
  | overrun
  deriving DecidableEq, Repr

def Fault.message : Fault → String
  | .cut => "failed to fill whole buffer"
  | .propertySize size => s!"unexpected LZMA properties size of {size}"
  | .badProperties => "invalid props byte"
  | .dictionarySize => "dict size too large"
  | .badStart => "range decoder first byte is 0"
  | .distance => "dist overflow"
  | .overrun => "end reached but not decoder finished"

/-- How much of the previous byte and of the position decides which probabilities are used. -/
structure Properties where
  literalContext : Nat
  literalPosition : Nat
  position : Nat
  deriving DecidableEq, Repr

def Properties.ofByte? (byte : Nat) : Option Properties :=
  if byte < 9 * 5 * 5 then some ⟨byte % 9, byte / 9 % 5, byte / 45⟩ else none

/-! ## Probabilities -/

/-- Where each group of probabilities begins. -/
def isMatch : Nat := 0

def isRepeat : Nat := 192

def isOlder : Nat := 204

def isOlder1 : Nat := 216

def isOlder2 : Nat := 228

def isLong : Nat := 240

def slots : Nat := 432

def middleDistances : Nat := 688

def aligned : Nat := 816

def matchLengths : Nat := 832

def repeatLengths : Nat := 1346

def literals : Nat := 1860

def literalSize : Nat := 0x300

/-- Probabilities are in units of 1/2048 and begin with a half. -/
def even : UInt32 := 1024

def probabilities (properties : Properties) : Array UInt32 :=
  let count := literalSize * 1 <<< (properties.literalContext + properties.literalPosition)
  Array.replicate (literals + count) even

structure Progress where
  next : Nat := 0
  range : UInt32 := 0xffffffff
  code : UInt32 := 0
  probabilities : Array UInt32 := #[]
  /-- What kinds of decisions came last. -/
  state : Nat := 0
  /-- The last four distances, less one. -/
  distance : Nat := 0
  older : Nat × Nat × Nat := (0, 0, 0)
  output : Bytes := #[]
  deriving DecidableEq, Repr

structure Source where
  data : Bytes
  finish : Nat
  properties : Properties
  dictionary : Nat
  start : Nat
  deriving Repr

abbrev Step (α : Type) := ReaderT Source (EStateM Fault Progress) α

/-- What is read past the end. -/
def filler : UInt8 := 1

@[inline] def Progress.normalize (progress : Progress) (source : Source) : Progress :=
  if progress.range < 0x1000000 then
    let byte := if progress.next < source.finish then source.data.getD progress.next filler
      else filler
    { progress with
      next := progress.next + 1
      range := progress.range <<< 8
      code := (progress.code <<< 8) ||| byte.toUInt32 }
  else progress

def bit (index : Nat) : Step Nat := fun source progress =>
  let progress := progress.normalize source
  let chance := progress.probabilities.getD index even
  let bound := (progress.range >>> 11) * chance
  if progress.code < bound then
    .ok 0 { progress with
      range := bound
      probabilities := progress.probabilities.setIfInBounds index
        (chance + ((2048 - chance) >>> 5)) }
  else
    .ok 1 { progress with
      range := progress.range - bound
      code := progress.code - bound
      probabilities := progress.probabilities.setIfInBounds index (chance - (chance >>> 5)) }

/-- Decodes a number of `count` bits that have no probabilities, after higher bits. -/
def direct : Nat → Nat → Step Nat
  | 0, high => return high
  | count + 1, high => do
    let value ← fun source progress =>
      let progress := progress.normalize source
      let half := progress.range >>> 1
      if progress.code < half then .ok 0 { progress with range := half }
      else .ok 1 { progress with range := half, code := progress.code - half }
    direct count (2 * high + value)

/-- Decodes a number of `count` bits, highest first; each bit has its own probability for all that
came before it. The result has a one in front. -/
def tree (base : Nat) : Nat → Nat → Step Nat
  | 0, node => return node
  | count + 1, node => do tree base count (2 * node + (← bit (base + node)))

/-- The same with the lowest bit first, and no one in front. -/
def reverseTree (base : Nat) : Nat → Nat → Step Nat
  | 0, _ => return 0
  | count + 1, node => do
    let low ← bit (base + node)
    return low + 2 * (← reverseTree base count (2 * node + low))

/-! ## Decisions -/

def position : Step Nat := return (← get).output.size - (← read).start

def positionState : Step Nat :=
  return (← position) % 1 <<< (← read).properties.position

/-- The byte `distance + 1` before the end; zero before the beginning. -/
def earlier (distance : Nat) : Step UInt8 := do
  let place ← position
  let output := (← get).output
  return if distance < place then output.getD (output.size - 1 - distance) 0 else 0

def emit (byte : UInt8) : Step Unit :=
  modify fun progress => { progress with output := progress.output.push byte }

def setState (f : Nat → Nat) : Step Unit :=
  modify fun progress => { progress with state := f progress.state }

/-- After a copy, the bits of a byte are expected to differ somewhere from those of the byte that the
copy would go on with; up to there that byte takes part in the choice of probabilities. -/
def matchedLiteral (base : Nat) : Nat → Nat → Nat → Step Nat
  | 0, _, node => return node
  | count + 1, expected, node => do
    let guess := expected / 128 % 2
    let value ← bit (base + 0x100 * (1 + guess) + node)
    let node := 2 * node + value
    if value = guess then matchedLiteral base count (2 * expected) node
    else tree base count node

def literal : Step Unit := do
  let properties := (← read).properties
  let low := (← position) % 1 <<< properties.literalPosition
  let high := (← earlier 0).toNat >>> (8 - properties.literalContext)
  let base := literals + literalSize * (low * 1 <<< properties.literalContext + high)
  let state := (← get).state
  let node ←
    if state < 7 then tree base 8 1
    else matchedLiteral base 8 (← earlier (← get).distance).toNat 1
  emit (UInt8.ofNat node)
  setState fun state => if state < 4 then 0 else if state < 10 then state - 3 else state - 6

def length (base : Nat) : Step Nat := do
  let state ← positionState
  if (← bit base) = 0 then return (← tree (base + 2 + 8 * state) 3 1) - 8 + 2
  else if (← bit (base + 1)) = 0 then return (← tree (base + 130 + 8 * state) 3 1) - 8 + 10
  else return (← tree (base + 258) 8 1) - 256 + 18

def distance (length : Nat) : Step Nat := do
  let slot := (← tree (slots + 64 * min (length - 2) 3) 6 1) - 64
  if slot < 4 then return slot
  else
    let count := slot / 2 - 1
    let high := (2 + slot % 2) * 1 <<< count
    if slot < 14 then return high + (← reverseTree (middleDistances + high - slot) count 1)
    else
      let middle ← direct (count - 4) (2 + slot % 2)
      return 16 * middle + (← reverseTree aligned 4 1)

/-- Chooses one of the last distances and moves it to the front. The answer is whether the copy is a
single byte at the last distance. -/
def reuseDistance (state : Nat) : Step Bool := do
  if (← bit (isOlder + state)) = 0 then
    return (← bit (isLong + 16 * state + (← positionState))) = 0
  else
    let progress ← get
    let (second, third, fourth) := progress.older
    if (← bit (isOlder1 + state)) = 0 then
      modify fun progress =>
        { progress with distance := second, older := (progress.distance, third, fourth) }
    else if (← bit (isOlder2 + state)) = 0 then
      modify fun progress =>
        { progress with distance := third, older := (progress.distance, second, fourth) }
    else
      modify fun progress =>
        { progress with distance := fourth, older := (progress.distance, second, third) }
    return false

/-- The length of the next copy; its distance is then the last one. -/
def copyLength : Step Nat := do
  let state := (← get).state
  if (← bit (isRepeat + state)) = 0 then
    let count ← length matchLengths
    let newest ← distance count
    modify fun progress =>
      { progress with
        state := if progress.state < 7 then 7 else 10
        distance := newest
        older := (progress.distance, progress.older.1, progress.older.2.1) }
    return count
  else if ← reuseDistance state then
    setState fun state => if state < 7 then 9 else 11
    return 1
  else
    let count ← length repeatLengths
    setState fun state => if state < 7 then 8 else 11
    return count

def copyBack (distance : Nat) : Nat → Bytes → Bytes
  | 0, output => output
  | count + 1, output =>
    copyBack distance count (output.push (output.getD (output.size - 1 - distance) 0))

/-- Decodes up to an output of `size` bytes. Each decision gives at least one byte. -/
def decisions (size : Nat) : Nat → Step Unit
  | 0 => return
  | limit + 1 => do
    if size ≤ (← get).output.size then return
    let state := (← get).state
    if (← bit (isMatch + 16 * state + (← positionState))) = 0 then literal
    else
      let count ← copyLength
      let place ← position
      let progress ← get
      if min place (← read).dictionary ≤ progress.distance then throw .distance
      if size < progress.output.size + count then throw .overrun
      modify fun progress =>
        { progress with output := copyBack progress.distance count progress.output }
    decisions size limit

def begin (data : Bytes) (start finish : Nat) : Except Fault (Nat × UInt32) :=
  if finish < start + 5 || data.size < start + 5 then .error .cut
  else if data.getD start 0 ≠ 0 then .error .badStart
  else
    let code := (List.range 4).foldl (fun n k => 256 * n + (data.getD (start + 1 + k) 0).toNat) 0
    .ok (start + 5, UInt32.ofNat code)

/-- Dictionaries have at least 4096 bytes and a multiple of sixteen. -/
def dictionarySize (size : Nat) : Nat := (max size 4096 + 15) / 16 * 16

end Lzma

/-- What the data of an entry decompresses to: a version, the size of the properties, a byte and a
dictionary size as properties, and then the decisions. The size of the content tells the end. -/
def unlzma (contentSize : Nat) (data : Bytes) : Except Lzma.Fault Bytes := do
  if data.size < 4 then throw .cut
  let propertySize := data.littleEndian 2 2
  if propertySize ≠ 5 then throw (.propertySize propertySize)
  if data.size < 9 then throw .cut
  match Lzma.Properties.ofByte? (data.littleEndian 4 1) with
  | none => throw .badProperties
  | some properties =>
    let given := data.littleEndian 5 4
    if 0xfffffff0 < given then throw .dictionarySize
    let (next, code) ← Lzma.begin data 9 data.size
    let source : Lzma.Source := {
      data
      finish := data.size
      properties
      dictionary := min (Lzma.dictionarySize given) (Lzma.dictionarySize contentSize)
      start := 0 }
    let progress : Lzma.Progress := {
      next, code, probabilities := Lzma.probabilities properties }
    match (Lzma.decisions contentSize contentSize).run source |>.run progress with
    | .ok _ progress => return progress.output
    | .error fault _ => throw fault

end CallProvenance
