import CallProvenance.Archive.Checksum
import CallProvenance.Archive.Zstd.Block

/-! Decompression of zstd data: frames that follow one another, each with a header, blocks and an
optional checksum. Frames for other use are skipped. -/
namespace CallProvenance
namespace Zstd

/-! ## Headers -/

def magic : Nat := 0xfd2fb528

/-- The magic numbers of frames to be skipped differ in their last four bits. -/
def skippedMagic : Nat := 0x184d2a5

/-- Too few bytes for a header may still be the beginning of one. -/
def mayBegin (data : Bytes) (position : Nat) : Bool :=
  let have4 := min 4 (data.size - position)
  let given := bytesAt data position have4
  given = magic % 1 <<< (8 * have4) ||
    (given + skippedMagic * 16 / 1 <<< (8 * have4) * 1 <<< (8 * have4)) / 16 = skippedMagic

structure FrameHeader where
  size : Nat
  window : Nat
  contentSize : Option Nat
  dictionary : Nat
  hasChecksum : Bool
  deriving DecidableEq, Repr

def windowLimit : Nat := 1 <<< 27 + 1

def blockLimit : Nat := 1 <<< 17

namespace FrameHeader

def read (data : Bytes) (position : Nat) : Except Fault FrameHeader := do
  let flags := bytesAt data (position + 4) 1
  let isSingle := flags / 32 % 2 = 1
  let windowSize := if isSingle then 0 else 1
  let dictionarySize := match flags % 4 with | 3 => 4 | size => size
  let contentWidth := match flags / 64 with
    | 0 => if isSingle then 1 else 0
    | width => 1 <<< width
  let size := 5 + windowSize + dictionarySize + contentWidth
  if data.size < position + size then throw .cut
  if flags / 8 % 2 = 1 then throw .header
  let windowByte := bytesAt data (position + 5) 1
  let log := windowByte / 8 + 10
  if !isSingle && 31 < log then throw .window
  let contentSize := bytesAt data (position + 5 + windowSize + dictionarySize) contentWidth +
    if contentWidth = 2 then 256 else 0
  return {
    size
    window := if isSingle then contentSize else 1 <<< log + 1 <<< log / 8 * (windowByte % 8)
    contentSize := if contentWidth = 0 then none else some contentSize
    dictionary := bytesAt data (position + 5 + windowSize) dictionarySize
    hasChecksum := flags / 4 % 2 = 1 }

def blockLimit (header : FrameHeader) : Nat := min header.window Zstd.blockLimit

end FrameHeader

structure Buffers where
  input : Nat := 0
  output : Nat := 0
  deriving DecidableEq, Repr

/-- There is room for all of the content, or for the window and two blocks of it. -/
def Buffers.needed (header : FrameHeader) : Buffers :=
  let ring := max header.window 1024 + 2 * header.blockLimit + 64
  ⟨max header.blockLimit 4, min ring (header.contentSize.getD ring)⟩

/-- Buffers of an earlier frame are kept if they are large enough. -/
def Buffers.prepare (buffers : Buffers) (header : FrameHeader) : Buffers :=
  let needed := Buffers.needed header
  if buffers.input < needed.input || buffers.output < needed.output then needed else buffers

/-- Where the next block is put. A buffer that does not hold all of the content is filled anew from
its beginning when a block may not fit. -/
def Buffers.next (buffers : Buffers) (header : FrameHeader) (place : Nat) : Nat :=
  if header.contentSize.all (buffers.output < ·) && buffers.output < place + header.blockLimit then 0
  else place

/-- The memory in which all content is gathered: how much of it is used, and how much there is. -/
structure Gathered where
  length : Nat := 0
  capacity : Nat := 0
  deriving DecidableEq, Repr

namespace Gathered

def grown (gathered : Gathered) : Nat :=
  if gathered.length = gathered.capacity then
    max (2 * gathered.capacity) (gathered.length + 32)
  else gathered.capacity

def piece (gathered : Gathered) : Nat :=
  if gathered.length = 0 then 32 else min 8192 (gathered.grown - gathered.length)

def add : Nat → Nat → Gathered → Gathered
  | 0, _, gathered => gathered
  | limit + 1, count, gathered =>
    if count = 0 then gathered
    else
      let taken := min count gathered.piece
      add limit (count - taken)
        ⟨gathered.length + taken, if gathered.length = 0 then max 8 taken else gathered.grown⟩

end Gathered

/-! ## Blocks -/

/-- What stands in front of a block. The kinds are plain bytes, one byte that is repeated, and packed
content. -/
structure BlockHead where
  isLast : Bool
  kind : Nat
  count : Nat
  deriving DecidableEq, Repr

namespace BlockHead

def ofNat (head : Nat) : BlockHead := ⟨head % 2 = 1, head / 2 % 4, head / 8⟩

def read? (data : Bytes) (position : Nat) : Option BlockHead :=
  if data.size < position + 3 then none else some (ofNat (bytesAt data position 3))

def size (head : BlockHead) : Nat := if head.kind = 1 then 1 else head.count

def plain (head : BlockHead) (data : Bytes) (position : Nat) : Bytes :=
  if head.kind = 1 then Array.replicate head.count (data.getD position 0)
  else data.slice position head.count

end BlockHead

structure Progress where
  position : Nat := 0
  buffers : Buffers := {}
  gathered : Gathered := {}
  output : Bytes := #[]
  deriving DecidableEq, Repr

/-- Reads the blocks of a frame whose content begins at `origin`; the next one is put at `place` of the
buffer. The answer is also whether the last block is empty. -/
def blocks (data : Bytes) (header : FrameHeader) (buffers : Buffers) (origin : Nat) :
    Nat → Memory → Nat → Nat → Bytes → Except Fault (Bool × Nat × Bytes)
  | 0, _, _, _, _ => .error .cut
  | limit + 1, memory, place, position, output => do
    let some head := BlockHead.read? data position | throw .cut
    let position := position + 3
    if head.kind = 3 || header.blockLimit < head.size then throw .corrupt
    if data.size < position + head.size then throw .cut
    let bounds : Bounds := ⟨header.blockLimit, buffers.output - place⟩
    let start := output.size
    let (memory, output) ←
      if head.size = 0 then pure (memory, output)
      else if head.kind = 2 then
        unpackBlock bounds origin (data.slice position head.size) memory output
      else if bounds.room < head.count then throw .noRoom
      else pure (memory, output ++ head.plain data position)
    if header.blockLimit < output.size - start then throw .corrupt
    if head.isLast then return (head.size = 0, position + head.size, output)
    let place := buffers.next header (place + (output.size - start))
    blocks data header buffers origin limit memory place (position + head.size) output

/-! ## Frames read at once -/

/-- Where a frame ends whose next block stands at a position, if all of it is there. -/
def frameEnd? (data : Bytes) (header : FrameHeader) : Nat → Nat → Option Nat
  | 0, _ => none
  | limit + 1, position => do
    let head ← BlockHead.read? data position
    let stop := position + 3 + head.size
    if head.kind = 3 || data.size < stop then none
    if !head.isLast then frameEnd? data header limit stop
    else
      let stop := stop + if header.hasChecksum then 4 else 0
      if data.size < stop then none else some stop

/-- A frame that is all there is read at once if its content fits into the next piece. -/
def isReadAtOnce (data : Bytes) (header : FrameHeader) (progress : Progress) : Bool :=
  header.contentSize.any (· ≤ progress.gathered.piece) &&
    (frameEnd? data header data.size (progress.position + header.size)).isSome

/-- Reads the blocks of a frame that is read at once, with `room` for its content. -/
def blocksAtOnce (data : Bytes) (header : FrameHeader) (room origin : Nat) :
    Nat → Memory → Nat → Bytes → Except Fault (Nat × Bytes)
  | 0, _, _, _ => .error .cut
  | limit + 1, memory, position, output => do
    let some head := BlockHead.read? data position | throw .cut
    let position := position + 3
    let bounds : Bounds := ⟨header.blockLimit, room - (output.size - origin)⟩
    let (memory, output) ←
      if head.kind = 2 then
        if header.blockLimit < head.size then throw .sequencesCut
        else unpackBlock bounds origin (data.slice position head.size) memory output
      else if bounds.room < head.count then throw .noRoom
      else pure (memory, output ++ head.plain data position)
    if head.isLast then return (position + head.size, output)
    blocksAtOnce data header room origin limit memory (position + head.size) output

/-! ## Frames -/

/-- Looks at the checksum of the content from `origin` on; the answer is the position behind it. -/
def checkFrame (data : Bytes) (header : FrameHeader) (origin position : Nat) (output : Bytes) :
    Except Fault Nat := do
  if !header.hasChecksum then return position
  if data.size < position + 4 then throw .cut
  let hash := (Xxh64.hash (output.extract origin output.size)).toNat
  if hash % 1 <<< 32 ≠ bytesAt data position 4 then throw .checksum
  return position + 4

/-- The content has to have the size that the header tells. This is not looked at behind an empty
block, unless the frame is read at once. -/
def frame (data : Bytes) (header : FrameHeader) (progress : Progress) : Except Fault Progress := do
  let ⟨start, buffers, gathered, output⟩ := progress
  if header.dictionary ≠ 0 then throw .dictionary
  let origin := output.size
  let start := start + header.size
  let (buffers, endsEmpty, position, output) ←
    if isReadAtOnce data header progress then do
      let (position, output) ←
        blocksAtOnce data header gathered.piece origin data.size {} start output
      pure (buffers, false, position, output)
    else do
      if windowLimit < header.window then throw .window
      let buffers := buffers.prepare header
      pure (buffers, ← blocks data header buffers origin data.size {} 0 start output)
  let size := output.size - origin
  if !endsEmpty && header.contentSize.getD size ≠ size then throw .corrupt
  let position ← checkFrame data header origin position output
  return ⟨position, buffers, gathered.add size size, output⟩

def frames (data : Bytes) : Nat → Progress → Except Fault Bytes
  | 0, progress => .ok progress.output
  | limit + 1, progress => do
    let left := data.size - progress.position
    if left < 5 then
      if mayBegin data progress.position then throw .cut else throw .magic
    let given := bytesAt data progress.position 4
    let next ←
      if given = magic then do
        frame data (← FrameHeader.read data progress.position) progress
      else if given / 16 = skippedMagic then
        let size := 8 + bytesAt data (progress.position + 4) 4
        if left < size then throw .cut else pure { progress with position := progress.position + size }
      else throw .magic
    if next.position = data.size then return next.output else frames data limit next

end Zstd

/-- The content of zstd data. There is at least one frame, and nothing stands between frames or behind
the last one. -/
def unzstd (data : Bytes) : Except Zstd.Fault Bytes := Zstd.frames data (data.size + 1) {}

end CallProvenance
