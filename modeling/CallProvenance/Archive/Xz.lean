import CallProvenance.Archive.Checksum
import CallProvenance.Archive.Crc32
import CallProvenance.Archive.Xz.Branch
import CallProvenance.Archive.Xz.Chunks

/-! Decompression of xz data: a stream of blocks with a header, an index of the blocks and a footer.
Each block names the filters that its bytes have passed, the last of which packs them in chunks, and
ends with a checksum. -/
namespace CallProvenance
namespace Xz

inductive Part where
  | packedSize
  | size
  | filters
  | delta
  | branch
  | branchStart
  | lzma2
  deriving DecidableEq, Repr

def Part.text : Part → String
  | .packedSize => "compressed size"
  | .size => "uncompressed size"
  | .filters => "filters"
  | .delta => "Delta properties"
  | .branch => "BCJ properties"
  | .branchStart => "BCJ start offset"
  | .lzma2 => "LZMA2 properties"

inductive Fault where
  | cut
  | magic
  | streamFlags
  | checkType
  | headerChecksum
  | blockHeaderCut (part : Part)
  | blockHeaderPadding
  | blockHeaderChecksum
  | number
  | numberCut
  | filter
  | deltaSize
  | branchSize
  | branchStart
  | lzma2Size
  | dictionarySize
  | filterOrder
  | chunks (fault : Chunks.Fault)
  | paddingCut
  | padding
  | blockChecksum
  | indexRecord
  | indexPadding
  | indexCount
  | indexChecksum
  | footerMagic
  | footerFlags
  | footerChecksum
  deriving DecidableEq, Repr

def Fault.message : Fault → String
  | .cut => "failed to fill whole buffer"
  | .magic => "invalid XZ magic bytes"
  | .streamFlags => "invalid XZ stream flags"
  | .checkType => "unsupported XZ check type"
  | .headerChecksum => "XZ stream header CRC32 mismatch"
  | .blockHeaderCut part => s!"XZ block header too short for {part.text}"
  | .blockHeaderPadding => "invalid XZ block header padding"
  | .blockHeaderChecksum => "XZ block header CRC32 mismatch"
  | .number => "XZ multibyte integer too large"
  | .numberCut => "incomplete XZ multibyte integer"
  | .filter => "unsupported filter type found"
  | .deltaSize => "invalid Delta properties size"
  | .branchSize => "invalid BCJ properties size"
  | .branchStart => "BCJ start offset not aligned to filter requirements"
  | .lzma2Size => "invalid LZMA2 properties size"
  | .dictionarySize => "invalid LZMA2 dictionary size"
  | .filterOrder => "XZ block's last filter must be a LZMA2 filter"
  | .chunks fault => fault.message
  | .paddingCut => "incomplete XZ block padding"
  | .padding => "invalid XZ block padding"
  | .blockChecksum => "invalid block checksum"
  | .indexRecord => "invalid index record unpadded size"
  | .indexPadding => "invalid XZ index padding"
  | .indexCount => "number of blocks processed doesn't match index records"
  | .indexChecksum => "XZ index CRC32 mismatch"
  | .footerMagic => "invalid XZ footer magic bytes"
  | .footerFlags => "stream header and footer flags mismatch"
  | .footerChecksum => "XZ footer CRC32 mismatch"

/-- Reads the data; the state is the number of bytes read so far. -/
abbrev Step (α : Type) := ReaderT Bytes (EStateM Fault Nat) α

def need (count : Nat) (fault : Fault) : Step Unit := do
  if (← read).size < (← get) + count then throw fault

def take (count : Nat) : Step Bytes := do
  need count .cut
  let position ← get
  set (position + count)
  return (← read).slice position count

def byte : Step Nat := return (← take 1).littleEndian 0 1

/-- A number in at most so many groups of seven bits, lowest first; the highest bit of a byte tells that
it goes on. -/
def groups (fault : Fault) : Nat → Step Nat
  | 0 => throw .number
  | limit + 1 => do
    need 1 fault
    let low ← byte
    if low < 0x80 then return low else return low - 0x80 + 0x80 * (← groups fault limit)

def number (fault : Fault) : Step Nat := groups fault 9

/-! ## Filters -/

/-- Undoes a filter that writes differences to the byte `distance` before. -/
def addUp (distance : Nat) (bytes : Bytes) : Bytes :=
  bytes.foldl
    (fun sums byte =>
      let before := if distance ≤ sums.size then sums.getD (sums.size - distance) 0 else 0
      sums.push (byte + before))
    #[]

inductive Filter where
  | delta (distance : Nat)
  | branch (machine : Machine) (start : Nat)
  | lzma2 (dictionary : Nat)
  deriving DecidableEq, Repr

/-- A dictionary size is two or three times a power of two. -/
def dictionarySize (byte : Nat) : Option Nat :=
  if 40 < byte then none
  else if byte = 40 then some 0xffffffff
  else some ((2 + byte % 2) * 1 <<< (byte / 2 + 11))

def propertySize (part : Part) : Step Nat := do
  need 1 (.blockHeaderCut part)
  number .numberCut

def delta : Step Filter := do
  if (← propertySize .delta) ≠ 1 then throw .deltaSize
  need 1 (.blockHeaderCut .delta)
  return .delta ((← byte) + 1)

/-- Code begins at the address zero if no other is given. -/
def branch (machine : Machine) : Step Filter := do
  match ← propertySize .branch with
  | 0 => return .branch machine 0
  | 4 =>
    need 4 (.blockHeaderCut .branchStart)
    let start := (← take 4).littleEndian 0 4
    if start % machine.alignment ≠ 0 then throw .branchStart
    return .branch machine start
  | _ => throw .branchSize

def lzma2 : Step Filter := do
  if (← propertySize .lzma2) ≠ 1 then throw .lzma2Size
  need 1 (.blockHeaderCut .lzma2)
  match dictionarySize (← byte) with
  | some size => return .lzma2 size
  | none => throw .dictionarySize

def filter : Step Filter := do
  need 1 (.blockHeaderCut .filters)
  match ← number .numberCut with
  | 0x03 => delta
  | 0x04 => branch .x86
  | 0x05 => branch .powerPC
  | 0x06 => branch .ia64
  | 0x07 => branch .arm
  | 0x08 => branch .armThumb
  | 0x09 => branch .sparc
  | 0x0a => branch .arm64
  | 0x0b => branch .riscV
  | 0x21 => lzma2
  | _ => throw .filter

/-- Undoes the filters, the last first. The answer is also how many bytes of the input have been read
when so many bytes of the content have been asked for; a branch filter reads all it can. -/
def unfilter (input : Chunks.Flow) : List Filter → Chunks.Flow × (Nat → Nat)
  | [] => (input, id)
  | .delta distance :: rest =>
    let (flow, inputFor) := unfilter input rest
    ({ flow with bytes := addUp distance flow.bytes }, inputFor)
  | .branch machine start :: rest =>
    let (flow, inputFor) := unfilter input rest
    let size := flow.bytes.size
    ({ flow with bytes := machine.relativize start flow.bytes }, fun _ => inputFor (size + 1))
  | .lzma2 dictionary :: rest =>
    let (flow, inputFor) := unfilter input rest
    let (content, state) := unchunk dictionary flow
    (content, fun count => inputFor (state.inputFor count))

/-! ## Blocks -/

inductive Check where
  | nothing
  | crc32
  | crc64
  | sha256
  deriving DecidableEq, Repr

def Check.ofByte? : Nat → Option Check
  | 0 => some .nothing
  | 1 => some .crc32
  | 4 => some .crc64
  | 10 => some .sha256
  | _ => none

def littleEndianBytes (count n : Nat) : Bytes :=
  ((List.range count).map fun k => UInt8.ofNat (n >>> (8 * k) % 256)).toArray

def Check.of (check : Check) (bytes : Bytes) : Bytes :=
  match check with
  | .nothing => #[]
  | .crc32 => littleEndianBytes 4 (Crc32.checksum bytes).toNat
  | .crc64 => littleEndianBytes 8 (Crc64.checksum bytes).toNat
  | .sha256 => Sha256.hash bytes

/-- Four bytes hold the checksum of the `count` bytes before them. -/
def checksummed (count : Nat) (fault : Fault) : Step Unit := do
  let position ← get
  let covered := (← read).slice (position - count) count
  if (← take 4) ≠ Check.crc32.of covered then throw fault

def paddingSize (size : Nat) : Nat := (4 - size % 4) % 4

/-- The fields of a block's header. The sizes it may give are not used. -/
def headerFields : Step (List Filter) := do
  let flags ← byte
  if flags.testBit 6 then
    need 1 (.blockHeaderCut .packedSize)
    let _ ← number .numberCut
  if flags.testBit 7 then
    need 1 (.blockHeaderCut .size)
    let _ ← number .numberCut
  let filters ← (List.range (flags % 4 + 1)).mapM fun _ => filter
  match filters.getLast? with
  | some (.lzma2 _) => return filters
  | _ => throw .filterOrder

/-- The header of a block after its size in units of four bytes, less one. Its fields may go on into
its checksum. -/
def blockHeader (units : Nat) : Step (List Filter) := do
  let head ← get
  let fields ← take (4 * units + 3)
  let finish := 4 * units - 1
  match headerFields.run fields |>.run 0 with
  | .error fault _ => throw fault
  | .ok filters position =>
    if (fields.extract position finish).any (· ≠ 0) then throw .blockHeaderPadding
    set (head + finish)
    checksummed (4 * units) .blockHeaderChecksum
    return filters

def block (check : Check) (units : Nat) : Step Bytes := do
  let filters ← blockHeader units
  let start ← get
  let data ← read
  let (flow, inputFor) := unfilter ⟨data.extract start data.size, none⟩ filters
  if let some fault := flow.fault then throw (.chunks fault)
  let size := inputFor (flow.bytes.size + 1)
  set (start + size)
  need (paddingSize size) .paddingCut
  if (← take (paddingSize size)).any (· ≠ 0) then throw .padding
  if (← take (check.of #[]).size) ≠ check.of flow.bytes then throw .blockChecksum
  return flow.bytes

/-- The index, after its mark, and the footer of a stream of `count` blocks. -/
def ending (flags : Bytes) (count : Nat) : Step Unit := do
  let start := (← get) - 1
  let records ← number .cut
  records.forM fun _ _ => do
    let packedSize ← number .cut
    let _ ← number .cut
    if packedSize = 0 then throw .indexRecord
  if (← take (paddingSize ((← get) - start))).any (· ≠ 0) then throw .indexPadding
  checksummed ((← get) - start) .indexChecksum
  if records ≠ count then throw .indexCount
  let expected ← take 4
  let covered ← take 6
  if expected ≠ Check.crc32.of covered then throw .footerChecksum
  if (← take 2) ≠ #[0x59, 0x5a] then throw .footerMagic
  if covered.slice 4 2 ≠ flags then throw .footerFlags

def blocks (flags : Bytes) (check : Check) : Nat → Nat → Bytes → Step Bytes
  | 0, _, _ => throw .cut
  | limit + 1, count, output => do
    let units ← byte
    if units = 0 then
      ending flags count
      return output
    else blocks flags check limit (count + 1) (output ++ (← block check units))

def stream : Step Bytes := do
  if (← take 6) ≠ #[0xfd, 0x37, 0x7a, 0x58, 0x5a, 0] then throw .magic
  let flags ← take 2
  if flags.getD 0 0 ≠ 0 then throw .streamFlags
  match Check.ofByte? (flags.littleEndian 1 1) with
  | none => throw .checkType
  | some check =>
    checksummed 2 .headerChecksum
    blocks flags check (← read).size 0 #[]

end Xz

/-- What xz data decompresses to; what follows the stream is not looked at. -/
def unxz (data : Bytes) : Except Xz.Fault Bytes :=
  match Xz.stream.run data |>.run 0 with
  | .ok output _ => .ok output
  | .error fault _ => .error fault

end CallProvenance
