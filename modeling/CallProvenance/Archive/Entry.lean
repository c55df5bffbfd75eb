import CallProvenance.Archive.Crc32
import CallProvenance.Archive.EntryName
import CallProvenance.Archive.Error

/-! Entries as the directory of an archive describes them: a header of fixed size, a name, extra
fields and a comment. Extra fields say more about an entry, or say it again in another form. -/
namespace CallProvenance

structure ArchiveEntry where
  /-- The name as it is written; no two entries of an archive have the same. -/
  rawName : Bytes
  name : String
  comment : String
  isEncrypted : Bool
  /-- Set by an extra field on the cipher, whether or not the entry is said to be encrypted. -/
  hasCipher : Bool := false
  method : Nat
  checksum : UInt32
  size : Nat
  contentSize : Nat
  position : Nat
  deriving DecidableEq, Repr

inductive Compression where
  | stored
  | deflated
  | deflated64
  | bzip2
  | lzma
  | zstd
  | xz
  | ppmd
  deriving DecidableEq, Repr

namespace ArchiveEntry

def isDirectory (entry : ArchiveEntry) : Bool :=
  entry.name.endsWith "/" || entry.name.endsWith "\\"

/-- The method that stands for an entry whose real method is told along with its cipher. -/
def cipherMethod : Nat := 99

def compression? (entry : ArchiveEntry) : Option Compression :=
  match entry.method with
  | 0 => some .stored
  | 8 => some .deflated
  | 9 => some .deflated64
  | 12 => some .bzip2
  | 14 => some .lzma
  | 93 => some .zstd
  | 95 => some .xz
  | 98 => some .ppmd
  | _ => none

/-! ## Extra fields -/

/-- An extra field in its place: the bytes of all extra fields, where the content begins and how
long it is said to be. -/
structure Extra where
  bytes : Bytes
  start : Nat
  length : Nat
  deriving DecidableEq, Repr

namespace Extra

def number (extra : Extra) (start count : Nat) : Except ExtraFault Nat :=
  match extra.bytes.littleEndian? start count with
  | some n => .ok n
  | none => .error .cut

/-- Sizes of more than 32 bits: those that their own field leaves open, or all of them. What follows
them in the field need not be there. -/
def wideSizes (extra : Extra) (entry : ArchiveEntry) : Except ExtraFault (ArchiveEntry × Nat) := do
  let widen (n position : Nat) : Except ExtraFault (Nat × Nat) :=
    if 24 ≤ extra.length || n = 0xffffffff then
      match extra.bytes.littleEndian? position 8 with
      | some wide => .ok (wide, position + 8)
      | none => .error .wideSizeCut
    else .ok (n, position)
  let (contentSize, next) ← widen entry.contentSize extra.start
  let (size, next) ← widen entry.size next
  let (position, next) ← widen entry.position next
  let finish := extra.start + extra.length
  if finish < next then throw .wideSizeLength
  return ({ entry with contentSize, size, position }, finish)

/-- Times of a file, of which nothing is kept. -/
def fileTimes (extra : Extra) (entry : ArchiveEntry) : Except ExtraFault (ArchiveEntry × Nat) := do
  if extra.length ≠ 32 then throw .fileTimesLength
  if (← extra.number (extra.start + 4) 2) ≠ 1 then throw .fileTimesTag
  if (← extra.number (extra.start + 6) 2) ≠ 24 then throw .fileTimesSize
  let _ ← extra.number (extra.start + 8) 24
  return (entry, extra.start + 32)

/-- Times in seconds, of which nothing is kept: flags, and four bytes for each that is set. A length
of five stands for one time, whatever the flags say. -/
def timestamps (extra : Extra) (entry : ArchiveEntry) : Except ExtraFault (ArchiveEntry × Nat) := do
  if extra.length = 0 then throw .timestampEmpty
  let flags ← extra.number extra.start 1
  let times := (List.range 8).countP flags.testBit
  if extra.length ≠ 5 && extra.length ≠ 1 + 4 * times then
    throw (.timestampLength extra.length flags)
  let _ ← extra.number extra.start extra.length
  return (entry, extra.start + extra.length)

/-- A text in UTF-8 for one that is given already, whose checksum tells which text is meant. -/
def unicode (extra : Extra) (given : Bytes) : Except ExtraFault (Bytes × Nat) := do
  let sum := UInt32.ofNat (← extra.number (extra.start + 1) 4)
  if extra.length < 5 then throw .unicodeLength
  let size := extra.length - 5
  let _ ← extra.number (extra.start + 5) size
  if sum ≠ Crc32.checksum given then throw (.unicodeChecksum sum (Crc32.checksum given))
  return (extra.bytes.slice (extra.start + 5) size, extra.start + extra.length)

def unicodeName (extra : Extra) (entry : ArchiveEntry) :
    Except ExtraFault (ArchiveEntry × Nat) := do
  let (rawName, next) ← extra.unicode entry.rawName
  match EntryName.utf8? rawName with
  | some name => return ({ entry with rawName, name }, next)
  | none => throw .unicodeText

def unicodeComment (extra : Extra) (entry : ArchiveEntry) :
    Except ExtraFault (ArchiveEntry × Nat) := do
  let (text, next) ← extra.unicode (EntryName.encode entry.comment)
  match EntryName.utf8? text with
  | some comment => return ({ entry with comment }, next)
  | none => throw .unicodeText

def cipher (extra : Extra) (entry : ArchiveEntry) : Except ExtraFault (ArchiveEntry × Nat) := do
  if extra.length ≠ 7 then throw .cipherLength
  let version ← extra.number extra.start 2
  let vendor ← extra.number (extra.start + 2) 2
  match extra.bytes[extra.start + 4]? with
  | none => throw .cipherCut
  | some strength =>
    if vendor ≠ 0x4541 then throw .cipherVendor
    if version ≠ 1 && version ≠ 2 then throw .cipherVersion
    if strength < 1 || 3 < strength then throw .cipherStrength
    let method ← extra.number (extra.start + 5) 2
    return ({ entry with hasCipher := true, method }, extra.start + 7)

def skip (extra : Extra) (entry : ArchiveEntry) : Except ExtraFault (ArchiveEntry × Nat) :=
  let finish := extra.start + extra.length
  if extra.bytes.size < finish then .error .contentCut else .ok (entry, finish)

def apply (extra : Extra) (kind : Nat) (entry : ArchiveEntry) :
    Except ExtraFault (ArchiveEntry × Nat) :=
  match kind with
  | 0x0001 => extra.wideSizes entry
  | 0x000a => extra.fileTimes entry
  | 0x5455 => extra.timestamps entry
  | 0x6375 => extra.unicodeComment entry
  | 0x7075 => extra.unicodeName entry
  | 0x9901 => extra.cipher entry
  | _ => extra.skip entry

/-- The kinds that have a meaning; the last of them stands for padding. -/
def knownKinds : List Nat := [0x0001, 0x000a, 0x5455, 0x6375, 0x7075, 0x9901, 0xa11e]

end Extra

/-- Applies the extra fields from a position on, at most `limit` of them. A lone byte at the end does
not matter, nor does a kind without a meaning that has no length. -/
def applyExtras (bytes : Bytes) : Nat → Nat → ArchiveEntry → Except ExtraFault ArchiveEntry
  | 0, _, entry => return entry
  | limit + 1, position, entry => do
    match bytes.littleEndian? position 2, bytes.littleEndian? (position + 2) 2 with
    | none, _ => return entry
    | some kind, none => if kind ∈ Extra.knownKinds then throw (.noLength kind) else return entry
    | some kind, some length =>
      let extra : Extra := { bytes, start := position + 4, length }
      let (entry, next) ← extra.apply kind entry
      applyExtras bytes limit next entry

/-! ## Headers -/

def signature : Nat := 0x02014b50

def headerSize : Nat := 46

/-- The entry whose directory header is at a position, and where the next header is. The place of
the entry is larger than the header says by `shift`. -/
def readAt (bytes : Bytes) (shift position : Nat) : Except ArchiveError (ArchiveEntry × Nat) := do
  let field (offset count : Nat) : Nat := bytes.littleEndian (position + offset) count
  if bytes.size < position + headerSize then throw .directoryHeaderCut
  if field 0 4 ≠ signature then throw .badDirectoryHeader
  let flags := field 8 2
  let nameStart := position + headerSize
  let extraStart := nameStart + field 28 2
  let commentStart := extraStart + field 30 2
  let next := commentStart + field 32 2
  if bytes.size < next then throw .headerTextCut
  let rawName := bytes.extract nameStart extraStart
  let isUtf8 := flags.testBit 11
  let written : ArchiveEntry := {
    rawName
    name := EntryName.decode isUtf8 rawName
    comment := EntryName.decode isUtf8 (bytes.extract commentStart next)
    isEncrypted := flags.testBit 0
    method := field 10 2
    checksum := UInt32.ofNat (field 16 4)
    size := field 20 4
    contentSize := field 24 4
    position := field 42 4 }
  let extras := bytes.extract extraStart commentStart
  let entry ← (applyExtras extras extras.size 0 written).mapError .extra
  if entry.method = cipherMethod && !entry.hasCipher then throw .noCipher
  let place := entry.position + shift
  if 1 <<< 64 ≤ place then throw .positionTooLarge
  return ({ entry with position := place }, next)

end ArchiveEntry
end CallProvenance
