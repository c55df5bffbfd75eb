import CallProvenance.Archive.EndRecord
import CallProvenance.Archive.Inflate64

/-! Archives of named entries. A record at the end tells how many entries there are and where their
directory starts; each directory header points to a local header in front of the entry's data.
Bytes may stand before the first local header, and all positions are then larger by their number. -/
namespace CallProvenance

structure Archive where
  bytes : Bytes
  /-- One entry for each written name. -/
  entries : List ArchiveEntry
  deriving DecidableEq, Repr

namespace Archive

/-! ## The directory -/

/-- A later entry of the same written name takes the place of the earlier one. -/
def add (entries : List ArchiveEntry) (entry : ArchiveEntry) : List ArchiveEntry :=
  if entries.any (·.rawName = entry.rawName) then
    entries.map fun earlier => if earlier.rawName = entry.rawName then entry else earlier
  else entries ++ [entry]

def readEntries (bytes : Bytes) (shift : Nat) :
    Nat → Nat → List ArchiveEntry → Except ArchiveError (List ArchiveEntry)
  | 0, _, entries => return entries
  | count + 1, position, entries => do
    let (entry, next) ← ArchiveEntry.readAt bytes shift position
    readEntries bytes shift count next (add entries entry)

def Directory.entries (directory : Directory) (bytes : Bytes) :
    Except ArchiveError (List ArchiveEntry) :=
  match directory.flaw with
  | some cause => .error cause
  | none => readEntries bytes directory.shift directory.count directory.start []

/-- Why no end record has led to entries so far. -/
structure Rejection where
  /-- The last fault in a directory that was found; it outweighs the other. -/
  directory : Option ArchiveError := none
  record : Option ArchiveError := none
  deriving DecidableEq, Repr

def Rejection.cause (rejection : Rejection) : ArchiveError :=
  (rejection.directory.or rejection.record).getD .noEndRecord

/-- Takes the last end record below a position that leads to entries. A record that is cut is named
only if nothing worse has been met. -/
def search (bytes : Bytes) : Nat → Rejection → Except ArchiveError (List ArchiveEntry)
  | 0, rejection => .error rejection.cause
  | position + 1, rejection =>
    if hasSignature bytes position EndRecord.signature then
      match EndRecord.readAt bytes position with
      | .error cause =>
        search bytes position { rejection with record := rejection.record.or (some cause) }
      | .ok record =>
        match record.directory bytes position with
        | .error cause => search bytes position { rejection with record := some cause }
        | .ok directory =>
          match directory.entries bytes with
          | .error cause => search bytes position { rejection with directory := some cause }
          | .ok entries => .ok entries
    else search bytes position rejection

def read (bytes : Bytes) : Except ArchiveError Archive :=
  (search bytes bytes.size {}).map fun entries => { bytes, entries }

/-! ## Content -/

def localSignature : Nat := 0x04034b50

def localHeaderSize : Nat := 30

structure Packed where
  compression : Compression
  data : Bytes
  contentSize : Nat
  deriving DecidableEq, Repr

/-- Finds an entry's data, which follows the local header. A cipher may name, as the real method, the
one that stands for ciphers. -/
def openEntry (archive : Archive) (entry : ArchiveEntry) : Except ArchiveError Packed := do
  let bytes := archive.bytes
  if entry.isEncrypted then throw .encrypted
  if 1 <<< 63 ≤ entry.position then throw .unreachable
  if bytes.size < entry.position + localHeaderSize then throw .localHeaderCut
  if !hasSignature bytes entry.position localSignature then throw .badLocalHeader
  let nameSize := bytes.littleEndian (entry.position + 26) 2
  let extraSize := bytes.littleEndian (entry.position + 28) 2
  if entry.method = ArchiveEntry.cipherMethod then throw .wrongPassword
  match entry.compression? with
  | none => throw (.unknownMethod entry.method)
  | some compression =>
    if entry.hasCipher then throw .wrongPassword
    let start := entry.position + localHeaderSize + nameSize + extraSize
    return { compression, data := bytes.slice start entry.size, contentSize := entry.contentSize }

def Packed.unpack (packed : Packed) : Except ArchiveError Bytes :=
  match packed.compression with
  | .stored => .ok packed.data
  | .deflated => (inflate packed.data).mapError .inflate
  | .deflated64 =>
    match inflate64 packed.data with
    | some content => .ok content
    | none => .error .inflate64
  | .bzip2 => (bunzip2 packed.data).mapError .bunzip2
  | .lzma => (unlzma packed.contentSize packed.data).mapError .unlzma
  | .zstd => (unzstd packed.data).mapError .unzstd
  | .xz => (unxz packed.data).mapError .unxz
  | .ppmd => (unppmd packed.data).mapError .unppmd

def content (archive : Archive) (entry : ArchiveEntry) : Except ArchiveError Bytes := do
  let content ← (← archive.openEntry entry).unpack
  if Crc32.checksum content ≠ entry.checksum then throw .badChecksum
  return content

/-- An entry is found by its written name. A name that is not written in UTF-8 may be that of no
entry or of another one. -/
def find? (archive : Archive) (name : String) : Option ArchiveEntry :=
  archive.entries.find? (·.rawName = EntryName.encode name)

def contentOf (archive : Archive) (name : String) : Except ArchiveError Bytes :=
  match archive.find? name with
  | some entry => archive.content entry
  | none => .error .entryNotFound

end Archive
end CallProvenance
