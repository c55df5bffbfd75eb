import CallProvenance.Archive.Entry

/-! The record at the end of an archive, which tells how many entries there are and where their
directory starts. Numbers that do not fit into it stand in a wide record, and a locator right in front
of the end record tells where that one is. -/
namespace CallProvenance
namespace Archive

def hasSignature (bytes : Bytes) (position signature : Nat) : Bool :=
  bytes.littleEndian? position 4 = some signature

/-- Where the directory is, and by how much positions are larger than the archive says. -/
structure Directory where
  start : Nat
  shift : Nat
  count : Nat
  /-- Why it cannot be read although it has been found. -/
  flaw : Option ArchiveError
  deriving DecidableEq, Repr

/-! ## Wide records -/

structure Locator where
  directoryDisk : Nat
  start : Nat
  disks : Nat
  deriving DecidableEq, Repr

namespace Locator

def signature : Nat := 0x07064b50

def size : Nat := 20

def readAt? (bytes : Bytes) (position : Nat) : Option Locator :=
  let field (offset count : Nat) : Nat := bytes.littleEndian (position + offset) count
  if hasSignature bytes position signature && position + size ≤ bytes.size then
    some ⟨field 4 4, field 8 8, field 16 4⟩
  else none

end Locator

structure WideRecord where
  disk : Nat
  directoryDisk : Nat
  count : Nat
  total : Nat
  start : Nat
  deriving DecidableEq, Repr

namespace WideRecord

def signature : Nat := 0x06064b50

def size : Nat := 56

def leastLength : Nat := 40

def leastHeader : Nat := 46

/-- Reads the record between a position and the locator, which it has to fill. -/
def readAt (bytes : Bytes) (locator : Locator) (position stop : Nat) :
    Except ArchiveError WideRecord := do
  let field (offset count : Nat) : Nat := bytes.littleEndian (position + offset) count
  if bytes.size < position + size then throw .wideRecordCut
  let length := field 4 8
  if length < leastLength then throw .wideRecordShort
  if stop - position < length + 12 then throw .wideRecordLong
  let record : WideRecord := {
    disk := field 16 4
    directoryDisk := field 20 4
    count := field 24 8
    total := field 32 8
    start := field 48 8 }
  if record.directoryDisk ≠ locator.directoryDisk then throw .wideRecordDisk
  if length + 12 ≠ stop - position then throw .wideRecordLength
  if position < leastHeader * record.total + record.start then throw .wideRecordCount
  return record

def flaw (record : WideRecord) : Option ArchiveError :=
  if record.total < record.count then some .moreThanAll
  else if record.disk ≠ record.directoryDisk then some .severalDisks
  else none

/-- The first wide record among some places that can be read; otherwise the fault of the last one. -/
def search (bytes : Bytes) (locator : Locator) (stop : Nat) :
    List Nat → ArchiveError → Except ArchiveError Directory
  | [], cause => .error cause
  | position :: places, cause =>
    if hasSignature bytes position signature then
      match readAt bytes locator position stop with
      | .ok record =>
        let shift := position - locator.start
        .ok ⟨record.start + shift, shift, record.total, record.flaw⟩
      | .error cause => search bytes locator stop places cause
    else search bytes locator stop places cause

end WideRecord

/-- The directory according to the wide record of a locator, which is itself at a position. -/
def Locator.directory (locator : Locator) (bytes : Bytes) (position : Nat) :
    Except ArchiveError Directory :=
  if position ≤ locator.start then .error .wideRecordOutside
  else if 1 < locator.disks then .error .manyDisks
  else
    WideRecord.search bytes locator position
      (List.range' locator.start (position - locator.start)) .noWideRecord

/-! ## End records -/

structure EndRecord where
  disk : Nat
  directoryDisk : Nat
  count : Nat
  total : Nat
  length : Nat
  start : Nat
  deriving DecidableEq, Repr

namespace EndRecord

def signature : Nat := 0x06054b50

def size : Nat := 22

def readAt (bytes : Bytes) (position : Nat) : Except ArchiveError EndRecord := do
  let field (offset count : Nat) : Nat := bytes.littleEndian (position + offset) count
  if bytes.size < position + size then throw .endRecordCut
  if bytes.size < position + size + field 20 2 then throw .commentCut
  return {
    disk := field 4 2
    directoryDisk := field 6 2
    count := field 8 2
    total := field 10 2
    length := field 12 4
    start := field 16 4 }

/-- A number that is as large as it can be may stand for one in a wide record. -/
def mayBeWide (record : EndRecord) : Bool :=
  record.total = 0xffff || record.length = 0xffffffff || record.start = 0xffffffff

def flaw (record : EndRecord) : Option ArchiveError :=
  if record.disk ≠ record.directoryDisk then some .severalDisks else none

/-- The directory according to the record alone. It starts with the first directory header that is
not before the place the record gives, and an empty one where the record is. -/
def ownDirectory (record : EndRecord) (bytes : Bytes) (position : Nat) :
    Except ArchiveError Directory :=
  if record.total = 0 then
    let shift := position - record.start
    .ok ⟨record.start + shift, shift, record.count, record.flaw⟩
  else if position ≤ record.start then .error .directoryOutside
  else
    let places := List.range' record.start (position - record.start)
    match places.find? (hasSignature bytes · ArchiveEntry.signature) with
    | some found => .ok ⟨found, found - record.start, record.count, record.flaw⟩
    | none => .error .noDirectory

def locator? (record : EndRecord) (bytes : Bytes) (position : Nat) : Option Locator :=
  if record.mayBeWide && Locator.size ≤ position then
    Locator.readAt? bytes (position - Locator.size)
  else none

def directory (record : EndRecord) (bytes : Bytes) (position : Nat) :
    Except ArchiveError Directory :=
  match record.locator? bytes position with
  | some locator => locator.directory bytes (position - Locator.size)
  | none => record.ownDirectory bytes position

end EndRecord
end Archive
end CallProvenance
