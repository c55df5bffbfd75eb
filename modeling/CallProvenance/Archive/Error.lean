import CallProvenance.Archive.Bzip2
import CallProvenance.Archive.Inflate
import CallProvenance.Archive.Ppmd
import CallProvenance.Archive.Xz
import CallProvenance.Archive.Zstd

/-! Why an archive or one of its entries cannot be read. -/
namespace CallProvenance

def padded (base width n : Nat) : String :=
  let digits := Nat.toDigits base n
  (String.ofList (List.replicate (width - digits.length) '0' ++ digits)).toUpper

/-- A fault in reading is told together with its cause, which has the same text. -/
def readingFault (text : String) : String := s!"i/o error: {text}: {text}"

inductive ExtraFault where
  /-- A field of a kind with a meaning here has no length. -/
  | noLength (kind : Nat)
  /-- The content of a field without a meaning here goes past the end. -/
  | contentCut
  | cut
  | wideSizeCut
  | wideSizeLength
  | fileTimesLength
  | fileTimesTag
  | fileTimesSize
  | timestampEmpty
  | timestampLength (length flags : Nat)
  | unicodeLength
  | unicodeChecksum (given expected : UInt32)
  | unicodeText
  | cipherLength
  | cipherCut
  | cipherVendor
  | cipherVersion
  | cipherStrength
  deriving DecidableEq, Repr

def ExtraFault.message : ExtraFault → String
  | .noLength kind => s!"invalid Zip archive: Extra field 0x{padded 16 4 kind} header truncated"
  | .contentCut => "invalid Zip archive: Extra field content truncated"
  | .cut => readingFault "failed to fill whole buffer"
  | .wideSizeCut => "invalid Zip archive: ZIP64 extra field truncated"
  | .wideSizeLength => "invalid Zip archive: ZIP64 extra-data field is the wrong length"
  | .fileTimesLength => "unsupported Zip archive: NTFS extra field has an unsupported length"
  | .fileTimesTag => "unsupported Zip archive: NTFS extra field has an unsupported attribute tag"
  | .fileTimesSize => "unsupported Zip archive: NTFS extra field has an unsupported attribute size"
  | .timestampEmpty => "invalid Zip archive: Extended timestamp field is empty"
  | .timestampLength length flags =>
    readingFault ("flags and len don't match in extended timestamp field " ++
      s!"len={length} flags={padded 2 8 flags}")
  | .unicodeLength => "invalid Zip archive: Unicode extra field is too small"
  | .unicodeChecksum given expected =>
    let text (sum : UInt32) := padded 16 6 sum.toNat
    "invalid Zip archive: CRC32 checksum failed on Unicode extra field, " ++
      s!"it is '0x{text given}' and it should be '0x{text expected}'"
  | .unicodeText => "invalid Zip archive: Invalid UTF-8"
  | .cipherLength => "unsupported Zip archive: AES extra data field has an unsupported length"
  | .cipherCut => "invalid Zip archive: AES extra field truncated"
  | .cipherVendor => "invalid Zip archive: Invalid AES vendor"
  | .cipherVersion => "invalid Zip archive: Invalid AES vendor version"
  | .cipherStrength => "invalid Zip archive: Invalid AES encryption strength"

inductive ArchiveError where
  | noEndRecord
  | endRecordCut
  | commentCut
  | directoryOutside
  | noDirectory
  /-- The wide record would be behind its locator. -/
  | wideRecordOutside
  | manyDisks
  | wideRecordCut
  | wideRecordShort
  | wideRecordLong
  | wideRecordDisk
  | wideRecordLength
  | wideRecordCount
  | noWideRecord
  | moreThanAll
  | severalDisks
  | directoryHeaderCut
  | badDirectoryHeader
  /-- A name, a comment or the extra fields go past the last byte. -/
  | headerTextCut
  | extra (fault : ExtraFault)
  | noCipher
  | positionTooLarge
  | entryNotFound
  | encrypted
  /-- The local header is at a place where no file can be read. -/
  | unreachable
  | localHeaderCut
  | badLocalHeader
  | unknownMethod (method : Nat)
  | wrongPassword
  | inflate (fault : Inflate.Fault)
  | inflate64
  | bunzip2 (fault : Bzip2.Fault)
  | unlzma (fault : Lzma.Fault)
  | unzstd (fault : Zstd.Fault)
  | unxz (fault : Xz.Fault)
  | unppmd (fault : Ppmd.Fault)
  | badChecksum
  deriving DecidableEq, Repr

def ArchiveError.message : ArchiveError → String
  | .noEndRecord => "invalid Zip archive: Could not find EOCD"
  | .endRecordCut => "invalid Zip archive: Unexpected end of zip::spec::Zip32CDEBlock"
  | .commentCut => "invalid Zip archive: EOCD comment exceeds file boundary"
  | .directoryOutside => "invalid Zip archive: Invalid CDFH offset in EOCD"
  | .noDirectory => "invalid Zip archive: No CDFH found"
  | .wideRecordOutside => "invalid Zip archive: Invalid EOCD64 Locator CD offset"
  | .manyDisks => "invalid Zip archive: Multi-disk ZIP files are not supported"
  | .wideRecordCut => "invalid Zip archive: Unexpected end of zip::spec::Zip64CDEBlock"
  | .wideRecordShort => "invalid Zip archive: Low EOCD64 record size"
  | .wideRecordLong => "invalid Zip archive: EOCD64 extends beyond EOCD64 locator"
  | .wideRecordDisk => "invalid Zip archive: Invalid EOCD64: inconsistency with Locator data"
  | .wideRecordLength => "invalid Zip archive: Invalid EOCD64: inconsistent length"
  | .wideRecordCount => "invalid Zip archive: Invalid EOCD64: inconsistent number of files"
  | .noWideRecord => "invalid Zip archive: Could not find EOCD64"
  | .moreThanAll =>
    "invalid Zip archive: ZIP64 footer indicates more files on this disk than in the whole archive"
  | .severalDisks => "unsupported Zip archive: Support for multi-disk files is not implemented"
  | .directoryHeaderCut => "invalid Zip archive: Unexpected end of zip::spec::ZipCentralEntryBlock"
  | .badDirectoryHeader => "invalid Zip archive: Invalid Central Directory header"
  | .headerTextCut => "invalid Zip archive: Variable-length field extends beyond file boundary"
  | .extra fault => fault.message
  | .noCipher => "invalid Zip archive: AES encryption without AES extra data field"
  | .positionTooLarge => "invalid Zip archive: Archive header is too large"
  | .entryNotFound => "specified file not found in archive"
  | .encrypted => "unsupported Zip archive: Password required to decrypt file"
  | .unreachable => readingFault "Invalid argument (os error 22)"
  | .localHeaderCut => "invalid Zip archive: Unexpected end of zip::spec::ZipLocalEntryBlock"
  | .badLocalHeader => "invalid Zip archive: Invalid local file header"
  | .unknownMethod method => s!"compression method not supported: {method}"
  | .wrongPassword => "provided password is incorrect"
  | .inflate fault => fault.message
  | .inflate64 => "invalid deflate64"
  | .bunzip2 fault => fault.message
  | .unlzma fault => fault.message
  | .unzstd fault => fault.message
  | .unxz fault => fault.message
  | .unppmd fault => fault.message
  | .badChecksum => "Invalid checksum"

end CallProvenance
