import CallProvenance.Bytes

/-! The cyclic redundancy check of archives: the remainder, with bits reflected, of the bytes
divided by a fixed polynomial over the field of two elements. -/
namespace CallProvenance
namespace Crc32

/-- The divisor, lowest power in the highest bit. -/
def polynomial : UInt32 := 0xedb88320

def divideBit (remainder : UInt32) : UInt32 :=
  if remainder &&& 1 = 1 then (remainder >>> 1) ^^^ polynomial else remainder >>> 1

def addByte (remainder : UInt32) (byte : UInt8) : UInt32 :=
  Nat.repeat divideBit 8 (remainder ^^^ byte.toUInt32)

def checksum (bytes : Bytes) : UInt32 := bytes.foldl addByte 0xffffffff ^^^ 0xffffffff

end Crc32
end CallProvenance
