/-! Byte strings and the numbers in them. -/
namespace CallProvenance

abbrev Bytes := Array UInt8

namespace Bytes

/-- The big-endian number in `count` bytes from `start`; `none` past the end. -/
def number? (bytes : Bytes) (start count : Nat) : Option Nat :=
  (List.range count).foldlM (fun n k => (bytes[start + k]?).map fun byte => 256 * n + byte.toNat) 0

/-- The little-endian number in `count` bytes from `start`; `none` past the end. -/
def littleEndian? (bytes : Bytes) (start : Nat) : Nat → Option Nat
  | 0 => some 0
  | count + 1 => do
    let byte ← bytes[start]?
    return byte.toNat + 256 * (← littleEndian? bytes (start + 1) count)

/-- The little-endian number in `count` bytes from `start`, where bytes past the end make it zero. -/
def littleEndian (bytes : Bytes) (start count : Nat) : Nat :=
  (bytes.littleEndian? start count).getD 0

/-- Reads `bits` bits as a two's complement number. -/
def signed (bits n : Nat) : Int := if n < 1 <<< (bits - 1) then n else (n : Int) - (1 <<< bits : Nat)

def slice (bytes : Bytes) (start count : Nat) : Bytes := bytes.extract start (start + count)

end Bytes
end CallProvenance
