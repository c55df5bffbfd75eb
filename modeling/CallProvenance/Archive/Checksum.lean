import CallProvenance.Bytes

/-! More checksums of packed data: a cyclic redundancy check of 64 bits and hashes of 64 and of 256
bits. -/
namespace CallProvenance

namespace Crc64

/-- The divisor, lowest power in the highest bit. -/
def polynomial : UInt64 := 0xc96c5795d7870f42

def divideBit (remainder : UInt64) : UInt64 :=
  if remainder &&& 1 = 1 then (remainder >>> 1) ^^^ polynomial else remainder >>> 1

def addByte (remainder : UInt64) (byte : UInt8) : UInt64 :=
  Nat.repeat divideBit 8 (remainder ^^^ byte.toUInt64)

def checksum (bytes : Bytes) : UInt64 :=
  bytes.foldl addByte 0xffffffffffffffff ^^^ 0xffffffffffffffff

end Crc64

namespace Xxh64

def prime1 : UInt64 := 0x9e3779b185ebca87

def prime2 : UInt64 := 0xc2b2ae3d27d4eb4f

def prime3 : UInt64 := 0x165667b19e3779f9

def prime4 : UInt64 := 0x85ebca77c2b2ae63

def prime5 : UInt64 := 0x27d4eb2f165667c5

def rotateLeft (n count : UInt64) : UInt64 := (n <<< count) ||| (n >>> (64 - count))

def word (bytes : Bytes) (position size : Nat) : UInt64 :=
  UInt64.ofNat (bytes.littleEndian position size)

def round (lane input : UInt64) : UInt64 := rotateLeft (lane + input * prime2) 31 * prime1

structure Lanes where
  a : UInt64 := prime1 + prime2
  b : UInt64 := prime2
  c : UInt64 := 0
  d : UInt64 := 0 - prime1
  deriving DecidableEq, Repr

def Lanes.add (bytes : Bytes) (lanes : Lanes) (stripe : Nat) : Lanes where
  a := round lanes.a (word bytes (32 * stripe) 8)
  b := round lanes.b (word bytes (32 * stripe + 8) 8)
  c := round lanes.c (word bytes (32 * stripe + 16) 8)
  d := round lanes.d (word bytes (32 * stripe + 24) 8)

def merge (hash lane : UInt64) : UInt64 := (hash ^^^ round 0 lane) * prime1 + prime4

def Lanes.hash (lanes : Lanes) : UInt64 :=
  let mixed := rotateLeft lanes.a 1 + rotateLeft lanes.b 7 + rotateLeft lanes.c 12 +
    rotateLeft lanes.d 18
  [lanes.a, lanes.b, lanes.c, lanes.d].foldl merge mixed

def addEight (bytes : Bytes) (start : Nat) (hash : UInt64) (k : Nat) : UInt64 :=
  rotateLeft (hash ^^^ round 0 (word bytes (start + 8 * k) 8)) 27 * prime1 + prime4

def addFour (bytes : Bytes) (position : Nat) (hash : UInt64) : UInt64 :=
  rotateLeft (hash ^^^ word bytes position 4 * prime1) 23 * prime2 + prime3

def addOne (hash : UInt64) (byte : UInt8) : UInt64 :=
  rotateLeft (hash ^^^ byte.toUInt64 * prime5) 11 * prime1

def avalanche (hash : UInt64) : UInt64 :=
  let hash := (hash ^^^ (hash >>> 33)) * prime2
  let hash := (hash ^^^ (hash >>> 29)) * prime3
  hash ^^^ (hash >>> 32)

/-- Four lanes take eight bytes each in turn, and the rest of the bytes is mixed in at the end. -/
def hash (bytes : Bytes) : UInt64 :=
  let stripes := bytes.size / 32
  let lanes := (List.range stripes).foldl (Lanes.add bytes) {}
  let begun := (if stripes = 0 then prime5 else lanes.hash) + UInt64.ofNat bytes.size
  let eights := bytes.size % 32 / 8
  let position := 32 * stripes + 8 * eights
  let mixed := (List.range eights).foldl (addEight bytes (32 * stripes)) begun
  let hasFour := 4 ≤ bytes.size - position
  let mixed := if hasFour then addFour bytes position mixed else mixed
  let position := if hasFour then position + 4 else position
  avalanche ((bytes.extract position bytes.size).foldl addOne mixed)

end Xxh64

namespace Sha256

def rounds : Array UInt32 := #[
  0x428a2f98, 0x71374491, 0xb5c0fbcf, 0xe9b5dba5, 0x3956c25b, 0x59f111f1, 0x923f82a4, 0xab1c5ed5,
  0xd807aa98, 0x12835b01, 0x243185be, 0x550c7dc3, 0x72be5d74, 0x80deb1fe, 0x9bdc06a7, 0xc19bf174,
  0xe49b69c1, 0xefbe4786, 0x0fc19dc6, 0x240ca1cc, 0x2de92c6f, 0x4a7484aa, 0x5cb0a9dc, 0x76f988da,
  0x983e5152, 0xa831c66d, 0xb00327c8, 0xbf597fc7, 0xc6e00bf3, 0xd5a79147, 0x06ca6351, 0x14292967,
  0x27b70a85, 0x2e1b2138, 0x4d2c6dfc, 0x53380d13, 0x650a7354, 0x766a0abb, 0x81c2c92e, 0x92722c85,
  0xa2bfe8a1, 0xa81a664b, 0xc24b8b70, 0xc76c51a3, 0xd192e819, 0xd6990624, 0xf40e3585, 0x106aa070,
  0x19a4c116, 0x1e376c08, 0x2748774c, 0x34b0bcb5, 0x391c0cb3, 0x4ed8aa4a, 0x5b9cca4f, 0x682e6ff3,
  0x748f82ee, 0x78a5636f, 0x84c87814, 0x8cc70208, 0x90befffa, 0xa4506ceb, 0xbef9a3f7, 0xc67178f2]

structure State where
  a : UInt32 := 0x6a09e667
  b : UInt32 := 0xbb67ae85
  c : UInt32 := 0x3c6ef372
  d : UInt32 := 0xa54ff53a
  e : UInt32 := 0x510e527f
  f : UInt32 := 0x9b05688c
  g : UInt32 := 0x1f83d9ab
  h : UInt32 := 0x5be0cd19
  deriving DecidableEq, Repr

def rotate (word count : UInt32) : UInt32 := (word >>> count) ||| (word <<< (32 - count))

/-- The text with a one, zeros and its length in bits, up to a multiple of 64 bytes. -/
def pad (bytes : Bytes) : Bytes :=
  let zeros := (119 - bytes.size % 64) % 64
  let length := (List.range 8).map fun k => UInt8.ofNat ((8 * bytes.size) >>> (8 * (7 - k)) % 256)
  bytes.push 0x80 ++ Array.replicate zeros 0 ++ length.toArray

def schedule (block : Bytes) (start : Nat) : Array UInt32 :=
  let first := ((List.range 16).map fun k =>
    UInt32.ofNat ((block.number? (start + 4 * k) 4).getD 0)).toArray
  (List.range' 16 48).foldl
    (fun words k =>
      let word (back : Nat) := words.getD (k - back) 0
      let far := word 15
      let near := word 2
      let mixFar := rotate far 7 ^^^ rotate far 18 ^^^ (far >>> 3)
      let mixNear := rotate near 17 ^^^ rotate near 19 ^^^ (near >>> 10)
      words.push (word 16 + mixFar + word 7 + mixNear))
    first

def round (words : Array UInt32) (s : State) (k : Nat) : State :=
  let mixE := rotate s.e 6 ^^^ rotate s.e 11 ^^^ rotate s.e 25
  let choice := (s.e &&& s.f) ^^^ ((s.e ^^^ 0xffffffff) &&& s.g)
  let one := s.h + mixE + choice + rounds.getD k 0 + words.getD k 0
  let mixA := rotate s.a 2 ^^^ rotate s.a 13 ^^^ rotate s.a 22
  let majority := (s.a &&& s.b) ^^^ (s.a &&& s.c) ^^^ (s.b &&& s.c)
  ⟨one + mixA + majority, s.a, s.b, s.c, s.d + one, s.e, s.f, s.g⟩

def addBlock (text : Bytes) (s : State) (block : Nat) : State :=
  let words := schedule text (64 * block)
  let t := (List.range 64).foldl (round words) s
  ⟨s.a + t.a, s.b + t.b, s.c + t.c, s.d + t.d, s.e + t.e, s.f + t.f, s.g + t.g, s.h + t.h⟩

def hash (bytes : Bytes) : Bytes :=
  let text := pad bytes
  let s := (List.range (text.size / 64)).foldl (addBlock text) {}
  ([s.a, s.b, s.c, s.d, s.e, s.f, s.g, s.h].flatMap fun (word : UInt32) =>
    [(word >>> 24).toUInt8, (word >>> 16).toUInt8, (word >>> 8).toUInt8, word.toUInt8]).toArray

end Sha256
end CallProvenance
