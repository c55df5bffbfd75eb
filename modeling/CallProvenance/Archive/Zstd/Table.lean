import CallProvenance.Bytes

/-! The two kinds of codes of zstd data. Both are read from the last bit to the first: in a state
table each symbol tells how many bits lead to the next state, and in a prefix table the next bits are
looked up at once. -/
namespace CallProvenance
namespace Zstd

/-- The little-endian number in `count` bytes from `start`, where bytes past the end are zero. -/
def bytesAt (data : Bytes) (start : Nat) : Nat → Nat
  | 0 => 0
  | count + 1 => (data.getD start 0).toNat + 256 * bytesAt data (start + 1) count

/-- The number in `count` bits from bit `start` of the data; bits past the end are zero. -/
def bitsAt (data : Bytes) (start count : Nat) : Nat :=
  (bytesAt data (start / 8) ((start % 8 + count + 7) / 8) >>> (start % 8)) % 1 <<< count

/-- Bits that are read from the end: those below `left` are still to come. -/
structure Backward where
  data : Bytes
  left : Nat
  deriving DecidableEq, Repr

namespace Backward

/-- The last byte ends with a one and zeros, which are no part of the bits. -/
def ofBytes? (data : Bytes) : Option Backward :=
  match data.back? with
  | none => none
  | some last => if last = 0 then none else some ⟨data, 8 * (data.size - 1) + last.toNat.log2⟩

/-- The next `count` bits, followed by zeros if there are fewer. -/
def peek (bits : Backward) (count : Nat) : Nat :=
  if count ≤ bits.left then bitsAt bits.data (bits.left - count) count
  else bitsAt bits.data 0 bits.left * 1 <<< (count - bits.left)

def read? (bits : Backward) (count : Nat) : Option (Nat × Backward) :=
  if count ≤ bits.left then some (bits.peek count, { bits with left := bits.left - count }) else none

end Backward

/-! ## State tables -/

inductive Share where
  | states (count : Nat)
  /-- One state, which is left with all bits. -/
  | rare
  deriving DecidableEq, Repr

def Share.size : Share → Nat
  | .states count => count
  | .rare => 1

structure Entry where
  symbol : Nat
  bits : Nat
  base : Nat
  deriving DecidableEq, Repr

structure StateTable where
  log : Nat
  entries : Array Entry
  deriving DecidableEq, Repr

namespace StateTable

def single (symbol : Nat) : StateTable := ⟨0, #[⟨symbol, 0, 0⟩]⟩

/-- The places of a table in the order in which symbols are spread over it, without the last
`reserved` ones. -/
def spread (log reserved : Nat) : List Nat :=
  let size := 1 <<< log
  let step := size / 2 + size / 8 + 3
  ((List.range size).map fun k => k * step % size).filter (· < size - reserved)

/-- Rare symbols take the last places, the others the rest in their order. -/
def symbols (log : Nat) (shares : List Share) : Array Nat :=
  let indexed := shares.zipIdx
  let rare := indexed.filterMap fun (share, symbol) => if share = .rare then some symbol else none
  let common := indexed.flatMap fun (share, symbol) =>
    match share with
    | .states count => List.replicate count symbol
    | .rare => []
  let size := 1 <<< log
  let placed := (spread log rare.length).zip common
  let blank := Array.replicate size 0
  let withRare := rare.zipIdx.foldl
    (fun places (symbol, k) => places.setIfInBounds (size - 1 - k) symbol) blank
  placed.foldl (fun places (place, symbol) => places.setIfInBounds place symbol) withRare

/-- The states of one symbol share the range of all states. -/
def ofShares (log : Nat) (shares : List Share) : StateTable :=
  let counts := (shares.map Share.size).toArray
  let (_, entries) := (symbols log shares).foldl
    (fun (counts, entries) symbol =>
      let count := counts.getD symbol 1
      let bits := log - count.log2
      let entry : Entry := ⟨symbol, bits, count * 1 <<< bits - 1 <<< log⟩
      (counts.setIfInBounds symbol (count + 1), entries.push entry))
    (counts, Array.mkEmpty (1 <<< log))
  ⟨log, entries⟩

def get (table : StateTable) (state : Nat) : Entry := table.entries.getD state ⟨0, 0, 0⟩

end StateTable

structure Sharing where
  position : Nat
  /-- The states left, plus one. -/
  left : Nat
  shares : List Share := []
  deriving DecidableEq, Repr

/-- After a symbol without states, groups of two bits count further ones; three means that another
group follows. -/
def moreWithout (data : Bytes) : Nat → Sharing → Sharing
  | 0, sharing => sharing
  | limit + 1, sharing =>
    let count := bitsAt data sharing.position 2
    let sharing := { sharing with
      position := sharing.position + 2
      shares := List.replicate count (.states 0) ++ sharing.shares }
    if count = 3 then moreWithout data limit sharing else sharing

def share (data : Bytes) (sharing : Sharing) : Sharing :=
  let width := sharing.left.log2 + 1
  let threshold := 1 <<< (width - 1)
  let spare := 2 * threshold - 1 - sharing.left
  let low := bitsAt data sharing.position (width - 1)
  let (value, bits) :=
    if low < spare then (low, width - 1)
    else
      let full := bitsAt data sharing.position width
      (if threshold ≤ full then full - spare else full, width)
  let position := sharing.position + bits
  if value = 0 then
    { position, left := sharing.left - 1, shares := .rare :: sharing.shares }
  else
    { position, left := sharing.left - (value - 1), shares := .states (value - 1) :: sharing.shares }

def readShares (data : Bytes) (maxSymbol : Nat) : Nat → Sharing → Sharing
  | 0, sharing => sharing
  | limit + 1, sharing =>
    if sharing.left ≤ 1 || maxSymbol < sharing.shares.length then sharing
    else
      let sharing := share data sharing
      if sharing.shares.head? = some (.states 0) then
        readShares data maxSymbol limit (moreWithout data (8 * data.size) sharing)
      else readShares data maxSymbol limit sharing

namespace StateTable

/-- Reads a table from the front of the data; the answer is also how many bytes it takes. -/
def read? (maxLog maxSymbol : Nat) (data : Bytes) : Option (StateTable × Nat) :=
  let log := bitsAt data 0 4 + 5
  let sharing := readShares data maxSymbol (maxSymbol + 1) { position := 4, left := 1 <<< log + 1 }
  let size := (sharing.position + 7) / 8
  if data.isEmpty || maxLog < log || sharing.left ≠ 1 || maxSymbol + 1 < sharing.shares.length ||
      data.size < size then none
  else some (ofShares log sharing.shares.reverse, size)

end StateTable

/-! ## Prefix tables -/

/-- The next `log` bits are looked up for a symbol and how many of them it takes. -/
structure PrefixTable where
  log : Nat
  entries : Array (Nat × Nat)
  deriving DecidableEq, Repr

namespace PrefixTable

def maxLog : Nat := 12

/-- A symbol of weight `w` takes half of `2 ^ w` entries, and none if the weight is zero. The weight
of the last symbol is what is missing to a power of two. -/
def ofWeights? (weights : List Nat) : Option PrefixTable :=
  let total := weights.foldl (fun total weight => total + 1 <<< weight / 2) 0
  let log := total.log2 + 1
  let rest := 1 <<< log - total
  let all := weights ++ [rest.log2 + 1]
  let light := all.count 1
  if weights.any (maxLog < ·) || total = 0 || maxLog < log || rest ≠ 1 <<< rest.log2 ||
      light < 2 || light % 2 = 1 then none
  else
    let entries := (List.range log).flatMap fun k =>
      all.zipIdx.flatMap fun (weight, symbol) =>
        if weight = k + 1 then List.replicate (1 <<< k) (symbol, log - k) else []
    some ⟨log, entries.toArray⟩

/-- Two states take turns until the bits do not lead on. -/
def pairedSymbols (table : StateTable) : Nat → Nat → Nat → Backward → List Nat → Option (List Nat)
  | 0, _, _, _, _ => none
  | limit + 1, state, other, bits, reversed =>
    let entry := table.get state
    let reversed := entry.symbol :: reversed
    match bits.read? entry.bits with
    | none => some ((table.get other).symbol :: reversed).reverse
    | some (low, bits) => pairedSymbols table limit other (entry.base + low) bits reversed

def weightLimit : Nat := 255

def packedWeights? (data : Bytes) : Option (List Nat) := do
  let (table, size) ← StateTable.read? 6 weightLimit data
  let bits ← Backward.ofBytes? (data.extract size data.size)
  let (first, bits) ← bits.read? table.log
  let (second, bits) ← bits.read? table.log
  let weights ← pairedSymbols table weightLimit first second bits []
  if weightLimit < weights.length then none else some weights

/-- Reads the weights from the front of the data; the answer is also how many bytes they take. -/
def read? (data : Bytes) : Option (PrefixTable × Nat) := do
  let head := data.littleEndian 0 1
  let size := if 128 ≤ head then (head - 127 + 1) / 2 else head
  if data.size < 1 + size then none
  let weights ←
    if 128 ≤ head then
      some ((List.range (head - 127)).map fun k =>
        let byte := data.littleEndian (1 + k / 2) 1
        if k % 2 = 0 then byte / 16 else byte % 16)
    else packedWeights? (data.slice 1 size)
  return (← ofWeights? weights, 1 + size)

def decode? (table : PrefixTable) : Nat → Backward → Bytes → Option (Backward × Bytes)
  | 0, bits, output => some (bits, output)
  | count + 1, bits, output =>
    let (symbol, width) := table.entries.getD (bits.peek table.log) (0, 0)
    if width ≤ bits.left then
      decode? table count { bits with left := bits.left - width } (output.push (UInt8.ofNat symbol))
    else none

end PrefixTable
end Zstd
end CallProvenance
