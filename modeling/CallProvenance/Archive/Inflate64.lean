import CallProvenance.Archive.Inflate

/-! Decompression of data deflated with a window of 64 KiB. Blocks are as in the smaller format, with
longer copies and two more distances. The reader is lenient: codes need not be complete, copies may
begin before the output, where all bytes are zero, and data may end early. -/
namespace CallProvenance
namespace Inflate64

open Inflate (Step bit number emit)

/-! ## Look-up tables -/

/-- A word is looked up by its first bits. An entry that is not negative is a symbol; a negative one
leads to a node, whose branches are entries again. Zero also stands where nothing was put. -/
structure Table where
  lengths : Array Nat
  width : Nat
  root : Array Int
  left : Array Int
  right : Array Int
  free : Nat
  deriving DecidableEq, Repr

namespace Table

inductive Branch where
  | root
  | left
  | right
  deriving DecidableEq, Repr

def get (table : Table) (branch : Branch) (index : Nat) : Int :=
  match branch with
  | .root => table.root.getD index 0
  | .left => table.left.getD index 0
  | .right => table.right.getD index 0

def put (table : Table) (branch : Branch) (index : Nat) (entry : Int) : Table :=
  match branch with
  | .root => { table with root := table.root.setIfInBounds index entry }
  | .left => { table with left := table.left.setIfInBounds index entry }
  | .right => { table with right := table.right.setIfInBounds index entry }

/-- Puts a symbol at the end of the way that the bits of `word` describe, lowest bit first, making
nodes as needed. No way leads through a symbol. -/
def graft (symbol : Nat) : Nat → Branch → Nat → Nat → Table → Option Table
  | 0, branch, index, _, table => some (table.put branch index symbol)
  | steps + 1, branch, index, word, table =>
    let fresh := table.get branch index = 0
    let entry : Int := if fresh then -table.free else table.get branch index
    let table :=
      if fresh then { table.put branch index entry with free := table.free + 1 } else table
    if 0 < entry then none
    else graft symbol steps (if word % 2 = 0 then .left else .right) entry.natAbs (word / 2) table

def reversed : Nat → Nat → Nat
  | 0, _ => 0
  | count + 1, n => n % 2 * 1 <<< count + reversed count (n / 2)

/-- Adds a codeword. A short one takes all entries whose index begins with it. -/
def insert (table : Table) (symbol length word : Nat) : Option Table :=
  let way := reversed length word
  if length ≤ table.width then
    let places := (List.range (1 <<< (table.width - length))).map fun k => way + k * 1 <<< length
    some (places.foldl (fun table place => table.put .root place symbol) table)
  else
    graft symbol (length - table.width) .root (way % 1 <<< table.width) (way / 1 <<< table.width) table

def firstWords (lengths : List Nat) : Array Nat :=
  ((List.range 17).foldl
    (fun (word, words) length =>
      let word := if length = 0 then 0 else 2 * word
      (word + (if length = 0 then 0 else lengths.count length), words.push word))
    (0, #[])).2

/-- Adds the symbols of the given lengths in order, given the next word of each length. -/
def insertAll : List (Nat × Nat) → Array Nat → Table → Option Table
  | [], _, table => some table
  | (length, symbol) :: rest, words, table =>
    if length = 0 then insertAll rest words table
    else
      let word := words.getD length 0
      match table.insert symbol length word with
      | some table => insertAll rest (words.setIfInBounds length (word + 1)) table
      | none => none

/-- The table of a canonical code; `none` if a codeword goes on where another one ends. -/
def ofLengths (width : Nat) (lengths : List Nat) : Option Table :=
  let empty : Table := {
    lengths := lengths.toArray
    width
    root := Array.replicate (1 <<< width) 0
    left := Array.replicate (2 * lengths.length) 0
    right := Array.replicate (2 * lengths.length) 0
    free := lengths.length }
  insertAll lengths.zipIdx (firstWords lengths) empty

def descend (table : Table) : Nat → Int → Nat → Nat
  | 0, entry, _ => entry.toNat
  | limit + 1, entry, word =>
    if 0 ≤ entry then entry.toNat
    else
      let branch : Branch := if word % 2 = 0 then .left else .right
      descend table limit (table.get branch entry.natAbs) (word / 2)

def find (table : Table) (word : Nat) : Nat :=
  table.descend table.left.size (table.get .root (word % 1 <<< table.width)) (word / 1 <<< table.width)

end Table

def literalWidth : Nat := 9

def otherWidth : Nat := 7

def literalCount : Nat := 288

def distanceCount : Nat := 32

def ahead : Step Nat := return 8 * (← read).size - (← get).position

/-- The next sixteen bits, with zeros past the end. -/
def peek : Step Nat := do
  let position := (← get).position
  let data ← read
  let bits := (List.range 16).map fun k =>
    let byte := data.getD ((position + k) / 8) 0
    (byte.toNat >>> ((position + k) % 8)) % 2 * 1 <<< k
  return bits.foldl (· + ·) 0

def next (table : Table) : Step Nat := do
  let count ← ahead
  if count = 0 then throw .incomplete
  let symbol := table.find (← peek)
  let length := table.lengths.getD symbol 0
  if length = 0 then throw .corrupt
  if count < length then throw .incomplete
  modify fun progress => { progress with position := progress.position + length }
  return symbol

/-! ## Blocks -/

def lengthTable : Array (Nat × Nat) := Inflate.copyLengths.setIfInBounds 28 (3, 16)

def distanceTable : Array (Nat × Nat) := Inflate.copyDistances ++ #[(32769, 14), (49153, 14)]

def copyBack (distance : Nat) : Nat → Bytes → Bytes
  | 0, output => output
  | count + 1, output =>
    let byte := if distance ≤ output.size then output.getD (output.size - distance) 0 else 0
    copyBack distance count (output.push byte)

def symbols (literals distances : Table) : Nat → Step Unit
  | 0 => throw .incomplete
  | limit + 1 => do
    let symbol ← next literals
    if symbol < Inflate.endOfBlock then
      emit (UInt8.ofNat symbol)
      symbols literals distances limit
    else if symbol = Inflate.endOfBlock then return
    else
      let count ← Inflate.ranged lengthTable (symbol - Inflate.endOfBlock - 1)
      let distance ← Inflate.ranged distanceTable (← next distances)
      modify fun progress => { progress with output := copyBack distance count progress.output }
      symbols literals distances limit

def table (width : Nat) (lengths : List Nat) : Step Table :=
  match Table.ofLengths width lengths with
  | some table => return table
  | none => throw .corrupt

def fixedTables : Step (Table × Table) := do
  let literals ← table literalWidth (List.replicate 144 8 ++ List.replicate 112 9 ++
    List.replicate 24 7 ++ List.replicate 8 8)
  return (literals, ← table otherWidth (List.replicate distanceCount 5))

def lengths (code : Table) (wanted : Nat) : Nat → List Nat → Step (List Nat)
  | 0, reversed => return reversed.reverse
  | limit + 1, reversed => do
    if wanted ≤ reversed.length then return reversed.reverse
    else
      let more (count length : Nat) :=
        if wanted < reversed.length + count then throw .corrupt
        else lengths code wanted limit (List.replicate count length ++ reversed)
      match ← next code with
      | 16 =>
        let count := 3 + (← number 2)
        match reversed.head? with
        | none => throw .corrupt
        | some length => more count length
      | 17 => more (3 + (← number 3)) 0
      | 18 => more (11 + (← number 7)) 0
      | length => more 1 length

def ownTables : Step (Table × Table) := do
  let literals := 257 + (← number 5)
  let distances := 1 + (← number 5)
  let given := 4 + (← number 4)
  let short ← (List.range given).mapM fun _ => number 3
  let ordered := (List.range Inflate.lengthOrder.length).map fun symbol =>
    ((Inflate.lengthOrder.zip short).lookup symbol).getD 0
  let all ← lengths (← table otherWidth ordered) (literals + distances) (literals + distances) []
  if all.getD Inflate.endOfBlock 0 = 0 then throw .corrupt
  let filled (count : Nat) (some : List Nat) := some ++ List.replicate (count - some.length) 0
  let literalTable ← table literalWidth (filled literalCount (all.take literals))
  return (literalTable, ← table otherWidth (filled distanceCount (all.drop literals)))

/-- Copies bytes from the next byte boundary, as far as they are there. -/
def storedBlock : Step Unit := do
  modify fun progress => { progress with position := (progress.position + 7) / 8 * 8 }
  let count ← number 16
  let complement ← number 16
  if count + complement ≠ 0xffff then throw .corrupt
  let data ← read
  let progress ← get
  let start := progress.position / 8
  set { progress with
    position := progress.position + 8 * count
    output := progress.output ++ data.slice start count }
  if data.size < start + count then throw .incomplete

def blocks (bits : Nat) : Nat → Step Unit
  | 0 => throw .incomplete
  | limit + 1 => do
    let last ← bit
    match ← number 2 with
    | 0 => storedBlock
    | 1 =>
      let (literals, distances) ← fixedTables
      symbols literals distances bits
    | 2 =>
      let (literals, distances) ← ownTables
      symbols literals distances bits
    | _ => throw .corrupt
    if last = 1 then return else blocks bits limit

end Inflate64

/-- What the data decompresses to, as far as it goes; `none` if it is corrupt. -/
def inflate64 (data : Bytes) : Option Bytes :=
  let bits := 8 * data.size + 1
  match (Inflate64.blocks bits bits).run data |>.run {} with
  | .ok _ progress | .error .incomplete progress => some progress.output
  | .error .corrupt _ => none

end CallProvenance
