import CallProvenance.Bytes

/-! The memory of a model that predicts bytes. It is cut into units of twelve bytes: a context takes
one unit, and symbols take half a unit each. Blocks of several units that are free are kept in lists
by their size, so that it is always known how much a model can still learn; where a block lies decides
whether it can be joined with another one. In front of the units stands the text that has been seen. -/
namespace CallProvenance
namespace Ppmd

def unitSize : Nat := 12

def sizeCount : Nat := 38

/-- The numbers of units that blocks may have. -/
def blockSizes : Array Nat :=
  ((List.range 12).map fun k => k / 4 * (k / 4 + 1) / 2 * 4 + (k % 4 + 1) * (k / 4 + 1)).toArray ++
    ((List.range 26).map fun k => 24 + 4 * (k + 1)).toArray

def unitsOf (kind : Nat) : Nat := blockSizes.getD kind 0

/-- The kind of the smallest block that has room for so many units. -/
def kinds : Array Nat :=
  ((List.range 128).map fun k => (List.range sizeCount).countP (unitsOf · < k + 1)).toArray

def kindOf (units : Nat) : Nat := kinds.getD (units - 1) 0

def freeMark : Nat := 0xffffffff

structure Heap where
  bytes : ByteArray
  size : Nat
  text : Nat
  units : Nat
  /-- Between these two places no unit has been given away. -/
  low : Nat
  high : Nat
  /-- How often blocks may be looked for before free ones are joined. -/
  patience : Nat
  /-- The first free block of each kind, or zero. -/
  free : Array Nat
  counts : Array Nat

def zeros (size : Nat) : Nat → ByteArray
  | 0 => ByteArray.empty.push 0
  | limit + 1 =>
    let half := zeros size limit
    if half.size < size then half ++ half else half

namespace Heap

/-! ## Bytes -/

@[inline] def byte (heap : Heap) (place : Nat) : Nat :=
  if h : place < heap.bytes.size then (heap.bytes[place]).toNat else 0

@[inline] def setByte (heap : Heap) (place value : Nat) : Heap :=
  { heap with bytes :=
      if h : place < heap.bytes.size then heap.bytes.set place (UInt8.ofNat value) else heap.bytes }

@[inline] def pair (heap : Heap) (place : Nat) : Nat :=
  heap.byte place + 256 * heap.byte (place + 1)

@[inline] def setPair (heap : Heap) (place value : Nat) : Heap :=
  (heap.setByte place value).setByte (place + 1) (value / 256)

@[inline] def word (heap : Heap) (place : Nat) : Nat :=
  heap.pair place + 65536 * heap.pair (place + 2)

@[inline] def setWord (heap : Heap) (place value : Nat) : Heap :=
  (heap.setPair place value).setPair (place + 2) (value / 65536)

def copy (source target : Nat) : Nat → Heap → Heap
  | 0, heap => heap
  | count + 1, heap =>
    copy (source + 1) (target + 1) count (heap.setByte target (heap.byte source))

/-! ## Free blocks -/

def insert (heap : Heap) (place kind : Nat) : Heap :=
  let heap := heap.setWord place freeMark
  let heap := heap.setWord (place + 4) (heap.free.getD kind 0)
  let heap := heap.setWord (place + 8) (unitsOf kind)
  { heap with
    free := heap.free.setIfInBounds kind place
    counts := heap.counts.modify kind (· + 1) }

def remove (heap : Heap) (kind : Nat) : Nat × Heap :=
  let place := heap.free.getD kind 0
  let next := heap.word (place + 4)
  (place, { heap with
    free := heap.free.setIfInBounds kind next
    counts := heap.counts.modify kind (· - 1) })

/-- Frees so many units from a place on, as one block or as two. -/
def insertUnits (heap : Heap) (place units : Nat) : Heap :=
  let kind := kindOf units
  if unitsOf kind = units then heap.insert place kind
  else
    let first := unitsOf (kind - 1)
    let heap := heap.insert (place + unitSize * first) (kindOf (units - first))
    heap.insert place (kind - 1)

/-- Frees the end of a block that becomes one of a smaller kind. -/
def split (heap : Heap) (place old new : Nat) : Heap :=
  heap.insertUnits (place + unitSize * unitsOf new) (unitsOf old - unitsOf new)

def absorb : Nat → Nat → Heap → Heap
  | 0, _, heap => heap
  | limit + 1, place, heap =>
    let units := heap.word (place + 8)
    let next := place + unitSize * units
    if heap.word next = freeMark then
      let heap := heap.setWord (place + 8) (units + heap.word (next + 8))
      absorb limit place (heap.setWord (next + 8) 0)
    else heap

/-- Joins the blocks of a list and collects those that are not part of another one, the last first. -/
def joinList : Nat → Nat → Array Nat → Heap → Array Nat × Heap
  | 0, _, joined, heap => (joined, heap)
  | limit + 1, place, joined, heap =>
    if place = 0 then (joined, heap)
    else
      let next := heap.word (place + 4)
      if heap.word (place + 8) = 0 then joinList limit next joined heap
      else joinList limit next (joined.push place) (absorb limit place heap)

/-- Frees a joined block, of which no more than 128 units stay together. -/
def insertJoined : Nat → Nat → Nat → Heap → Heap
  | 0, _, _, heap => heap
  | limit + 1, place, units, heap =>
    if units = 0 then heap
    else if 128 < units then
      insertJoined limit (place + unitSize * 128) (units - 128) (heap.insert place (sizeCount - 1))
    else heap.insertUnits place units

/-- Marks the end of the given units, so that no block is joined over it. -/
def guard (heap : Heap) : Heap := if heap.low = heap.high then heap else heap.setWord heap.low 0

def join (heap : Heap) : Heap :=
  let heap := heap.guard
  let limit := heap.size / unitSize + 1
  let lists := heap.free
  let heap := { heap with
    patience := 1 <<< 13
    free := Array.replicate sizeCount 0
    counts := Array.replicate sizeCount 0 }
  let (joined, heap) := lists.foldl
    (fun (joined, heap) first => joinList limit first joined heap) (#[], heap)
  joined.foldl (fun heap place => insertJoined limit place (heap.word (place + 8)) heap) heap

/-! ## Giving units away -/

/-- Looks for a larger block, and at last takes units from the text. -/
def takeLarger (heap : Heap) (kind : Nat) : Option Nat × Heap :=
  match (List.range sizeCount).find? fun larger => kind < larger && heap.free.getD larger 0 ≠ 0 with
  | some larger =>
    let (place, heap) := heap.remove larger
    (some place, heap.split place larger kind)
  | none =>
    let size := unitSize * unitsOf kind
    let heap := { heap with patience := heap.patience - 1 }
    if size < heap.units - heap.text then
      (some (heap.units - size), { heap with units := heap.units - size })
    else (none, heap)

def takeRare (heap : Heap) (kind : Nat) : Option Nat × Heap :=
  if heap.patience = 0 then
    let heap := heap.join
    if heap.free.getD kind 0 ≠ 0 then
      let (place, heap) := heap.remove kind
      (some place, heap)
    else heap.takeLarger kind
  else heap.takeLarger kind

def take (heap : Heap) (kind : Nat) : Option Nat × Heap :=
  let size := unitSize * unitsOf kind
  if heap.free.getD kind 0 ≠ 0 then
    let (place, heap) := heap.remove kind
    (some place, heap)
  else if size ≤ heap.high - heap.low then
    let place := heap.low
    (some place, { heap with low := place + size })
  else heap.takeRare kind

/-- A single unit for a context, from the other end. -/
def takeContext (heap : Heap) : Option Nat × Heap :=
  if heap.high ≠ heap.low then
    let place := heap.high - unitSize
    (some place, { heap with high := place })
  else if heap.free.getD 0 0 ≠ 0 then
    let (place, heap) := heap.remove 0
    (some place, heap)
  else heap.takeRare 0

/-- Makes a block smaller; it may move. -/
def shrink (heap : Heap) (place old new : Nat) : Nat × Heap :=
  let oldKind := kindOf old
  let newKind := kindOf new
  if oldKind = newKind then (place, heap)
  else if heap.free.getD newKind 0 ≠ 0 then
    let (target, heap) := heap.remove newKind
    (target, (copy place target (unitSize * new) heap).insert place oldKind)
  else (place, heap.split place oldKind newKind)

/-- Frees a unit; the first one of all goes to the text. -/
def freeUnit (heap : Heap) (place : Nat) : Heap :=
  if place = heap.units then { heap with units := place + unitSize } else heap.insert place 0

/-- Moves a block near the text to a free place farther up, if there is one. -/
def moveUp (heap : Heap) (place units : Nat) : Nat × Heap :=
  let kind := kindOf units
  if heap.units + 1 <<< 14 < place || heap.free.getD kind 0 < place then (place, heap)
  else
    let (target, heap) := heap.remove kind
    let heap := copy place target (unitSize * units) heap
    if place = heap.units then
      (target, { heap with units := place + unitSize * unitsOf kind })
    else (target, heap.insert place kind)

/-- Moves the beginning of the units over free blocks, whose marks are cleared; the answer is also how
many of each kind there are. -/
def clearMarks : Nat → Nat → Array Nat → Heap → Array Nat × Heap
  | 0, place, cleared, heap => (cleared, { heap with units := place })
  | limit + 1, place, cleared, heap =>
    if heap.word place = freeMark then
      let units := heap.word (place + 8)
      clearMarks limit (place + unitSize * units) (cleared.modify (kindOf units) (· + 1))
        (heap.setWord place 0)
    else (cleared, { heap with units := place })

/-- Takes blocks with cleared marks out of a list until none is left; `link` is where the place of the
first block is written, or none for the beginning of the list. -/
def unlink (kind : Nat) : Nat → Nat → Option Nat → Nat → Heap → Heap
  | 0, _, _, _, heap => heap
  | _, 0, _, _, heap => heap
  | limit + 1, left + 1, link, place, heap =>
    let next := heap.word (place + 4)
    if heap.word place = 0 then
      let heap := match link with
        | some link => heap.setWord link next
        | none => { heap with free := heap.free.setIfInBounds kind next }
      unlink kind limit left link next { heap with counts := heap.counts.modify kind (· - 1) }
    else unlink kind limit (left + 1) (some (place + 4)) next heap

/-- Gives free blocks right behind the text to it. -/
def expandText (heap : Heap) : Heap :=
  let limit := heap.size / unitSize + 1
  let heap := heap.guard
  let (cleared, heap) := clearMarks limit heap.units (Array.replicate sizeCount 0) heap
  (List.range sizeCount).foldl
    (fun heap kind => unlink kind limit (cleared.getD kind 0) none (heap.free.getD kind 0) heap) heap

def used (heap : Heap) : Nat :=
  let free := (List.range sizeCount).foldl
    (fun sum kind => sum + heap.counts.getD kind 0 * unitsOf kind) 0
  heap.size - (heap.high - heap.low) - (heap.units - heap.text) - unitSize * free

/-! ## Beginning anew -/

def restart (heap : Heap) : Heap :=
  let units := heap.size - heap.size / 8 / unitSize * 7 * unitSize
  { heap with
    text := 0, units, low := units, high := heap.size, patience := 0
    free := Array.replicate sizeCount 0
    counts := Array.replicate sizeCount 0 }

def ofSize (size : Nat) : Heap where
  bytes := zeros size (size.log2 + 1)
  size
  text := 0
  units := 0
  low := 0
  high := 0
  patience := 0
  free := #[]
  counts := #[]

end Heap
end Ppmd
end CallProvenance
