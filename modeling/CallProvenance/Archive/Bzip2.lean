import CallProvenance.Archive.PrefixCode
import CallProvenance.Bytes

/-! Decompression of bzip2 data. The bytes of a block, with long runs shortened, are a text. What is
written of it is the last column of its sorted rotations and the row in which the text stands, which
together determine it; the column is given as places in a list of recently used bytes, and these
places in prefix codes. -/
namespace CallProvenance
namespace Bzip2

inductive Fault where
  | noHeader
  | corrupt
  | incomplete
  deriving DecidableEq, Repr

def Fault.message : Fault → String
  | .noHeader => "bzip2: bz2 header missing"
  | .corrupt => "bzip2: invalid data"
  | .incomplete => "decompression not finished but EOF reached"

/-- Reads the data; the state is the number of bits read so far, highest bit of a byte first. -/
abbrev Step (α : Type) := ReaderT Bytes (EStateM Fault Nat) α

def bit : Step Nat := do
  let position ← get
  match (← read)[position / 8]? with
  | none => throw .incomplete
  | some byte =>
    set (position + 1)
    return (byte.toNat >>> (7 - position % 8)) % 2

def number (count : Nat) : Step Nat :=
  (List.range count).foldlM (fun n _ => return 2 * n + (← bit)) 0

/-! ## Checksums -/

/-- The divisor, highest power in the highest bit. -/
def polynomial : UInt32 := 0x04c11db7

def divideBit (remainder : UInt32) : UInt32 :=
  if remainder &&& 0x80000000 = 0 then remainder <<< 1 else (remainder <<< 1) ^^^ polynomial

def addByte (remainder : UInt32) (byte : UInt8) : UInt32 :=
  Nat.repeat divideBit 8 (remainder ^^^ (byte.toUInt32 <<< 24))

def checksum (bytes : Bytes) : UInt32 := bytes.foldl addByte 0xffffffff ^^^ 0xffffffff

def combine (text block : UInt32) : UInt32 := ((text <<< 1) ||| (text >>> 31)) ^^^ block

/-! ## Codes -/

def maxLength : Nat := 20

def toFront {α : Type} (list : List α) (place : Nat) : Option (α × List α) :=
  list[place]?.map fun item => (item, item :: list.eraseIdx place)

/-- The bytes in use: sixteen bits tell which groups of sixteen have some, and then each of these
groups has a bit for every byte. -/
def alphabet : Step (List UInt8) := do
  let groups ← (List.range 16).mapM fun _ => bit
  let used ← (groups.zipIdx.filter (·.1 = 1)).mapM fun (_, group) => do
    let bits ← (List.range 16).mapM fun _ => bit
    return (bits.zipIdx.filter (·.1 = 1)).map fun (_, k) => UInt8.ofNat (16 * group + k)
  return used.flatten

/-- A number below `limit`, as that many ones and a zero. -/
def unary (limit : Nat) : Nat → Nat → Step Nat
  | 0, _ => throw .corrupt
  | fuel + 1, n => do
    if (← bit) = 0 then return n
    else if limit ≤ n + 1 then throw .corrupt
    else unary limit fuel (n + 1)

def selectors (codes count : Nat) : Step (List Nat) := do
  let places ← (List.range count).mapM fun _ => unary codes codes 0
  let (_, reversed) ← places.foldlM
    (fun (recent, reversed) place =>
      match toFront recent place with
      | some (code, recent) => return (recent, code :: reversed)
      | none => throw .corrupt)
    (List.range codes, [])
  return reversed.reverse

/-- Changes a length by one as long as a one comes first. -/
def adjust : Nat → Nat → Step Nat
  | 0, _ => throw .incomplete
  | fuel + 1, length => do
    if length < 1 || maxLength < length then throw .corrupt
    if (← bit) = 0 then return length
    else if (← bit) = 0 then adjust fuel (length + 1)
    else adjust fuel (length - 1)

/-- A code as the length of its first codeword and the changes from each to the next. -/
def readCode (bits size : Nat) : Step PrefixCode := do
  let (_, reversed) ← (List.range size).foldlM
    (fun (length, reversed) _ => do
      let length ← adjust bits length
      return (length, length :: reversed))
    (← number 5, [])
  return .ofLengths reversed.reverse

/-! ## Blocks -/

def groupSize : Nat := 50

/-- Reads the symbol of a number. Words without a meaning are noticed one bit past the longest
codeword there can be. -/
def symbolAt (codes : Array PrefixCode) (index : Nat) : Step Nat := do
  match codes[index / groupSize]? with
  | none => throw .corrupt
  | some code =>
    match ← code.next? bit with
    | some symbol => return symbol
    | none =>
      let _ ← number (maxLength + 1 - code.longest)
      throw .corrupt

/-- No run of the byte in front has a digit of this weight. -/
def weightLimit : Nat := 1 <<< 21

/-- Reads the last column. The symbols zero and one are the digits, worth once and twice their
weight, of a run of the byte in front; greater ones are places in the list of recent bytes, and the
greatest ends the column. -/
def column (codes : Array PrefixCode) (finish limit : Nat) :
    Nat → Nat → List UInt8 → Nat → Nat → Bytes → Step Bytes
  | 0, _, _, _, _, _ => throw .incomplete
  | fuel + 1, index, recent, run, weight, bytes => do
    let symbol ← symbolAt codes index
    if symbol < 2 then
      if weightLimit ≤ weight then throw .corrupt
      column codes finish limit fuel (index + 1) recent (run + (symbol + 1) * weight) (2 * weight)
        bytes
    else
      if limit < bytes.size + run then throw .corrupt
      let bytes := bytes ++ Array.replicate run (recent.headD 0)
      if symbol = finish then return bytes
      match toFront recent (symbol - 1) with
      | none => throw .corrupt
      | some (byte, recent) =>
        if limit ≤ bytes.size then throw .corrupt
        column codes finish limit fuel (index + 1) recent 0 1 (bytes.push byte)

/-- The row after each row: the places of the column in the order of their bytes. -/
def successors (column : Bytes) : Array Nat :=
  ((column.toList.zipIdx).mergeSort fun a b => a.1 ≤ b.1).toArray.map (·.2)

/-- The text that stands in a row of the sorted rotations, given their last column. -/
def unrotate (column : Bytes) (row : Nat) : List UInt8 :=
  let next := successors column
  ((List.range column.size).foldl
    (fun (row, reversed) _ => (next.getD row 0, column.getD row 0 :: reversed))
    (next.getD row 0, [])).2.reverse

/-- The distances between the flipped bytes of a shuffled block, one after another and then again
from the first. -/
def flipDistances : Array Nat := #[
  619, 720, 127, 481, 931, 816, 813, 233, 566, 247, 985, 724, 205, 454, 863, 491, 741, 242, 949,
  214, 733, 859, 335, 708, 621, 574, 73, 654, 730, 472, 419, 436, 278, 496, 867, 210, 399, 680,
  480, 51, 878, 465, 811, 169, 869, 675, 611, 697, 867, 561, 862, 687, 507, 283, 482, 129, 807,
  591, 733, 623, 150, 238, 59, 379, 684, 877, 625, 169, 643, 105, 170, 607, 520, 932, 727, 476,
  693, 425, 174, 647, 73, 122, 335, 530, 442, 853, 695, 249, 445, 515, 909, 545, 703, 919, 874,
  474, 882, 500, 594, 612, 641, 801, 220, 162, 819, 984, 589, 513, 495, 799, 161, 604, 958, 533,
  221, 400, 386, 867, 600, 782, 382, 596, 414, 171, 516, 375, 682, 485, 911, 276, 98, 553, 163,
  354, 666, 933, 424, 341, 533, 870, 227, 730, 475, 186, 263, 647, 537, 686, 600, 224, 469, 68,
  770, 919, 190, 373, 294, 822, 808, 206, 184, 943, 795, 384, 383, 461, 404, 758, 839, 887, 715,
  67, 618, 276, 204, 918, 873, 777, 604, 560, 951, 160, 578, 722, 79, 804, 96, 409, 713, 940, 652,
  934, 970, 447, 318, 353, 859, 672, 112, 785, 645, 863, 803, 350, 139, 93, 354, 99, 820, 908,
  609, 772, 154, 274, 580, 184, 79, 626, 630, 742, 653, 282, 762, 623, 680, 81, 927, 626, 789,
  125, 411, 521, 938, 300, 821, 78, 343, 175, 128, 250, 170, 774, 972, 275, 999, 639, 495, 78,
  352, 126, 857, 956, 358, 619, 580, 124, 737, 594, 701, 612, 669, 112, 134, 694, 363, 992, 809,
  743, 168, 974, 944, 375, 748, 52, 600, 747, 642, 182, 862, 81, 344, 805, 988, 739, 511, 655,
  814, 334, 249, 515, 897, 955, 664, 981, 649, 113, 974, 459, 893, 228, 433, 837, 553, 268, 926,
  240, 102, 654, 459, 51, 686, 754, 806, 760, 493, 403, 415, 394, 687, 700, 946, 670, 656, 610,
  738, 392, 760, 799, 887, 653, 978, 321, 576, 617, 626, 502, 894, 679, 243, 440, 680, 879, 194,
  572, 640, 724, 926, 56, 204, 700, 707, 151, 457, 449, 797, 195, 791, 558, 945, 679, 297, 59, 87,
  824, 713, 663, 412, 693, 342, 606, 134, 108, 571, 364, 631, 212, 174, 643, 304, 329, 343, 97,
  430, 751, 497, 314, 983, 374, 822, 928, 140, 206, 73, 263, 980, 736, 876, 478, 430, 305, 170,
  514, 364, 692, 829, 82, 855, 953, 676, 246, 369, 970, 294, 750, 807, 827, 150, 790, 288, 923,
  804, 378, 215, 828, 592, 281, 565, 555, 710, 82, 896, 831, 547, 261, 524, 462, 293, 465, 502,
  56, 661, 821, 976, 991, 658, 869, 905, 758, 745, 193, 768, 550, 608, 933, 378, 286, 215, 979,
  792, 961, 61, 688, 793, 644, 986, 403, 106, 366, 905, 644, 372, 567, 466, 434, 645, 210, 389,
  550, 919, 135, 780, 773, 635, 389, 707, 100, 626, 958, 165, 504, 920, 176, 193, 713, 857, 265,
  203, 50, 668, 108, 645, 990, 626, 197, 510, 357, 358, 850, 858, 364, 936, 638]

/-- Flips the lowest bit of the last byte but one of each distance. The numbers are that of the next
distance and how many bytes the present one has left. -/
def unshuffle : Nat → Nat → List UInt8 → List UInt8
  | _, _, [] => []
  | next, 0, byte :: rest =>
    byte :: unshuffle ((next + 1) % flipDistances.size) (flipDistances.getD next 1 - 1) rest
  | next, left + 1, byte :: rest =>
    (if left = 1 then byte ^^^ 1 else byte) :: unshuffle next left rest

/-- After four equal bytes a byte tells how often they go on; the text cannot end before it. -/
def expandRuns : Nat → Option UInt8 → List UInt8 → Bytes → Option Bytes
  | run, _, [], output => if run = 4 then none else some output
  | run, last, byte :: rest, output =>
    if run = 4 then expandRuns 0 none rest (output ++ Array.replicate byte.toNat (last.getD 0))
    else if last = some byte then expandRuns (run + 1) last rest (output.push byte)
    else expandRuns 1 (some byte) rest (output.push byte)

def block (bits limit : Nat) : Step (Bytes × UInt32) := do
  let expected ← number 32
  let shuffled ← bit
  let row ← number 24
  if limit + 10 < row then throw .corrupt
  let used ← alphabet
  if used.isEmpty then throw .corrupt
  let codeCount ← number 3
  if codeCount < 2 || 6 < codeCount then throw .corrupt
  let groupCount ← number 15
  if groupCount < 1 then throw .corrupt
  let order ← selectors codeCount groupCount
  let codes ← (List.range codeCount).mapM fun _ => readCode bits (used.length + 2)
  let written := (order.filterMap (codes[·]?)).toArray
  let last ← column written (used.length + 1) limit bits 0 used 0 1 #[]
  if last.size ≤ row then throw .corrupt
  let text := unrotate last row
  match expandRuns 0 none (if shuffled = 1 then unshuffle 0 0 text else text) #[] with
  | none => throw .corrupt
  | some bytes =>
    if (checksum bytes).toNat ≠ expected then throw .corrupt
    return (bytes, checksum bytes)

def expect (bytes : List Nat) : Step Unit :=
  bytes.forM fun byte => do
    if (← number 8) ≠ byte then throw .corrupt

def blocks (bits limit : Nat) : Nat → UInt32 → Bytes → Step Bytes
  | 0, _, _ => throw .incomplete
  | fuel + 1, combined, output => do
    match ← number 8 with
    | 0x17 =>
      expect [0x72, 0x45, 0x38, 0x50, 0x90]
      if (← number 32) ≠ combined.toNat then throw .corrupt
      return output
    | 0x31 =>
      expect [0x41, 0x59, 0x26, 0x53, 0x59]
      let (bytes, sum) ← block bits limit
      blocks bits limit fuel (combine combined sum) (output ++ bytes)
    | _ => throw .corrupt

def header : Step Nat := do
  for byte in [0x42, 0x5a, 0x68] do
    if (← number 8) ≠ byte then throw .noHeader
  let size ← number 8
  if size < 0x31 || 0x39 < size then throw .noHeader
  return 100000 * (size - 0x30)

end Bzip2

/-- What bzip2 data decompresses to; what follows the end is not looked at. -/
def bunzip2 (data : Bytes) : Except Bzip2.Fault Bytes :=
  let bits := 8 * data.size + 1
  match (Bzip2.header >>= fun limit => Bzip2.blocks bits limit bits 0 #[]).run data |>.run 0 with
  | .ok output _ => .ok output
  | .error fault _ => .error fault

end CallProvenance
