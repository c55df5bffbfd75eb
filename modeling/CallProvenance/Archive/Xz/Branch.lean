import CallProvenance.Bytes

/-! Branches in machine code. Packing makes the targets of branches absolute, because the same target
then has the same bytes everywhere; here they are made relative to the branch again. -/
namespace CallProvenance

namespace Bytes

def bigWord (bytes : Bytes) (position : Nat) : UInt32 :=
  UInt32.ofNat ((bytes.number? position 4).getD 0)

def littleWord (bytes : Bytes) (position : Nat) : UInt32 :=
  UInt32.ofNat (bytes.littleEndian position 4)

def write (bytes : Bytes) (position : Nat) : List UInt8 → Bytes
  | [] => bytes
  | byte :: rest => write (bytes.setIfInBounds position byte) (position + 1) rest

def writeLittle (bytes : Bytes) (position : Nat) (word : UInt32) : Bytes :=
  bytes.write position
    [word.toUInt8, (word >>> 8).toUInt8, (word >>> 16).toUInt8, (word >>> 24).toUInt8]

def writeBig (bytes : Bytes) (position : Nat) (word : UInt32) : Bytes :=
  bytes.write position
    [(word >>> 24).toUInt8, (word >>> 16).toUInt8, (word >>> 8).toUInt8, word.toUInt8]

end Bytes

inductive Machine where
  | x86
  | powerPC
  | ia64
  | arm
  | armThumb
  | sparc
  | arm64
  | riscV
  deriving DecidableEq, Repr

namespace Machine

/-- Code begins at a multiple of this. -/
def alignment : Machine → Nat
  | .x86 => 1
  | .powerPC => 4
  | .ia64 => 16
  | .arm => 4
  | .armThumb => 2
  | .sparc => 4
  | .arm64 => 4
  | .riscV => 2

/-- Goes through code as long as `width` bytes are left. Each step changes the code at its position and
tells how far the next position is. -/
def walk (width : Nat) (step : Nat → Bytes → Bytes × Nat) : Nat → Nat → Bytes → Bytes
  | 0, _, code => code
  | limit + 1, position, code =>
    if code.size < position + width then code
    else
      let (code, advance) := step position code
      walk width step limit (position + advance) code

/-- Instructions of four bytes, of which some change. -/
def eachWord (convert : UInt32 → UInt32 → Option UInt32) (read : Bytes → Nat → UInt32)
    (write : Bytes → Nat → UInt32 → Bytes) (start : UInt32) (code : Bytes) : Bytes :=
  let step (position : Nat) (code : Bytes) : Bytes × Nat :=
    match convert (start + UInt32.ofNat position) (read code position) with
    | some word => (write code position word, 4)
    | none => (code, 4)
  walk 4 step code.size 0 code

def up (word count : UInt32) : UInt32 := word <<< count

def down (word count : UInt32) : UInt32 := word >>> count

def powerPCWord (place word : UInt32) : Option UInt32 :=
  if word &&& 0xfc000003 = 0x48000001 then some ((word - place) &&& 0x3fffffc ||| 0x48000001)
  else none

/-- The target of a branch with link counts words and is two words ahead. -/
def armWord (place word : UInt32) : Option UInt32 :=
  if down word 24 = 0xeb then
    some (down (up word 2 - (place + 8)) 2 &&& 0xffffff ||| 0xeb000000)
  else none

/-- The target of a call counts words and has 23 bits with a sign. -/
def sparcWord (place word : UInt32) : Option UInt32 :=
  if down word 22 = 0x100 || down word 22 = 0x1ff then
    let target := down (up word 2 - place) 2
    let sign := if down target 22 &&& 1 = 1 then 0x3fc00000 else 0
    some (target &&& 0x3fffff ||| sign ||| 0x40000000)
  else none

/-- A branch with link counts words. The address of a page counts pages, and only near ones are
changed. -/
def arm64Word (place word : UInt32) : Option UInt32 :=
  if down word 26 = 0x25 then some ((word - down place 2) &&& 0x3ffffff ||| 0x94000000)
  else if word &&& 0x9f000000 = 0x90000000 then
    let page := down word 29 &&& 3 ||| down word 3 &&& 0x1ffffc
    if (page + 0x20000) &&& 0x1c0000 ≠ 0 then none
    else
      let page := page - down place 12
      let sign := if page &&& 0x20000 = 0 then 0 else 0xe00000
      some (word &&& 0x9000001f ||| up (page &&& 3) 29 ||| up (page &&& 0x3fffc) 3 ||| sign)
  else none

/-- A branch with link is a pair of halfwords, and its target counts halfwords. -/
def armThumbStep (start : UInt32) (position : Nat) (code : Bytes) : Bytes × Nat :=
  let word := code.littleWord position
  if word &&& 0xf800f800 = 0xf800f000 then
    let target := up (word &&& 0x7ff) 11 ||| down word 16 &&& 0x7ff
    let target := down (up target 1 - (start + UInt32.ofNat position + 4)) 1
    (code.writeLittle position
      (down target 11 &&& 0x7ff ||| up (target &&& 0x7ff) 16 ||| 0xf800f000), 4)
  else (code, 2)

/-- By the template of a bundle, which of its three instructions may be branches. -/
def branchSlots : Array Nat :=
  #[0, 0, 0, 0, 0, 0, 0, 0, 0, 0, 0, 0, 0, 0, 0, 0, 4, 4, 6, 6, 0, 0, 7, 7, 4, 4, 0, 0, 4, 4, 0, 0]

/-- Makes the target of an instruction of 41 bits relative, if it is a branch to a place in the code. The
target counts bundles. -/
def ia64Instruction (place : UInt32) (instruction : Nat) : Nat :=
  if instruction >>> 37 % 16 = 5 && instruction >>> 9 % 8 = 0 then
    let target := instruction >>> 13 % 1 <<< 20 + (instruction >>> 36 % 2) * 1 <<< 20
    let target := ((UInt32.ofNat (16 * target) - place) >>> 4).toNat
    instruction % 1 <<< 13 + (target % 1 <<< 20) * 1 <<< 13 + (instruction >>> 33 % 8) * 1 <<< 33 +
      (target >>> 20 % 2) * 1 <<< 36 + (instruction >>> 37) * 1 <<< 37
  else instruction

/-- A bundle of sixteen bytes has a template of five bits and three instructions. -/
def ia64Step (start : UInt32) (position : Nat) (code : Bytes) : Bytes × Nat :=
  let bundle := code.littleEndian position 16
  let slots := branchSlots.getD (bundle % 32) 0
  if slots = 0 then (code, 16)
  else
    let place := start + UInt32.ofNat position
    let instruction (slot : Nat) : Nat :=
      let given := bundle >>> (5 + 41 * slot) % 1 <<< 41
      if slots.testBit slot then ia64Instruction place given else given
    let changed := bundle % 32 + instruction 0 * 1 <<< 5 + instruction 1 * 1 <<< 46 +
      instruction 2 * 1 <<< 87
    (code.write position ((List.range 16).map fun k => UInt8.ofNat (changed >>> (8 * k) % 256)), 16)

def riscVJump (place word : UInt32) : UInt32 :=
  let target := up (down word 12 &&& 0xf) 17 ||| up (down word 16 &&& 0xff) 9 ||| up (down word 24) 1
  let target := target - place
  word &&& 0xfff ||| target &&& 0xff000 ||| up (down target 11 &&& 1) 20 |||
    up (down target 1 &&& 0x3ff) 21 ||| up (down target 20 &&& 1) 31

/-- An address is made by two instructions. Where packing has joined them, the first word tells the
second instruction in its upper bits, and the target follows with the highest byte first; where a
pair looks like that by chance, packing has changed it too. -/
def riscVStep (start : UInt32) (position : Nat) (code : Bytes) : Bytes × Nat :=
  let place := start + UInt32.ofNat position
  let word := code.littleWord position
  let second := code.littleWord (position + 4)
  if word &&& 0xff = 0xef then
    if word &&& 0xd00 ≠ 0 then (code, 2)
    else (code.writeLittle position (riscVJump place word), 4)
  else if word &&& 0x7f = 0x17 then
    if word &&& 0xe80 ≠ 0 then
      if (up word 8 ^^^ (second - 3)) &&& 0xf8003 ≠ 0 then (code, 6)
      else
        let code := code.writeLittle position (up second 12 ||| 0x117)
        (code.writeLittle (position + 4) ((word &&& 0xfffff000) + down second 20), 8)
    else
      let register := down word 27
      if register &&& 0x1d ≤ up (word - 0x3117) 18 then (code, 4)
      else
        let target := code.bigWord (position + 4) - place
        let code := code.writeLittle position
          (up register 7 ||| (target + 0x800) &&& 0xfffff000 ||| 0x17)
        (code.writeLittle (position + 4) (down word 12 ||| up target 20), 8)
  else (code, 2)

/-! ## x86 -/

/-- A target is near if its highest byte repeats a sign. -/
def isSign (byte : UInt8) : Bool := byte = 0 || byte = 0xff

/-- How many bytes before the last one is the one that an earlier opcode asks about. -/
def askedByte : Nat → Nat
  | 0 => 0
  | 1 => 1
  | 2 => 2
  | 3 => 2
  | _ => 3

/-- The relative target. Where earlier opcodes are near, a target that would not be changed back when
packed again is inverted and tried once more. -/
def x86Target (place : UInt32) (mask : Nat) : Nat → UInt32 → UInt32
  | 0, target => target
  | limit + 1, target =>
    let relative := target - place
    let width := UInt32.ofNat (8 * askedByte mask)
    if mask = 0 || !isSign (down relative (24 - width)).toUInt8 then relative
    else if limit = 0 then relative
    else x86Target place mask limit (relative ^^^ (up 1 (32 - width) - 1))

/-- Calls and jumps have one byte and a target of four bytes. `mask` tells which of the bytes before are
such opcodes without a near target; `last` is the position behind the last opcode. -/
def x86Code (start : UInt32) : Nat → Nat → Nat → Nat → Bytes → Bytes
  | 0, _, _, _, code => code
  | limit + 1, position, last, mask, code =>
    if code.size < position + 5 then code
    else if code.getD position 0 &&& 0xfe ≠ 0xe8 then
      x86Code start limit (position + 1) last mask code
    else
      let gap := position + 1 - last
      let mask := if 3 < gap then 0 else (mask <<< (gap - 1)) % 8
      let isBlocked := mask ≠ 0 &&
        (!(mask = 1 || mask = 2 || mask = 4) ||
          isSign (code.getD (position + 4 - askedByte mask) 0))
      if isBlocked || !isSign (code.getD (position + 4) 0) then
        x86Code start limit (position + 1) (position + 1) (2 * mask + 1) code
      else
        let place := start + UInt32.ofNat position + 5
        let target := x86Target place mask 2 (code.littleWord (position + 1))
        let sign : UInt32 := if down target 24 &&& 1 = 1 then 0xff000000 else 0
        let code := code.writeLittle (position + 1) (target &&& 0xffffff ||| sign)
        x86Code start limit (position + 5) (position + 1) mask code

def relativize (machine : Machine) (address : Nat) (code : Bytes) : Bytes :=
  let start := UInt32.ofNat address
  match machine with
  | .x86 => x86Code start code.size 0 0 0 code
  | .powerPC => eachWord powerPCWord Bytes.bigWord Bytes.writeBig start code
  | .ia64 => walk 16 (ia64Step start) code.size 0 code
  | .arm => eachWord armWord Bytes.littleWord Bytes.writeLittle start code
  | .armThumb => walk 4 (armThumbStep start) code.size 0 code
  | .sparc => eachWord sparcWord Bytes.bigWord Bytes.writeBig start code
  | .arm64 => eachWord arm64Word Bytes.littleWord Bytes.writeLittle start code
  | .riscV => walk 8 (riscVStep start) code.size 0 code

end Machine
end CallProvenance
