import CallProvenance.Bytes

/-! The text of class files. Plain UTF-8 is taken as it is; otherwise NUL is two bytes and a
character outside the basic plane is a pair of encoded surrogates; and bytes that are neither
are read as well as they can be, with a question mark for what makes no sense. -/
namespace CallProvenance
namespace ModifiedUtf8

def isTail (byte : Nat) : Bool := 0x80 ≤ byte && byte ≤ 0xbf

def two (a b : Nat) : Nat := (a % 0x20) * 0x40 + b % 0x40

def three (a b c : Nat) : Nat := (a % 0x10) * 0x1000 + (b % 0x40) * 0x40 + c % 0x40

def four (a b c d : Nat) : Nat :=
  (a % 0x08) * 0x40000 + (b % 0x40) * 0x1000 + (c % 0x40) * 0x40 + d % 0x40

/-- The character of a surrogate pair, given the last two bytes of each half. -/
def supplementary (b c e f : Nat) : Nat :=
  0x10000 + ((b % 0x10) * 0x40 + c % 0x40) * 0x400 + (e % 0x10) * 0x40 + f % 0x40

/-- The second byte of a three-byte form that is neither overlong nor a surrogate. -/
def isSecondOfThree (a b : Nat) : Bool :=
  if a = 0xe0 then 0xa0 ≤ b && b ≤ 0xbf
  else if a = 0xed then 0x80 ≤ b && b ≤ 0x9f
  else 0xe1 ≤ a && a ≤ 0xef && isTail b

/-- The second byte of a four-byte form that is neither overlong nor too large. -/
def isSecondOfFour (a b : Nat) : Bool :=
  if a = 0xf0 then 0x90 ≤ b && b ≤ 0xbf
  else if a = 0xf4 then 0x80 ≤ b && b ≤ 0x8f
  else 0xf1 ≤ a && a ≤ 0xf3 && isTail b

def isPair (a b c d e f : Nat) : Bool :=
  a = 0xed && 0xa0 ≤ b && b ≤ 0xaf && isTail c && d = 0xed && 0xb0 ≤ e && e ≤ 0xbf && isTail f

/-- Reads one character: its code point and the number of bytes it takes. -/
abbrev Dialect := List Nat → Option (Nat × Nat)

def plain : Dialect
  | a :: rest =>
    if a < 0x80 then some (a, 1)
    else match rest with
      | b :: rest =>
        if 0xc2 ≤ a && a ≤ 0xdf && isTail b then some (two a b, 2)
        else match rest with
          | c :: rest =>
            if isSecondOfThree a b && isTail c then some (three a b c, 3)
            else match rest with
              | d :: _ =>
                if isSecondOfFour a b && isTail c && isTail d then some (four a b c d, 4) else none
              | [] => none
          | [] => none
      | [] => none
  | [] => none

def modified : Dialect
  | 0xc0 :: 0x80 :: _ => some (0, 2)
  | a :: b :: c :: d :: e :: f :: rest =>
    if isPair a b c d e f then some (supplementary b c e f, 6)
    else if a = 0 || 0xf0 ≤ a then none
    else plain (a :: b :: c :: d :: e :: f :: rest)
  | a :: rest => if a = 0 || 0xf0 ≤ a then none else plain (a :: rest)
  | [] => none

def questionMark : Nat := 0x3f

def isSurrogate (code : Nat) : Bool := 0xd800 ≤ code && code ≤ 0xdfff

/-- Forms of one and two bytes, whether or not they are overlong. -/
def lossyShort : Dialect
  | a :: b :: _ =>
    if 0xe0 ≤ a && a ≤ 0xef && isTail b then some (questionMark, 2)
    else if 0xc0 ≤ a && a ≤ 0xdf && isTail b then some (two a b, 2)
    else if a < 0x80 then some (a, 1)
    else some (questionMark, 1)
  | [a] => if a < 0x80 then some (a, 1) else some (questionMark, 1)
  | [] => none

def lossyLong : Dialect
  | a :: b :: c :: rest =>
    if 0xe0 ≤ a && a ≤ 0xef && isTail b && isTail c then
      let code := three a b c
      some (if isSurrogate code then questionMark else code, 3)
    else lossyShort (a :: b :: c :: rest)
  | short => lossyShort short

/-- Reads something wherever a byte is left. -/
def lossy : Dialect
  | a :: b :: c :: d :: e :: f :: rest =>
    if isPair a b c d e f then some (supplementary b c e f, 6)
    else lossyLong (a :: b :: c :: d :: e :: f :: rest)
  | short => lossyLong short

/-- Reads all bytes in a dialect, at most `count` characters. -/
def readAll (dialect : Dialect) : Nat → List Nat → List Char → Option String
  | _, [], reversed => some (String.ofList reversed.reverse)
  | 0, _ :: _, _ => none
  | count + 1, bytes, reversed =>
    match dialect bytes with
    | none => none
    | some (code, width) => readAll dialect count (bytes.drop width) (Char.ofNat code :: reversed)

def decode (bytes : Bytes) : String :=
  let numbers := bytes.toList.map (·.toNat)
  let attempt (dialect : Dialect) := readAll dialect numbers.length numbers []
  (((attempt plain).or (attempt modified)).or (attempt lossy)).getD ""

end ModifiedUtf8
end CallProvenance
