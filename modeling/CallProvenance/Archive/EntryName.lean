import CallProvenance.ModifiedUtf8

/-! The text of entry names. An entry says whether its name is UTF-8; if not, it is in the code page
of the first personal computers. -/
namespace CallProvenance
namespace EntryName

/-- What bytes from 128 on stand for in the code page; those below stand for themselves. -/
def upperHalf : String :=
  "ÇüéâäàåçêëèïîìÄÅÉæÆôöòûùÿÖÜ¢£¥₧ƒ" ++
  "áíóúñÑªº¿⌐¬½¼¡«»░▒▓│┤╡╢╖╕╣║╗╝╜╛┐" ++
  "└┴┬├─┼╞╟╚╔╩╦╠═╬╧╨╤╥╙╘╒╓╫╪┘┌█▄▌▐▀" ++
  "αßΓπΣσµτΦΘΩδ∞φε∩≡±≥≤⌠⌡÷≈°∙·√ⁿ²■\u00a0"

def codePageChar (byte : UInt8) : Char :=
  if byte < 0x80 then Char.ofNat byte.toNat
  else (upperHalf.toList[byte.toNat - 0x80]?).getD '?'

def ofCodePage (bytes : Bytes) : String := String.ofList (bytes.toList.map codePageChar)

/-- How many bytes at the front belong to the beginning of a character that is not completed; at
least one. -/
def brokenWidth : List Nat → Nat
  | a :: b :: rest =>
    if ModifiedUtf8.isSecondOfFour a b then
      match rest with
      | c :: _ => if ModifiedUtf8.isTail c then 3 else 2
      | [] => 2
    else if ModifiedUtf8.isSecondOfThree a b then 2
    else 1
  | _ => 1

def replacementCode : Nat := 0xfffd

/-- Plain UTF-8 with a replacement character for what is not a character. -/
def replacing : ModifiedUtf8.Dialect
  | [] => none
  | bytes => (ModifiedUtf8.plain bytes).or (some (replacementCode, brokenWidth bytes))

def readIn (dialect : ModifiedUtf8.Dialect) (bytes : Bytes) : Option String :=
  ModifiedUtf8.readAll dialect bytes.size (bytes.toList.map (·.toNat)) []

def utf8? (bytes : Bytes) : Option String := readIn ModifiedUtf8.plain bytes

def ofUtf8 (bytes : Bytes) : String := (readIn replacing bytes).getD ""

def decode (isUtf8 : Bool) (bytes : Bytes) : String :=
  if isUtf8 then ofUtf8 bytes else ofCodePage bytes

def encode (name : String) : Bytes := name.toUTF8.data

end EntryName
end CallProvenance
