import CallProvenance.Decimal

/-! JSON documents and their text. Object members keep the order in which they are given. -/
namespace CallProvenance

inductive Json where
  | null
  | bool (value : Bool)
  | int (value : Int)
  | float (bits : UInt32)
  | double (bits : UInt64)
  | string (text : String)
  | array (items : List Json)
  | object (members : List (String × Json))
  deriving Inhabited

namespace Json

/-- Single-precision numbers are written positionally from 10⁻⁶ up to 10¹². -/
def singleStyle : Decimal.Style := ⟨.even, -6, 12, true⟩

/-- Double-precision numbers are written positionally from 10⁻⁵ up to 10¹⁵. -/
def doubleStyle : Decimal.Style := ⟨.even, -5, 15, true⟩

def hexDigit (n : Nat) : Char := Nat.digitChar (n % 16)

/-- Quotes, backslashes and control characters are escaped; all else stands for itself. -/
def escape (c : Char) : List Char :=
  if c = '"' then ['\\', '"']
  else if c = '\\' then ['\\', '\\']
  else if c.toNat = 0x08 then ['\\', 'b']
  else if c.toNat = 0x09 then ['\\', 't']
  else if c.toNat = 0x0a then ['\\', 'n']
  else if c.toNat = 0x0c then ['\\', 'f']
  else if c.toNat = 0x0d then ['\\', 'r']
  else if c.toNat < 0x20 then ['\\', 'u', '0', '0', hexDigit (c.toNat / 16), hexDigit c.toNat]
  else [c]

def quote (text : String) : String :=
  String.ofList ('"' :: text.toList.flatMap escape ++ ['"'])

/-- A number that is not finite has no JSON text and becomes null. -/
def numberText (layout : FloatLayout) (style : Decimal.Style) (bits : Nat) : String :=
  (Decimal.text? layout style bits).getD "null"

/-- The text of anything but a non-empty array or object. -/
def atom : Json → String
  | .null => "null"
  | .bool value => if value then "true" else "false"
  | .int value => toString value
  | .float bits => numberText .single singleStyle bits.toNat
  | .double bits => numberText .double doubleStyle bits.toNat
  | .string text => quote text
  | .array _ => "[]"
  | .object _ => "\x7b\x7d"

structure Layout where
  /-- A line break before each part, indented by the depth. -/
  newline : Nat → String
  colon : String

def compactLayout : Layout := ⟨fun _ => "", ":"⟩

/-- One part per line, two spaces for each level. -/
def prettyLayout : Layout := ⟨fun depth => String.ofList ('\n' :: List.replicate (2 * depth) ' '), ": "⟩

mutual

/-- Appends the text of a document that stands at the given depth. -/
def write (layout : Layout) (depth : Nat) (text : String) : Json → String
  | .array (item :: items) =>
    let text := write layout (depth + 1) (text ++ "[" ++ layout.newline (depth + 1)) item
    writeItems layout (depth + 1) text items ++ layout.newline depth ++ "]"
  | .object ((name, value) :: members) =>
    let text := text ++ "\x7b" ++ layout.newline (depth + 1) ++ quote name ++ layout.colon
    let text := write layout (depth + 1) text value
    writeMembers layout (depth + 1) text members ++ layout.newline depth ++ "\x7d"
  | other => text ++ atom other

def writeItems (layout : Layout) (depth : Nat) (text : String) : List Json → String
  | [] => text
  | item :: items =>
    writeItems layout depth (write layout depth (text ++ "," ++ layout.newline depth) item) items

def writeMembers (layout : Layout) (depth : Nat) (text : String) : List (String × Json) → String
  | [] => text
  | (name, value) :: members =>
    let text := text ++ "," ++ layout.newline depth ++ quote name ++ layout.colon
    writeMembers layout depth (write layout depth text value) members

end

def compact (document : Json) : String := write compactLayout 0 "" document

def pretty (document : Json) : String := write prettyLayout 0 "" document

def ofOption {α : Type} (encode : α → Json) : Option α → Json
  | none => .null
  | some value => encode value

def strings (texts : List String) : Json := .array (texts.map .string)

def nat (n : Nat) : Json := .int n

end Json
end CallProvenance
