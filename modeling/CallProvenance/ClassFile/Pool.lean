import CallProvenance.Decimal

/-! Constant pools as they stand in a class file. -/
namespace CallProvenance

inductive PoolEntry where
  /-- The unused first entry, or the one after a wide constant. -/
  | empty
  | utf8 (text : String)
  | integer (value : Int)
  | float (bits : UInt32)
  | long (value : Int)
  | double (bits : UInt64)
  | classRef (name : Nat)
  | string (text : Nat)
  | fieldRef (owner signature : Nat)
  | methodRef (owner signature : Nat)
  | interfaceMethodRef (owner signature : Nat)
  | nameAndType (name descriptor : Nat)
  | methodHandle (kind : UInt8) (reference : Nat)
  | methodType (descriptor : Nat)
  | dynamic (bootstrap signature : Nat)
  | invokeDynamic (bootstrap signature : Nat)
  | module (name : Nat)
  | package (name : Nat)
  deriving DecidableEq, Repr

namespace PoolEntry

/-- Numbers in descriptions are positional from 10⁻⁴ up to 10¹⁵, and ties go away from zero. -/
def numberStyle : Decimal.Style := ⟨.away, -4, 15, false⟩

def describeFloat (layout : FloatLayout) (bits : Nat) : String :=
  match Decimal.text? layout numberStyle bits with
  | some text => text
  | none =>
    if layout.fraction bits ≠ 0 then "NaN" else if layout.isNegative bits then "-inf" else "inf"

def record (name : String) (members : List (String × String)) : String :=
  let parts := members.map fun (label, value) => s!"{label}: {value}"
  name ++ " \x7b " ++ ", ".intercalate parts ++ " \x7d"

def member (name : String) (owner signature : Nat) : String :=
  record name [("class_index", toString owner), ("name_and_type_index", toString signature)]

def linked (name : String) (bootstrap signature : Nat) : String :=
  record name [("bootstrap_method_attr_index", toString bootstrap),
    ("name_and_type_index", toString signature)]

/-- How an entry is named in a message about an entry of the wrong sort. -/
def describe : PoolEntry → String
  | .empty => "Empty"
  | .utf8 text => record "Utf8" [("value", s!"\"{text}\"")]
  | .integer value => record "Integer" [("value", toString value)]
  | .float bits => record "Float" [("value", describeFloat .single bits.toNat)]
  | .long value => record "Long" [("value", toString value)]
  | .double bits => record "Double" [("value", describeFloat .double bits.toNat)]
  | .classRef name => record "Class" [("name_index", toString name)]
  | .string text => record "String" [("string_index", toString text)]
  | .fieldRef owner signature => member "Fieldref" owner signature
  | .methodRef owner signature => member "Methodref" owner signature
  | .interfaceMethodRef owner signature => member "InterfaceMethodref" owner signature
  | .nameAndType name descriptor =>
    record "NameAndType" [("name_index", toString name), ("descriptor_index", toString descriptor)]
  | .methodHandle kind reference =>
    record "MethodHandle" [("reference_kind", toString kind.toNat), ("reference_index", toString reference)]
  | .methodType descriptor => record "MethodType" [("descriptor_index", toString descriptor)]
  | .dynamic bootstrap signature => linked "Dynamic" bootstrap signature
  | .invokeDynamic bootstrap signature => linked "InvokeDynamic" bootstrap signature
  | .module name => record "Module" [("name_index", toString name)]
  | .package name => record "Package" [("name_index", toString name)]

def isWide : PoolEntry → Bool
  | .long _ | .double _ => true
  | _ => false

end PoolEntry

abbrev Pool := Array PoolEntry

end CallProvenance
