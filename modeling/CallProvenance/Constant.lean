import CallProvenance.Kind

/-! Literals that code can load and fields can start with. Floating-point literals are kept
as their bits. -/
namespace CallProvenance

structure MethodHandle where
  kind : UInt8
  owner : String
  name : String
  descriptor : String
  deriving DecidableEq, Repr

inductive Constant where
  | int (value : Int)
  | long (value : Int)
  | float (bits : UInt32)
  | double (bits : UInt64)
  | string (text : String)
  | classRef (name : String)
  | methodType (descriptor : String)
  | methodHandle (handle : MethodHandle)
  deriving DecidableEq, Repr

def Constant.kind : Constant → Kind
  | .int _ => .int
  | .long _ => .long
  | .float _ => .float
  | .double _ => .double
  | .string _ | .classRef _ | .methodType _ | .methodHandle _ => .reference

end CallProvenance
