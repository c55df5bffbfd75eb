import CallProvenance.FieldTable

/-! What an analysis says about methods and classes. -/
namespace CallProvenance

inductive ArgumentValue where
  | field (className fieldName : String)
  | constant (value : Constant)
  deriving DecidableEq, Repr

/-- All definitions that may reach an argument; none when its origin is unknown. -/
structure Argument where
  values : List ArgumentValue
  deriving DecidableEq, Repr

structure Invocation where
  className : String
  methodName : String
  descriptor : String
  kind : CallKind
  line : Option Nat
  receiver : Option Argument
  arguments : List Argument
  bootstrap : Option MethodHandle
  deriving DecidableEq, Repr

structure Parameter where
  name : Option String
  index : Nat
  type : Option String
  deriving DecidableEq, Repr

structure MethodTrace where
  name : String
  descriptor : String
  parameters : List Parameter
  invocations : List Invocation
  deriving DecidableEq, Repr

structure ClassTrace where
  name : String
  superName : Option String
  methods : List MethodTrace
  fields : List FieldTrace
  deriving DecidableEq, Repr

def CallKind.label : CallKind → String
  | .virtual => "virtual"
  | .interface => "interface"
  | .special => "special"
  | .static => "static"
  | .dynamic => "dynamic"

def ArgumentValue.toJson : ArgumentValue → Json
  | .field className fieldName =>
    .object [("field", .object [("className", .string className), ("fieldName", .string fieldName)])]
  | .constant value => .object [("constant", value.toJson)]

def Argument.toJson (argument : Argument) : Json :=
  .object [("values", .array (argument.values.map ArgumentValue.toJson))]

def Invocation.toJson (call : Invocation) : Json :=
  .object <|
    [("className", .string call.className), ("methodName", .string call.methodName),
      ("descriptor", .string call.descriptor), ("kind", .string call.kind.label),
      ("line", .ofOption .nat call.line)] ++
    (call.receiver.toList.map fun receiver => ("receiver", receiver.toJson)) ++
    [("arguments", .array (call.arguments.map Argument.toJson))] ++
    (call.bootstrap.toList.map fun handle => ("bootstrap", handle.toJson))

def Parameter.toJson (parameter : Parameter) : Json :=
  .object [("name", .ofOption .string parameter.name), ("index", .nat parameter.index),
    ("type", .ofOption .string parameter.type)]

def MethodTrace.toJson (trace : MethodTrace) : Json :=
  .object [("name", .string trace.name), ("descriptor", .string trace.descriptor),
    ("parameters", .array (trace.parameters.map Parameter.toJson)),
    ("invocations", .array (trace.invocations.map Invocation.toJson))]

def ClassTrace.toJson (trace : ClassTrace) : Json :=
  .object [("name", .string trace.name), ("superName", .ofOption .string trace.superName),
    ("methods", .array (trace.methods.map MethodTrace.toJson)),
    ("fields", .array (trace.fields.map FieldTrace.toJson))]

end CallProvenance
