import CallProvenance.Kind

/-! Field and method descriptors. A descriptor is read from the left and text after a complete
one is ignored. `V` is taken wherever a type may stand; only a field may not be `V` itself. -/
namespace CallProvenance

inductive TypeDescriptor where
  | boolean
  | byte
  | char
  | short
  | int
  | long
  | float
  | double
  | void
  | object (name : String)
  | array (dimensions : Nat) (element : TypeDescriptor)
  deriving DecidableEq, Repr

structure MethodDescriptor where
  parameters : List TypeDescriptor
  result : TypeDescriptor
  deriving DecidableEq, Repr

namespace Descriptor

inductive Fault where
  | unexpectedEnd
  | missingOpening
  | missingResult
  | missingSemicolon
  | tooManyDimensions
  | closingElement
  | closingField
  | unrecognized
  deriving DecidableEq, Repr

inductive Error where
  | method (fault : Fault)
  | field (descriptor : String) (fault : Fault)
  | voidField (descriptor : String)
  deriving DecidableEq, Repr

def Fault.message : Fault → String
  | .unexpectedEnd => "Unexpected end of input."
  | .missingOpening => "Invalid descriptor: Method descriptor must start with '('."
  | .missingResult => "Invalid descriptor: Missing return type."
  | .missingSemicolon => "Invalid descriptor: Missing semicolon in class name descriptor."
  | .tooManyDimensions => "Array has too many dimensions."
  | .closingElement => "Invalid descriptor: Invalid descriptor."
  | .closingField => "Invalid descriptor: Invalid descriptor"
  | .unrecognized => "Invalid descriptor: Unrecognized type descriptor."

def Error.message : Error → String
  | .method fault => s!"parse method descriptor: {fault.message}"
  | .field descriptor fault => s!"parse field descriptor {descriptor}: {fault.message}"
  | .voidField descriptor => s!"field descriptor {descriptor} is void"

/-- What can be read at one position: a type, or the end of a parameter list. -/
inductive Item where
  | type (type : TypeDescriptor)
  | closing
  deriving DecidableEq, Repr

def maxDimensions : Nat := 255

/-- Reads anything but an array. -/
def scalar : List Char → Except Fault (Item × List Char)
  | [] => .error .unexpectedEnd
  | 'Z' :: rest => .ok (.type .boolean, rest)
  | 'B' :: rest => .ok (.type .byte, rest)
  | 'C' :: rest => .ok (.type .char, rest)
  | 'S' :: rest => .ok (.type .short, rest)
  | 'I' :: rest => .ok (.type .int, rest)
  | 'J' :: rest => .ok (.type .long, rest)
  | 'F' :: rest => .ok (.type .float, rest)
  | 'D' :: rest => .ok (.type .double, rest)
  | 'V' :: rest => .ok (.type .void, rest)
  | ')' :: rest => .ok (.closing, rest)
  | 'L' :: rest =>
    match rest.dropWhile (· ≠ ';') with
    | [] => .error .missingSemicolon
    | _ :: after => .ok (.type (.object (String.ofList (rest.takeWhile (· ≠ ';')))), after)
  | _ :: _ => .error .unrecognized

def item (text : List Char) : Except Fault (Item × List Char) :=
  match (text.takeWhile (· = '[')).length with
  | 0 => scalar text
  | dimensions =>
    if dimensions > maxDimensions then .error .tooManyDimensions
    else match scalar (text.dropWhile (· = '[')) with
      | .ok (.type element, rest) => .ok (.type (.array dimensions element), rest)
      | .ok (.closing, _) => .error .closingElement
      | .error fault => .error fault

theorem length_scalar {text rest : List Char} {i : Item} (h : scalar text = .ok (i, rest)) :
    rest.length < text.length := by
  unfold scalar at h
  split at h
  case h_12 tail =>
    have shorter := (List.dropWhile_suffix (l := tail) (· ≠ ';')).length_le
    split at h
    · cases h
    · rename_i after he
      cases h
      rw [he] at shorter
      simp only [List.length_cons] at shorter ⊢
      omega
  all_goals cases h <;> simp

theorem length_item {text rest : List Char} {i : Item} (h : item text = .ok (i, rest)) :
    rest.length < text.length := by
  unfold item at h
  split at h
  · exact length_scalar h
  · split at h
    · cases h
    · have shorter := (List.dropWhile_suffix (l := text) (· = '[')).length_le
      split at h <;> cases h
      rename_i hs
      exact Nat.lt_of_lt_of_le (length_scalar hs) shorter

/-- Reads types up to the closing parenthesis. -/
def parameterList (text : List Char) : Except Fault (List TypeDescriptor × List Char) :=
  match _h : item text with
  | .error fault => .error fault
  | .ok (.closing, rest) => .ok ([], rest)
  | .ok (.type type, rest) =>
    match parameterList rest with
    | .error fault => .error fault
    | .ok (types, rest) => .ok (type :: types, rest)
  termination_by text.length
  decreasing_by exact length_item (by assumption)

def parseMethod : List Char → Except Fault MethodDescriptor
  | '(' :: text =>
    match parameterList text with
    | .error fault => .error fault
    | .ok (parameters, rest) =>
      match item rest with
      | .error fault => .error fault
      | .ok (.closing, _) => .error .missingResult
      | .ok (.type result, _) => .ok ⟨parameters, result⟩
  | _ => .error .missingOpening

def parseType (text : List Char) : Except Fault TypeDescriptor :=
  match item text with
  | .error fault => .error fault
  | .ok (.closing, _) => .error .closingField
  | .ok (.type type, _) => .ok type

end Descriptor

def TypeDescriptor.kind : TypeDescriptor → Kind
  | .object _ | .array .. => .reference
  | .long => .long
  | .double => .double
  | .float => .float
  | _ => .int

def TypeDescriptor.render : TypeDescriptor → String
  | .boolean => "Z"
  | .byte => "B"
  | .char => "C"
  | .short => "S"
  | .int => "I"
  | .long => "J"
  | .float => "F"
  | .double => "D"
  | .void => "V"
  | .object name => s!"L{name};"
  | .array dimensions element => String.ofList (List.replicate dimensions '[') ++ element.render

namespace Descriptor

def method (descriptor : String) : Except Error MethodDescriptor :=
  (parseMethod descriptor.toList).mapError .method

def parameterKinds (descriptor : String) : Except Error (List Kind) :=
  (method descriptor).map (·.parameters.map (·.kind))

/-- Kind of the returned value, `none` for `V`. -/
def resultKind (descriptor : String) : Except Error (Option Kind) :=
  (method descriptor).map fun d => if d.result = .void then none else some d.result.kind

def parameterDescriptors (descriptor : String) : Except Error (List String) :=
  (method descriptor).map (·.parameters.map (·.render))

def fieldKind (descriptor : String) : Except Error Kind :=
  match parseType descriptor.toList with
  | .error fault => .error (.field descriptor fault)
  | .ok .void => .error (.voidField descriptor)
  | .ok type => .ok type.kind

end Descriptor
end CallProvenance
