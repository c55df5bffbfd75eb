import CallProvenance.Execute
import CallProvenance.Problem
import CallProvenance.Trace

/-! Names and types of a method's parameters. A parameter's slot follows the receiver and all
earlier parameters; its type is that of the variable that is live there when the method starts.
Methods without code have no variables and take the types from the descriptor. -/
namespace CallProvenance

/-- Slots are 16-bit numbers. -/
def maxSlot : Nat := 1 <<< 16 - 1

namespace Method

def hasCode (method : Method) : Bool := !method.code.isEmpty

def declaredName (method : Method) (index : Nat) : Option String :=
  (method.parameterNames[index]?).join

def slotWidth (descriptor : String) : Nat := if descriptor = "J" ∨ descriptor = "D" then 2 else 1

def missingParameter (source : String) (index slot : Nat) : Problem :=
  ⟨.missingParameter, source, s!"no local variable entry for parameter {index} at slot {slot}"⟩

def parameterAt (method : Method) (source : String) (index slot : Nat) (descriptor : String) :
    Parameter × Problems :=
  let name := method.declaredName index
  if method.isAbstract || !method.hasCode then (⟨name, index, some descriptor⟩, {})
  else match method.localVariables.find? fun entry => entry.slot = slot && entry.covers 0 with
    | some entry => (⟨name.or (some entry.name), index, some entry.descriptor⟩, {})
    | none => (⟨name, index, none⟩, ⟨[missingParameter source index slot]⟩)

/-- The parameters from a position on, the first of which lives in `slot`. -/
def parametersFrom (method : Method) (source : String) (index slot : Nat) :
    List String → List Parameter × Problems
  | [] => ([], {})
  | descriptor :: rest =>
    let (parameter, missing) := method.parameterAt source index slot descriptor
    let next := min (slot + slotWidth descriptor) maxSlot
    let (parameters, problems) := method.parametersFrom source (index + 1) next rest
    (parameter :: parameters, missing.append problems)

def parameters (method : Method) (source : String) :
    Except Inconsistency (List Parameter × Problems) := do
  let descriptors ← (Descriptor.parameterDescriptors method.descriptor).mapError
    (.invalidDescriptor method.descriptor)
  return method.parametersFrom source 0 (if method.isStatic then 0 else 1) descriptors

end Method
end CallProvenance
