import CallProvenance.History
import CallProvenance.Kind
import CallProvenance.Sources

/-! Abstract values: a kind, the instructions that may have produced the value, and its
place in the join history. Two values agree when their kinds and sources agree; the place
only serves to measure how often joins were stacked on each other. -/
namespace CallProvenance

structure Facets where
  kind : Kind
  sources : Sources
  deriving DecidableEq, Repr

/-- Which side of a join already is the join. -/
inductive Side where
  | current
  | incoming
  | neither
  deriving DecidableEq, Repr

namespace Facets

def join (a b : Facets) : Facets := ⟨a.kind.join b.kind, a.sources ∪ b.sources⟩

/-- `current` wins when both sides are the join. -/
def settle (current incoming : Facets) : Side :=
  let joined := current.join incoming
  if joined = current then .current
  else if joined = incoming then .incoming
  else .neither

end Facets

structure Value extends Facets where
  place : Place := none
  deriving Repr

namespace Value

def size (v : Value) : Nat := v.kind.size

/-- A value of unknown origin, such as a parameter or a caught exception. -/
def unknown (kind : Kind) : Value := { kind, sources := .empty }

/-- The content of a slot that holds nothing readable. -/
def unset : Value := unknown .uninitialized

def producedBy (kind : Kind) (index : Nat) : Value := { kind, sources := .single index }

/-- A value computed from operands has all their sources. -/
def derived (kind : Kind) (operands : List Value) : Value :=
  { kind, sources := .unions (operands.map (·.sources)) }

/-- Joins two values that reach the same program point. A side that already is the join is
returned as it stands; otherwise the new value is recorded in the history. -/
def merge (current incoming : Value) (history : History) : Value × History :=
  match current.settle incoming.toFacets with
  | .current => (current, history)
  | .incoming => (incoming, history)
  | .neither =>
    let (place, history) := history.record current.place incoming.place
    ({ toFacets := current.join incoming.toFacets, place }, history)

def mergeAll (current incoming : List Value) (history : History) : List Value × History :=
  let (reversed, history) := (current.zip incoming).foldl
    (fun (reversed, history) (current, incoming) =>
      let (value, history) := merge current incoming history
      (value :: reversed, history))
    ([], history)
  (reversed.reverse, history)

/-- The join of the two rows is the current row. -/
def absorbs (current incoming : List Value) : Bool :=
  (current.zip incoming).all fun (current, incoming) => current.settle incoming.toFacets = .current

end Value
end CallProvenance
