/-! A worklist solver for forward flow problems. Points are numbered from zero and point zero is
the entry. A point is executed again whenever the fact that reaches it changes; waiting points are
served in the order in which they were first asked for. The callbacks may fail and may keep
state, which survives a failure. -/
namespace CallProvenance

/-- The callbacks of a flow problem with facts `φ`, callback state `σ` and failures `ε`. -/
structure FlowSemantics (ε σ φ : Type) where
  entry : EStateM ε σ φ
  /-- Executes a point and names the fact that flows to each successor. -/
  transfer : Nat → φ → EStateM ε σ (List (Nat × φ))
  /-- Joins an incoming fact into the current one; `none` when that changes nothing. -/
  merge : φ → φ → EStateM ε σ (Option φ)

/-- Facts by point, the points that wait for execution, and the number of executions. There is no set of waiting
points beside the queue: a point waits if it stands in the queue, and no point stands there twice. -/
structure Worklist (φ : Type) where
  facts : Array (Option φ)
  queue : List Nat
  iterations : Nat

/-- The stable fact of each point; `none` where no flow arrives. -/
structure FixedPoint (φ : Type) where
  facts : Array (Option φ)
  iterations : Nat

namespace Worklist

variable {ε σ φ : Type}

/-- Replaces the fact of a point and makes the point wait, unless it waits already. -/
def update (work : Worklist φ) (point : Nat) (fact : φ) : Worklist φ :=
  { work with
    facts := work.facts.setIfInBounds point (some fact)
    queue := if point ∈ work.queue then work.queue else work.queue ++ [point] }

/-- Takes in one flow. Flows to points outside the program are dropped. -/
def receive (semantics : FlowSemantics ε σ φ) (work : Worklist φ) (flow : Nat × φ) :
    EStateM ε σ (Worklist φ) :=
  match work.facts[flow.1]? with
  | none => pure work
  | some none => pure (work.update flow.1 flow.2)
  | some (some current) => do
    match ← semantics.merge current flow.2 with
    | none => pure work
    | some joined => pure (work.update flow.1 joined)

def receiveAll (semantics : FlowSemantics ε σ φ) :
    List (Nat × φ) → Worklist φ → EStateM ε σ (Worklist φ)
  | [], work => pure work
  | flow :: flows, work => do receiveAll semantics flows (← work.receive semantics flow)

def execute (semantics : FlowSemantics ε σ φ) (work : Worklist φ) (point : Nat) :
    EStateM ε σ (Worklist φ) :=
  match work.facts[point]? with
  | some (some fact) => do
    let flows ← semantics.transfer point fact
    receiveAll semantics flows { work with iterations := work.iterations + 1 }
  | _ => pure work

/-- Serves waiting points until none is left, at most `budget` of them. The answer is `none` when
the budget does not suffice. -/
def run (semantics : FlowSemantics ε σ φ) : Nat → Worklist φ → EStateM ε σ (Option (FixedPoint φ))
  | budget, work =>
    match work.queue, budget with
    | [], _ => pure (some ⟨work.facts, work.iterations⟩)
    | _ :: _, 0 => pure none
    | point :: rest, budget + 1 => do
      run semantics budget (← execute semantics { work with queue := rest } point)

end Worklist

namespace FlowSemantics

variable {ε σ φ : Type}

/-- Solves the problem on `count` points. Without points no callback is used. -/
def solve (semantics : FlowSemantics ε σ φ) (budget count : Nat) :
    EStateM ε σ (Option (FixedPoint φ)) :=
  match count with
  | 0 => pure (some ⟨#[], 0⟩)
  | more + 1 => do
    let fact ← semantics.entry
    Worklist.run semantics budget
      ⟨(some fact :: List.replicate more none).toArray, [0], 0⟩

end FlowSemantics
end CallProvenance
