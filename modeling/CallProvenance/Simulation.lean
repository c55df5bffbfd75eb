import CallProvenance.FlowGraph

/-! The stable frames of a method body. -/
namespace CallProvenance

structure Simulation where
  /-- The frame before each instruction; `none` for code that is never reached. -/
  frames : Array (Option Frame)
  dynamicArguments : DynamicArguments
  history : History
  iterations : Nat

namespace Method

/-- A bound on the executions that a simulation needs. Every execution follows a change of a frame.
A frame is set once; after that each change adds one of the `n` instructions to the sources of
a value or makes its kind uninitialized, and no stack grows by more than two entries per instruction. -/
def budget (method : Method) : Nat :=
  let n := method.code.length
  let locals := (method.entryLocals.toOption.map (·.length)).getD 0
  n * (1 + (locals + 2 * n) * (n + 1))

def simulate (method : Method) : Except Inconsistency Simulation := do
  let graph ← FlowGraph.ofMethod method
  match graph.semantics.solve method.budget method.code.length {} with
  | .error cause _ => .error cause
  | .ok none _ => .error .unsettled
  | .ok (some fixed) notes =>
    return ⟨fixed.facts, notes.dynamicArguments, notes.history, fixed.iterations⟩

end Method

/-- The longest chain of joins behind any value of the stable frames. -/
def Simulation.joinDepth (simulation : Simulation) : Nat :=
  let frames := simulation.frames.toList.filterMap id
  simulation.history.maxDepth (frames.flatMap fun frame => frame.values.map (·.place))

end CallProvenance
