import CallProvenance.Proofs.Attestation
import CallProvenance.Proofs.PathSoundness

/-! Stable frames invent nothing. If all paths of a method are legal, every frame that the solver
finds says no more than the frames of the paths to its instruction; and a simulation with readable
stacks shows that all paths are legal. -/
namespace CallProvenance

namespace FlowGraph

variable {graph : FlowGraph} {method : Method} {point : Nat} {frame : Frame}

/-- Every path can go on where it has come to, and paths that meet agree on the kinds on their stacks. -/
structure Legal (graph : FlowGraph) : Prop where
  executes : ∀ {point frame}, graph.Reaches point frame →
    ∀ s, ∃ flows s', graph.transfer point frame s = .ok flows s'
  agree : ∀ {point f g}, graph.Reaches point f → graph.Reaches point g →
    f.stack.map (·.kind) = g.stack.map (·.kind)

theorem attested_entry (nonempty : graph.method.code ≠ []) {s s' : SimulationNotes} {first : Frame}
    (started : graph.semantics.entry s = .ok first s') : first.Attested (graph.Reaches 0) := by
  obtain ⟨locals, made, rfl⟩ := entry_eq_ok started
  exact .of_mem (.entry nonempty made)

namespace Legal

variable (legal : graph.Legal)
include legal

theorem uniform (point : Nat) : Frame.Uniform (graph.Reaches point) :=
  ⟨fun path path' => ⟨path.count_eq path', legal.agree path path'⟩, (preserves_readable graph).reaches⟩

theorem performs {action : Action} {targets : List Nat} (decodes : graph.Decodes point action targets)
    (path : graph.Reaches point frame) : ∃ after, action.perform point frame = .ok after := by
  obtain ⟨flows, s', sent⟩ := legal.executes path {}
  obtain ⟨after, performed, -⟩ := decodes.perform_of_transfer sent
  exact ⟨after, performed⟩

theorem keeps_attested : graph.semantics.Keeps fun point frame => frame.Attested (graph.Reaches point) := by
  constructor
  · rintro point frame s flows s' attested sent ⟨next, frame'⟩ member
    rw [semantics_transfer] at sent
    obtain ⟨action, targets, after, decodes, performed, leaves⟩ := transfer_mem sent member
    have succeeds : ∀ f, graph.Reaches point f → ∃ g, action.perform point f = .ok g :=
      fun f => legal.performs decodes
    cases leaves with
    | thrown listed protects =>
      refine attested.caught.mono ?_
      rintro g ⟨f, path, rfl⟩
      obtain ⟨after', performed'⟩ := succeeds f path
      exact path.leaves decodes performed' (.thrown listed protects)
    | completed listed =>
      refine (Action.perform_attested (legal.uniform point) attested succeeds performed).mono ?_
      rintro g ⟨f, path, performed'⟩
      exact path.leaves decodes performed' (.completed listed)
  · intro point current incoming s joined s' left right merged
    exact left.join right (joined_isJoin merged).1

theorem attested {budget : Nat} {s s' : SimulationNotes} {fixed : FixedPoint Frame}
    (solved : graph.semantics.solve budget graph.method.code.length s = .ok (some fixed) s')
    (found : fixed.facts[point]? = some (some frame)) : frame.Attested (graph.Reaches point) := by
  obtain ⟨more, length⟩ := FlowSemantics.exists_more solved found
  have nonempty : graph.method.code ≠ [] := List.ne_nil_of_length_eq_add_one length
  rw [length] at solved
  exact legal.keeps_attested.solve (attested_entry nonempty) solved found

end Legal
end FlowGraph

namespace Method

variable {method : Method} {graph : FlowGraph} {simulation : Simulation}

theorem legal_of_simulate (built : FlowGraph.ofMethod method = .ok graph)
    (simulated : method.simulate = .ok simulation) (readable : simulation.StacksReadable) : graph.Legal := by
  constructor
  · intro point frame path
    obtain ⟨stable, found, below, similar⟩ := simulate_above built simulated readable path
    obtain ⟨t, flows, t', sent⟩ := simulate_transfers built simulated found
    exact FlowGraph.transfer_of_above sent below similar
  · intro point f g path path'
    obtain ⟨stable, found, -, similar⟩ := simulate_above built simulated readable path
    obtain ⟨stable', found', -, similar'⟩ := simulate_above built simulated readable path'
    obtain rfl : stable = stable' := by simpa [found] using found'
    exact similar.kinds.trans similar'.kinds.symm

theorem simulate_attested (built : FlowGraph.ofMethod method = .ok graph)
    (simulated : method.simulate = .ok simulation) (readable : simulation.StacksReadable) {point : Nat}
    {stable : Frame} (found : simulation.frames[point]? = some (some stable)) :
    stable.Attested (graph.Reaches point) := by
  have legal := legal_of_simulate built simulated readable
  obtain ⟨fixed, notes, solved, rfl⟩ := (simulate_eq_ok built).1 simulated
  rw [← FlowGraph.ofMethod_method built] at solved
  exact legal.attested solved found

end Method

theorem Effect.eq_of_produces {effect : Effect} (produces : effect.produces = true) :
    (∃ kind, effect = .push kind) ∨ effect = .constant ∨ effect = .getStatic ∨ effect = .getField := by
  cases effect <;> simp_all [Effect.produces]

namespace Method

/-- What is known about a source of a readable value in a stable frame: a path brings it to
the same position, and its instruction is reached and makes values. -/
structure SourceAttested (method : Method) (graph : FlowGraph) (simulation : Simulation) (point : Nat)
    (position : Position) (source : Nat) : Prop where
  path : ∃ frame v, graph.Reaches point frame ∧ frame.at? position = some v ∧ source ∈ v.sources
  reached : ∃ frame, simulation.frames[source]? = some (some frame)
  makes : ∃ instruction effect, method.code[source]? = some instruction ∧
    Opcode.effect? instruction.opcode = some effect ∧
    ((∃ kind, effect = .push kind) ∨ effect = .constant ∨ effect = .getStatic ∨ effect = .getField)

/-- Stable frames exist only where paths lead, and every source of a readable value is brought to its
position by a path. -/
theorem simulate_invents_nothing {method : Method} {graph : FlowGraph} {simulation : Simulation}
    (built : FlowGraph.ofMethod method = .ok graph) (simulated : method.simulate = .ok simulation)
    (readable : simulation.StacksReadable) {point : Nat} {stable : Frame}
    (found : simulation.frames[point]? = some (some stable)) :
    (∃ frame, graph.Reaches point frame) ∧
    ∀ position value, stable.at? position = some value → value.kind ≠ .uninitialized →
      ∀ source, source ∈ value.sources → SourceAttested method graph simulation point position source := by
  have attested := simulate_attested built simulated readable found
  obtain ⟨frame, path, -⟩ := attested.shape
  refine ⟨⟨frame, path⟩, fun position value at_position set source member => ?_⟩
  obtain ⟨v, ⟨f, path, found_v⟩, -, member⟩ := (attested.values position value at_position).sources set source member
  have listed : v ∈ f.values := Frame.mem_values_iff.2 ⟨position, found_v⟩
  obtain ⟨visited, visits⟩ := path.source listed member
  obtain ⟨stable', found', -⟩ := simulate_above built simulated readable visits
  obtain ⟨instruction, effect, at_source, has, produces⟩ :=
    (FlowGraph.preserves_sources graph).reaches path v listed source member
  rw [FlowGraph.ofMethod_method built] at at_source
  exact ⟨⟨f, v, path, found_v, member⟩, ⟨stable', found'⟩, instruction, effect, at_source, has,
    Effect.eq_of_produces produces⟩

theorem simulate_invents_nothing_alternating :
    ∃ simulation stable value, FlowGraph.ofMethod alternating = .ok alternatingGraph ∧
      alternating.simulate = .ok simulation ∧ simulation.StacksReadable ∧
      simulation.frames[5]? = some (some stable) ∧ stable.at? (.operand 0) = some value ∧
      value.kind ≠ .uninitialized ∧ 4 ∈ value.sources ∧ (∃ frame, alternatingGraph.Reaches 5 frame) ∧
      SourceAttested alternating alternatingGraph simulation 5 (.operand 0) 4 := by
  obtain ⟨simulation, stable, simulated, readable, found, facets⟩ := alternating_simulates
  obtain ⟨value, stack, same⟩ := List.map_eq_singleton_iff.1 facets
  have at_top : stable.at? (.operand 0) = some value := by simp [Frame.at?, stack]
  have kind : value.kind ≠ .uninitialized := by simp [same]
  have source : 4 ∈ value.sources := by simp [same, Sources.mem_union, Sources.mem_single]
  obtain ⟨path, attested⟩ := simulate_invents_nothing rfl simulated readable found
  exact ⟨simulation, stable, value, rfl, simulated, readable, found, at_top, kind, source, path,
    attested (.operand 0) value at_top kind 4 source⟩

end Method
end CallProvenance
