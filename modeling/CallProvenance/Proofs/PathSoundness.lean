import CallProvenance.Proofs.Paths

/-! Stable frames describe every execution path. If no stack of a simulation holds an unreadable
entry, then each frame that a path brings to an instruction lies below the stable frame there. -/
namespace CallProvenance

namespace FlowGraph

variable {graph : FlowGraph} {method : Method} {point next : Nat} {frame frame' after : Frame}

theorem Leaves.above {targets : List Nat} {coarse coarse' : Frame}
    (leaves : graph.Leaves point targets frame after next frame') (below : frame ≤ coarse)
    (below' : after ≤ coarse') : ∃ above, graph.Leaves point targets coarse coarse' next above ∧ frame' ≤ above := by
  cases leaves with
  | thrown listed protects => exact ⟨coarse.caught, .thrown listed protects, Frame.caught_mono below⟩
  | completed listed => exact ⟨coarse', .completed listed, below'⟩

/-- If a flow leaves a frame, and the instruction sends flows from a larger frame of the same kinds,
then one of these lies above it. -/
theorem transfer_above {coarse : Frame} {flows flows' : List (Nat × Frame)} {s s' t t' : SimulationNotes}
    (sent : graph.transfer point frame s = .ok flows s') (member : (next, frame') ∈ flows)
    (sent' : graph.transfer point coarse t = .ok flows' t') (below : frame ≤ coarse)
    (similar : frame.Similar coarse) : ∃ above, (next, above) ∈ flows' ∧ frame' ≤ above := by
  obtain ⟨action, targets, after, decodes, performed, leaves⟩ := transfer_mem sent member
  obtain ⟨coarse', performed', same⟩ := decodes.perform_of_transfer sent'
  obtain ⟨after', performed'', below'⟩ := Action.perform_mono below similar performed'
  obtain rfl : after = after' := Except.ok.inj (performed.symm.trans performed'')
  obtain ⟨above, leaves', compared⟩ := leaves.above below below'
  exact ⟨above, (same next above).2 leaves', compared⟩

theorem transfer_of_above {coarse : Frame} {flows' : List (Nat × Frame)} {t t' : SimulationNotes}
    (sent' : graph.transfer point coarse t = .ok flows' t') (below : frame ≤ coarse)
    (similar : frame.Similar coarse) (s : SimulationNotes) :
    ∃ flows s', graph.transfer point frame s = .ok flows s' := by
  refine transfer_of_transfer sent' (fun _ performed' => ?_) s
  obtain ⟨after, performed, -⟩ := Action.perform_mono below similar performed'
  exact ⟨after, performed⟩

/-- An answer with readable stacks lies above every execution path. -/
theorem Reaches.absorbed {budget : Nat} {s s' : SimulationNotes} {fixed : FixedPoint Frame}
    (built : ofMethod method = .ok graph)
    (solved : graph.semantics.solve budget method.code.length s = .ok (some fixed) s')
    (readable : ∀ (q : Nat) f, fixed.facts[q]? = some (some f) → f.StackReadable)
    (path : graph.Reaches point frame) : ∃ stable, fixed.facts[point]? = some (some stable) ∧ frame ≤ stable := by
  obtain ⟨more, length⟩ := Nat.exists_eq_add_one.2 (Nat.zero_lt_of_lt (path.lt_length built))
  rw [length] at solved
  obtain ⟨size, ⟨first, t, started, entered⟩, closed⟩ := graph.semantics_ascends.solve solved
  simp only [semantics_entry, semantics_transfer] at started closed
  have inside : ∀ {q f}, graph.Reaches q f → q < fixed.facts.size := fun path => by
    rw [size, ← length]
    exact path.lt_length built
  induction path with
  | @entry locals nonempty made =>
    obtain ⟨locals', made', rfl⟩ := entry_eq_ok started
    obtain rfl : locals = locals' := Except.ok.inj (made.symm.trans made')
    exact entered (inside (.entry nonempty made))
  | @step point next frame frame' flows notes notes' path sent member ih =>
    obtain ⟨coarse, found, below⟩ := ih
    obtain ⟨t, flows', t', sent', absorbed⟩ := closed point coarse found
    obtain ⟨above, member', compared⟩ := transfer_above sent member sent' below
      (Frame.similar_of_le below (readable point coarse found))
    obtain ⟨stable, found', below'⟩ := absorbed (next, above) member' (inside (path.step sent member))
    exact ⟨stable, found', compared.trans below'⟩

end FlowGraph

namespace Simulation

def reached (simulation : Simulation) : List Frame := FlowSemantics.reached simulation.frames

/-- No stack of a stable frame has an unreadable entry. -/
def StacksReadable (simulation : Simulation) : Prop :=
  ∀ frame ∈ simulation.reached, ∀ v ∈ frame.stack, v.kind ≠ .uninitialized

instance (simulation : Simulation) : Decidable simulation.StacksReadable :=
  inferInstanceAs (Decidable (∀ frame ∈ simulation.reached, ∀ v ∈ frame.stack, v.kind ≠ .uninitialized))

end Simulation

namespace Method

variable {method : Method} {graph : FlowGraph} {simulation : Simulation}

theorem simulate_eq_ok (built : FlowGraph.ofMethod method = .ok graph) :
    method.simulate = .ok simulation ↔
      ∃ fixed notes, graph.semantics.solve method.budget method.code.length {} = .ok (some fixed) notes ∧
        simulation = ⟨fixed.facts, notes.dynamicArguments, notes.history, fixed.iterations⟩ := by
  rw [simulate, built]
  cases solved : graph.semantics.solve method.budget method.code.length {} with
  | error cause notes => simp [bind, Except.bind, solved]
  | ok answer notes =>
    cases answer with
    | none => simp [bind, Except.bind, solved]
    | some fixed => simp [bind, Except.bind, solved, pure, Except.pure, eq_comm]

theorem simulate_above (built : FlowGraph.ofMethod method = .ok graph) (simulated : method.simulate = .ok simulation)
    (readable : simulation.StacksReadable) {point : Nat} {frame : Frame} (path : graph.Reaches point frame) :
    ∃ stable, simulation.frames[point]? = some (some stable) ∧ frame ≤ stable ∧ frame.Similar stable := by
  obtain ⟨fixed, notes, solved, rfl⟩ := (simulate_eq_ok built).1 simulated
  have readable' : ∀ (q : Nat) f, fixed.facts[q]? = some (some f) → f.StackReadable :=
    fun q f found => readable f (FlowSemantics.mem_reached.2 ⟨q, found⟩)
  obtain ⟨stable, found, below⟩ := path.absorbed built solved readable'
  exact ⟨stable, found, below, Frame.similar_of_le below (readable' point stable found)⟩

/-- Every instruction that is reached executes on its stable frame, and what flows from it lies below the
stable frames. -/
theorem simulate_absorbs (built : FlowGraph.ofMethod method = .ok graph)
    (simulated : method.simulate = .ok simulation) {point : Nat} {frame : Frame}
    (found : simulation.frames[point]? = some (some frame)) (notes : SimulationNotes) :
    ∃ flows notes', graph.transfer point frame notes = .ok flows notes' ∧ ∀ next frame', (next, frame') ∈ flows →
      ∃ stable, simulation.frames[next]? = some (some stable) ∧ frame' ≤ stable := by
  obtain ⟨fixed, final, solved, rfl⟩ := (simulate_eq_ok built).1 simulated
  obtain ⟨more, length⟩ := FlowSemantics.exists_more solved found
  rw [length] at solved
  obtain ⟨size, -, closed⟩ := graph.semantics_ascends.solve solved
  obtain ⟨s, flows, s', sent, absorbed⟩ := closed point frame found
  rw [FlowGraph.semantics_transfer] at sent
  rcases FlowGraph.transfer_eq_ok sent with ⟨outside, -⟩ | ⟨action, targets, after, decodes, performed, same⟩
  · exact ⟨[], notes, FlowGraph.transfer_outside outside frame notes, by simp⟩
  · obtain ⟨flows', notes', sent', same'⟩ := FlowGraph.transfer_of_perform decodes performed notes
    refine ⟨flows', notes', sent', fun next frame' member => ?_⟩
    have leaves := (same' next frame').1 member
    have inside := FlowGraph.leaves_lt built decodes leaves
    rw [length, ← size] at inside
    exact absorbed (next, frame') ((same next frame').2 leaves) inside

theorem simulate_transfers (built : FlowGraph.ofMethod method = .ok graph)
    (simulated : method.simulate = .ok simulation) {point : Nat} {stable : Frame}
    (found : simulation.frames[point]? = some (some stable)) :
    ∃ s flows s', graph.transfer point stable s = .ok flows s' := by
  obtain ⟨flows, notes', sent, -⟩ := simulate_absorbs built simulated found {}
  exact ⟨{}, flows, notes', sent⟩

end Method

namespace Frame

/-- What a stable frame says about a frame that a path brings to its instruction. -/
structure Describes (stable frame : Frame) : Prop where
  counts : frame.locals.length = stable.locals.length
  heights : frame.stack.length = stable.stack.length
  operand_kinds : ∀ (depth : Nat) v w, frame.stack[depth]? = some v → stable.stack[depth]? = some w →
    v.kind = w.kind
  slot_kinds : ∀ (slot : Nat) v w, frame.locals[slot]? = some v → stable.locals[slot]? = some w →
    w.kind = v.kind ∨ w.kind = .uninitialized
  sources : ∀ position v w, frame.at? position = some v → stable.at? position = some w →
    ∀ i, i ∈ v.sources → i ∈ w.sources

theorem describes_of_le {frame stable : Frame} (below : frame ≤ stable) (similar : frame.Similar stable) :
    stable.Describes frame := by
  obtain ⟨counts, heights, pointwise⟩ := le_iff_at?.1 below
  refine ⟨counts, heights, fun depth v w => similar.kind_eq, fun slot v w found found' => ?_, ?_⟩
  · exact (pointwise (.slot slot) v w found found').1.imp_left Eq.symm
  · exact fun position v w found found' => (pointwise position v w found found').2

end Frame

namespace Method

/-- A method that stores one of two constants over and over. -/
def alternating : Method where
  name := "alternate"
  descriptor := "()V"
  isStatic := true
  maxLocals := 1
  code := [⟨0, 0x03, .constant (.int 0)⟩, ⟨1, 0x99, .jump 8⟩, ⟨4, 0x04, .constant (.int 1)⟩, ⟨5, 0xa7, .jump 9⟩,
    ⟨8, 0x05, .constant (.int 2)⟩, ⟨9, 0x3b, .slot 0⟩, ⟨10, 0xa7, .jump 0⟩]

def alternatingGraph : FlowGraph := ⟨alternating, FlowGraph.positionsOf alternating, []⟩

theorem ok_of_toOption {ε α : Type} {x : Except ε α} {a : α} (found : x.toOption = some a) : x = .ok a := by
  cases x with
  | error => cases found
  | ok => exact congrArg _ (Option.some.inj found)

theorem value_of_kinds {row : List Value} {kinds : List Kind} (same : row.map (·.kind) = kinds) {i : Nat} {kind : Kind}
    (listed : kinds[i]? = some kind) : ∃ v, row[i]? = some v ∧ v.kind = kind := by
  rw [← same, List.getElem?_map] at listed
  exact Option.map_eq_some_iff.1 listed

theorem alternating_simulates : ∃ simulation stable, alternating.simulate = .ok simulation ∧
    simulation.StacksReadable ∧ simulation.frames[5]? = some (some stable) ∧
    stable.stack.map (·.toFacets) = [⟨.int, .single 2 ∪ .single 4⟩] := by
  have accepted : alternating.simulate.toOption.any (fun simulation => simulation.StacksReadable ∧
      simulation.frames[5]?.join.any (fun stable =>
        stable.stack.map (·.toFacets) = [⟨.int, .single 2 ∪ .single 4⟩]) = true) = true := by
    decide +kernel
  obtain ⟨simulation, simulated, accepted⟩ := (Option.any_eq_true _ _).1 accepted
  obtain ⟨readable, accepted⟩ := of_decide_eq_true accepted
  obtain ⟨stable, found, facets⟩ := (Option.any_eq_true _ _).1 accepted
  exact ⟨simulation, stable, ok_of_toOption simulated, readable, Option.join_eq_some_iff.1 found,
    of_decide_eq_true facets⟩

/-- The second time round the path takes the other branch. -/
theorem alternating_path : ∃ frame, alternatingGraph.Reaches 5 frame ∧
    frame.stack.map (·.toFacets) = [⟨.int, .single 2⟩] ∧ frame.locals.map (·.toFacets) = [⟨.int, .single 4⟩] := by
  have walked : (alternatingGraph.walk [0, 1, 0, 0, 0, 0, 0, 0, 0]).any (fun there => there.1 = 5 ∧
      there.2.stack.map (·.toFacets) = [⟨.int, .single 2⟩] ∧
      there.2.locals.map (·.toFacets) = [⟨.int, .single 4⟩]) = true := by
    decide +kernel
  obtain ⟨⟨point, frame⟩, ends, facets⟩ := (Option.any_eq_true _ _).1 walked
  obtain ⟨rfl, facets⟩ := of_decide_eq_true facets
  exact ⟨frame, FlowGraph.reaches_walk ends, facets⟩

/-- Every path ends at an instruction with a stable frame, and this frame describes the one that the
path brings. -/
theorem simulate_describes_paths {method : Method} {graph : FlowGraph} {simulation : Simulation}
    (built : FlowGraph.ofMethod method = .ok graph) (simulated : method.simulate = .ok simulation)
    (readable : simulation.StacksReadable) {point : Nat} {frame : Frame} (path : graph.Reaches point frame) :
    ∃ stable, simulation.frames[point]? = some (some stable) ∧ stable.Describes frame := by
  obtain ⟨stable, found, below, similar⟩ := simulate_above built simulated readable path
  exact ⟨stable, found, Frame.describes_of_le below similar⟩

theorem simulate_describes_paths_alternating :
    ∃ simulation frame stable, FlowGraph.ofMethod alternating = .ok alternatingGraph ∧
      alternating.simulate = .ok simulation ∧ simulation.StacksReadable ∧
      alternatingGraph.Reaches 5 frame ∧ frame.stack.map (·.toFacets) = [⟨.int, .single 2⟩] ∧
      simulation.frames[5]? = some (some stable) ∧
      stable.stack.map (·.toFacets) = [⟨.int, .single 2 ∪ .single 4⟩] ∧ stable.Describes frame := by
  obtain ⟨simulation, joined, simulated, readable, at_join, facets⟩ := alternating_simulates
  obtain ⟨frame, path, stack, -⟩ := alternating_path
  obtain ⟨stable, found, describes⟩ := simulate_describes_paths rfl simulated readable path
  obtain rfl : joined = stable := by simpa [at_join] using found
  exact ⟨simulation, frame, joined, rfl, simulated, readable, path, stack, found, facets, describes⟩

end Method
end CallProvenance
