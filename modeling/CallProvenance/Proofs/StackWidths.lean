import CallProvenance.Proofs.ArisingFrames

/-! Widths of stack entries at joins. A join keeps the kind of an entry and with it the width, or it leaves
the entry unreadable and one word wide. The latter happens only where frames arrive that have
different kinds in this place; then a later instruction may pair the entry with the one below. -/
namespace CallProvenance

theorem Value.size_of_le {v w : Value} (below : v ≤ w) (readable : w.kind ≠ .uninitialized) : w.size = v.size := by
  rw [size, size, Kind.eq_of_le below.1 readable]

theorem Value.sizes_of_rowLe {a b : List Value} (below : RowLe a b) (readable : ∀ w ∈ b, w.kind ≠ .uninitialized) :
    b.map (·.size) = a.map (·.size) := by
  induction below with
  | nil => rfl
  | cons head _ ih =>
    have same := size_of_le head (readable _ List.mem_cons_self)
    have rest := ih fun w member => readable w (List.mem_cons_of_mem _ member)
    rw [List.map_cons, List.map_cons, same, rest]

namespace Method

variable {method : Method} {graph : FlowGraph} {simulation : Simulation}

/-- Some flow brings the frame to the instruction while the method is simulated. -/
def Arrives (method : Method) (point : Nat) (frame : Frame) : Prop :=
  ∃ graph flows work notes, FlowGraph.ofMethod method = .ok graph ∧
    graph.semantics.Visits method.code.length {} flows work notes ∧ (point, frame) ∈ flows

/-- Where a stable frame does not have some kind, a frame without this kind has arrived. -/
theorem exists_arrives_of_kind_ne (built : FlowGraph.ofMethod method = .ok graph)
    (simulated : method.simulate = .ok simulation) {point depth : Nat} {stable : Frame} {w : Value} {kind : Kind}
    (found : simulation.frames[point]? = some (some stable)) (entry : stable.stack[depth]? = some w)
    (other : w.kind ≠ kind) :
    ∃ frame u, method.Arrives point frame ∧ frame.stack[depth]? = some u ∧ u.kind ≠ kind := by
  by_contra uniform
  obtain ⟨fixed, notes, solved, rfl⟩ := (simulate_eq_ok built).1 simulated
  obtain ⟨work, s, visited, found⟩ := FlowSemantics.visits_of_solve solved found
  -- If all that arrives has the kind, then so has every join of it.
  have everywhere : FlowSemantics.Keeps.Everywhere
      (fun here frame => here = point → ∀ u, frame.stack[depth]? = some u → u.kind = kind) work := by
    refine FlowSemantics.Visits.everywhere ?_ ?_ ?_ visited
    · intro first t started _ u at_depth
      obtain ⟨locals, -, rfl⟩ := FlowGraph.entry_eq_ok started
      simp at at_depth
    · intro here current incoming joined s s' left right merged same u at_depth
      obtain ⟨v, v', at_left, at_right, facets⟩ := (FlowGraph.joined_isJoin merged).1.stack.getElem? at_depth
      have kinds : u.kind = v.kind ⊔ v'.kind := congrArg Facets.kind facets
      rw [kinds, left same v at_left, right same v' at_right, sup_idem]
    · rintro flows work s visited ⟨here, frame⟩ member rfl u at_depth
      by_contra differs
      exact uniform ⟨frame, u, ⟨graph, flows, work, s, built, visited, member⟩, at_depth, differs⟩
  exact other (everywhere point stable found rfl w entry)

/-- All that flows from the stable frames has stack entries as wide as those of the stable frame that it
flows to. -/
def JoinsKeepWidths (method : Method) : Prop :=
  ∀ graph simulation, FlowGraph.ofMethod method = .ok graph → method.simulate = .ok simulation →
    ∀ (point : Nat) frame notes flows notes', simulation.frames[point]? = some (some frame) →
      graph.transfer point frame notes = .ok flows notes' → ∀ (next : Nat) frame', (next, frame') ∈ flows →
        ∃ stable, simulation.frames[next]? = some (some stable) ∧
          stable.stack.map (·.size) = frame'.stack.map (·.size)

/-- A method that drops two words which are one wide value on one branch and two values on the other. -/
def mixing : Method where
  name := "mix"
  descriptor := "(Z)V"
  isStatic := true
  maxLocals := 1
  code := [⟨0, 0x04, .constant (.int 1)⟩, ⟨1, 0x1a, .slot 0⟩, ⟨2, 0x99, .jump 9⟩, ⟨5, 0x09, .constant (.long 0)⟩,
    ⟨6, 0xa7, .jump 10⟩, ⟨9, 0x03, .constant (.int 0)⟩, ⟨10, 0x58, .none⟩, ⟨11, 0xb1, .none⟩]

def mixingGraph : FlowGraph := ⟨mixing, FlowGraph.positionsOf mixing, []⟩

theorem mixing_simulates : ∃ simulation frame stable, mixing.simulate = .ok simulation ∧
    simulation.frames[4]? = some (some frame) ∧ frame.stack.map (·.kind) = [.long, .int] ∧
    simulation.frames[6]? = some (some stable) ∧ stable.stack.map (·.kind) = [.uninitialized, .int] := by
  have accepted : mixing.simulate.toOption.any (fun simulation =>
      simulation.frames[4]?.join.any (fun frame => frame.stack.map (·.kind) = [.long, .int]) = true ∧
      simulation.frames[6]?.join.any (fun stable => stable.stack.map (·.kind) = [.uninitialized, .int]) = true) = true := by
    decide +kernel
  obtain ⟨simulation, simulated, accepted⟩ := (Option.any_eq_true _ _).1 accepted
  obtain ⟨before, after⟩ := of_decide_eq_true accepted
  obtain ⟨frame, found, kinds⟩ := (Option.any_eq_true _ _).1 before
  obtain ⟨stable, found', kinds'⟩ := (Option.any_eq_true _ _).1 after
  exact ⟨simulation, frame, stable, ok_of_toOption simulated, Option.join_eq_some_iff.1 found, of_decide_eq_true kinds,
    Option.join_eq_some_iff.1 found', of_decide_eq_true kinds'⟩

theorem mixing_jumps (frame : Frame) (notes : SimulationNotes) :
    ∃ flows notes', mixingGraph.transfer 4 frame notes = .ok flows notes' ∧ (6, frame) ∈ flows := by
  have decodes : mixingGraph.Decodes 4 .keep [6] :=
    ⟨⟨6, 0xa7, .jump 10⟩, rfl, by decide +kernel, by decide +kernel⟩
  have performed : Action.keep.perform 4 frame = .ok frame := rfl
  obtain ⟨flows, notes', sent, same⟩ := FlowGraph.transfer_of_perform decodes performed notes
  exact ⟨flows, notes', sent, (same 6 frame).2 (.completed (by simp))⟩

/-- The join of a wide and a narrow entry is narrow. -/
theorem mixing_narrows : ¬ mixing.JoinsKeepWidths := by
  intro keeps
  obtain ⟨simulation, frame, stable, simulated, found, kinds, found', kinds'⟩ := mixing_simulates
  obtain ⟨flows, notes', sent, member⟩ := mixing_jumps frame {}
  obtain ⟨joined, at_join, sizes⟩ := keeps mixingGraph simulation rfl simulated 4 frame {} flows notes' found sent 6 frame member
  obtain rfl : stable = joined := by simpa [found'] using at_join
  have widths : stable.stack.map (·.size) = [1, 1] := by
    simpa [Value.size, Kind.size, Function.comp_def] using congrArg (List.map Kind.size) kinds'
  have widths' : frame.stack.map (·.size) = [2, 1] := by
    simpa [Value.size, Kind.size, Function.comp_def] using congrArg (List.map Kind.size) kinds
  rw [widths, widths'] at sizes
  cases sizes

/-- Whatever flows from a stable frame arrives at a stable frame with a stack of the same height. An entry
there has the same kind and width, or it is unreadable and one word wide, and then some frame has
arrived with another kind in this place. If all stacks are readable, no width changes. -/
theorem widths_change_only_with_kinds (built : FlowGraph.ofMethod method = .ok graph)
    (simulated : method.simulate = .ok simulation) {point : Nat} {frame : Frame}
    (found : simulation.frames[point]? = some (some frame)) (notes : SimulationNotes) :
    ∃ flows notes', graph.transfer point frame notes = .ok flows notes' ∧ ∀ next frame', (next, frame') ∈ flows →
      ∃ stable, simulation.frames[next]? = some (some stable) ∧ stable.stack.length = frame'.stack.length ∧
        (∀ (depth : Nat) v w, frame'.stack[depth]? = some v → stable.stack[depth]? = some w →
          (w.kind = v.kind ∧ w.size = v.size) ∨
          (w.kind = .uninitialized ∧ w.size = 1 ∧
            ∃ other u, method.Arrives next other ∧ other.stack[depth]? = some u ∧ u.kind ≠ v.kind)) ∧
        (simulation.StacksReadable → stable.stack.map (·.size) = frame'.stack.map (·.size)) := by
  obtain ⟨flows, notes', sent, absorbed⟩ := simulate_absorbs built simulated found notes
  refine ⟨flows, notes', sent, fun next frame' member => ?_⟩
  obtain ⟨stable, there, below⟩ := absorbed next frame' member
  obtain ⟨height, entries⟩ := Value.RowLe.iff_getElem?.1 below.2
  refine ⟨stable, there, height.symm, ?_, ?_⟩
  · intro depth v w at_flow at_stable
    by_cases same : w.kind = v.kind
    · exact .inl ⟨same, by rw [Value.size, Value.size, same]⟩
    · have lost : w.kind = .uninitialized :=
        (entries depth v w at_flow at_stable).1.resolve_left fun same' => same same'.symm
      refine .inr ⟨lost, by simp [Value.size, lost, Kind.size], ?_⟩
      exact exists_arrives_of_kind_ne built simulated there at_stable same
  · intro readable
    refine Value.sizes_of_rowLe below.2 ?_
    exact readable stable (FlowSemantics.mem_reached.2 ⟨next, there⟩)

theorem widths_change_only_with_kinds_mixing :
    ∃ simulation frame flows notes' stable v w other u, mixing.simulate = .ok simulation ∧
      simulation.frames[4]? = some (some frame) ∧ mixingGraph.transfer 4 frame {} = .ok flows notes' ∧
      (6, frame) ∈ flows ∧ frame.stack[0]? = some v ∧ v.kind = .long ∧
      simulation.frames[6]? = some (some stable) ∧ stable.stack[0]? = some w ∧ w.kind = .uninitialized ∧
      mixing.Arrives 6 other ∧ other.stack[0]? = some u ∧ u.kind ≠ .long := by
  obtain ⟨simulation, frame, stable, simulated, found, kinds, found', kinds'⟩ := mixing_simulates
  obtain ⟨flows, notes', sent, member⟩ := mixing_jumps frame {}
  have built : FlowGraph.ofMethod mixing = .ok mixingGraph := rfl
  obtain ⟨flows', notes'', sent', widths⟩ := widths_change_only_with_kinds built simulated found {}
  obtain ⟨rfl, -⟩ := EStateM.Result.ok.inj (sent.symm.trans sent')
  obtain ⟨joined, at_join, -, entries, -⟩ := widths 6 frame member
  obtain rfl : stable = joined := by simpa [found'] using at_join
  obtain ⟨v, at_flow, long⟩ := value_of_kinds kinds (i := 0) rfl
  obtain ⟨w, at_stable, lost⟩ := value_of_kinds kinds' (i := 0) rfl
  rcases entries 0 v w at_flow at_stable with ⟨same, -⟩ | ⟨-, -, other, u, arrives, at_other, differs⟩
  · simp [long, lost] at same
  · rw [long] at differs
    exact ⟨simulation, frame, flows, notes', stable, v, w, other, u, simulated, found, sent, member, at_flow, long,
      found', at_stable, lost, arrives, at_other, differs⟩

end Method
end CallProvenance
