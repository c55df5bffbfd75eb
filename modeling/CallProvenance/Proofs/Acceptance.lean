import CallProvenance.Proofs.Convergence
import CallProvenance.Proofs.Provenance

/-! Which methods are accepted. A simulation succeeds with readable stacks exactly when all paths of the
method are legal: on legal paths the solver never meets a frame that it cannot execute or
join, and it always settles. -/
namespace CallProvenance

namespace FlowGraph.Legal

variable {graph : FlowGraph} {point : Nat} {frame current incoming : Frame} (legal : graph.Legal)
include legal

theorem transfers (attested : frame.Attested (graph.Reaches point)) (s : SimulationNotes) :
    ∃ flows s', graph.transfer point frame s = .ok flows s' := by
  obtain ⟨f, path, -⟩ := attested.shape
  obtain ⟨flows, s', sent⟩ := legal.executes path s
  refine transfer_of_transfer sent (fun decodes _ => ?_) s
  exact Action.perform_of_attested (legal.uniform point) attested fun f => legal.performs decodes

theorem merges (left : current.Attested (graph.Reaches point)) (right : incoming.Attested (graph.Reaches point))
    (s : SimulationNotes) : ∃ answer s', merge current incoming s = .ok answer s' := by
  obtain ⟨f, path, -⟩ := left.shape
  have similar := left.similar (legal.uniform point) path
  have similar' := right.similar (legal.uniform point) path
  cases merged : merge current incoming s with
  | ok answer s' => exact ⟨answer, s', rfl⟩
  | error cause s' =>
    rcases merge_eq_error merged with heights | counts
    · exact absurd (similar.heights.symm.trans similar'.heights) heights
    · exact absurd (similar.counts.symm.trans similar'.counts) counts

theorem solve_ne_error (nonempty : graph.method.code ≠ []) {locals : List Value}
    (made : graph.method.entryLocals = .ok locals) {budget : Nat} {s s' : SimulationNotes} {cause : Inconsistency} :
    graph.semantics.solve budget graph.method.code.length s ≠ .error cause s' := by
  intro failed
  obtain ⟨more, length⟩ := Nat.exists_eq_add_one.2 (List.length_pos_iff.2 nonempty)
  rw [length] at failed
  rcases legal.keeps_attested.solve_error (attested_entry nonempty) failed with
    started | ⟨point, frame, t, attested, sent⟩ | ⟨point, current, incoming, t, left, right, merged⟩
  · simp only [semantics_entry, entry, made] at started
    cases started
  · obtain ⟨flows, t', sent'⟩ := legal.transfers attested t
    rw [semantics_transfer, sent'] at sent
    cases sent
  · obtain ⟨answer, t', merged'⟩ := legal.merges left right t
    rw [semantics_merge, merged'] at merged
    cases merged

end FlowGraph.Legal

namespace Method

variable {method : Method} {graph : FlowGraph} {locals : List Value}

theorem simulate_of_legal (built : FlowGraph.ofMethod method = .ok graph) (nonempty : method.code ≠ [])
    (made : method.entryLocals = .ok locals) (legal : graph.Legal) :
    ∃ simulation, method.simulate = .ok simulation ∧ simulation.StacksReadable := by
  obtain rfl := FlowGraph.ofMethod_method built
  cases solved : graph.semantics.solve graph.method.budget graph.method.code.length {} with
  | error cause notes => exact absurd solved (legal.solve_ne_error nonempty made)
  | ok answer notes =>
    cases answer with
    | none => exact absurd solved (graph.solve_ne_none {} notes)
    | some fixed =>
      refine ⟨_, (simulate_eq_ok built).2 ⟨fixed, notes, solved, rfl⟩, fun frame reached => ?_⟩
      obtain ⟨point, found⟩ := FlowSemantics.mem_reached.1 reached
      exact (legal.attested solved found).readable (legal.uniform point)

/-- A method is accepted with readable stacks exactly when all its paths are legal. Slots that lose
their kind in a join are no reason to reject it. -/
theorem simulate_accepts_iff (built : FlowGraph.ofMethod method = .ok graph) (nonempty : method.code ≠ [])
    (made : method.entryLocals = .ok locals) :
    (∃ simulation, method.simulate = .ok simulation ∧ simulation.StacksReadable) ↔ graph.Legal := by
  constructor
  · rintro ⟨simulation, simulated, readable⟩
    exact legal_of_simulate built simulated readable
  · exact simulate_of_legal built nonempty made

theorem simulate_accepts_iff_alternating :
    ∃ locals, FlowGraph.ofMethod alternating = .ok alternatingGraph ∧ alternating.code ≠ [] ∧
      alternating.entryLocals = .ok locals ∧
      ((∃ simulation, alternating.simulate = .ok simulation ∧ simulation.StacksReadable) ↔
        alternatingGraph.Legal) ∧ alternatingGraph.Legal := by
  have started : alternating.entryLocals.toOption.isSome = true := by decide +kernel
  obtain ⟨locals, started⟩ := Option.isSome_iff_exists.1 started
  have made := ok_of_toOption started
  have nonempty : alternating.code ≠ [] := by decide
  have accepts := simulate_accepts_iff rfl nonempty made
  obtain ⟨simulation, _, simulated, readable, -⟩ := alternating_simulates
  exact ⟨locals, rfl, nonempty, made, accepts, accepts.1 ⟨simulation, simulated, readable⟩⟩

end Method
end CallProvenance
