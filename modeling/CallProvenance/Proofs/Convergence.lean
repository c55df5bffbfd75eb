import CallProvenance.Proofs.PathSoundness

/-! The solver settles on every method body. Facts rise along finite chains: their sources are
instructions, their slots are as many as at entry, and their stacks are bounded by the number of
instructions reached. So the budget suffices, and no larger one changes the answer. -/
namespace CallProvenance

theorem Frame.rank_le {frame : Frame} {bound : Nat}
    (below : ∀ v ∈ frame.values, ∀ i, i ∈ v.sources → i < bound) :
    frame.rank ≤ frame.values.length * (bound + 1) := by
  refine FlowSemantics.sum_map_le fun v member => ?_
  have sources := Sources.size_le_of_forall_lt (below v member)
  unfold Facets.rank
  split <;> omega

namespace FlowSemantics

variable {ε σ φ : Type} {semantics : FlowSemantics ε σ φ} {budget larger count : Nat} {s : σ}

theorem solve_mono (enough : budget ≤ larger) (settled : ∀ s', semantics.solve budget count s ≠ .ok none s') :
    semantics.solve larger count s = semantics.solve budget count s := by
  cases count with
  | zero => rfl
  | succ more =>
    rw [solve_succ] at settled
    rw [solve_succ, solve_succ]
    change EStateM.bind _ _ s = EStateM.bind _ _ s
    unfold EStateM.bind
    cases started : semantics.entry s with
    | error => rfl
    | ok first t =>
      refine Worklist.run_mono enough fun s' unsettled => settled s' ?_
      exact bind_eq_ok.2 ⟨first, t, started, unsettled⟩

end FlowSemantics

namespace FlowGraph

variable {graph : FlowGraph}

theorem keeps_count {locals : List Value} (made : graph.method.entryLocals = .ok locals) :
    graph.semantics.Keeps fun _ frame => frame.locals.length = locals.length :=
  (preserves_count made).keeps fun left _ join => (join.locals.length join.counts).trans left

theorem keeps_sources (graph : FlowGraph) : graph.semantics.Keeps fun _ frame =>
    ∀ v ∈ frame.values, ∀ i, i ∈ v.sources → graph.Produces i := by
  refine (preserves_sources graph).keeps fun left right join w member i source => ?_
  obtain ⟨v, side | side, source⟩ := join.mem_values member source
  · exact left v side i source
  · exact right v side i source

theorem semantics_stretches (graph : FlowGraph) : graph.semantics.Stretches (·.stack.length) 2 := by
  constructor
  · intro s first s' started
    obtain ⟨locals, -, rfl⟩ := entry_eq_ok started
    rfl
  · rintro point frame s flows s' sent ⟨next, frame'⟩ member
    rw [semantics_transfer] at sent
    obtain ⟨action, targets, after, -, performed, leaves⟩ := transfer_mem sent member
    cases leaves with
    | thrown => simp [Frame.caught, Frame.clearStack, Frame.push]
    | completed => exact Action.perform_height performed
  · intro current incoming joined s s' merged
    have join := (joined_isJoin merged).1
    exact join.stack.length join.heights

/-- The executions made and still due never exceed the budget. -/
theorem counted_le {work : Worklist Frame} {n slots : Nat} (size : work.facts.size = n)
    (counted : FlowSemantics.Counted Frame.rank work)
    (counts : FlowSemantics.Keeps.Everywhere (fun _ frame => frame.locals.length = slots) work)
    (sources : FlowSemantics.Keeps.Everywhere
      (fun _ frame => ∀ v ∈ frame.values, ∀ i, i ∈ v.sources → i < n) work)
    (heights : FlowSemantics.Stretches.Within (·.stack.length) 2 work) :
    work.iterations + work.queue.length ≤ n * (1 + (slots + 2 * n) * (n + 1)) := by
  have found : FlowSemantics.total (fun _ => 1) work.facts ≤ n := size ▸ FlowSemantics.total_one_le work.facts
  have ranks : FlowSemantics.total Frame.rank work.facts ≤
      FlowSemantics.total (fun _ => 1) work.facts * ((slots + 2 * n) * (n + 1)) := by
    refine FlowSemantics.total_le fun point frame at_point => ?_
    have height := heights point frame at_point
    have length : frame.values.length ≤ slots + 2 * n := by
      rw [Frame.values, List.length_append, counts point frame at_point]
      dsimp only at height
      omega
    exact (Frame.rank_le (sources point frame at_point)).trans (Nat.mul_le_mul_right _ length)
  calc work.iterations + work.queue.length
      ≤ FlowSemantics.total (fun _ => 1) work.facts + FlowSemantics.total Frame.rank work.facts := counted.upper
    _ ≤ n + n * ((slots + 2 * n) * (n + 1)) :=
      Nat.add_le_add found (ranks.trans (Nat.mul_le_mul_right _ found))
    _ = n * (1 + (slots + 2 * n) * (n + 1)) := by rw [Nat.mul_add n 1, Nat.mul_one]

/-- The budget of the method always suffices. -/
theorem solve_ne_none (graph : FlowGraph) (s s' : SimulationNotes) :
    graph.semantics.solve graph.method.budget graph.method.code.length s ≠ .ok none s' := by
  cases length : graph.method.code.length with
  | zero => nofun
  | succ more =>
    intro unsettled
    rw [FlowSemantics.solve_succ] at unsettled
    obtain ⟨first, t, started, later⟩ := bind_eq_ok.1 unsettled
    obtain ⟨locals, made, rfl⟩ := entry_eq_ok started
    have budget : graph.method.budget = (more + 1) * (1 + (locals.length + 2 * (more + 1)) * (more + 1 + 1)) := by
      simp [Method.budget, length, made, Except.toOption]
    have inv := (Worklist.Invariant.size (more + 1)).and
      ((FlowSemantics.Counted.invariant graph.semantics_raises).and
      ((keeps_count made).invariant.and (graph.keeps_sources.invariant.and graph.semantics_stretches.invariant)))
    refine inv.run_ne_none ?_ ?_ ?_ (Nat.le_add_right _ _) later
    · rintro work s ⟨size, counted, counts, sources, heights⟩
      rw [budget]
      refine counted_le size counted counts (fun point frame found v member i source => ?_) heights
      obtain ⟨instruction, effect, at_source, -⟩ := sources point frame found v member i source
      exact length ▸ (List.getElem?_eq_some_iff.1 at_source).1
    · rintro work s point ⟨-, counted, -⟩ waits
      exact counted.present point waits
    · refine ⟨Worklist.size_start _ more, FlowSemantics.Counted.start _ more, ?_, ?_, ?_⟩
      · exact FlowSemantics.Keeps.everywhere_start rfl
      · exact FlowSemantics.Keeps.everywhere_start fun v member i source =>
          absurd source (entry_sources made member i)
      · exact FlowSemantics.Stretches.start rfl

theorem sum_rank (frames : List Frame) : (frames.map Frame.rank).sum =
    ((frames.flatMap Frame.values).map fun v => v.sources.size + if v.kind = .uninitialized then 1 else 0).sum := by
  induction frames with
  | nil => rfl
  | cons frame frames ih =>
    rw [List.map_cons, List.sum_cons, ih, List.flatMap_cons, List.map_append, List.sum_append]
    rfl

theorem solve_iterations {budget : Nat} {s s' : SimulationNotes} {fixed : FixedPoint Frame}
    (solved : graph.semantics.solve budget graph.method.code.length s = .ok (some fixed) s') :
    (FlowSemantics.reached fixed.facts).length ≤ fixed.iterations ∧
    fixed.iterations ≤ (FlowSemantics.reached fixed.facts).length +
      (((FlowSemantics.reached fixed.facts).flatMap Frame.values).map fun v =>
        v.sources.size + if v.kind = .uninitialized then 1 else 0).sum := by
  rw [← sum_rank, ← FlowSemantics.total_one]
  cases length : graph.method.code.length with
  | zero =>
    rw [length] at solved
    cases solved
    exact ⟨Nat.le_refl 0, Nat.le_refl 0⟩
  | succ more =>
    rw [length] at solved
    exact FlowSemantics.Raises.solve graph.semantics_raises solved

/-- With any budget from the method's own on, the solver gives one and the same answer, a fixed point
or a failure, and a fixed point was found in at least as many executions as instructions are
reached, and in no more than these and the ranks of all values together. -/
theorem solve_settles (graph : FlowGraph) (s : SimulationNotes) :
    ∃ outcome, (∀ budget, graph.method.budget ≤ budget →
        graph.semantics.solve budget graph.method.code.length s = outcome) ∧
      (∀ s', outcome ≠ .ok none s') ∧
      ∀ fixed s', outcome = .ok (some fixed) s' →
        (FlowSemantics.reached fixed.facts).length ≤ fixed.iterations ∧
        fixed.iterations ≤ (FlowSemantics.reached fixed.facts).length +
          (((FlowSemantics.reached fixed.facts).flatMap Frame.values).map fun v =>
            v.sources.size + if v.kind = .uninitialized then 1 else 0).sum := by
  have settled := graph.solve_ne_none s
  refine ⟨_, fun budget enough => FlowSemantics.solve_mono enough settled, settled, ?_⟩
  intro fixed s' solved
  exact solve_iterations solved

theorem solve_settles_alternating : ∃ fixed notes,
    (∀ budget, Method.alternating.budget ≤ budget →
      Method.alternatingGraph.semantics.solve budget 7 {} = .ok (some fixed) notes) ∧
    fixed.iterations = 13 ∧ (FlowSemantics.reached fixed.facts).length = 7 ∧
    13 ≤ 7 + (((FlowSemantics.reached fixed.facts).flatMap Frame.values).map fun v =>
      v.sources.size + if v.kind = .uninitialized then 1 else 0).sum := by
  have ran : Method.alternating.simulate.toOption.any (fun simulation =>
      simulation.iterations = 13 ∧ simulation.reached.length = 7) = true := by
    decide +kernel
  obtain ⟨simulation, simulated, counted⟩ := (Option.any_eq_true _ _).1 ran
  obtain ⟨fixed, notes, solved, rfl⟩ := (Method.simulate_eq_ok rfl).1 (Method.ok_of_toOption simulated)
  obtain ⟨executed, reached⟩ := of_decide_eq_true counted
  obtain ⟨outcome, same, -, bounded⟩ := solve_settles Method.alternatingGraph {}
  obtain rfl := (same _ (Nat.le_refl _)).symm.trans solved
  refine ⟨fixed, notes, same, executed, reached, ?_⟩
  have bound := (bounded fixed notes rfl).2
  rw [show fixed.iterations = 13 from executed,
    show (FlowSemantics.reached fixed.facts).length = 7 from reached] at bound
  exact bound

end FlowGraph
end CallProvenance
