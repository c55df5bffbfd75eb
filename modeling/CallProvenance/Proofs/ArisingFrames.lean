import CallProvenance.Proofs.Convergence
import CallProvenance.Proofs.PathSoundness

/-! The frames that arise while a method is simulated. A run of the solver passes from state to state,
and the answer or the failure that ends it stems from the last of these. A property of frames that
flows and joins keep therefore holds of all frames along the way. -/
namespace CallProvenance

namespace FlowSemantics

variable {ε σ φ : Type} {semantics : FlowSemantics ε σ φ} {count budget : Nat} {s₀ s' : σ}

/-- The states that the solver passes through on a problem with `count` points: the flows that are
still to be taken in, the facts with the points that wait, and the state of the callbacks. The
next point is served when no flow is left. -/
inductive Visits (semantics : FlowSemantics ε σ φ) (count : Nat) (s₀ : σ) :
    List (Nat × φ) → Worklist φ → σ → Prop where
  | start {more : Nat} {first : φ} {s : σ} : count = more + 1 → semantics.entry s₀ = .ok first s →
      Visits semantics count s₀ [] (.start first more) s
  | serve {work : Worklist φ} {s s' : σ} {point : Nat} {rest : List Nat} {fact : φ} {flows : List (Nat × φ)} :
      Visits semantics count s₀ [] work s → work.queue = point :: rest →
      work.facts[point]? = some (some fact) → semantics.transfer point fact s = .ok flows s' →
      Visits semantics count s₀ flows { work with queue := rest, iterations := work.iterations + 1 } s'
  | skip {work : Worklist φ} {s : σ} {point : Nat} {rest : List Nat} :
      Visits semantics count s₀ [] work s → work.queue = point :: rest →
      (∀ fact, work.facts[point]? ≠ some (some fact)) →
      Visits semantics count s₀ [] { work with queue := rest } s
  | receive {work work' : Worklist φ} {s s' : σ} {flow : Nat × φ} {flows : List (Nat × φ)} :
      Visits semantics count s₀ (flow :: flows) work s → Worklist.Receives semantics work flow s work' s' →
      Visits semantics count s₀ flows work' s'

theorem visits_invariant (semantics : FlowSemantics ε σ φ) (count : Nat) (s₀ : σ) :
    Worklist.Invariant semantics (fun work s => semantics.Visits count s₀ [] work s)
      (fun flows work s => semantics.Visits count s₀ flows work s) where
  serve := .serve
  skip := .skip
  receive := .receive
  done visited := visited

theorem visits_of_solve {fixed : FixedPoint φ} (solved : semantics.solve budget count s₀ = .ok (some fixed) s')
    {point : Nat} {fact : φ} (found : fixed.facts[point]? = some (some fact)) :
    ∃ work s, semantics.Visits count s₀ [] work s ∧ work.facts[point]? = some (some fact) := by
  obtain ⟨more, rfl⟩ := exists_more solved found
  rw [solve_succ] at solved
  obtain ⟨first, t, started, settled⟩ := bind_eq_ok.1 solved
  obtain ⟨final, visited, -, rfl⟩ :=
    (semantics.visits_invariant (more + 1) s₀).run (.start rfl started) settled
  exact ⟨final, s', visited, found⟩

/-- A run fails at the entry, where the last state executes a point, or where it takes in a flow. -/
theorem visits_of_solve_error {e : ε} (failed : semantics.solve budget count s₀ = .error e s') :
    semantics.entry s₀ = .error e s' ∨
    (∃ work s point fact, semantics.Visits count s₀ [] work s ∧ work.facts[point]? = some (some fact) ∧
      semantics.transfer point fact s = .error e s') ∨
    (∃ work s flow flows current, semantics.Visits count s₀ (flow :: flows) work s ∧
      work.facts[flow.1]? = some (some current) ∧ semantics.merge current flow.2 s = .error e s') := by
  cases count with
  | zero => exact absurd failed pure_ne_error
  | succ more =>
    rw [solve_succ] at failed
    rcases bind_eq_error.1 failed with now | ⟨first, t, started, later⟩
    · exact .inl now
    right
    cases (semantics.visits_invariant (more + 1) s₀).run_error (.start rfl started) later with
    | transfer visited _ found failure => exact .inl ⟨_, _, _, _, visited, found, failure⟩
    | merge visited found failure => exact .inr ⟨_, _, _, _, _, visited, found, failure⟩

theorem Keeps.visits {holds : Nat → φ → Prop} (keeps : semantics.Keeps holds)
    (entry : ∀ {fact t}, semantics.entry s₀ = .ok fact t → holds 0 fact) {flows : List (Nat × φ)}
    {work : Worklist φ} {s : σ} (visited : semantics.Visits count s₀ flows work s) :
    Keeps.Everywhere holds work ∧ ∀ flow ∈ flows, holds flow.1 flow.2 := by
  induction visited with
  | start _ started => exact ⟨Keeps.everywhere_start (entry started), by simp⟩
  | serve _ queue found sent ih => exact keeps.invariant.serve ih.1 queue found sent
  | skip _ _ _ ih => exact ih
  | receive _ received ih => exact keeps.invariant.receive ih received

/-- What holds of all flows that are sent to a point, and of their joins, holds of the facts there. -/
theorem Visits.everywhere {holds : Nat → φ → Prop}
    (entry : ∀ {fact t}, semantics.entry s₀ = .ok fact t → holds 0 fact)
    (joins : ∀ {point current incoming joined s s'}, holds point current → holds point incoming →
      semantics.merge current incoming s = .ok (some joined) s' → holds point joined)
    (arrivals : ∀ {flows work s}, semantics.Visits count s₀ flows work s → ∀ flow ∈ flows, holds flow.1 flow.2)
    {flows : List (Nat × φ)} {work : Worklist φ} {s : σ} (visited : semantics.Visits count s₀ flows work s) :
    Keeps.Everywhere holds work := by
  induction visited with
  | start _ started => exact Keeps.everywhere_start (entry started)
  | serve _ _ _ _ ih => exact ih
  | skip _ _ _ ih => exact ih
  | receive before received ih =>
    have arrived := arrivals before _ List.mem_cons_self
    cases received with
    | outside => exact ih
    | first => exact Keeps.everywhere_update ih arrived
    | kept => exact ih
    | joined found merged => exact Keeps.everywhere_update ih (joins (ih _ _ found) arrived merged)

end FlowSemantics

namespace Method

variable {method : Method} {point : Nat} {frame : Frame}

/-- The frames that arise before an instruction while the method is simulated: the frame at entry, the
facts and the flows in every state of the solver, and the frames of execution paths. -/
inductive Arises (method : Method) : Nat → Frame → Prop where
  | entry {graph : FlowGraph} {locals : List Value} : FlowGraph.ofMethod method = .ok graph →
      method.entryLocals = .ok locals → Arises method 0 { locals }
  | fact {graph : FlowGraph} {flows : List (Nat × Frame)} {work : Worklist Frame} {notes : SimulationNotes}
      {point : Nat} {frame : Frame} : FlowGraph.ofMethod method = .ok graph →
      graph.semantics.Visits method.code.length {} flows work notes →
      work.facts[point]? = some (some frame) → Arises method point frame
  | flow {graph : FlowGraph} {flows : List (Nat × Frame)} {work : Worklist Frame} {notes : SimulationNotes}
      {next : Nat} {frame : Frame} : FlowGraph.ofMethod method = .ok graph →
      graph.semantics.Visits method.code.length {} flows work notes →
      (next, frame) ∈ flows → Arises method next frame
  | path {graph : FlowGraph} {point : Nat} {frame : Frame} : FlowGraph.ofMethod method = .ok graph →
      graph.Reaches point frame → Arises method point frame

/-- What holds at entry, along flows and of joins, holds of every frame that arises. -/
theorem Arises.induct (arises : method.Arises point frame) (holds : Nat → Frame → Prop)
    (preserves : ∀ {graph}, FlowGraph.ofMethod method = .ok graph → graph.Preserves holds)
    (joins : ∀ {point current incoming joined}, holds point current → holds point incoming →
      Frame.IsJoin current incoming joined → holds point joined) : holds point frame := by
  have visits {graph flows work notes} (built : FlowGraph.ofMethod method = .ok graph)
      (visited : graph.semantics.Visits method.code.length {} flows work notes) :
      FlowSemantics.Keeps.Everywhere holds work ∧ ∀ flow ∈ flows, holds flow.1 flow.2 := by
    refine ((preserves built).keeps joins).visits (fun started => ?_) visited
    obtain ⟨locals, made, rfl⟩ := FlowGraph.entry_eq_ok started
    exact (preserves built).entry made
  cases arises with
  | entry built made =>
    rw [← FlowGraph.ofMethod_method built] at made
    exact (preserves built).entry made
  | fact built visited found => exact (visits built visited).1 _ _ found
  | flow built visited member => exact (visits built visited).2 _ member
  | path built path => exact (preserves built).reaches path

theorem Arises.count (arises : method.Arises point frame) :
    ∃ locals, method.entryLocals = .ok locals ∧ frame.locals.length = locals.length := by
  refine arises.induct
    (fun _ frame => ∃ locals, method.entryLocals = .ok locals ∧ frame.locals.length = locals.length) ?_ ?_
  · intro graph built
    constructor
    · intro locals made
      exact ⟨locals, FlowGraph.ofMethod_method built ▸ made, rfl⟩
    · rintro point next frame after frame' action targets ⟨locals, made, same⟩ - performed leaves
      refine ⟨locals, made, ?_⟩
      cases leaves with
      | thrown => exact same
      | completed => rw [Action.perform_count performed, same]
  · rintro point current incoming joined ⟨locals, made, same⟩ - join
    exact ⟨locals, made, (join.locals.length join.counts).trans same⟩

theorem Arises.same_count {point' : Nat} {frame' : Frame} (arises : method.Arises point frame)
    (arises' : method.Arises point' frame') : frame'.locals.length = frame.locals.length := by
  obtain ⟨locals, made, count⟩ := arises.count
  obtain ⟨locals', made', count'⟩ := arises'.count
  obtain rfl : locals = locals' := Except.ok.inj (made.symm.trans made')
  rw [count, count']

theorem arises_of_simulate {simulation : Simulation} (simulated : method.simulate = .ok simulation)
    (found : simulation.frames[point]? = some (some frame)) : method.Arises point frame := by
  obtain ⟨graph, built, -⟩ := except_bind_eq_ok.1 simulated
  obtain ⟨fixed, notes, solved, rfl⟩ := (simulate_eq_ok built).1 simulated
  obtain ⟨work, s, visited, found⟩ := FlowSemantics.visits_of_solve solved found
  exact .fact built visited found

/-- Where a simulation can fail: before it starts, at an instruction that does not execute, or at two
frames that cannot be joined. -/
theorem simulate_eq_error {cause : Inconsistency} (failed : method.simulate = .error cause) :
    FlowGraph.ofMethod method = .error cause ∨
    ∃ graph, FlowGraph.ofMethod method = .ok graph ∧ (method.entryLocals = .error cause ∨
      (∃ point frame s s', method.Arises point frame ∧ graph.transfer point frame s = .error cause s') ∨
      (∃ point current incoming s s', method.Arises point current ∧ method.Arises point incoming ∧
        FlowGraph.merge current incoming s = .error cause s')) := by
  cases built : FlowGraph.ofMethod method with
  | error first =>
    rw [simulate, built] at failed
    cases failed
    exact .inl rfl
  | ok graph =>
    refine .inr ⟨graph, rfl, ?_⟩
    obtain rfl := FlowGraph.ofMethod_method built
    cases solved : graph.semantics.solve graph.method.budget graph.method.code.length {} with
    | ok answer notes =>
      cases answer with
      | none => exact absurd solved (graph.solve_ne_none {} notes)
      | some fixed =>
        have accepted := (simulate_eq_ok built).2 ⟨fixed, notes, solved, rfl⟩
        rw [accepted] at failed
        cases failed
    | error first notes =>
      obtain rfl : first = cause := by
        simpa [simulate, built, solved, bind, Except.bind] using failed
      rcases FlowSemantics.visits_of_solve_error solved with
        started | ⟨work, s, point, frame, visited, found, sent⟩ |
          ⟨work, s, flow, flows, current, visited, found, merged⟩
      · left
        rw [FlowGraph.semantics_entry, FlowGraph.entry] at started
        cases made : graph.method.entryLocals with
        | error cause =>
          rw [made] at started
          cases started
          rfl
        | ok locals =>
          rw [made] at started
          exact absurd started pure_ne_error
      · exact .inr (.inl ⟨point, frame, s, notes, .fact built visited found, sent⟩)
      · exact .inr (.inr ⟨flow.1, current, flow.2, s, notes, .fact built visited found,
          .flow built visited (by simp), merged⟩)

end Method
end CallProvenance
