import CallProvenance.Proofs.Worklist

/-! What the solver's answers satisfy. Properties of single facts that the callbacks keep hold of
every fact of an answer, and if joins ascend, every flow out of an answer is absorbed by it. -/
namespace CallProvenance

variable {ε σ φ : Type}

namespace Worklist

/-- The state in which a run begins: only the entry has a fact, and it waits. -/
def start (fact : φ) (more : Nat) : Worklist φ :=
  ⟨(some fact :: List.replicate more none).toArray, [0], 0⟩

theorem start_found {fact found : φ} {more point : Nat}
    (at_point : (start fact more).facts[point]? = some (some found)) : point = 0 ∧ found = fact := by
  cases point with
  | zero => simpa [start, eq_comm] using at_point
  | succ point => simp [start, List.getElem?_replicate] at at_point

theorem size_start (fact : φ) (more : Nat) : (start fact more).facts.size = more + 1 := by
  simp [start]

namespace Invariant

variable {semantics : FlowSemantics ε σ φ} {between between' : Worklist φ → σ → Prop}
  {within within' : List (Nat × φ) → Worklist φ → σ → Prop}

theorem and (left : Invariant semantics between within) (right : Invariant semantics between' within') :
    Invariant semantics (fun work s => between work s ∧ between' work s)
      (fun flows work s => within flows work s ∧ within' flows work s) where
  serve before queue found transfer :=
    ⟨left.serve before.1 queue found transfer, right.serve before.2 queue found transfer⟩
  skip before queue missing := ⟨left.skip before.1 queue missing, right.skip before.2 queue missing⟩
  receive before received := ⟨left.receive before.1 received, right.receive before.2 received⟩
  done before := ⟨left.done before.1, right.done before.2⟩

theorem size (count : Nat) :
    Invariant semantics (fun work _ => work.facts.size = count) (fun _ work _ => work.facts.size = count) where
  serve before _ _ _ := before
  skip before _ _ := before
  receive before received := by cases received <;> simpa using before
  done before := before

end Invariant
end Worklist

namespace FlowSemantics

variable {semantics : FlowSemantics ε σ φ} {budget more : Nat} {s s' : σ}

theorem solve_succ :
    semantics.solve budget (more + 1) =
      semantics.entry >>= fun fact => Worklist.run semantics budget (.start fact more) := rfl

theorem exists_more {count : Nat} {fixed : FixedPoint φ} (solved : semantics.solve budget count s = .ok (some fixed) s')
    {point : Nat} {fact : φ} (found : fixed.facts[point]? = some (some fact)) : ∃ more, count = more + 1 := by
  cases count with
  | zero =>
    cases solved
    simp at found
  | succ more => exact ⟨more, rfl⟩

/-- A property of the facts at each point that executions and joins keep. -/
structure Keeps (semantics : FlowSemantics ε σ φ) (holds : Nat → φ → Prop) : Prop where
  transfer : ∀ {point fact s flows s'}, holds point fact →
    semantics.transfer point fact s = .ok flows s' → ∀ flow ∈ flows, holds flow.1 flow.2
  merge : ∀ {point current incoming s joined s'}, holds point current → holds point incoming →
    semantics.merge current incoming s = .ok (some joined) s' → holds point joined

namespace Keeps

variable {holds : Nat → φ → Prop}

/-- The property holds of every fact found so far. -/
def Everywhere (holds : Nat → φ → Prop) (work : Worklist φ) : Prop :=
  ∀ point fact, work.facts[point]? = some (some fact) → holds point fact

theorem everywhere_update {work : Worklist φ} {point : Nat} {fact : φ}
    (before : Everywhere holds work) (new : holds point fact) :
    Everywhere holds (work.update point fact) := by
  intro q found at_q
  by_cases same : q = point
  · subst same
    have inside : q < work.facts.size := by simpa using Worklist.lt_size at_q
    rw [Worklist.update_same _ _ _ inside] at at_q
    cases at_q
    exact new
  · exact before q found (by rwa [Worklist.update_other _ _ _ same] at at_q)

theorem invariant (keeps : Keeps semantics holds) :
    Worklist.Invariant semantics (fun work _ => Everywhere holds work)
      (fun flows work _ => Everywhere holds work ∧ ∀ flow ∈ flows, holds flow.1 flow.2) where
  serve before _ found transfer := ⟨before, keeps.transfer (before _ _ found) transfer⟩
  skip before _ _ := before
  receive := by
    rintro work s flow flows work' s' ⟨before, sent⟩ received
    have head := sent flow (by simp)
    refine ⟨?_, fun later member => sent later (by simp [member])⟩
    cases received with
    | outside => exact before
    | first => exact everywhere_update before head
    | kept => exact before
    | joined found merged =>
      exact everywhere_update before (keeps.merge (before _ _ found) head merged)
  done before := before.1

theorem everywhere_start {fact : φ} (entry : holds 0 fact) :
    Everywhere holds (Worklist.start fact more) := by
  intro point found at_point
  obtain ⟨rfl, rfl⟩ := Worklist.start_found at_point
  exact entry

theorem solve (keeps : Keeps semantics holds) {fixed : FixedPoint φ}
    (entry : ∀ {fact t}, semantics.entry s = .ok fact t → holds 0 fact)
    (solved : semantics.solve budget (more + 1) s = .ok (some fixed) s')
    {point : Nat} {fact : φ} (found : fixed.facts[point]? = some (some fact)) : holds point fact := by
  rw [solve_succ] at solved
  obtain ⟨first, t, started, settled⟩ := bind_eq_ok.1 solved
  obtain ⟨final, after, -, rfl⟩ := keeps.invariant.run (everywhere_start (entry started)) settled
  exact after point fact found

/-- If the solver fails after the entry fact is made, then a callback fails on facts that have
the property. -/
theorem solve_error (keeps : Keeps semantics holds) {e : ε}
    (entry : ∀ {fact t}, semantics.entry s = .ok fact t → holds 0 fact)
    (failed : semantics.solve budget (more + 1) s = .error e s') :
    semantics.entry s = .error e s' ∨
    (∃ point fact t, holds point fact ∧ semantics.transfer point fact t = .error e s') ∨
    (∃ point current incoming t, holds point current ∧ holds point incoming ∧
      semantics.merge current incoming t = .error e s') := by
  rw [solve_succ] at failed
  rcases bind_eq_error.1 failed with now | ⟨first, t, started, later⟩
  · exact .inl now
  right
  cases keeps.invariant.run_error (everywhere_start (entry started)) later with
  | transfer before _ found failure => exact .inl ⟨_, _, _, before _ _ found, failure⟩
  | merge before found failure =>
    exact .inr ⟨_, _, _, _, before.1 _ _ found, before.2 _ (by simp), failure⟩

end Keeps

/-- Joins lie above what they join. -/
structure Ascends [Preorder φ] (semantics : FlowSemantics ε σ φ) : Prop where
  kept : ∀ {current incoming s s'}, semantics.merge current incoming s = .ok none s' →
    incoming ≤ current
  joined : ∀ {current incoming joined s s'},
    semantics.merge current incoming s = .ok (some joined) s' → current ≤ joined ∧ incoming ≤ joined

namespace Ascends

variable [Preorder φ]

/-- What flows to a point of the program already lies below the fact there. -/
def Absorbed (facts : Array (Option φ)) (flow : Nat × φ) : Prop :=
  flow.1 < facts.size → ∃ fact, facts[flow.1]? = some (some fact) ∧ flow.2 ≤ fact

/-- Every point with a fact waits, or has sent flows from that fact which are absorbed or `pending`. -/
def Served (semantics : FlowSemantics ε σ φ) (pending : List (Nat × φ)) (work : Worklist φ) : Prop :=
  ∀ point fact, work.facts[point]? = some (some fact) → point ∈ work.queue ∨
    ∃ t flows t', semantics.transfer point fact t = .ok flows t' ∧
      ∀ flow ∈ flows, flow ∈ pending ∨ Absorbed work.facts flow

theorem absorbed_update {work : Worklist φ} {point : Nat} {fact : φ} {flow : Nat × φ}
    (raised : ∀ current, work.facts[point]? = some (some current) → current ≤ fact)
    (absorbed : Absorbed work.facts flow) : Absorbed (work.update point fact).facts flow := by
  intro inside
  rw [Worklist.size_update] at inside
  obtain ⟨current, found, below⟩ := absorbed inside
  by_cases same : flow.1 = point
  · rw [same] at found inside ⊢
    exact ⟨fact, Worklist.update_same _ _ _ inside, below.trans (raised current found)⟩
  · exact ⟨current, by rwa [Worklist.update_other _ _ _ same], below⟩

theorem absorbed_new {work : Worklist φ} {flow : Nat × φ} {fact : φ} (below : flow.2 ≤ fact) :
    Absorbed (work.update flow.1 fact).facts flow := by
  intro inside
  rw [Worklist.size_update] at inside
  exact ⟨fact, Worklist.update_same _ _ _ inside, below⟩

theorem served_update {pending : List (Nat × φ)} {work : Worklist φ} {point : Nat} {fact : φ}
    (raised : ∀ current, work.facts[point]? = some (some current) → current ≤ fact)
    (served : Served semantics pending work) : Served semantics pending (work.update point fact) := by
  intro q found at_q
  by_cases same : q = point
  · exact .inl (by simp [same])
  rw [Worklist.update_other _ _ _ same] at at_q
  rcases served q found at_q with waits | ⟨t, flows, t', transfer, sent⟩
  · exact .inl (by simp [waits])
  · exact .inr ⟨t, flows, t', transfer, fun flow member =>
      (sent flow member).imp_right (absorbed_update raised)⟩

theorem served_tail {pending : List (Nat × φ)} {work : Worklist φ} {flow : Nat × φ}
    (absorbed : Absorbed work.facts flow) (served : Served semantics (flow :: pending) work) :
    Served semantics pending work := by
  intro point fact found
  refine (served point fact found).imp_right ?_
  rintro ⟨t, flows, t', transfer, sent⟩
  refine ⟨t, flows, t', transfer, fun other member => ?_⟩
  rcases sent other member with waits | done
  · rcases List.mem_cons.1 waits with rfl | later
    · exact .inr absorbed
    · exact .inl later
  · exact .inr done

theorem served_invariant (ascends : Ascends semantics) :
    Worklist.Invariant semantics (fun work _ => Served semantics [] work)
      (fun pending work _ => Served semantics pending work) where
  serve := by
    intro work s point rest fact flows s' before queue found transfer other here at_other
    rcases before other here at_other with waits | ⟨t, sent, t', transfer', absorbed⟩
    · rw [queue] at waits
      rcases List.mem_cons.1 waits with rfl | later
      · obtain rfl : here = fact := by simpa [found] using at_other.symm
        exact .inr ⟨s, flows, s', transfer, fun flow member => .inl member⟩
      · exact .inl later
    · exact .inr ⟨t, sent, t', transfer', fun flow member =>
        .inr ((absorbed flow member).resolve_left List.not_mem_nil)⟩
  skip := by
    intro work s point rest before queue missing other here at_other
    refine (before other here at_other).imp_left fun waits => ?_
    rw [queue] at waits
    rcases List.mem_cons.1 waits with rfl | later
    · exact absurd at_other (missing here)
    · exact later
  receive := by
    intro work s flow flows work' s' before received
    cases received with
    | outside missing =>
      refine served_tail (fun inside => ?_) before
      rw [Array.getElem?_eq_none_iff] at missing
      omega
    | first empty =>
      exact served_tail (absorbed_new le_rfl) (served_update (by simp [empty]) before)
    | kept found merged =>
      exact served_tail (fun _ => ⟨_, found, ascends.kept merged⟩) before
    | joined found merged =>
      obtain ⟨raised, below⟩ := ascends.joined merged
      refine served_tail (absorbed_new below) (served_update (fun current at_point => ?_) before)
      obtain rfl : current = _ := by simpa [found] using at_point.symm
      exact raised
  done before := before

theorem absorbed_invariant (ascends : Ascends semantics) (flow : Nat × φ) :
    Worklist.Invariant semantics (fun work _ => Absorbed work.facts flow)
      (fun _ work _ => Absorbed work.facts flow) where
  serve before _ _ _ := before
  skip before _ _ := before
  receive := by
    intro work s other flows work' s' before received
    cases received with
    | outside => exact before
    | first empty => exact absorbed_update (by simp [empty]) before
    | kept => exact before
    | joined found merged =>
      refine absorbed_update (fun current at_point => ?_) before
      obtain rfl : current = _ := by simpa [found] using at_point.symm
      exact (ascends.joined merged).1
  done before := before

/-- An answer lies above the entry fact, and each of its facts was executed with flows that the
answer absorbs. -/
theorem solve (ascends : Ascends semantics) {fixed : FixedPoint φ}
    (solved : semantics.solve budget (more + 1) s = .ok (some fixed) s') :
    fixed.facts.size = more + 1 ∧
    (∃ first t, semantics.entry s = .ok first t ∧ Absorbed fixed.facts (0, first)) ∧
    ∀ point fact, fixed.facts[point]? = some (some fact) →
      ∃ t flows t', semantics.transfer point fact t = .ok flows t' ∧
        ∀ flow ∈ flows, Absorbed fixed.facts flow := by
  rw [solve_succ] at solved
  obtain ⟨first, t, started, settled⟩ := bind_eq_ok.1 solved
  have inv := (Worklist.Invariant.size (more + 1)).and
    ((ascends.absorbed_invariant (0, first)).and ascends.served_invariant)
  have waiting : Served semantics [] (.start first more) := fun point fact found =>
    .inl (by simp [(Worklist.start_found found).1, Worklist.start])
  have absorbed : Absorbed (Worklist.start first more).facts (0, first) := fun _ =>
    ⟨first, by simp [Worklist.start], le_rfl⟩
  obtain ⟨final, ⟨size, above, served⟩, empty, rfl⟩ :=
    inv.run ⟨Worklist.size_start first more, absorbed, waiting⟩ settled
  refine ⟨size, ⟨first, t, started, above⟩, fun point fact found => ?_⟩
  obtain ⟨t, flows, t', transfer, sent⟩ := (served point fact found).resolve_left (by simp [empty])
  exact ⟨t, flows, t', transfer, fun flow member => (sent flow member).resolve_left List.not_mem_nil⟩

end Ascends

end FlowSemantics
end CallProvenance
