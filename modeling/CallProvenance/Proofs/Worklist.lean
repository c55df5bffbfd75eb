import CallProvenance.FixedPoint
import Mathlib.Order.Basic

/-! Runs of the worklist solver, for callbacks of any kind. A run is taken apart into the serving of
points and the receipt of single flows; what both keep holds at the end of every run. -/
namespace CallProvenance

section Results

variable {ε σ α β : Type} {x : EStateM ε σ α} {f : α → EStateM ε σ β} {s s' : σ}

theorem bind_eq_ok {b : β} :
    (x >>= f) s = .ok b s' ↔ ∃ a t, x s = .ok a t ∧ f a t = .ok b s' := by
  change EStateM.bind x f s = _ ↔ _
  unfold EStateM.bind
  cases x s <;> simp [and_assoc]

theorem bind_eq_error {e : ε} :
    (x >>= f) s = .error e s' ↔
      x s = .error e s' ∨ ∃ a t, x s = .ok a t ∧ f a t = .error e s' := by
  change EStateM.bind x f s = _ ↔ _
  unfold EStateM.bind
  cases x s <;> simp [and_assoc]

theorem bind_congr_ok {g : α → EStateM ε σ β} (same : ∀ a t, x s = .ok a t → f a t = g a t) :
    (x >>= f) s = (x >>= g) s := by
  change EStateM.bind x f s = EStateM.bind x g s
  unfold EStateM.bind
  cases first : x s with
  | error => rfl
  | ok a t => exact same a t first

theorem pure_eq_ok {a b : α} :
    (pure a : EStateM ε σ α) s = .ok b s' ↔ a = b ∧ s = s' := by
  change EStateM.Result.ok a s = _ ↔ _
  simp

theorem pure_ne_error {a : α} {e : ε} : (pure a : EStateM ε σ α) s ≠ .error e s' := nofun

theorem modify_eq_ok {g : σ → σ} {u : PUnit} : (modify g : EStateM ε σ PUnit) s = .ok u s' ↔ g s = s' := by
  change EStateM.Result.ok PUnit.unit (g s) = _ ↔ _
  simp

end Results

namespace Worklist

variable {ε σ φ : Type} {semantics : FlowSemantics ε σ φ}

section Update

variable (work : Worklist φ) (point : Nat) (fact : φ)

@[simp] theorem update_iterations : (work.update point fact).iterations = work.iterations := rfl

@[simp] theorem size_update : (work.update point fact).facts.size = work.facts.size := by
  simp [update]

@[simp] theorem mem_update_queue {q : Nat} :
    q ∈ (work.update point fact).queue ↔ q = point ∨ q ∈ work.queue := by
  simp only [update]
  split <;> simp <;> grind

theorem update_same (inside : point < work.facts.size) :
    (work.update point fact).facts[point]? = some (some fact) := by
  simp [update, inside]

theorem update_other {q : Nat} (apart : q ≠ point) :
    (work.update point fact).facts[q]? = work.facts[q]? := by
  simp [update, Ne.symm apart]

end Update

theorem lt_size {work : Worklist φ} {point : Nat} {fact : Option φ}
    (found : work.facts[point]? = some fact) : point < work.facts.size :=
  (Array.getElem?_eq_some_iff.1 found).1

/-- The ways in which a flow is taken in. -/
inductive Receives (semantics : FlowSemantics ε σ φ) (work : Worklist φ) (flow : Nat × φ) :
    σ → Worklist φ → σ → Prop where
  | outside {s : σ} : work.facts[flow.1]? = none → Receives semantics work flow s work s
  | first {s : σ} : work.facts[flow.1]? = some none →
      Receives semantics work flow s (work.update flow.1 flow.2) s
  | kept {s s' : σ} {current : φ} : work.facts[flow.1]? = some (some current) →
      semantics.merge current flow.2 s = .ok none s' → Receives semantics work flow s work s'
  | joined {s s' : σ} {current joined : φ} : work.facts[flow.1]? = some (some current) →
      semantics.merge current flow.2 s = .ok (some joined) s' →
      Receives semantics work flow s (work.update flow.1 joined) s'

theorem receive_eq_ok {work work' : Worklist φ} {flow : Nat × φ} {s s' : σ}
    (received : work.receive semantics flow s = .ok work' s') :
    Receives semantics work flow s work' s' := by
  rcases found : work.facts[flow.1]? with _ | _ | current <;> simp only [receive, found] at received
  · obtain ⟨rfl, rfl⟩ := pure_eq_ok.1 received
    exact .outside found
  · obtain ⟨rfl, rfl⟩ := pure_eq_ok.1 received
    exact .first found
  · obtain ⟨answer, t, merged, rest⟩ := bind_eq_ok.1 received
    cases answer with
    | none =>
      obtain ⟨rfl, rfl⟩ := pure_eq_ok.1 rest
      exact .kept found merged
    | some joined =>
      obtain ⟨rfl, rfl⟩ := pure_eq_ok.1 rest
      exact .joined found merged

theorem receive_eq_error {work : Worklist φ} {flow : Nat × φ} {s s' : σ} {e : ε}
    (failed : work.receive semantics flow s = .error e s') :
    ∃ current, work.facts[flow.1]? = some (some current) ∧
      semantics.merge current flow.2 s = .error e s' := by
  rcases found : work.facts[flow.1]? with _ | _ | current <;> simp only [receive, found] at failed
  · exact absurd failed pure_ne_error
  · exact absurd failed pure_ne_error
  · rcases bind_eq_error.1 failed with merge | ⟨answer, t, -, rest⟩
    · exact ⟨current, rfl, merge⟩
    · cases answer <;> exact absurd rest pure_ne_error

/-- A property `between` of the states in which the solver chooses the next point, and a property
`within` of the states in which flows of the point in service are still to be taken in. -/
structure Invariant (semantics : FlowSemantics ε σ φ) (between : Worklist φ → σ → Prop)
    (within : List (Nat × φ) → Worklist φ → σ → Prop) : Prop where
  serve : ∀ {work s point rest fact flows s'}, between work s → work.queue = point :: rest →
    work.facts[point]? = some (some fact) → semantics.transfer point fact s = .ok flows s' →
    within flows { work with queue := rest, iterations := work.iterations + 1 } s'
  skip : ∀ {work s point rest}, between work s → work.queue = point :: rest →
    (∀ fact, work.facts[point]? ≠ some (some fact)) → between { work with queue := rest } s
  receive : ∀ {work s flow flows work' s'}, within (flow :: flows) work s →
    Receives semantics work flow s work' s' → within flows work' s'
  done : ∀ {work s}, within [] work s → between work s

/-- A callback that fails in a state that an invariant allows. -/
inductive Fails (semantics : FlowSemantics ε σ φ) (between : Worklist φ → σ → Prop)
    (within : List (Nat × φ) → Worklist φ → σ → Prop) (e : ε) (s' : σ) : Prop where
  | transfer {work : Worklist φ} {s : σ} {point : Nat} {rest : List Nat} {fact : φ} :
      between work s → work.queue = point :: rest → work.facts[point]? = some (some fact) →
      semantics.transfer point fact s = .error e s' → Fails semantics between within e s'
  | merge {work : Worklist φ} {s : σ} {flow : Nat × φ} {flows : List (Nat × φ)} {current : φ} :
      within (flow :: flows) work s → work.facts[flow.1]? = some (some current) →
      semantics.merge current flow.2 s = .error e s' → Fails semantics between within e s'

namespace Invariant

variable {between : Worklist φ → σ → Prop} {within : List (Nat × φ) → Worklist φ → σ → Prop}

theorem receiveAll (inv : Invariant semantics between within) {flows : List (Nat × φ)}
    {work work' : Worklist φ} {s s' : σ} (before : within flows work s)
    (received : Worklist.receiveAll semantics flows work s = .ok work' s') : between work' s' := by
  induction flows generalizing work s with
  | nil =>
    obtain ⟨rfl, rfl⟩ := pure_eq_ok.1 received
    exact inv.done before
  | cons flow flows ih =>
    obtain ⟨middle, t, head, tail⟩ := bind_eq_ok.1 received
    exact ih (inv.receive before (receive_eq_ok head)) tail

theorem receiveAll_error (inv : Invariant semantics between within) {flows : List (Nat × φ)}
    {work : Worklist φ} {s s' : σ} {e : ε} (before : within flows work s)
    (failed : Worklist.receiveAll semantics flows work s = .error e s') :
    Fails semantics between within e s' := by
  induction flows generalizing work s with
  | nil => exact absurd failed pure_ne_error
  | cons flow flows ih =>
    rcases bind_eq_error.1 failed with head | ⟨middle, t, head, tail⟩
    · obtain ⟨current, found, merge⟩ := receive_eq_error head
      exact .merge before found merge
    · exact ih (inv.receive before (receive_eq_ok head)) tail

theorem execute (inv : Invariant semantics between within) {work work' : Worklist φ} {s s' : σ}
    {point : Nat} {rest : List Nat} (before : between work s) (queue : work.queue = point :: rest)
    (executed : Worklist.execute semantics { work with queue := rest } point s = .ok work' s') :
    between work' s' := by
  rcases found : work.facts[point]? with _ | _ | fact <;> simp only [Worklist.execute, found] at executed
  · obtain ⟨rfl, rfl⟩ := pure_eq_ok.1 executed
    exact inv.skip before queue (by simp [found])
  · obtain ⟨rfl, rfl⟩ := pure_eq_ok.1 executed
    exact inv.skip before queue (by simp [found])
  · obtain ⟨flows, t, transfer, received⟩ := bind_eq_ok.1 executed
    exact inv.receiveAll (inv.serve before queue found transfer) received

theorem execute_error (inv : Invariant semantics between within) {work : Worklist φ} {s s' : σ}
    {point : Nat} {rest : List Nat} {e : ε} (before : between work s) (queue : work.queue = point :: rest)
    (failed : Worklist.execute semantics { work with queue := rest } point s = .error e s') :
    Fails semantics between within e s' := by
  rcases found : work.facts[point]? with _ | _ | fact <;> simp only [Worklist.execute, found] at failed
  · exact absurd failed pure_ne_error
  · exact absurd failed pure_ne_error
  · rcases bind_eq_error.1 failed with transfer | ⟨flows, t, transfer, received⟩
    · exact .transfer before queue found transfer
    · exact inv.receiveAll_error (inv.serve before queue found transfer) received

end Invariant

section Run

variable {work : Worklist φ} {point : Nat} {rest : List Nat} {budget : Nat}

theorem run_nil (queue : work.queue = []) :
    run semantics budget work = pure (some ⟨work.facts, work.iterations⟩) := by
  rw [run.eq_def]
  simp only [queue]

theorem run_zero (queue : work.queue = point :: rest) : run semantics 0 work = pure none := by
  rw [run.eq_def]
  simp only [queue]

theorem run_succ (queue : work.queue = point :: rest) :
    run semantics (budget + 1) work =
      execute semantics { work with queue := rest } point >>= run semantics budget := by
  rw [run.eq_def]
  simp only [queue]

/-- The ways in which a run goes on: no point waits, the budget is spent, or a point is served. -/
@[elab_as_elim]
theorem run_induction {motive : Nat → Worklist φ → Prop}
    (settled : ∀ budget work, work.queue = [] → motive budget work)
    (spent : ∀ work point rest, work.queue = point :: rest → motive 0 work)
    (serve : ∀ budget work point rest, work.queue = point :: rest → (∀ work', motive budget work') →
      motive (budget + 1) work) (budget : Nat) (work : Worklist φ) : motive budget work := by
  induction budget generalizing work with
  | zero =>
    rcases queue : work.queue with _ | ⟨point, rest⟩
    · exact settled 0 work queue
    · exact spent work point rest queue
  | succ budget ih =>
    rcases queue : work.queue with _ | ⟨point, rest⟩
    · exact settled (budget + 1) work queue
    · exact serve budget work point rest queue ih

theorem run_mono {larger : Nat} (enough : budget ≤ larger) {s : σ}
    (settled : ∀ s', run semantics budget work s ≠ .ok none s') :
    run semantics larger work s = run semantics budget work s := by
  induction budget, work using run_induction generalizing larger s with
  | settled budget work queue => rw [run_nil queue, run_nil queue]
  | spent work point rest queue => exact absurd (by rw [run_zero queue]; rfl) (settled s)
  | serve budget work point rest queue ih =>
    obtain ⟨larger, rfl⟩ : ∃ l, larger = l + 1 := ⟨larger - 1, by omega⟩
    rw [run_succ queue] at settled
    rw [run_succ queue, run_succ queue]
    refine bind_congr_ok fun work' t executed => ih work' (by omega) fun s' unsettled => settled s' ?_
    exact bind_eq_ok.2 ⟨work', t, executed, unsettled⟩

theorem receiveAll_iterations {flows : List (Nat × φ)} {work' : Worklist φ} {s s' : σ}
    (received : receiveAll semantics flows work s = .ok work' s') :
    work'.iterations = work.iterations := by
  induction flows generalizing work s with
  | nil =>
    obtain ⟨rfl, -⟩ := pure_eq_ok.1 received
    rfl
  | cons flow flows ih =>
    obtain ⟨middle, t, head, tail⟩ := bind_eq_ok.1 received
    rw [ih tail]
    cases receive_eq_ok head <;> rfl

theorem execute_iterations {fact : φ} {work' : Worklist φ} {s s' : σ}
    (executed : execute semantics work point s = .ok work' s')
    (found : work.facts[point]? = some (some fact)) : work'.iterations = work.iterations + 1 := by
  simp only [execute, found] at executed
  obtain ⟨flows, t, -, received⟩ := bind_eq_ok.1 executed
  exact receiveAll_iterations received

end Run

namespace Invariant

variable {between : Worklist φ → σ → Prop} {within : List (Nat × φ) → Worklist φ → σ → Prop}
  {work : Worklist φ} {s s' : σ} {budget : Nat}

theorem run_ok (inv : Invariant semantics between within) {answer : Option (FixedPoint φ)}
    (before : between work s) (ended : Worklist.run semantics budget work s = .ok answer s') :
    ∃ final, between final s' ∧
      ∀ fixed, answer = some fixed → final.queue = [] ∧ fixed = ⟨final.facts, final.iterations⟩ := by
  induction budget, work using run_induction generalizing s with
  | settled budget work queue =>
    rw [run_nil queue] at ended
    obtain ⟨rfl, rfl⟩ := pure_eq_ok.1 ended
    exact ⟨work, before, fun fixed same => ⟨queue, (Option.some.inj same).symm⟩⟩
  | spent work point rest queue =>
    rw [run_zero queue] at ended
    obtain ⟨rfl, rfl⟩ := pure_eq_ok.1 ended
    exact ⟨work, before, nofun⟩
  | serve budget work point rest queue ih =>
    rw [run_succ queue] at ended
    obtain ⟨work', t, executed, later⟩ := bind_eq_ok.1 ended
    exact ih work' (inv.execute before queue executed) later

/-- What serving and receiving keep, holds when no point waits any more. -/
theorem run (inv : Invariant semantics between within) {fixed : FixedPoint φ}
    (before : between work s) (settled : Worklist.run semantics budget work s = .ok (some fixed) s') :
    ∃ final, between final s' ∧ final.queue = [] ∧ fixed = ⟨final.facts, final.iterations⟩ := by
  obtain ⟨final, after, ends⟩ := inv.run_ok before settled
  exact ⟨final, after, ends fixed rfl⟩

theorem run_error (inv : Invariant semantics between within) {e : ε} (before : between work s)
    (failed : Worklist.run semantics budget work s = .error e s') :
    Fails semantics between within e s' := by
  induction budget, work using run_induction generalizing s with
  | settled budget work queue =>
    rw [run_nil queue] at failed
    exact absurd failed pure_ne_error
  | spent work point rest queue =>
    rw [run_zero queue] at failed
    exact absurd failed pure_ne_error
  | serve budget work point rest queue ih =>
    rw [run_succ queue] at failed
    rcases bind_eq_error.1 failed with now | ⟨work', t, executed, later⟩
    · exact inv.execute_error before queue now
    · exact ih work' (inv.execute before queue executed) later

/-- A budget suffices if it bounds, in every state that the invariant allows, the executions made
together with the points that wait. -/
theorem run_ne_none (inv : Invariant semantics between within) {limit : Nat}
    (bounded : ∀ {work s}, between work s → work.iterations + work.queue.length ≤ limit)
    (present : ∀ {work s point}, between work s → point ∈ work.queue →
      ∃ fact, work.facts[point]? = some (some fact))
    (before : between work s) (enough : limit ≤ budget + work.iterations) :
    Worklist.run semantics budget work s ≠ .ok none s' := by
  induction budget, work using run_induction generalizing s with
  | settled budget work queue =>
    rw [run_nil queue]
    nofun
  | spent work point rest queue =>
    have := bounded before
    simp only [queue, List.length_cons] at this
    omega
  | serve budget work point rest queue ih =>
    intro unsettled
    rw [run_succ queue] at unsettled
    obtain ⟨work', t, executed, later⟩ := bind_eq_ok.1 unsettled
    have waits : point ∈ work.queue := by simp [queue]
    obtain ⟨fact, found⟩ := present before waits
    have counted := execute_iterations executed found
    dsimp only at counted
    exact ih work' (inv.execute before queue executed) (by omega) later

end Invariant
end Worklist
end CallProvenance
