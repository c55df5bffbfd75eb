import CallProvenance.Proofs.Solution
import Mathlib.Data.List.Forall2
import Mathlib.Order.Bounds.Basic

/-! Monotone flow problems. If executions are monotone and joins are least upper bounds, an answer of
the solver is the least assignment of facts that is closed under the flows of the program. -/
namespace CallProvenance

variable {ε σ φ : Type}

namespace FlowSemantics

variable {semantics : FlowSemantics ε σ φ} {budget count : Nat} {s s' : σ} {fixed : FixedPoint φ}

section Confine

/-- The same problem without the flows that leave the program. -/
def confine (semantics : FlowSemantics ε σ φ) (count : Nat) : FlowSemantics ε σ φ where
  entry := semantics.entry
  transfer point fact := do return (← semantics.transfer point fact).filter (·.1 < count)
  merge := semantics.merge

theorem confine_transfer {point : Nat} {fact : φ} {flows : List (Nat × φ)}
    (sent : (semantics.confine count).transfer point fact s = .ok flows s') :
    ∃ all, semantics.transfer point fact s = .ok all s' ∧ flows = all.filter (·.1 < count) := by
  obtain ⟨all, t, whole, rest⟩ := bind_eq_ok.1 sent
  obtain ⟨rfl, rfl⟩ := pure_eq_ok.1 rest
  exact ⟨all, whole, rfl⟩

variable {work : Worklist φ}

theorem receiveAll_confine {flows : List (Nat × φ)} (size : work.facts.size = count) :
    Worklist.receiveAll (semantics.confine count) (flows.filter (·.1 < count)) work s =
      Worklist.receiveAll semantics flows work s := by
  induction flows generalizing work s with
  | nil => rfl
  | cons flow flows ih =>
    by_cases inside : flow.1 < count
    · rw [List.filter_cons_of_pos (by simpa using inside)]
      refine bind_congr_ok fun work' t received => ih ?_
      cases Worklist.receive_eq_ok received <;> simpa using size
    · have dropped : work.receive semantics flow = pure work := by
        unfold Worklist.receive
        rw [Array.getElem?_eq_none (by omega)]
      rw [List.filter_cons_of_neg (by simpa using inside), ih size]
      change _ = (work.receive semantics flow >>= Worklist.receiveAll semantics flows) s
      rw [dropped]
      rfl

theorem execute_confine {point : Nat} (size : work.facts.size = count) :
    work.execute (semantics.confine count) point = work.execute semantics point := by
  funext s
  rcases found : work.facts[point]? with _ | _ | fact <;> simp only [Worklist.execute, found]
  simp only [confine, bind_assoc, pure_bind]
  exact bind_congr_ok fun all t _ => receiveAll_confine size

theorem run_confine (size : work.facts.size = count) :
    Worklist.run (semantics.confine count) budget work s = Worklist.run semantics budget work s := by
  induction budget, work using Worklist.run_induction generalizing s with
  | settled budget work queue => rw [Worklist.run_nil queue, Worklist.run_nil queue]
  | spent work point rest queue => rw [Worklist.run_zero queue, Worklist.run_zero queue]
  | serve budget work point rest queue ih =>
    have same : Worklist.execute (semantics.confine count) { work with queue := rest } point =
        Worklist.execute semantics { work with queue := rest } point := execute_confine size
    rw [Worklist.run_succ queue, Worklist.run_succ queue, same]
    refine bind_congr_ok fun work' t executed => ih work' ?_
    exact (Worklist.Invariant.size count).execute size queue executed

/-- Flows that leave the program have no influence. -/
theorem solve_confine (semantics : FlowSemantics ε σ φ) (budget count : Nat) (s : σ) :
    (semantics.confine count).solve budget count s = semantics.solve budget count s := by
  cases count with
  | zero => rfl
  | succ more => exact bind_congr_ok fun first t _ => run_confine (Worklist.size_start first more)

end Confine

def Sends (semantics : FlowSemantics ε σ φ) (point : Nat) (fact : φ) (flows : List (Nat × φ)) : Prop :=
  ∃ s s', semantics.transfer point fact s = .ok flows s'

/-- The points of the program that flows lead to, whatever the facts. -/
inductive Reachable (semantics : FlowSemantics ε σ φ) (count : Nat) : Nat → Prop where
  | entry : 0 < count → Reachable semantics count 0
  | step {point : Nat} {fact : φ} {flows : List (Nat × φ)} {flow : Nat × φ} : Reachable semantics count point →
      semantics.Sends point fact flows → flow ∈ flows → flow.1 < count → Reachable semantics count flow.1

theorem keeps_reachable (semantics : FlowSemantics ε σ φ) (count : Nat) :
    (semantics.confine count).Keeps fun point _ => semantics.Reachable count point where
  transfer := by
    intro point fact t flows t' reachable sent flow member
    obtain ⟨all, whole, rfl⟩ := confine_transfer sent
    obtain ⟨listed, target⟩ := List.mem_filter.1 member
    exact reachable.step ⟨t, t', whole⟩ listed (of_decide_eq_true target)
  merge reachable _ _ := reachable

theorem size_of_solve (solved : semantics.solve budget count s = .ok (some fixed) s') : fixed.facts.size = count := by
  cases count with
  | zero =>
    cases solved
    rfl
  | succ more =>
    rw [solve_succ] at solved
    obtain ⟨first, t, -, settled⟩ := bind_eq_ok.1 solved
    obtain ⟨final, size, -, rfl⟩ :=
      (Worklist.Invariant.size (more + 1)).run (Worklist.size_start first more) settled
    exact size

theorem reachable_of_found (solved : semantics.solve budget count s = .ok (some fixed) s') {point : Nat} {fact : φ}
    (found : fixed.facts[point]? = some (some fact)) : semantics.Reachable count point := by
  obtain ⟨more, rfl⟩ := exists_more solved found
  rw [← solve_confine] at solved
  exact (semantics.keeps_reachable (more + 1)).solve (fun _ => .entry more.succ_pos) solved found

variable [Preorder φ]

/-- The same successors in the same order, with larger facts. -/
def FlowsLE (flows flows' : List (Nat × φ)) : Prop :=
  List.Forall₂ (fun flow flow' => flow.1 = flow'.1 ∧ flow.2 ≤ flow'.2) flows flows'

/-- Executions depend on nothing but the point and the fact, and are monotone in the fact. Joins do not
fail, and are least upper bounds. -/
structure Monotonic (semantics : FlowSemantics ε σ φ) : Prop where
  stateless : ∀ {point fact s flows s'}, semantics.transfer point fact s = .ok flows s' →
    ∀ t, ∃ t', semantics.transfer point fact t = .ok flows t'
  monotone : ∀ {point fact fact' flows}, fact ≤ fact' → semantics.Sends point fact flows →
    ∃ flows', semantics.Sends point fact' flows' ∧ FlowsLE flows flows'
  merges : ∀ current incoming s, ∃ answer s', semantics.merge current incoming s = .ok answer s'
  kept : ∀ {current incoming s answer s'}, semantics.merge current incoming s = .ok answer s' →
    (answer = none ↔ incoming ≤ current)
  joined : ∀ {current incoming s joined s'}, semantics.merge current incoming s = .ok (some joined) s' →
    IsLUB {current, incoming} joined

/-- Facts for points of the program that lie above the entry fact and absorb the flows they give rise to. -/
structure Closed (semantics : FlowSemantics ε σ φ) (s : σ) (count : Nat) (facts : Nat → Option φ) : Prop where
  entry : ∀ {first s'}, 0 < count → semantics.entry s = .ok first s' → ∃ fact, facts 0 = some fact ∧ first ≤ fact
  flows : ∀ {point fact flows}, point < count → facts point = some fact → semantics.Sends point fact flows →
    ∀ flow ∈ flows, flow.1 < count → ∃ fact', facts flow.1 = some fact' ∧ flow.2 ≤ fact'

theorem FlowsLE.exists_mem {flows flows' : List (Nat × φ)} (below : FlowsLE flows flows') {flow : Nat × φ}
    (member : flow ∈ flows) : ∃ flow' ∈ flows', flow.1 = flow'.1 ∧ flow.2 ≤ flow'.2 := by
  induction below with
  | nil => cases member
  | cons head _ ih =>
    rcases List.mem_cons.1 member with rfl | later
    · exact ⟨_, List.mem_cons_self, head⟩
    · obtain ⟨flow', listed, above⟩ := ih later
      exact ⟨flow', List.mem_cons_of_mem _ listed, above⟩

theorem FlowsLE.successors {flows flows' : List (Nat × φ)} (below : FlowsLE flows flows') :
    flows.map (·.1) = flows'.map (·.1) := by
  induction below with
  | nil => rfl
  | cons head _ ih => rw [List.map_cons, List.map_cons, head.1, ih]

namespace Monotonic

variable (monotonic : semantics.Monotonic)
include monotonic

theorem sends_unique {point : Nat} {fact : φ} {flows flows' : List (Nat × φ)}
    (sent : semantics.Sends point fact flows) (sent' : semantics.Sends point fact flows') : flows = flows' := by
  obtain ⟨t, _, here⟩ := sent
  obtain ⟨_, _, there⟩ := sent'
  obtain ⟨_, again⟩ := monotonic.stateless there t
  exact (EStateM.Result.ok.inj (here.symm.trans again)).1

theorem ascends : semantics.Ascends where
  kept merged := (monotonic.kept merged).1 rfl
  joined merged := ⟨(monotonic.joined merged).1 (by simp), (monotonic.joined merged).1 (by simp)⟩

theorem exists_above (s : σ) (f g : φ) : ∃ h, f ≤ h ∧ g ≤ h := by
  obtain ⟨answer, s', merged⟩ := monotonic.merges f g s
  cases answer with
  | none => exact ⟨f, le_rfl, monotonic.ascends.kept merged⟩
  | some joined => exact ⟨joined, monotonic.ascends.joined merged⟩

/-- The successors of a point are the same for all facts, as any two facts have one above them. -/
theorem successors_eq {point : Nat} {f g : φ} {flows flows' : List (Nat × φ)}
    (sent : semantics.Sends point f flows) (sent' : semantics.Sends point g flows') :
    flows.map (·.1) = flows'.map (·.1) := by
  have ⟨s, _, _⟩ := sent
  obtain ⟨h, left, right⟩ := monotonic.exists_above s f g
  obtain ⟨above, sends, below⟩ := monotonic.monotone left sent
  obtain ⟨above', sends', below'⟩ := monotonic.monotone right sent'
  rw [below.successors, below'.successors, monotonic.sends_unique sends sends']

theorem keeps_below {facts : Nat → Option φ} (closed : semantics.Closed s count facts) :
    (semantics.confine count).Keeps fun point fact =>
      point < count ∧ ∃ above, facts point = some above ∧ fact ≤ above where
  transfer := by
    rintro point fact t flows t' ⟨inside, above, assigned, below⟩ sent flow member
    obtain ⟨all, whole, rfl⟩ := confine_transfer sent
    obtain ⟨listed, target⟩ := List.mem_filter.1 member
    replace target : flow.1 < count := of_decide_eq_true target
    -- The assigned fact lies above this one, so it sends a larger flow to the same point.
    obtain ⟨larger, sends, flowsLE⟩ := monotonic.monotone below ⟨t, t', whole⟩
    obtain ⟨flow', listed', same, le⟩ := flowsLE.exists_mem listed
    obtain ⟨fact', assigned', le'⟩ := closed.flows inside assigned sends flow' listed' (same ▸ target)
    exact ⟨target, fact', same ▸ assigned', le.trans le'⟩
  merge := by
    rintro point current incoming t joined t' ⟨inside, above, assigned, below⟩ ⟨-, above', assigned', below'⟩ merged
    obtain rfl : above = above' := Option.some.inj (assigned.symm.trans assigned')
    refine ⟨inside, above, assigned, (monotonic.joined merged).2 ?_⟩
    rintro fact (rfl | rfl)
    · exact below
    · exact below'

theorem solve_sends (solved : semantics.solve budget count s = .ok (some fixed) s') {point : Nat} {fact : φ}
    (found : fixed.facts[point]? = some (some fact)) :
    ∃ flows, semantics.Sends point fact flows ∧ ∀ flow ∈ flows, flow.1 < count →
      ∃ fact', fixed.facts[flow.1]? = some (some fact') ∧ flow.2 ≤ fact' := by
  obtain ⟨more, rfl⟩ := exists_more solved found
  obtain ⟨size, -, sends⟩ := monotonic.ascends.solve solved
  obtain ⟨t, flows, t', sent, absorbed⟩ := sends point fact found
  exact ⟨flows, ⟨t, t', sent⟩, fun flow member inside => absorbed flow member (size ▸ inside)⟩

theorem solve_entry (solved : semantics.solve budget count s = .ok (some fixed) s') (positive : 0 < count) :
    ∃ first t fact, semantics.entry s = .ok first t ∧ fixed.facts[0]? = some (some fact) ∧ first ≤ fact := by
  obtain ⟨more, rfl⟩ := Nat.exists_eq_add_one.2 positive
  obtain ⟨size, ⟨first, t, started, absorbed⟩, -⟩ := monotonic.ascends.solve solved
  obtain ⟨fact, found, below⟩ := absorbed (size ▸ positive)
  exact ⟨first, t, fact, started, found, below⟩

theorem solve_closed (solved : semantics.solve budget count s = .ok (some fixed) s') :
    semantics.Closed s count fun point => fixed.facts[point]?.join where
  entry positive started := by
    obtain ⟨first, t, fact, started', found, below⟩ := monotonic.solve_entry solved positive
    obtain ⟨rfl, rfl⟩ := EStateM.Result.ok.inj (started.symm.trans started')
    exact ⟨fact, by rw [found, Option.join_some], below⟩
  flows := by
    intro point fact flows _ assigned sent flow member inside
    obtain ⟨flows', sent', absorbed⟩ := monotonic.solve_sends solved (Option.join_eq_some_iff.1 assigned)
    obtain rfl := monotonic.sends_unique sent sent'
    obtain ⟨fact', found, below⟩ := absorbed flow member inside
    exact ⟨fact', by rw [found, Option.join_some], below⟩

theorem found_of_reachable (solved : semantics.solve budget count s = .ok (some fixed) s') {point : Nat}
    (reachable : semantics.Reachable count point) : ∃ fact, fixed.facts[point]? = some (some fact) := by
  induction reachable with
  | entry positive =>
    obtain ⟨_, _, fact, -, found, -⟩ := monotonic.solve_entry solved positive
    exact ⟨fact, found⟩
  | @step point fact flows flow _ sent member inside ih =>
    obtain ⟨here, found⟩ := ih
    obtain ⟨flows', sent', absorbed⟩ := monotonic.solve_sends solved found
    -- The flow was sent from some other fact, but there is one to the same point from this fact.
    have target : flow.1 ∈ flows'.map (·.1) :=
      monotonic.successors_eq sent sent' ▸ List.mem_map_of_mem member
    obtain ⟨flow', member', same⟩ := List.mem_map.1 target
    obtain ⟨fact', found', -⟩ := absorbed flow' member' (same ▸ inside)
    exact ⟨fact', same ▸ found'⟩

theorem solve_below (solved : semantics.solve budget count s = .ok (some fixed) s') {facts : Nat → Option φ}
    (closed : semantics.Closed s count facts) {point : Nat} {fact : φ}
    (found : fixed.facts[point]? = some (some fact)) : ∃ above, facts point = some above ∧ fact ≤ above := by
  obtain ⟨more, rfl⟩ := exists_more solved found
  rw [← solve_confine] at solved
  refine ((monotonic.keeps_below closed).solve (fun started => ?_) solved found).2
  exact ⟨more.succ_pos, closed.entry more.succ_pos started⟩

end Monotonic

/-- The least closed assignment of facts to the points of the program. -/
structure LeastSolution (semantics : FlowSemantics ε σ φ) (s : σ) (count : Nat) (facts : Array (Option φ)) : Prop where
  size : facts.size = count
  unreached : ∀ point < count, facts[point]? = some none ↔ ¬ semantics.Reachable count point
  executed : ∀ point fact, facts[point]? = some (some fact) → ∃ flows, semantics.Sends point fact flows
  closed : semantics.Closed s count fun point => facts[point]?.join
  least : ∀ other, semantics.Closed s count other → ∀ point fact, facts[point]? = some (some fact) →
    ∃ above, other point = some above ∧ fact ≤ above

/-- The answer to a monotone problem is its least solution, and flows that leave the program have
no influence on it. -/
theorem solve_least (monotonic : semantics.Monotonic)
    (solved : semantics.solve budget count s = .ok (some fixed) s') :
    semantics.LeastSolution s count fixed.facts ∧
    (semantics.confine count).solve budget count s = semantics.solve budget count s := by
  have size := size_of_solve solved
  refine ⟨⟨size, fun point inside => ⟨fun empty reachable => ?_, fun unreachable => ?_⟩, ?_, ?_, ?_⟩,
    solve_confine semantics budget count s⟩
  · obtain ⟨fact, found⟩ := monotonic.found_of_reachable solved reachable
    simp [empty] at found
  · rcases found : fixed.facts[point]? with _ | _ | fact
    · rw [Array.getElem?_eq_none_iff] at found
      omega
    · rfl
    · exact absurd (reachable_of_found solved found) unreachable
  · intro point fact found
    obtain ⟨flows, sent, -⟩ := monotonic.solve_sends solved found
    exact ⟨flows, sent⟩
  · exact monotonic.solve_closed solved
  · exact fun other closed point fact found => monotonic.solve_below solved closed found

/-- The number of steps on the longest way to a point, as far as it is counted. -/
def counting (edges : List (Nat × Nat)) (cap : Nat) : FlowSemantics Unit Unit Nat where
  entry := pure 0
  transfer point fact := pure ((edges.filter (·.1 = point)).map fun edge => (edge.2, min (fact + 1) cap))
  merge current incoming := pure (if incoming ≤ current then none else some incoming)

theorem counting_monotonic (edges : List (Nat × Nat)) (cap : Nat) : (counting edges cap).Monotonic where
  stateless := by
    intro point fact s flows s' sent t
    exact ⟨t, by rw [← (pure_eq_ok.1 sent).1]; rfl⟩
  monotone := by
    rintro point fact fact' flows le ⟨s, s', sent⟩
    obtain ⟨rfl, -⟩ := pure_eq_ok.1 sent
    refine ⟨_, ⟨s, s, rfl⟩, ?_⟩
    refine List.forall₂_map_left_iff.2 (List.forall₂_map_right_iff.2 (List.forall₂_same.2 fun edge _ => ⟨rfl, ?_⟩))
    simp only
    omega
  merges current incoming s := ⟨_, s, rfl⟩
  kept merged := by
    obtain ⟨rfl, -⟩ := pure_eq_ok.1 merged
    simp
  joined := by
    intro current incoming s joined s' merged
    have answer := (pure_eq_ok.1 merged).1
    split at answer
    · cases answer
    · obtain rfl := Option.some.inj answer
      have larger : IsLUB {current, incoming} (current ⊔ incoming) := isLUB_pair
      rwa [show current ⊔ incoming = incoming by omega] at larger

/-- A loop, an edge that leaves the program, and a point that no edge leads to. -/
theorem solve_least_counting : ∃ fixed,
    (counting [(0, 1), (1, 2), (2, 1), (2, 9)] 3).solve 20 4 () = .ok (some fixed) () ∧
    fixed.facts = #[some 0, some 3, some 3, none] ∧
    ¬ (counting [(0, 1), (1, 2), (2, 1), (2, 9)] 3).Reachable 4 3 ∧
    ∀ other, (counting [(0, 1), (1, 2), (2, 1), (2, 9)] 3).Closed () 4 other →
      ∃ above, other 1 = some above ∧ 3 ≤ above := by
  have solved : (counting [(0, 1), (1, 2), (2, 1), (2, 9)] 3).solve 20 4 () =
    .ok (some ⟨#[some 0, some 3, some 3, none], 5⟩) () := rfl
  obtain ⟨least, -⟩ := solve_least (counting_monotonic _ _) solved
  exact ⟨_, solved, rfl, (least.unreached 3 (by decide)).1 rfl, fun other closed => least.least other closed 1 3 rfl⟩

end FlowSemantics
end CallProvenance
