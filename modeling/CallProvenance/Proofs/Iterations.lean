import CallProvenance.Proofs.Solution
import Mathlib.Algebra.GroupWithZero.Nat

/-! How many points the solver executes. If joins raise a weight, the number of executions lies
between two sums over the answer; and if executions stretch facts by bounded steps, the extent of
a fact is bounded by the number of facts found. -/
namespace CallProvenance

variable {ε σ φ : Type}

namespace FlowSemantics

variable {semantics : FlowSemantics ε σ φ} {budget more : Nat} {s s' : σ}

theorem sum_map_le {α : Type} {weight : α → Nat} {bound : Nat} {xs : List α}
    (bounded : ∀ x ∈ xs, weight x ≤ bound) : (xs.map weight).sum ≤ xs.length * bound := by
  induction xs with
  | nil => simp
  | cons x xs ih =>
    have head := bounded x (by simp)
    have tail := ih fun y member => bounded y (by simp [member])
    simp only [List.map_cons, List.sum_cons, List.length_cons, Nat.add_one_mul]
    omega

def reached (facts : Array (Option φ)) : List φ := facts.toList.filterMap id

theorem mem_reached {facts : Array (Option φ)} {fact : φ} :
    fact ∈ reached facts ↔ ∃ point : Nat, facts[point]? = some (some fact) := by
  simp [reached, Array.mem_iff_getElem?]

/-- The sum of a weight over all facts found. -/
def total (weight : φ → Nat) (facts : Array (Option φ)) : Nat := ((reached facts).map weight).sum

theorem total_one (facts : Array (Option φ)) : total (fun _ => 1) facts = (reached facts).length := by
  rw [total, List.map_const', List.sum_replicate_nat, Nat.mul_one]

theorem total_one_le (facts : Array (Option φ)) : total (fun _ => 1) facts ≤ facts.size := by
  rw [total_one]
  exact List.length_filterMap_le id facts.toList

theorem total_le {weight : φ → Nat} {facts : Array (Option φ)} {bound : Nat}
    (bounded : ∀ (point : Nat) fact, facts[point]? = some (some fact) → weight fact ≤ bound) :
    total weight facts ≤ total (fun _ => 1) facts * bound := by
  rw [total_one]
  refine sum_map_le fun fact member => ?_
  obtain ⟨point, found⟩ := mem_reached.1 member
  exact bounded point fact found

section Total

variable {weight : φ → Nat} {facts : Array (Option φ)} {point : Nat} {fact current : φ}

theorem sum_filterMap_set (weight : φ → Nat) (fact : φ) (row : List (Option φ)) (old : Option φ)
    (found : row[point]? = some old) :
    (((row.set point (some fact)).filterMap id).map weight).sum + old.elim 0 weight =
      ((row.filterMap id).map weight).sum + weight fact := by
  induction row generalizing point with
  | nil => simp at found
  | cons head row ih =>
    cases point with
    | zero =>
      obtain rfl : head = old := by simpa using found
      cases head with
      | none =>
        change weight fact + ((row.filterMap id).map weight).sum + 0 =
          ((row.filterMap id).map weight).sum + weight fact
        omega
      | some value =>
        change weight fact + ((row.filterMap id).map weight).sum + weight value =
          weight value + ((row.filterMap id).map weight).sum + weight fact
        omega
    | succ point =>
      have tail := ih (by simpa using found)
      cases head with
      | none => exact tail
      | some value =>
        change weight value + (((row.set point (some fact)).filterMap id).map weight).sum + _ =
          weight value + ((row.filterMap id).map weight).sum + weight fact
        omega

theorem total_first (found : facts[point]? = some none) :
    total weight (facts.setIfInBounds point (some fact)) = total weight facts + weight fact := by
  have := sum_filterMap_set weight fact facts.toList none (by simpa using found)
  simpa [total, reached] using this

theorem total_joined (found : facts[point]? = some (some current)) :
    total weight (facts.setIfInBounds point (some fact)) + weight current =
      total weight facts + weight fact := by
  have := sum_filterMap_set weight fact facts.toList (some current)
    (by simpa using found)
  simpa [total, reached] using this

end Total

/-- Every join that changes a fact raises its weight. -/
def Raises (semantics : FlowSemantics ε σ φ) (weight : φ → Nat) : Prop :=
  ∀ {current incoming joined s s'},
    semantics.merge current incoming s = .ok (some joined) s' → weight current < weight joined

/-- The executions made and still due, against the facts found and their weight. -/
structure Counted (weight : φ → Nat) (work : Worklist φ) : Prop where
  present : ∀ point ∈ work.queue, ∃ fact, work.facts[point]? = some (some fact)
  lower : total (fun _ => 1) work.facts ≤ work.iterations + work.queue.length
  upper : work.iterations + work.queue.length ≤
    total (fun _ => 1) work.facts + total weight work.facts

namespace Counted

variable {weight : φ → Nat} {work : Worklist φ} {point : Nat} {fact : φ}

theorem present_update (counted : Counted weight work) (inside : point < work.facts.size) :
    ∀ q ∈ (work.update point fact).queue, ∃ found, (work.update point fact).facts[q]? = some (some found) := by
  intro q waits
  by_cases same : q = point
  · exact ⟨fact, same ▸ Worklist.update_same _ _ _ (same ▸ inside)⟩
  · rw [Worklist.update_other _ _ _ same]
    exact counted.present q (((Worklist.mem_update_queue ..).1 waits).resolve_left same)

theorem first (counted : Counted weight work) (empty : work.facts[point]? = some none) :
    Counted weight (work.update point fact) := by
  -- A point without a fact does not wait, so the queue grows with the number of facts.
  have absent : point ∉ work.queue := fun waits => by
    obtain ⟨_, found⟩ := counted.present point waits
    simp [empty] at found
  have lower := counted.lower
  have upper := counted.upper
  refine ⟨counted.present_update (Worklist.lt_size empty), ?_, ?_⟩
  all_goals
    simp only [Worklist.update, if_neg absent, total_first empty, List.length_append,
      List.length_singleton]
    omega

theorem joined {current : φ} (counted : Counted weight work)
    (found : work.facts[point]? = some (some current)) (raised : weight current < weight fact) :
    Counted weight (work.update point fact) := by
  have lower := counted.lower
  have upper := counted.upper
  have count : total (fun _ => 1) (work.update point fact).facts + 1 = total (fun _ => 1) work.facts + 1 :=
    total_joined found
  have sum : total weight (work.update point fact).facts + weight current = total weight work.facts + weight fact :=
    total_joined found
  have queue : work.queue.length ≤ (work.update point fact).queue.length ∧
      (work.update point fact).queue.length ≤ work.queue.length + 1 := by
    simp only [Worklist.update]
    split <;> simp
  refine ⟨counted.present_update (Worklist.lt_size found), ?_, ?_⟩
  all_goals
    rw [Worklist.update_iterations]
    omega

theorem invariant (raises : Raises semantics weight) :
    Worklist.Invariant semantics (fun work _ => Counted weight work) (fun _ work _ => Counted weight work) where
  serve := by
    intro work s point rest fact flows s' before queue found transfer
    have lower := before.lower
    have upper := before.upper
    simp only [queue, List.length_cons] at lower upper
    exact ⟨fun q waits => before.present q (by simp [queue, waits]), by simp only; omega,
      by simp only; omega⟩
  skip := by
    intro work s point rest before queue missing
    obtain ⟨fact, found⟩ := before.present point (by simp [queue])
    exact absurd found (missing fact)
  receive := by
    intro work s flow flows work' s' before received
    cases received with
    | outside => exact before
    | first empty => exact before.first empty
    | kept => exact before
    | joined found merged => exact before.joined found (raises merged)
  done before := before

theorem start (fact : φ) (more : Nat) : Counted weight (.start fact more) := by
  refine ⟨fun point waits => ?_, ?_, ?_⟩
  · obtain rfl : point = 0 := by simpa [Worklist.start] using waits
    exact ⟨fact, by simp [Worklist.start]⟩
  all_goals simp [Worklist.start, total, reached]

end Counted

/-- Each point with a fact is executed, and executions beyond that raise the facts' weight. -/
theorem Raises.solve {weight : φ → Nat} (raises : Raises semantics weight) {fixed : FixedPoint φ}
    (solved : semantics.solve budget (more + 1) s = .ok (some fixed) s') :
    total (fun _ => 1) fixed.facts ≤ fixed.iterations ∧
    fixed.iterations ≤ total (fun _ => 1) fixed.facts + total weight fixed.facts := by
  rw [solve_succ] at solved
  obtain ⟨first, t, -, settled⟩ := bind_eq_ok.1 solved
  obtain ⟨final, counted, empty, rfl⟩ :=
    (Counted.invariant raises).run (Counted.start first more) settled
  have lower := counted.lower
  have upper := counted.upper
  simp only [empty, List.length_nil, Nat.add_zero] at lower upper
  exact ⟨lower, upper⟩

/-- Executions stretch facts by at most `step`, and joins do not stretch them. -/
structure Stretches (semantics : FlowSemantics ε σ φ) (extent : φ → Nat) (step : Nat) : Prop where
  entry : ∀ {s fact s'}, semantics.entry s = .ok fact s' → extent fact = 0
  transfer : ∀ {point fact s flows s'}, semantics.transfer point fact s = .ok flows s' →
    ∀ flow ∈ flows, extent flow.2 ≤ extent fact + step
  merge : ∀ {current incoming joined s s'},
    semantics.merge current incoming s = .ok (some joined) s' → extent joined = extent current

namespace Stretches

variable {extent : φ → Nat} {step : Nat}

/-- No fact extends further than one step for each other fact found. -/
def Within (extent : φ → Nat) (step : Nat) (work : Worklist φ) : Prop :=
  Keeps.Everywhere (fun _ fact => extent fact + step ≤ step * total (fun _ => 1) work.facts) work

theorem within_update {work : Worklist φ} {point : Nat} {fact : φ} (before : Within extent step work)
    (grows : total (fun _ => 1) work.facts ≤ total (fun _ => 1) (work.update point fact).facts)
    (new : extent fact + step ≤ step * total (fun _ => 1) (work.update point fact).facts) :
    Within extent step (work.update point fact) :=
  Keeps.everywhere_update
    (fun q found at_q => Nat.le_trans (before q found at_q) (Nat.mul_le_mul_left step grows)) new

theorem invariant (stretches : Stretches semantics extent step) :
    Worklist.Invariant semantics (fun work _ => Within extent step work)
      (fun flows work _ => Within extent step work ∧
        ∀ flow ∈ flows, extent flow.2 ≤ step * total (fun _ => 1) work.facts) where
  serve before _ found transfer := by
    refine ⟨before, fun flow member => ?_⟩
    exact Nat.le_trans (stretches.transfer transfer flow member) (before _ _ found)
  skip before _ _ := before
  receive := by
    rintro work s flow flows work' s' ⟨before, sent⟩ received
    have head := sent flow (by simp)
    have later : ∀ other ∈ flows, extent other.2 ≤ step * total (fun _ => 1) work.facts :=
      fun other member => sent other (by simp [member])
    cases received with
    | outside => exact ⟨before, later⟩
    | first empty =>
      have count : total (fun _ => 1) (work.update flow.1 flow.2).facts = total (fun _ => 1) work.facts + 1 :=
        total_first empty
      refine ⟨within_update before (by omega) ?_, fun other member => Nat.le_trans (later other member) ?_⟩
      · rw [count, Nat.mul_add_one]
        omega
      · exact Nat.mul_le_mul_left step (by omega)
    | kept => exact ⟨before, later⟩
    | @joined _ current joined found merged =>
      have count : total (fun _ => 1) (work.update flow.1 joined).facts + 1 = total (fun _ => 1) work.facts + 1 :=
        total_joined found
      have same := Nat.add_right_cancel count
      refine ⟨within_update before (by omega) ?_, fun other member => ?_⟩
      · rw [same, stretches.merge merged]
        exact before _ _ found
      · rw [same]
        exact later other member
  done before := before.1

theorem start {fact : φ} {more : Nat} (entry : extent fact = 0) : Within extent step (.start fact more) :=
  Keeps.everywhere_start (by simp [entry, Worklist.start, total, reached])

end Stretches

end FlowSemantics
end CallProvenance
