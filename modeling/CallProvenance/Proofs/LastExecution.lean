import CallProvenance.Proofs.Solution
import Mathlib.Logic.Function.Basic

/-! What callbacks leave behind. If the callback state shows, for each point, something that its last
execution made of the fact it was given, then at the end of a run it shows what comes of the facts
of the answer: a point that is executed on an outdated fact is executed again. -/
namespace CallProvenance

namespace FlowSemantics

variable {ε σ φ β : Type}

/-- The callback state shows for each point what the last execution of the point made of its fact. The
callbacks may rely on a property of the state that they keep. -/
structure Remembers (semantics : FlowSemantics ε σ φ) (valid : σ → Prop) (seen : σ → Nat → Option β)
    (noted : Nat → φ → Option β) : Prop where
  entry : ∀ {s fact s'}, valid s → semantics.entry s = .ok fact s' → valid s' ∧ seen s' = seen s
  transfer : ∀ {point fact s flows s'}, valid s → semantics.transfer point fact s = .ok flows s' →
    valid s' ∧ seen s' = Function.update (seen s) point (noted point fact)
  merge : ∀ {current incoming s answer s'}, valid s → semantics.merge current incoming s = .ok answer s' →
    valid s' ∧ seen s' = seen s

namespace Remembers

variable {semantics : FlowSemantics ε σ φ} {valid : σ → Prop} {seen : σ → Nat → Option β}
  {noted : Nat → φ → Option β}

/-- What is seen of a point that does not wait comes from its present fact, and nothing is seen of
a point without a fact. -/
structure UpToDate (valid : σ → Prop) (seen : σ → Nat → Option β) (noted : Nat → φ → Option β)
    (work : Worklist φ) (s : σ) : Prop where
  valid : valid s
  present : ∀ point, point ∉ work.queue → seen s point = work.facts[point]?.join.bind (noted point)
  unseen : ∀ point, work.facts[point]?.join = none → seen s point = none

namespace UpToDate

variable {work : Worklist φ} {s s' : σ} (before : UpToDate valid seen noted work s)
include before

theorem unchanged (after : valid s' ∧ seen s' = seen s) : UpToDate valid seen noted work s' := by
  obtain ⟨kept, same⟩ := after
  exact ⟨kept, by rw [same]; exact before.present, by rw [same]; exact before.unseen⟩

theorem update {point : Nat} {fact : φ} (inside : point < work.facts.size) :
    UpToDate valid seen noted (work.update point fact) s := by
  refine ⟨before.valid, fun q idle => ?_, fun q empty => ?_⟩
  · rw [Worklist.mem_update_queue, not_or] at idle
    rw [Worklist.update_other _ _ _ idle.1]
    exact before.present q idle.2
  · have apart : q ≠ point := by
      rintro rfl
      rw [Worklist.update_same _ _ _ inside] at empty
      cases empty
    rw [Worklist.update_other _ _ _ apart] at empty
    exact before.unseen q empty

end UpToDate

/-- While the flows of a point are taken in, what is seen of it stems from the fact it was executed
with; should that fact change now, the point waits again. -/
theorem invariant (remembers : Remembers semantics valid seen noted) :
    Worklist.Invariant semantics (UpToDate valid seen noted)
      (fun _ work s => UpToDate valid seen noted work s) where
  serve := by
    intro work s point rest fact flows s' before queue found sent
    obtain ⟨kept, after⟩ := remembers.transfer before.valid sent
    refine ⟨kept, fun q idle => ?_, fun q empty => ?_⟩
    · by_cases here : q = point
      · subst here
        simp [after, found]
      · rw [after, Function.update_of_ne here]
        refine before.present q ?_
        simpa [queue, here] using idle
    · have apart : q ≠ point := by
        rintro rfl
        simp [found] at empty
      rw [after, Function.update_of_ne apart]
      exact before.unseen q empty
  skip := by
    intro work s point rest before queue missing
    refine ⟨before.valid, fun q idle => ?_, before.unseen⟩
    by_cases here : q = point
    · subst here
      have empty : work.facts[q]?.join = none := by
        rcases found : work.facts[q]? with _ | _ | fact
        · rfl
        · rfl
        · exact absurd found (missing fact)
      simp [before.unseen q empty, empty]
    · refine before.present q ?_
      simpa [queue, here] using idle
  receive := by
    intro work s flow flows work' s' before received
    cases received with
    | outside => exact before
    | first empty => exact before.update (Worklist.lt_size empty)
    | kept _ merged => exact before.unchanged (remembers.merge before.valid merged)
    | joined found merged =>
      exact (before.unchanged (remembers.merge before.valid merged)).update (Worklist.lt_size found)
  done before := before

theorem solve (remembers : Remembers semantics valid seen noted) {budget count : Nat} {s s' : σ}
    {fixed : FixedPoint φ} (start : valid s) (fresh : ∀ point, seen s point = none)
    (solved : semantics.solve budget count s = .ok (some fixed) s') :
    valid s' ∧ ∀ point, seen s' point = fixed.facts[point]?.join.bind (noted point) := by
  cases count with
  | zero =>
    obtain ⟨same, rfl⟩ := pure_eq_ok.1 solved
    cases same
    exact ⟨start, fun point => by simp [fresh point]⟩
  | succ more =>
    rw [solve_succ] at solved
    obtain ⟨first, t, started, settled⟩ := bind_eq_ok.1 solved
    obtain ⟨kept, same⟩ := remembers.entry start started
    have upToDate : UpToDate valid seen noted (.start first more) t := by
      refine ⟨kept, fun q idle => ?_, fun q _ => by rw [same, fresh]⟩
      have later : q ≠ 0 := by simpa [Worklist.start] using idle
      rcases found : (Worklist.start first more).facts[q]? with _ | _ | fact
      · simp [same, fresh]
      · simp [same, fresh]
      · exact absurd (Worklist.start_found found).1 later
    obtain ⟨final, after, idle, rfl⟩ := remembers.invariant.run upToDate settled
    exact ⟨after.valid, fun point => after.present point (by simp [idle])⟩

end Remembers

end FlowSemantics
end CallProvenance
