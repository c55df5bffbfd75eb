import Mathlib.Data.List.Basic

/-! Failures that a computation cannot have, by the failures of its steps. -/
namespace CallProvenance

/-- The result is no failure of the given sort. -/
def Avoids {ε α : Type} (sort : ε → Bool) (result : Except ε α) : Prop :=
  ∀ cause, result = .error cause → sort cause = false

namespace Avoids

variable {ε α β : Type} {sort : ε → Bool} {result : Except ε α}

theorem ok (value : α) : Avoids sort (.ok value) := nofun

theorem error {cause : ε} (other : sort cause = false) : Avoids sort (.error cause : Except ε α) := by
  rintro _ ⟨⟩
  exact other

theorem ite {condition : Prop} [Decidable condition] {other : Except ε α} (yes : Avoids sort result)
    (no : Avoids sort other) : Avoids sort (if condition then result else other) := by
  split
  · exact yes
  · exact no

theorem bind {rest : α → Except ε β} (first : Avoids sort result)
    (next : ∀ value, result = .ok value → Avoids sort (rest value)) : Avoids sort (result >>= rest) := by
  cases result with
  | error cause =>
    rintro _ ⟨⟩
    exact first cause rfl
  | ok value => exact next value rfl

theorem mapM {f : α → Except ε β} {xs : List α} (each : ∀ x ∈ xs, Avoids sort (f x)) : Avoids sort (xs.mapM f) := by
  induction xs with
  | nil => exact .ok []
  | cons x xs ih =>
    rw [List.mapM_cons]
    refine .bind (each x List.mem_cons_self) fun y _ => .bind (ih ?_) fun ys _ => .ok _
    intro other member
    exact each other (List.mem_cons_of_mem _ member)

theorem mapError {η : Type} {wrap : η → ε} {inner : Except η α} (other : ∀ cause, sort (wrap cause) = false) :
    Avoids sort (inner.mapError wrap) := by
  cases inner with
  | error cause => exact .error (other cause)
  | ok value => exact .ok value

end Avoids
end CallProvenance
