import CallProvenance.Proofs.ActionEffects

/-! Actions are monotone in the information order. On a frame that lies below another one and has
the same kinds on its stack, an action succeeds whenever it succeeds on the other, and its result
lies below the other result. -/
namespace CallProvenance

namespace Value

theorem unset_le {v : Value} (lost : v.kind = .uninitialized) : unset ≤ v :=
  ⟨.inr lost, fun _ member => absurd member Sources.not_mem_empty⟩

theorem kind_ne_of_size {v : Value} (wide : v.size = 2) : v.kind ≠ .uninitialized := by
  intro lost
  simp [size, Kind.size, lost] at wide

/-- A value that loses its kind in a join may still be wide on one side only. -/
theorem torn_mono {v w : Value} (below : v ≤ w) : v.torn ≤ w.torn := by
  unfold torn
  by_cases wide : w.size = 2
  · have same := Kind.eq_of_le below.1 (kind_ne_of_size wide)
    have wide' : v.size = 2 := by rwa [size, same]
    rw [if_pos wide, if_pos wide']
  · rw [if_neg wide]
    split
    · rename_i wide'
      refine unset_le (below.1.resolve_left fun same => wide ?_)
      rwa [size, ← same]
    · exact below

end Value

namespace Frame

variable {f g : Frame}

/-- Every entry of the stack has a kind of its own. -/
def StackReadable (frame : Frame) : Prop := ∀ v ∈ frame.stack, v.kind ≠ .uninitialized

theorem similar_of_le (below : f ≤ g) (readable : g.StackReadable) : f.Similar g := by
  obtain ⟨counts, heights, pointwise⟩ := le_iff_at?.1 below
  refine .of_kind_eq counts heights fun depth v w found found' => ?_
  have compared := pointwise (.operand depth) v w found found'
  exact Kind.eq_of_le compared.1 (readable w (List.mem_of_getElem? found'))

theorem caught_mono (below : f ≤ g) : f.caught ≤ g.caught := ⟨below.1, .cons le_rfl .nil⟩

end Frame

theorem Origin.value_mono {origin : Origin} {index : Nat} {f g : Frame} {v w : Value} (below : f ≤ g)
    (made : origin.value index f = some v) (made' : origin.value index g = some w) : v ≤ w := by
  obtain ⟨-, -, pointwise⟩ := Frame.le_iff_at?.1 below
  cases origin with
  | moved position => exact pointwise position v w made made'
  | torn position =>
    obtain ⟨old, found, rfl⟩ := Option.map_eq_some_iff.1 made
    obtain ⟨old', found', rfl⟩ := Option.map_eq_some_iff.1 made'
    exact Value.torn_mono (pointwise position old old' found found')
  | unset | produced =>
    cases made; cases made'
    exact le_rfl
  | derived kind positions =>
    cases made; cases made'
    refine ⟨le_rfl, fun i source => ?_⟩
    obtain ⟨u, operand, source⟩ := Value.mem_derived.1 source
    obtain ⟨position, listed, found⟩ := List.mem_filterMap.1 operand
    obtain ⟨u', found', compared⟩ := Frame.exists_above below found
    exact Value.mem_derived.2 ⟨u', List.mem_filterMap.2 ⟨position, listed, found'⟩, compared.2 i source⟩

theorem Action.perform_mono {action : Action} {index : Nat} {fine coarse after : Frame} (below : fine ≤ coarse)
    (similar : fine.Similar coarse) (performed : action.perform index coarse = .ok after) :
    ∃ after', action.perform index fine = .ok after' ∧ after' ≤ after := by
  have finds : ∀ slot kind, action.reads = some (slot, kind) →
      ∃ value, fine.locals[slot]? = some value ∧ value.kind = kind := by
    intro slot kind reads
    obtain ⟨readable, value, found, rfl⟩ := perform_reads performed reads
    obtain ⟨value', found', compared⟩ := below.1.getElem? found
    exact ⟨value', found', Kind.eq_of_le compared.1 readable⟩
  obtain ⟨after', performed'⟩ := perform_of_similar performed similar finds
  obtain ⟨counts, heights⟩ := perform_shape similar performed' performed
  refine ⟨after', performed', Frame.le_iff_at?.2 ⟨counts, heights, fun position v w found found' => ?_⟩⟩
  rw [perform_at? performed', similar.kinds] at found
  rw [perform_at? performed] at found'
  exact Origin.value_mono below found found'

end CallProvenance
