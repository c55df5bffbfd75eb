import CallProvenance.Proofs.SharedValues
import Mathlib.Data.List.Zip
import Mathlib.Order.Bounds.Basic

/-! Joining frames is taking least upper bounds. Frames of one shape have a join, which depends on kinds and
sources alone and obeys the laws of a semilattice; it is reported as a change exactly when some
kind or set of sources differs from the current one. -/
namespace CallProvenance

/-- The kinds and sources of a frame, first of the locals and then of the stack. -/
structure FrameFacets where
  locals : List Facets
  stack : List Facets
  deriving DecidableEq

def Frame.facets (frame : Frame) : FrameFacets := ⟨frame.locals.map (·.toFacets), frame.stack.map (·.toFacets)⟩

namespace FrameFacets

structure SameShape (a b : FrameFacets) : Prop where
  heights : a.stack.length = b.stack.length
  counts : a.locals.length = b.locals.length

instance (a b : FrameFacets) : Decidable (a.SameShape b) :=
  decidable_of_iff (a.stack.length = b.stack.length ∧ a.locals.length = b.locals.length)
    ⟨fun same => ⟨same.1, same.2⟩, fun same => ⟨same.heights, same.counts⟩⟩

def join (a b : FrameFacets) : FrameFacets :=
  ⟨List.zipWith (· ⊔ ·) a.locals b.locals, List.zipWith (· ⊔ ·) a.stack b.stack⟩

/-- Only facets of one shape have a join. -/
def join? (a b : FrameFacets) : Option FrameFacets := if a.SameShape b then some (a.join b) else none

theorem join_comm (a b : FrameFacets) : a.join b = b.join a := by
  have rows (x y : List Facets) : List.zipWith (· ⊔ ·) x y = List.zipWith (· ⊔ ·) y x :=
    List.zipWith_comm_of_comm sup_comm
  rw [join, join, rows a.locals, rows a.stack]

theorem zipWith_sup_assoc (x y z : List Facets) :
    List.zipWith (· ⊔ ·) (List.zipWith (· ⊔ ·) x y) z = List.zipWith (· ⊔ ·) x (List.zipWith (· ⊔ ·) y z) := by
  rw [List.zipWith_zipWith_left, List.zipWith_zipWith_right]
  simp only [sup_assoc]

theorem join_assoc (a b c : FrameFacets) : (a.join b).join c = a.join (b.join c) := by
  simp only [join, zipWith_sup_assoc]

variable {a b d : FrameFacets}

theorem SameShape.symm (same : a.SameShape b) : b.SameShape a := ⟨same.heights.symm, same.counts.symm⟩

theorem SameShape.trans (same : a.SameShape b) (same' : b.SameShape d) : a.SameShape d :=
  ⟨same.heights.trans same'.heights, same.counts.trans same'.counts⟩

theorem SameShape.join (same : a.SameShape b) : (a.join b).SameShape a :=
  ⟨by simp [FrameFacets.join, same.heights], by simp [FrameFacets.join, same.counts]⟩

theorem join?_eq_some : a.join? b = some d ↔ a.SameShape b ∧ d = a.join b := by
  unfold join?
  split <;> simp_all [eq_comm]

theorem join?_comm (a b : FrameFacets) : a.join? b = b.join? a := by
  ext d
  rw [join?_eq_some, join?_eq_some, join_comm a b]
  exact and_congr_left fun _ => ⟨SameShape.symm, SameShape.symm⟩

theorem join?_assoc (a b c : FrameFacets) : (a.join? b).bind (·.join? c) = (b.join? c).bind (a.join? ·) := by
  ext d
  simp only [Option.bind_eq_some_iff, join?_eq_some]
  constructor
  · rintro ⟨_, ⟨same, rfl⟩, same', rfl⟩
    have other : b.SameShape c := same.symm.trans (same.join.symm.trans same')
    exact ⟨_, ⟨other, rfl⟩, same.trans other.join.symm, join_assoc a b c⟩
  · rintro ⟨_, ⟨same, rfl⟩, same', rfl⟩
    have other : a.SameShape b := same'.trans same.join
    exact ⟨_, ⟨other, rfl⟩, other.join.trans (other.trans same), (join_assoc a b c).symm⟩

end FrameFacets

/-- The answer of a join, as far as facets go. -/
def FrameFacets.verdict (a b : FrameFacets) : Except Inconsistency (Option FrameFacets) :=
  if a.stack.length ≠ b.stack.length then .error (.stackHeightMismatch a.stack.length b.stack.length)
  else if a.locals.length ≠ b.locals.length then .error (.localCountMismatch a.locals.length b.locals.length)
  else .ok (if a.join b = a then none else some (a.join b))

theorem Frame.IsJoin.le_of_le {a b joined bound : Frame} (join : IsJoin a b joined) (left : a ≤ bound)
    (right : b ≤ bound) : joined ≤ bound := by
  have counts := join.locals.length join.counts
  have heights := join.stack.length join.heights
  obtain ⟨left_counts, left_heights, -⟩ := le_iff_at?.1 left
  refine le_iff_at?.2 ⟨counts.trans left_counts, heights.trans left_heights, ?_⟩
  intro position w limit found found'
  obtain ⟨u, v, at_left, at_right, facets⟩ := join.at? found
  obtain ⟨limit', at_bound, below⟩ := exists_above left at_left
  obtain ⟨limit'', at_bound', below'⟩ := exists_above right at_right
  obtain rfl : limit = limit' := by simpa [found'] using at_bound
  obtain rfl : limit = limit'' := by simpa [found'] using at_bound'
  change w.toFacets ≤ limit.toFacets
  rw [facets]
  exact sup_le below below'

namespace Frame

variable {a b : Frame}

theorem facets_joinAll (a b : Frame) (history : History) : (a.joinAll b history).1.facets = a.facets.join b.facets := by
  simp only [facets, joinAll, FrameFacets.join]
  exact congrArg₂ FrameFacets.mk (Value.mergeAll_isJoin ..) (Value.mergeAll_isJoin ..)

theorem sameShape_iff : a.facets.SameShape b.facets ↔
    a.stack.length = b.stack.length ∧ a.locals.length = b.locals.length := by
  constructor
  · rintro ⟨heights, counts⟩
    simpa [facets] using And.intro heights counts
  · rintro ⟨heights, counts⟩
    exact ⟨by simpa [facets] using heights, by simpa [facets] using counts⟩

/-- A frame lies below another one of its shape exactly where joining it in changes no facet. -/
theorem le_iff_join (heights : a.stack.length = b.stack.length) (counts : a.locals.length = b.locals.length) :
    b ≤ a ↔ a.facets.join b.facets = a.facets := by
  constructor
  · intro below
    rw [← facets_joinAll a b .empty, joinAll_of_le below]
  · intro joined
    obtain ⟨locals, stack⟩ := FrameFacets.mk.inj joined
    have locals_join : Value.IsJoin a.locals b.locals a.locals := locals.symm
    have stack_join : Value.IsJoin a.stack b.stack a.stack := stack.symm
    exact ⟨locals_join.right_le counts, stack_join.right_le heights⟩

theorem merge_facets (a b : Frame) (history : History) :
    (a.merge b history).map (fun answer => answer.1.map facets) = a.facets.verdict b.facets := by
  have lengths (x : Frame) : x.facets.stack.length = x.stack.length ∧ x.facets.locals.length = x.locals.length := by
    simp [facets]
  simp only [FrameFacets.verdict, lengths]
  by_cases heights : a.stack.length = b.stack.length
  case neg => simp [merge, heights, Except.map]
  by_cases counts : a.locals.length = b.locals.length
  case neg => simp [merge, heights, counts, Except.map]
  by_cases below : b ≤ a
  · have kept := (le_iff_join heights counts).1 below
    simp [merge_of_le below, heights, counts, kept, Except.map]
  · have raised := mt (le_iff_join heights counts).2 below
    simp [merge_of_not_le heights counts below, heights, counts, raised, facets_joinAll, Except.map]

theorem merge_eq_ok_none {history : History} : (∃ history', a.merge b history = .ok (none, history')) ↔ b ≤ a := by
  constructor
  · rintro ⟨history', merged⟩
    rcases merge_eq_ok merged with ⟨-, below⟩ | ⟨joined, impossible, -⟩
    · exact below
    · cases impossible
  · intro below
    exact ⟨history, merge_of_le below history⟩

theorem exists_merge_eq_error {history : History} : (∃ cause, a.merge b history = .error cause) ↔
    a.stack.length ≠ b.stack.length ∨ a.locals.length ≠ b.locals.length := by
  constructor
  · rintro ⟨cause, failed⟩
    exact merge_eq_error failed
  · intro apart
    by_cases heights : a.stack.length = b.stack.length
    · have counts := apart.resolve_left (not_not.2 heights)
      exact ⟨_, by rw [merge, if_neg (not_not.2 heights), if_pos counts]⟩
    · exact ⟨_, by rw [merge, if_pos heights]⟩

/-- Frames of one shape can be joined, and the frame then holds the joins of all positions. -/
theorem exists_merge_eq_ok (heights : a.stack.length = b.stack.length) (counts : a.locals.length = b.locals.length)
    (history : History) : ∃ answer history', a.merge b history = .ok (answer, history') ∧
      answer.getD a = (a.joinAll b history).1 := by
  by_cases below : b ≤ a
  · exact ⟨none, history, merge_of_le below history, by rw [joinAll_of_le below]; rfl⟩
  · exact ⟨_, _, merge_of_not_le heights counts below history, rfl⟩

/-- What a frame holds once another one has been joined into it; `none` when that fails. -/
def joined (current incoming : Frame) (history : History) : Option Frame :=
  (current.merge incoming history).toOption.map fun answer => answer.1.getD current

theorem joined_eq (a b : Frame) (history : History) :
    a.joined b history = if a.facets.SameShape b.facets then some (a.joinAll b history).1 else none := by
  split
  · rename_i same
    obtain ⟨heights, counts⟩ := sameShape_iff.1 same
    obtain ⟨answer, history', merged, holds⟩ := exists_merge_eq_ok heights counts history
    simp [joined, merged, holds, Except.toOption]
  · rename_i apart
    have differ := mt sameShape_iff.2 apart
    obtain ⟨cause, failed⟩ := (@exists_merge_eq_error a b history).2 (by tauto)
    simp [joined, failed, Except.toOption]

theorem facets_joined (a b : Frame) (history : History) : (a.joined b history).map facets = a.facets.join? b.facets := by
  rw [joined_eq, FrameFacets.join?]
  split
  · rw [Option.map_some, facets_joinAll]
  · rfl

theorem joined_assoc (a b d : Frame) (h₁ h₂ h₃ h₄ : History) :
    ((a.joined b h₁).bind (·.joined d h₂)).map facets = ((b.joined d h₃).bind (a.joined · h₄)).map facets := by
  have left : ((a.joined b h₁).bind (·.joined d h₂)).map facets =
      ((a.joined b h₁).map facets).bind (·.join? d.facets) := by
    cases a.joined b h₁ <;> simp [facets_joined]
  have right : ((b.joined d h₃).bind (a.joined · h₄)).map facets =
      ((b.joined d h₃).map facets).bind (a.facets.join? ·) := by
    cases b.joined d h₃ <;> simp [facets_joined]
  rw [left, right, facets_joined, facets_joined, FrameFacets.join?_assoc]

/-- A frame that is reported as changed differs from the old one in some facet. -/
theorem exists_facets_ne {joined : Frame} (join : IsJoin a b joined) (changed : ¬ b ≤ a) :
    ∃ position v w, a.at? position = some v ∧ joined.at? position = some w ∧ v.toFacets ≠ w.toFacets := by
  by_contra none
  -- With the facets of the old frame the join would lie below it, and the incoming frame with it.
  have back : joined ≤ a := by
    refine le_iff_at?.2 ⟨join.locals.length join.counts, join.stack.length join.heights, ?_⟩
    intro position w v found found'
    by_contra apart
    refine none ⟨position, v, w, found', found, fun same => apart ?_⟩
    exact same.ge
  exact changed (join.incoming_le.trans back)

/-- Joining frames fails exactly where their shapes differ, changes nothing exactly where the incoming frame lies
below the current one, and gives else the least upper bound of the two, which differs from the
current frame in some facet. Up to places in the history, joining is commutative, associative
and idempotent. The answer depends on kinds and sources only, although the handles of shared
values suffice to find it. -/
theorem merge_is_exact_join (a b : Frame) (history : History) :
    ((∃ cause, a.merge b history = .error cause) ↔
      a.stack.length ≠ b.stack.length ∨ a.locals.length ≠ b.locals.length) ∧
    ((∃ history', a.merge b history = .ok (none, history')) ↔ b ≤ a) ∧
    (∀ joined history', a.merge b history = .ok (some joined, history') → IsLUB {a, b} joined ∧
      ∃ position v w, a.at? position = some v ∧ joined.at? position = some w ∧ v.toFacets ≠ w.toFacets) ∧
    (∀ history', (a.joined b history).map facets = (b.joined a history').map facets) ∧
    (∀ d h₁ h₂ h₃, ((a.joined b history).bind (·.joined d h₁)).map facets =
      ((b.joined d h₂).bind (a.joined · h₃)).map facets) ∧
    a.joined a history = some a ∧
    (∀ (a' b' : Frame) history', a'.facets = a.facets → b'.facets = b.facets →
      (a'.merge b' history').map (fun answer => answer.1.map facets) =
        (a.merge b history).map (fun answer => answer.1.map facets)) ∧
    (∀ (current incoming : SharedFrame) supply, current.frame = a → incoming.frame = b →
      SharedValue.Distinct (current.all ++ incoming.all) supply →
      (current.merge incoming supply history).map (fun answer => (answer.1.map SharedFrame.frame, answer.2.2)) =
        a.merge b history) := by
  refine ⟨exists_merge_eq_error, merge_eq_ok_none, ?_, ?_, ?_, ?_, ?_, ?_⟩
  · intro joined history' merged
    rcases merge_eq_ok merged with ⟨impossible, -⟩ | ⟨_, same, changed, join⟩
    · cases impossible
    cases same
    refine ⟨⟨?_, fun bound above => ?_⟩, exists_facets_ne join changed⟩
    · rintro _ (rfl | rfl)
      · exact join.current_le
      · exact join.incoming_le
    · exact join.le_of_le (above (by simp)) (above (by simp))
  · intro history'
    rw [facets_joined, facets_joined, FrameFacets.join?_comm]
  · intro d h₁ h₂ h₃
    exact joined_assoc a b d history h₁ h₂ h₃
  · simp [joined, merge_of_le le_rfl, Except.toOption]
  · intro a' b' history' same same'
    rw [merge_facets, merge_facets, same, same']
  · rintro current incoming supply rfl rfl distinct
    exact SharedFrame.merge_frame distinct

def held : Frame where
  locals := [.producedBy .int 0, .unknown .reference]
  stack := [.producedBy .int 2]

/-- A frame of the same shape with another kind in one slot and other sources on the stack. -/
def arriving : Frame where
  locals := [.producedBy .float 1, .unknown .reference]
  stack := [.producedBy .int 4]

theorem merge_is_exact_join_arriving : ¬ arriving ≤ held ∧
    (∃ joined history, held.merge arriving .empty = .ok (some joined, history) ∧ IsLUB {held, arriving} joined ∧
      joined.facets = ⟨[⟨.uninitialized, .single 0 ∪ .single 1⟩, ⟨.reference, .empty⟩], [⟨.int, .single 2 ∪ .single 4⟩]⟩) ∧
    ∃ cause, held.merge { arriving with stack := [] } .empty = .error cause := by
  have accepted : ((held.merge arriving .empty).toOption.bind (·.1)).any (fun joined => joined.facets =
      ⟨[⟨.uninitialized, .single 0 ∪ .single 1⟩, ⟨.reference, .empty⟩], [⟨.int, .single 2 ∪ .single 4⟩]⟩) = true := by
    decide +kernel
  obtain ⟨-, below, joins, -⟩ := merge_is_exact_join held arriving .empty
  cases merged : held.merge arriving .empty with
  | error cause =>
    rw [merged] at accepted
    cases accepted
  | ok answer =>
    obtain ⟨changed, history⟩ := answer
    rw [merged] at accepted below
    obtain ⟨joined, rfl, facets⟩ : ∃ joined, changed = some joined ∧ _ := (Option.any_eq_true _ _).1 accepted
    refine ⟨fun less => ?_, ⟨joined, history, rfl, (joins joined history merged).1, of_decide_eq_true facets⟩, ?_⟩
    · obtain ⟨history', same⟩ := below.2 less
      cases same
    · exact (merge_is_exact_join held { arriving with stack := [] } .empty).1.2 (.inl (by decide))

end Frame
end CallProvenance
