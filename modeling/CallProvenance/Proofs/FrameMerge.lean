import CallProvenance.Proofs.Order

/-! What joining values, rows and frames does to their facets. A join is the least upper bound in
the information order, and it is reported as a change exactly when the incoming side does not lie
below the current one. -/
namespace CallProvenance

namespace Value

theorem settle_current {current incoming : Facets} :
    current.settle incoming = .current ↔ incoming ≤ current := by
  have absorbed : current.join incoming = current ↔ incoming ≤ current := sup_eq_left
  unfold Facets.settle
  dsimp only
  split
  · rename_i joined
    exact iff_of_true rfl (absorbed.1 joined)
  · rename_i joined
    have apart := mt absorbed.2 joined
    split <;> simp [apart]

theorem merge_toFacets (current incoming : Value) (history : History) :
    (merge current incoming history).1.toFacets = current.toFacets ⊔ incoming.toFacets := by
  have joined : current.toFacets ⊔ incoming.toFacets = current.join incoming.toFacets := rfl
  unfold merge Facets.settle
  rw [joined]
  split
  case h_1 settled => grind
  case h_2 settled => grind
  case h_3 => rfl

/-- The row of joins, position by position. -/
def IsJoin (a b c : List Value) : Prop :=
  c.map (·.toFacets) = List.zipWith (· ⊔ ·) (a.map (·.toFacets)) (b.map (·.toFacets))

theorem foldl_merge_toFacets (pairs : List (Value × Value)) (reversed : List Value) (history : History) :
    (pairs.foldl
      (fun (reversed, history) (current, incoming) =>
        let (value, history) := merge current incoming history
        (value :: reversed, history))
      (reversed, history)).1.map (·.toFacets) =
    (pairs.map fun (current, incoming) => current.toFacets ⊔ incoming.toFacets).reverse ++
      reversed.map (·.toFacets) := by
  induction pairs generalizing reversed history with
  | nil => simp
  | cons pair pairs ih =>
    obtain ⟨current, incoming⟩ := pair
    simp only [List.foldl_cons, ih, List.map_cons, List.reverse_cons, List.append_assoc,
      List.singleton_append, merge_toFacets]

theorem mergeAll_isJoin (current incoming : List Value) (history : History) :
    IsJoin current incoming (mergeAll current incoming history).1 := by
  unfold IsJoin mergeAll
  simp only [List.map_reverse, foldl_merge_toFacets, List.map_nil, List.append_nil,
    List.reverse_reverse]
  rw [List.zipWith_map, List.zip_eq_zipWith, List.map_zipWith]

theorem absorbs_iff {current incoming : List Value} (length : current.length = incoming.length) :
    absorbs current incoming = true ↔ RowLe incoming current := by
  induction current generalizing incoming with
  | nil =>
    have : incoming = [] := List.eq_nil_of_length_eq_zero length.symm
    simp [absorbs, this]
  | cons v current ih =>
    obtain ⟨w, incoming, rfl⟩ := List.exists_cons_of_length_eq_add_one length.symm
    have tail := @ih incoming (by simpa using length)
    rw [RowLe, List.forall₂_cons, ← RowLe, ← tail]
    simp only [absorbs, List.zip_cons_cons, List.all_cons, Bool.and_eq_true, decide_eq_true_eq,
      settle_current]
    rfl

namespace IsJoin

variable {a b row : List Value}

theorem length (join : IsJoin a b row) (same : a.length = b.length) : row.length = a.length := by
  have := congrArg List.length join
  simpa [same] using this

theorem getElem? (join : IsJoin a b row) {i : Nat} {w : Value} (found : row[i]? = some w) :
    ∃ u v, a[i]? = some u ∧ b[i]? = some v ∧ w.toFacets = u.toFacets ⊔ v.toFacets := by
  have same := congrArg (·[i]?) join
  simp only [List.getElem?_map, found, Option.map_some, List.getElem?_zipWith] at same
  cases left : a[i]? <;> cases right : b[i]? <;> simp_all

theorem left_le (join : IsJoin a b row) (same : a.length = b.length) : RowLe a row := by
  refine RowLe.iff_getElem?.2 ⟨(join.length same).symm, fun i u w left found => ?_⟩
  obtain ⟨u', v, left', -, joined⟩ := join.getElem? found
  obtain rfl : u = u' := by simpa [left] using left'
  change u.toFacets ≤ w.toFacets
  rw [joined]
  exact le_sup_left

theorem right_le (join : IsJoin a b row) (same : a.length = b.length) : RowLe b row := by
  refine RowLe.iff_getElem?.2 ⟨(join.length same ▸ same).symm, fun i v w right found => ?_⟩
  obtain ⟨u, v', -, right', joined⟩ := join.getElem? found
  obtain rfl : v = v' := by simpa [right] using right'
  change v.toFacets ≤ w.toFacets
  rw [joined]
  exact le_sup_right

end IsJoin
end Value

namespace Frame

/-- `joined` holds the join of the two frames in every position. -/
structure IsJoin (current incoming joined : Frame) : Prop where
  heights : current.stack.length = incoming.stack.length
  counts : current.locals.length = incoming.locals.length
  locals : Value.IsJoin current.locals incoming.locals joined.locals
  stack : Value.IsJoin current.stack incoming.stack joined.stack

namespace IsJoin

variable {current incoming joined : Frame}

theorem current_le (join : IsJoin current incoming joined) : current ≤ joined :=
  ⟨join.locals.left_le join.counts, join.stack.left_le join.heights⟩

theorem incoming_le (join : IsJoin current incoming joined) : incoming ≤ joined :=
  ⟨join.locals.right_le join.counts, join.stack.right_le join.heights⟩

theorem at? (join : IsJoin current incoming joined) {position : Position} {w : Value}
    (found : joined.at? position = some w) :
    ∃ u v, current.at? position = some u ∧ incoming.at? position = some v ∧
      w.toFacets = u.toFacets ⊔ v.toFacets := by
  cases position with
  | slot index => exact join.locals.getElem? found
  | operand depth => exact join.stack.getElem? found

theorem mem_values (join : IsJoin current incoming joined) {w : Value} (member : w ∈ joined.values) {i : Nat}
    (source : i ∈ w.sources) : ∃ v, (v ∈ current.values ∨ v ∈ incoming.values) ∧ i ∈ v.sources := by
  obtain ⟨position, found⟩ := mem_values_iff.1 member
  obtain ⟨u, v, left, right, facets⟩ := join.at? found
  rw [facets, Facets.sources_sup, Sources.mem_sup] at source
  rcases source with source | source
  · exact ⟨u, .inl (mem_values_iff.2 ⟨position, left⟩), source⟩
  · exact ⟨v, .inr (mem_values_iff.2 ⟨position, right⟩), source⟩

end IsJoin

variable {current incoming : Frame} {history history' : History}

theorem merge_eq_ok {answer : Option Frame} (merged : current.merge incoming history = .ok (answer, history')) :
    (answer = none ∧ incoming ≤ current) ∨
    (∃ joined, answer = some joined ∧ ¬ incoming ≤ current ∧ IsJoin current incoming joined) := by
  unfold merge at merged
  split at merged
  · cases merged
  rename_i heights
  split at merged
  · cases merged
  rename_i counts
  rw [not_not] at heights counts
  split at merged
  · rename_i absorbed
    simp only [Bool.and_eq_true, Value.absorbs_iff counts, Value.absorbs_iff heights] at absorbed
    cases merged
    exact .inl ⟨rfl, absorbed⟩
  · rename_i absorbed
    simp only [Bool.and_eq_true, Value.absorbs_iff counts, Value.absorbs_iff heights] at absorbed
    cases merged
    exact .inr ⟨_, rfl, absorbed, heights, counts, Value.mergeAll_isJoin .., Value.mergeAll_isJoin ..⟩

/-- Only frames of different shapes cannot be joined. -/
theorem merge_eq_error {cause : Inconsistency} (failed : current.merge incoming history = .error cause) :
    current.stack.length ≠ incoming.stack.length ∨ current.locals.length ≠ incoming.locals.length := by
  unfold merge at failed
  split at failed
  · exact .inl ‹_›
  split at failed
  · exact .inr ‹_›
  split at failed <;> cases failed

end Frame
end CallProvenance
