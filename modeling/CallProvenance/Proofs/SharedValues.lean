import CallProvenance.Proofs.FrameMerge

/-! Values behind handles. Frames share values, and a handle tells one shared value from another. A join hands
out one of its two sides unless it has to make a new value, so that comparing handles shows
whether a frame has changed: the answer is the one that kinds and sources give. -/
namespace CallProvenance

namespace Value

theorem merge_of_le {current incoming : Value} (below : incoming ≤ current) (history : History) :
    merge current incoming history = (current, history) := by
  have settled : current.settle incoming.toFacets = .current := settle_current.2 below
  simp [merge, settled]

theorem foldl_merge_append (pairs : List (Value × Value)) (reversed : List Value) (history : History) :
    pairs.foldl
      (fun (reversed, history) (current, incoming) =>
        let (value, history) := merge current incoming history
        (value :: reversed, history))
      (reversed, history) =
    let start := pairs.foldl
      (fun (reversed, history) (current, incoming) =>
        let (value, history) := merge current incoming history
        (value :: reversed, history))
      ([], history)
    (start.1 ++ reversed, start.2) := by
  induction pairs generalizing reversed history with
  | nil => rfl
  | cons pair pairs ih =>
    simp only [List.foldl_cons]
    rw [ih, ih [_]]
    simp

theorem mergeAll_cons (v w : Value) (a b : List Value) (history : History) :
    mergeAll (v :: a) (w :: b) history =
      ((merge v w history).1 :: (mergeAll a b (merge v w history).2).1, (mergeAll a b (merge v w history).2).2) := by
  unfold mergeAll
  rw [List.zip_cons_cons, List.foldl_cons, foldl_merge_append]
  simp

theorem mergeAll_of_rowLe {a b : List Value} (below : RowLe b a) (history : History) :
    mergeAll a b history = (a, history) := by
  induction below with
  | nil => rfl
  | cons head _ ih => rw [mergeAll_cons, merge_of_le head, ih]

end Value

namespace Frame

variable {current incoming : Frame}

def joinAll (current incoming : Frame) (history : History) : Frame × History :=
  let locals := Value.mergeAll current.locals incoming.locals history
  let stack := Value.mergeAll current.stack incoming.stack locals.2
  (⟨locals.1, stack.1⟩, stack.2)

theorem joinAll_of_le (below : incoming ≤ current) (history : History) :
    current.joinAll incoming history = (current, history) := by
  simp only [joinAll, Value.mergeAll_of_rowLe below.1, Value.mergeAll_of_rowLe below.2]

theorem merge_of_le (below : incoming ≤ current) (history : History) :
    current.merge incoming history = .ok (none, history) := by
  obtain ⟨counts, heights, -⟩ := le_iff_at?.1 below
  have absorbed :
      (Value.absorbs current.locals incoming.locals && Value.absorbs current.stack incoming.stack) = true := by
    rw [Bool.and_eq_true, Value.absorbs_iff counts.symm, Value.absorbs_iff heights.symm]
    exact below
  rw [merge, if_neg (not_not.2 heights.symm), if_neg (not_not.2 counts.symm), if_pos absorbed]

theorem merge_of_not_le (heights : current.stack.length = incoming.stack.length)
    (counts : current.locals.length = incoming.locals.length) (above : ¬ incoming ≤ current) (history : History) :
    current.merge incoming history =
      .ok (some (current.joinAll incoming history).1, (current.joinAll incoming history).2) := by
  have absorbed :
      ¬ (Value.absorbs current.locals incoming.locals && Value.absorbs current.stack incoming.stack) = true := by
    rw [Bool.and_eq_true, Value.absorbs_iff counts, Value.absorbs_iff heights]
    exact above
  rw [merge, if_neg (not_not.2 heights), if_neg (not_not.2 counts), if_neg absorbed]
  rfl

end Frame

/-- A value and the handle under which frames share it. -/
structure SharedValue where
  handle : Nat
  value : Value

namespace SharedValue

/-- Joins two shared values, where `supply` is the first handle that is not in use. -/
def merge (current incoming : SharedValue) (supply : Nat) (history : History) : SharedValue × Nat × History :=
  let joined := current.value.join incoming.value.toFacets
  if current.handle = incoming.handle ∨ current.value.toFacets = incoming.value.toFacets then
    (current, supply, history)
  else if joined = current.value.toFacets then (current, supply, history)
  else if joined = incoming.value.toFacets then (incoming, supply, history)
  else
    let (place, history) := history.record current.value.place incoming.value.place
    (⟨supply, { toFacets := joined, place }⟩, supply + 1, history)

def mergeAll : List SharedValue → List SharedValue → Nat → History → List SharedValue × Nat × History
  | current :: row, incoming :: other, supply, history =>
    let first := merge current incoming supply history
    let rest := mergeAll row other first.2.1 first.2.2
    (first.1 :: rest.1, rest.2)
  | _, _, supply, history => ([], supply, history)

def handles (row : List SharedValue) : List Nat := row.map (·.handle)

def values (row : List SharedValue) : List Value := row.map (·.value)

/-- One handle stands for one value, and the handles from `supply` on are not in use. -/
structure Distinct (row : List SharedValue) (supply : Nat) : Prop where
  same : ∀ u ∈ row, ∀ v ∈ row, u.handle = v.handle → u.value = v.value
  used : ∀ u ∈ row, u.handle < supply

section Merge

variable {current incoming : SharedValue} {supply : Nat} {history : History}

theorem supply_le_merge : supply ≤ (merge current incoming supply history).2.1 := by
  unfold merge
  dsimp only
  split_ifs
  · exact le_rfl
  · exact le_rfl
  · exact le_rfl
  · exact Nat.le_succ supply

variable (same : current.handle = incoming.handle → current.value = incoming.value)
include same

theorem le_of_same (shortcut : current.handle = incoming.handle ∨ current.value.toFacets = incoming.value.toFacets) :
    incoming.value ≤ current.value := by
  rcases shortcut with handle | facets
  · rw [same handle]
  · exact facets.ge

/-- Behind the handles the join is the join of the values. -/
theorem merge_value : ((merge current incoming supply history).1.value, (merge current incoming supply history).2.2) =
    Value.merge current.value incoming.value history := by
  unfold merge
  dsimp only
  split_ifs with shortcut kept taken
  · rw [Value.merge_of_le (le_of_same same shortcut)]
  · rw [Value.merge_of_le (sup_eq_left.1 kept)]
  · have settled : current.value.settle incoming.value.toFacets = .incoming := by
      simp only [Facets.settle, if_neg kept, if_pos taken]
    simp only [Value.merge, settled]
  · have settled : current.value.settle incoming.value.toFacets = .neither := by
      simp only [Facets.settle, if_neg kept, if_neg taken]
    simp only [Value.merge, settled]

/-- The join has the handle of the current side exactly where this side already is the join. -/
theorem merge_handle (used : current.handle < supply) :
    (merge current incoming supply history).1.handle = current.handle ↔ incoming.value ≤ current.value := by
  unfold merge
  dsimp only
  split_ifs with shortcut kept taken
  · exact iff_of_true rfl (le_of_same same shortcut)
  · exact iff_of_true rfl (sup_eq_left.1 kept)
  · refine iff_of_false (fun handle => shortcut (.inl handle.symm)) fun below => kept (sup_eq_left.2 below)
  · exact iff_of_false used.ne' fun below => kept (sup_eq_left.2 below)

end Merge

section Rows

variable {row other : List SharedValue} {supply : Nat} {history : History}

theorem Distinct.of_subset (distinct : Distinct row supply) (subset : ∀ u ∈ other, u ∈ row) :
    Distinct other supply :=
  ⟨fun u member v member' => distinct.same u (subset u member) v (subset v member'),
    fun u member => distinct.used u (subset u member)⟩

theorem Distinct.mono {larger : Nat} (distinct : Distinct row supply) (le : supply ≤ larger) : Distinct row larger :=
  ⟨distinct.same, fun u member => (distinct.used u member).trans_le le⟩

/-- Joining rows of shared values joins the values, and no handle changes exactly where the incoming row lies
below the current one. -/
theorem mergeAll_spec (length : row.length = other.length) (distinct : Distinct (row ++ other) supply) :
    (values (mergeAll row other supply history).1, (mergeAll row other supply history).2.2) =
        Value.mergeAll (values row) (values other) history ∧
      (handles (mergeAll row other supply history).1 = handles row ↔ Value.RowLe (values other) (values row)) ∧
      supply ≤ (mergeAll row other supply history).2.1 := by
  induction row generalizing other supply history with
  | nil =>
    obtain rfl := List.eq_nil_of_length_eq_zero length.symm
    exact ⟨rfl, iff_of_true rfl .nil, le_rfl⟩
  | cons u row ih =>
    obtain ⟨v, other, rfl⟩ := List.exists_cons_of_length_eq_add_one length.symm
    have same : u.handle = v.handle → u.value = v.value := distinct.same u (by simp) v (by simp)
    -- The supply grows along the row, so the handles of the tails stay below it.
    have tails : Distinct (row ++ other) supply := by
      refine distinct.of_subset fun w member => ?_
      rcases List.mem_append.1 member with left | right
      · simp [left]
      · simp [right]
    have grown : supply ≤ (merge u v supply history).2.1 := supply_le_merge
    have value : ((merge u v supply history).1.value, (merge u v supply history).2.2) =
        Value.merge u.value v.value history := merge_value same
    have handle : (merge u v supply history).1.handle = u.handle ↔ v.value ≤ u.value :=
      merge_handle same (distinct.used u (by simp))
    obtain ⟨tail_values, tail_handles, tail_supply⟩ := @ih other (merge u v supply history).2.1
      (merge u v supply history).2.2 (by simpa using length) (tails.mono grown)
    refine ⟨?_, ?_, grown.trans tail_supply⟩
    · simp only [values, List.map_cons, Value.mergeAll_cons, mergeAll] at tail_values ⊢
      rw [← value, ← tail_values]
    · simp only [values, handles, List.map_cons, mergeAll, List.cons.injEq, handle, List.forall₂_cons]
        at tail_handles ⊢
      rw [tail_handles]

end Rows
end SharedValue

structure SharedFrame where
  locals : List SharedValue
  stack : List SharedValue

namespace SharedFrame

open SharedValue (handles values Distinct)

/-- The frame behind the handles. -/
def frame (shared : SharedFrame) : Frame := ⟨values shared.locals, values shared.stack⟩

def all (shared : SharedFrame) : List SharedValue := shared.locals ++ shared.stack

def joinAll (current incoming : SharedFrame) (supply : Nat) (history : History) : SharedFrame × Nat × History :=
  let locals := SharedValue.mergeAll current.locals incoming.locals supply history
  let stack := SharedValue.mergeAll current.stack incoming.stack locals.2.1 locals.2.2
  (⟨locals.1, stack.1⟩, stack.2)

def SameHandles (shared other : SharedFrame) : Prop :=
  handles shared.locals = handles other.locals ∧ handles shared.stack = handles other.stack

instance (shared other : SharedFrame) : Decidable (SameHandles shared other) := inferInstanceAs (Decidable (_ ∧ _))

/-- Joins `incoming` into `current`; `none` when no handle changes. -/
def merge (current incoming : SharedFrame) (supply : Nat) (history : History) :
    Except Inconsistency (Option SharedFrame × Nat × History) :=
  if current.stack.length ≠ incoming.stack.length then
    .error (.stackHeightMismatch current.stack.length incoming.stack.length)
  else if current.locals.length ≠ incoming.locals.length then
    .error (.localCountMismatch current.locals.length incoming.locals.length)
  else
    let joined := current.joinAll incoming supply history
    .ok (if SameHandles joined.1 current then none else some joined.1, joined.2)

section Merge

variable {current incoming : SharedFrame} {supply : Nat} {history : History}

theorem rows_distinct (distinct : Distinct (current.all ++ incoming.all) supply) :
    Distinct (current.locals ++ incoming.locals) supply ∧ Distinct (current.stack ++ incoming.stack) supply := by
  refine ⟨distinct.of_subset ?_, distinct.of_subset ?_⟩ <;> intro u <;> simp [all] <;> tauto

theorem joinAll_spec (heights : current.stack.length = incoming.stack.length)
    (counts : current.locals.length = incoming.locals.length)
    (distinct : Distinct (current.all ++ incoming.all) supply) :
    ((current.joinAll incoming supply history).1.frame, (current.joinAll incoming supply history).2.2) =
        current.frame.joinAll incoming.frame history ∧
      (SameHandles (current.joinAll incoming supply history).1 current ↔ incoming.frame ≤ current.frame) := by
  obtain ⟨distinct_locals, distinct_stack⟩ := rows_distinct distinct
  obtain ⟨locals, same_locals, grown⟩ := @SharedValue.mergeAll_spec _ _ _ history counts distinct_locals
  obtain ⟨stack, same_stack, -⟩ := @SharedValue.mergeAll_spec _ _ _
    (SharedValue.mergeAll current.locals incoming.locals supply history).2.2 heights (distinct_stack.mono grown)
  refine ⟨?_, and_congr same_locals same_stack⟩
  simp only [frame, joinAll, Frame.joinAll, ← locals, ← stack]

/-- Whether a frame has changed can be told from the handles alone: behind the handles, the answer is that of
the join of frames. -/
theorem merge_frame (distinct : Distinct (current.all ++ incoming.all) supply) :
    (current.merge incoming supply history).map (fun answer => (answer.1.map frame, answer.2.2)) =
      current.frame.merge incoming.frame history := by
  by_cases heights : current.stack.length = incoming.stack.length
  case neg => simp [merge, Frame.merge, frame, values, heights, Except.map]
  by_cases counts : current.locals.length = incoming.locals.length
  case neg => simp [merge, Frame.merge, frame, values, heights, counts, Except.map]
  obtain ⟨joins, unchanged⟩ := @joinAll_spec current incoming supply history heights counts distinct
  rw [merge, if_neg (not_not.2 heights), if_neg (not_not.2 counts)]
  generalize current.joinAll incoming supply history = joined at joins unchanged ⊢
  by_cases below : incoming.frame ≤ current.frame
  · rw [Frame.joinAll_of_le below] at joins
    have kept : joined.2.2 = history := congrArg Prod.snd joins
    simp only [Frame.merge_of_le below, if_pos (unchanged.2 below), Except.map, kept, Option.map_none]
  · have heights' : current.frame.stack.length = incoming.frame.stack.length := by simpa [frame, values] using heights
    have counts' : current.frame.locals.length = incoming.frame.locals.length := by simpa [frame, values] using counts
    simp only [Frame.merge_of_not_le heights' counts' below, if_neg (mt unchanged.1 below), Except.map,
      Option.map_some, ← joins]

end Merge
end SharedFrame
end CallProvenance
