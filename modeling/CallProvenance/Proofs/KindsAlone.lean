import CallProvenance.Proofs.JoinLattice
import CallProvenance.Proofs.StackWords

/-! Kinds are computed from kinds alone. Frames with the same kinds in all positions may differ in where their
values come from and in how often these were joined, and the instructions may stand in different
places: execution fails for the same reason on both, or leads to frames with the same kinds
again, and so do joins. -/
namespace CallProvenance

/-- Both results are the same failure, or successes in the given relation. -/
inductive ResultsMatch {ε α : Type} (related : α → α → Prop) : Except ε α → Except ε α → Prop where
  | failure (cause : ε) : ResultsMatch related (.error cause) (.error cause)
  | success {a b : α} : related a b → ResultsMatch related (.ok a) (.ok b)

namespace ResultsMatch

variable {ε α β : Type} {related : α → α → Prop} {related' : β → β → Prop}

theorem bind {first first' : Except ε α} {rest rest' : α → Except ε β} (start : ResultsMatch related first first')
    (next : ∀ a b, related a b → ResultsMatch related' (rest a) (rest' b)) :
    ResultsMatch related' (first >>= rest) (first' >>= rest') := by
  cases start with
  | failure cause => exact .failure cause
  | success same => exact next _ _ same

theorem bind_same {first : Except ε α} {rest rest' : α → Except ε β}
    (next : ∀ a, ResultsMatch related' (rest a) (rest' a)) :
    ResultsMatch related' (first >>= rest) (first >>= rest') := by
  cases first with
  | error cause => exact .failure cause
  | ok a => exact next a

end ResultsMatch

namespace Value

def kinds (row : List Value) : List Kind := row.map (·.kind)

variable {v w : Value} {row row' : List Value}

theorem getElem?_kinds (i : Nat) : (kinds row)[i]? = row[i]?.map (·.kind) := List.getElem?_map

theorem length_of_kinds (same : kinds row = kinds row') : row.length = row'.length := by
  simpa [kinds] using congrArg List.length same

theorem size_of_kind (same : v.kind = w.kind) : v.size = w.size := congrArg Kind.size same

theorem expect_of_kind (same : v.kind = w.kind) (kind : Kind) : v.expect kind = w.expect kind := by
  unfold expect
  rw [same]

theorem expectAll_of_kinds (same : kinds row = kinds row') (expected : List Kind) :
    expectAll row expected = expectAll row' expected := by
  induction row generalizing row' expected with
  | nil =>
    obtain rfl := List.eq_nil_of_length_eq_zero (length_of_kinds same).symm
    rfl
  | cons v row ih =>
    cases row' with
    | nil => simp [kinds] at same
    | cons w row' =>
      obtain ⟨head, tail⟩ := List.cons.inj same
      cases expected with
      | nil => rfl
      | cons kind expected => rw [expectAll, expectAll, expect_of_kind head, ih tail]

theorem torn_kind (v : Value) : v.torn.kind = if v.kind.size = 2 then .uninitialized else v.kind := by
  unfold torn size
  split <;> rfl

theorem write_kinds {slot : Nat} (rows : kinds row = kinds row') (same : v.kind = w.kind)
    (inside : slot + v.size ≤ row.length) : kinds (Frame.write row slot v) = kinds (Frame.write row' slot w) := by
  have inside' : slot + w.size ≤ row'.length := by rwa [← size_of_kind same, ← length_of_kinds rows]
  apply List.ext_getElem?
  intro i
  have here : row[i]?.map (·.kind) = row'[i]?.map (·.kind) := by rw [← getElem?_kinds, rows, getElem?_kinds]
  rw [getElem?_kinds, getElem?_kinds, Frame.getElem?_write i inside, Frame.getElem?_write i inside', size_of_kind same]
  split_ifs
  · exact congrArg some same
  · rfl
  · have torn := congrArg (Option.map fun kind : Kind => if kind.size = 2 then .uninitialized else kind) here
    simpa only [Option.map_map, Function.comp_def, torn_kind] using torn
  · exact here

end Value

/-- The frames have the same kinds in all positions. -/
structure Frame.SameKinds (frame other : Frame) : Prop where
  locals : Value.kinds frame.locals = Value.kinds other.locals
  stack : Value.kinds frame.stack = Value.kinds other.stack

namespace Frame.SameKinds

variable {frame other : Frame} (same : frame.SameKinds other)
include same

theorem get (slot : Nat) : ResultsMatch (fun v w => v.kind = w.kind) (frame.get slot) (other.get slot) := by
  have here : frame.locals[slot]?.map (·.kind) = other.locals[slot]?.map (·.kind) := by
    rw [← Value.getElem?_kinds, same.locals, Value.getElem?_kinds]
  unfold Frame.get
  cases left : frame.locals[slot]? <;> cases right : other.locals[slot]? <;> rw [left, right] at here
  · rw [Value.length_of_kinds same.locals]
    exact .failure _
  · cases here
  · cases here
  · exact .success (Option.some.inj here)

theorem set {v w : Value} (kinds : v.kind = w.kind) (slot : Nat) :
    ResultsMatch SameKinds (frame.set slot v) (other.set slot w) := by
  unfold Frame.set
  rw [Value.length_of_kinds same.locals, Value.size_of_kind kinds]
  split
  · exact .failure _
  · rename_i fits
    refine .success ⟨Value.write_kinds same.locals kinds ?_, same.stack⟩
    rw [Value.length_of_kinds same.locals, Value.size_of_kind kinds]
    omega

theorem pop : ResultsMatch (fun p q => p.1.kind = q.1.kind ∧ SameKinds p.2 q.2) frame.pop other.pop := by
  have rows := same.stack
  unfold Frame.pop
  cases left : frame.stack <;> cases right : other.stack <;> rw [left, right] at rows
  · exact .failure _
  · cases rows
  · cases rows
  · obtain ⟨top, rest⟩ := List.cons.inj rows
    exact .success ⟨top, same.locals, rest⟩

theorem push {v w : Value} (kinds : v.kind = w.kind) : (frame.push v).SameKinds (other.push w) :=
  ⟨same.locals, congrArg₂ List.cons kinds same.stack⟩

theorem popN (count : Nat) :
    ResultsMatch (fun p q => Value.kinds p.1 = Value.kinds q.1 ∧ SameKinds p.2 q.2)
      (frame.popN count) (other.popN count) := by
  unfold Frame.popN
  rw [Value.length_of_kinds same.stack]
  split
  · exact .failure _
  · refine .success ⟨?_, same.locals, ?_⟩
    · have taken := congrArg (fun kinds => (kinds.take count).reverse) same.stack
      simpa only [Value.kinds, List.map_reverse, List.map_take] using taken
    · have left := congrArg (List.drop count) same.stack
      simpa only [Value.kinds, List.map_drop] using left

theorem apply (operands : List Kind) {result result' : List Value → Option Value}
    (results : ∀ row row', Value.kinds row = Value.kinds row' →
      (result row).map (·.kind) = (result' row').map (·.kind)) :
    ResultsMatch SameKinds (frame.apply operands result) (other.apply operands result') := by
  refine (same.popN operands.length).bind ?_
  rintro ⟨row, rest⟩ ⟨row', rest'⟩ ⟨taken, left⟩
  simp only [Value.expectAll_of_kinds taken]
  refine .bind_same fun _ => .success ?_
  have made := results row row' taken
  cases pushed : result row <;> cases pushed' : result' row' <;> rw [pushed, pushed'] at made
  · exact left
  · cases made
  · cases made
  · exact left.push (Option.some.inj made)

end Frame.SameKinds

namespace StackOp

theorem draw_kinds (op : StackOp) {stack stack' : List Value} (same : Value.kinds stack = Value.kinds stack')
    (count : Nat) :
    ResultsMatch (fun p q => Value.kinds p.1 = Value.kinds q.1 ∧ Value.kinds p.2 = Value.kinds q.2)
      (op.draw count stack) (op.draw count stack') := by
  induction stack generalizing stack' count with
  | nil =>
    obtain rfl := List.eq_nil_of_length_eq_zero (Value.length_of_kinds same).symm
    cases count with
    | zero => exact .success ⟨rfl, rfl⟩
    | succ count => exact .failure _
  | cons v rest ih =>
    cases stack' with
    | nil => cases same
    | cons w rest' =>
      obtain ⟨head, tail⟩ := List.cons.inj same
      cases count with
      | zero => exact .success ⟨rfl, same⟩
      | succ count =>
        rw [draw, draw, Value.size_of_kind head]
        split
        · refine (ih tail _).bind ?_
          rintro ⟨drawn, left⟩ ⟨drawn', left'⟩ ⟨upper, lower⟩
          exact .success ⟨congrArg₂ List.cons head upper, lower⟩
        · exact .failure _

theorem arrange_kinds (op : StackOp) (first second rest : List Value) :
    Value.kinds (op.arrange first second rest) =
      op.arrange (Value.kinds first) (Value.kinds second) (Value.kinds rest) := by
  cases op <;> simp [arrange, Value.kinds]

theorem apply_kinds (op : StackOp) {stack stack' : List Value} (same : Value.kinds stack = Value.kinds stack') :
    ResultsMatch (fun row row' => Value.kinds row = Value.kinds row') (op.apply stack) (op.apply stack') := by
  rw [apply_eq_draw, apply_eq_draw]
  refine (op.draw_kinds same _).bind fun first first' upper => ?_
  refine (op.draw_kinds upper.2 _).bind fun second second' lower => .success ?_
  rw [arrange_kinds, arrange_kinds, upper.1, lower.1, lower.2]

end StackOp

theorem Yield.value_kinds (yield : Yield) (index index' : Nat) (row row' : List Value)
    (same : Value.kinds row = Value.kinds row') :
    (yield.value index row).map (·.kind) = (yield.value index' row').map (·.kind) := by
  cases yield with
  | nothing | produced | computed => rfl
  | same =>
    have head := congrArg List.head? same
    simpa only [Value.kinds, List.head?_map, value] using head

/-- What an action does to kinds depends on kinds only. -/
theorem Action.perform_kinds (action : Action) (index index' : Nat) {frame other : Frame} (same : frame.SameKinds other) :
    ResultsMatch Frame.SameKinds (action.perform index frame) (action.perform index' other) := by
  cases action with
  | keep => exact .success same
  | consume operands yield => exact same.apply operands (yield.value_kinds index index')
  | load slot kind =>
    refine (same.get slot).bind fun v w kinds => ?_
    simp only [kinds, Value.expect_of_kind kinds]
    split
    · exact .failure _
    · exact .bind_same fun _ => .success (same.push kinds)
  | store slot kind =>
    refine same.pop.bind ?_
    rintro ⟨v, rest⟩ ⟨w, rest'⟩ ⟨kinds, left⟩
    have kinds : v.kind = w.kind := kinds
    simp only [kinds, Value.expect_of_kind kinds]
    exact .bind_same fun _ => left.set kinds slot
  | increment slot =>
    refine (same.get slot).bind fun v w kinds => ?_
    have results : (Value.derived .int [v]).kind = (Value.derived .int [w]).kind := rfl
    simp only [Value.expect_of_kind kinds]
    exact .bind_same fun _ => same.set results slot
  | shuffle op => exact (op.apply_kinds same.stack).bind fun _ _ kinds => .success ⟨same.locals, kinds⟩
  | subroutineReturn slot =>
    refine (same.get slot).bind fun v w kinds => ?_
    simp only [Value.expect_of_kind kinds]
    exact .bind_same fun _ => .success same

theorem Instruction.execute_kinds (instruction : Instruction) (index index' : Nat) {frame other : Frame}
    (same : frame.SameKinds other) :
    ResultsMatch Frame.SameKinds (instruction.execute index frame) (instruction.execute index' other) := by
  rw [execute_eq, execute_eq]
  exact .bind_same fun action => action.perform_kinds index index' same

theorem Facets.kind_sup (a b : Facets) : (a ⊔ b).kind = a.kind ⊔ b.kind := rfl

theorem Value.kinds_mergeAll (row other : List Value) (history : History) :
    kinds (mergeAll row other history).1 = List.zipWith (· ⊔ ·) (kinds row) (kinds other) := by
  have joined := congrArg (List.map Facets.kind) (mergeAll_isJoin row other history)
  simpa only [kinds, List.map_map, Function.comp_def, List.map_zipWith, List.zipWith_map,
    Facets.kind_sup] using joined

/-- Whether a join changes a frame may depend on sources, but the kinds in the join do not. -/
theorem Frame.merge_kinds {a a' b b' : Frame} (left : a.SameKinds a') (right : b.SameKinds b')
    (history history' : History) :
    ResultsMatch (fun answer answer' => SameKinds (answer.1.getD a) (answer'.1.getD a'))
      (a.merge b history) (a'.merge b' history') := by
  have heights_left := Value.length_of_kinds left.stack
  have heights_right := Value.length_of_kinds right.stack
  have counts_left := Value.length_of_kinds left.locals
  have counts_right := Value.length_of_kinds right.locals
  by_cases heights : a.stack.length = b.stack.length
  case neg =>
    rw [merge, merge, ← heights_left, ← heights_right, if_pos heights, if_pos heights]
    exact .failure _
  by_cases counts : a.locals.length = b.locals.length
  case neg =>
    rw [merge, merge, ← heights_left, ← heights_right, ← counts_left, ← counts_right, if_neg (not_not.2 heights),
      if_neg (not_not.2 heights), if_pos counts, if_pos counts]
    exact .failure _
  obtain ⟨answer, after, merged, joined⟩ := exists_merge_eq_ok heights counts history
  obtain ⟨answer', after', merged', joined'⟩ :=
    exists_merge_eq_ok (by omega : a'.stack.length = b'.stack.length) (by omega) history'
  rw [merged, merged']
  refine .success ?_
  rw [joined, joined']
  constructor
  · simp only [joinAll, Value.kinds_mergeAll, left.locals, right.locals]
  · simp only [joinAll, Value.kinds_mergeAll, left.stack, right.stack]

/-- Sources, histories and the positions of instructions have no influence on kinds and failures. On frames
with the same kinds, an instruction fails alike or leads to frames with the same kinds, and so
does a join with frames that have the same kinds. -/
theorem Frame.kinds_ignore_sources {frame other : Frame} (same : frame.SameKinds other) :
    (∀ (instruction : Instruction) index index',
      ResultsMatch SameKinds (instruction.execute index frame) (instruction.execute index' other)) ∧
    ∀ (incoming incoming' : Frame) history history', incoming.SameKinds incoming' →
      ResultsMatch (fun answer answer' => SameKinds (answer.1.getD frame) (answer'.1.getD other))
        (frame.merge incoming history) (other.merge incoming' history') := by
  constructor
  · intro instruction index index'
    exact instruction.execute_kinds index index' same
  · intro incoming incoming' history history' arriving
    exact merge_kinds same arriving history history'

/-- Two integers on the stack, with their sources and the place of the lower one in a history. -/
def Frame.summands (upper lower : Nat) (place : Place) : Frame where
  locals := []
  stack := [.producedBy .int upper, { Value.producedBy .int lower with place }]

theorem ResultsMatch.exists_ok {ε α : Type} {related : α → α → Prop} {result result' : Except ε α}
    (both : ResultsMatch related result result') (succeeds : result.toOption.isSome = true) :
    ∃ a b, result = .ok a ∧ result' = .ok b ∧ related a b := by
  cases both with
  | failure cause => cases succeeds
  | success same => exact ⟨_, _, rfl, rfl, same⟩

/-- The sum of integers is an integer wherever they come from, and one join changes its frame while the other
does not. -/
theorem Frame.kinds_ignore_sources_summands :
    (summands 0 1 none).SameKinds (summands 6 2 (some 3)) ∧
    (∃ after after', (⟨2, 0x60, .none⟩ : Instruction).execute 2 (summands 0 1 none) = .ok after ∧
      (⟨2, 0x60, .none⟩ : Instruction).execute 8 (summands 6 2 (some 3)) = .ok after' ∧ after.SameKinds after') ∧
    ∃ joined history, (summands 0 1 none).merge (summands 4 1 none) .empty = .ok (some joined, history) ∧
      (summands 6 2 (some 3)).merge (summands 6 2 none) .empty = .ok (none, .empty) ∧
      joined.SameKinds (summands 6 2 (some 3)) := by
  have same : (summands 0 1 none).SameKinds (summands 6 2 (some 3)) := ⟨rfl, rfl⟩
  obtain ⟨executes, merges⟩ := kinds_ignore_sources same
  refine ⟨same, ?_, ?_⟩
  · have succeeds : ((⟨2, 0x60, .none⟩ : Instruction).execute 2 (summands 0 1 none)).toOption.isSome = true := by
      decide +kernel
    exact (executes ⟨2, 0x60, .none⟩ 2 8).exists_ok succeeds
  · have above : ¬ summands 4 1 none ≤ summands 0 1 none := by
      rintro ⟨-, entries⟩
      have zero : 4 ∈ Sources.single 0 := (List.forall₂_cons.1 entries).1.2 4 (Sources.mem_single.2 rfl)
      simp at zero
    have below : summands 6 2 none ≤ summands 6 2 (some 3) := ⟨.nil, .cons le_rfl (.cons ⟨le_rfl, le_rfl⟩ .nil)⟩
    have heights : (summands 0 1 none).stack.length = (summands 4 1 none).stack.length := rfl
    have changed := merge_of_not_le heights rfl above .empty
    have kept := merge_of_le below .empty
    have kinds := merges (summands 4 1 none) (summands 6 2 none) .empty .empty ⟨rfl, rfl⟩
    rw [changed, kept] at kinds
    cases kinds with
    | success joined => exact ⟨_, _, changed, kept, joined⟩

end CallProvenance
