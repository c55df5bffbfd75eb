import CallProvenance.Proofs.Order
import CallProvenance.Proofs.Shuffle

/-! Where the values of a frame come from. Each position of a frame is filled from fixed positions of
the frame before the action, and the kinds on the stack alone decide which ones these are. What
actions do to kinds and sources is read off the origins. -/
namespace CallProvenance

inductive Origin where
  | moved (position : Position)
  /-- What stood there, unless it was the lower half of a wide value. -/
  | torn (position : Position)
  | unset
  | produced (kind : Kind)
  | derived (kind : Kind) (positions : List Position)
  deriving DecidableEq, Repr

theorem length_eq_of_isSome {α : Type} {xs ys : List α}
    (present : ∀ i : Nat, xs[i]?.isSome = ys[i]?.isSome) : xs.length = ys.length := by
  have left := present xs.length
  have right := present ys.length
  rw [Bool.eq_iff_iff] at left right
  simp at left right
  omega

namespace Frame

/-- The frames have as many locals, and the same kinds on their stacks. -/
structure Similar (frame other : Frame) : Prop where
  counts : frame.locals.length = other.locals.length
  kinds : frame.stack.map (·.kind) = other.stack.map (·.kind)

namespace Similar

variable {frame other : Frame}

theorem symm (similar : frame.Similar other) : other.Similar frame := ⟨similar.counts.symm, similar.kinds.symm⟩

theorem heights (similar : frame.Similar other) : frame.stack.length = other.stack.length := by
  simpa using congrArg List.length similar.kinds

theorem kind_eq (similar : frame.Similar other) {depth : Nat} {v w : Value} (found : frame.stack[depth]? = some v)
    (found' : other.stack[depth]? = some w) : v.kind = w.kind := by
  have same := congrArg (·[depth]?) similar.kinds
  simpa [found, found'] using same

theorem of_kind_eq (counts : frame.locals.length = other.locals.length)
    (heights : frame.stack.length = other.stack.length)
    (kinds : ∀ (depth : Nat) v w, frame.stack[depth]? = some v → other.stack[depth]? = some w → v.kind = w.kind) :
    frame.Similar other := by
  refine ⟨counts, List.ext_getElem (by simpa using heights) fun depth inside inside' => ?_⟩
  simp only [List.length_map] at inside inside'
  simpa using kinds depth _ _ (List.getElem?_eq_getElem inside) (List.getElem?_eq_getElem inside')

theorem isSome_at? (similar : frame.Similar other) (position : Position) :
    (frame.at? position).isSome = (other.at? position).isSome := by
  cases position with
  | slot index => rw [Bool.eq_iff_iff]; simp [at?, similar.counts]
  | operand depth => rw [Bool.eq_iff_iff]; simp [at?, similar.heights]

end Similar
end Frame

namespace Origin

def value (index : Nat) (frame : Frame) : Origin → Option Value
  | .moved position => frame.at? position
  | .torn position => (frame.at? position).map Value.torn
  | .unset => some .unset
  | .produced kind => some (.producedBy kind index)
  | .derived kind positions => some (.derived kind (positions.filterMap frame.at?))

theorem isSome_value {frame other : Frame} (similar : frame.Similar other) (index : Nat) (origin : Origin) :
    (origin.value index frame).isSome = (origin.value index other).isSome := by
  cases origin with
  | moved position => exact similar.isSome_at? position
  | torn position => simpa [value] using similar.isSome_at? position
  | unset | produced | derived => rfl

/-- The origin of each slot after a value of the given width has been written. -/
def written (slot width : Nat) (new : Origin) (i : Nat) : Origin :=
  if i = slot then new
  else if i = slot + 1 ∧ width = 2 then .unset
  else if i + 1 = slot then .torn (.slot i)
  else .moved (.slot i)

theorem value_written {index slot : Nat} {frame : Frame} {value : Value} {new : Origin} {i : Nat}
    (inside : slot + value.size ≤ frame.locals.length) (made : new.value index frame = some value) :
    (written slot value.size new i).value index frame = (Frame.write frame.locals slot value)[i]? := by
  rw [Frame.getElem?_write i inside]
  unfold written
  split_ifs <;> first | exact made | rfl

end Origin

/-- The origin of each operand once `count` operands are taken and the result is pushed. -/
def Yield.origin (count : Nat) : Yield → Nat → Origin
  | .nothing, depth => .moved (.operand (count + depth))
  | .produced kind, 0 => .produced kind
  | .computed kind, 0 => .derived kind ((List.range count).reverse.map .operand)
  | .same, 0 => .moved (.operand (count - 1))
  | .same, depth + 1 => .moved (.operand (if count = 0 then depth + 1 else count + depth))
  | _, depth + 1 => .moved (.operand (count + depth))

theorem filterMap_range_getElem? {α : Type} (xs : List α) (count : Nat) :
    (List.range count).filterMap (xs[·]?) = xs.take count := by
  induction count with
  | zero => simp
  | succ count ih =>
    rw [List.range_succ, List.filterMap_append, ih, List.take_add_one]
    cases found : xs[count]? <;> simp [found]

theorem Yield.value_origin {index count : Nat} {frame : Frame} (yield : Yield) (depth : Nat)
    (inside : count ≤ frame.stack.length) :
    (yield.origin count depth).value index frame =
      ((yield.value index (frame.stack.take count).reverse).toList ++ frame.stack.drop count)[depth]? := by
  cases yield with
  | nothing => simp [origin, value, Origin.value, Frame.at?]
  | produced kind =>
    cases depth <;> simp [origin, value, Origin.value, Frame.at?]
  | computed kind =>
    cases depth with
    | zero =>
      have taken := filterMap_range_getElem? frame.stack count
      simp [origin, value, Origin.value, List.filterMap_map, Function.comp_def, Frame.at?, taken]
    | succ depth => simp [origin, value, Origin.value, Frame.at?]
  | same =>
    cases count with
    | zero => cases depth <;> simp [origin, value, Origin.value, Frame.at?]
    | succ count =>
      have top : (frame.stack.take (count + 1)).reverse.head? = some (frame.stack[count]) := by
        rw [List.head?_reverse, List.getLast?_take]
        simp
      cases depth with
      | zero => simp [origin, value, Origin.value, Frame.at?, top]
      | succ depth =>
        have shifted : count + 1 + depth = count + (depth + 1) := by omega
        simp [origin, value, Origin.value, Frame.at?, top, shifted]

namespace Action

/-- The origin of each position when the action is performed on a stack of the given kinds. -/
def origin (kinds : List Kind) : Action → Position → Origin
  | .consume operands yield, .operand depth => yield.origin operands.length depth
  | .load slot _, .operand 0 => .moved (.slot slot)
  | .load _ _, .operand (depth + 1) => .moved (.operand depth)
  | .store slot _, .slot i => .written slot ((kinds.head?.map Kind.size).getD 1) (.moved (.operand 0)) i
  | .store _ _, .operand depth => .moved (.operand (depth + 1))
  | .increment slot, .slot i => .written slot 1 (.derived .int [.slot slot]) i
  | .shuffle op, .operand depth =>
    .moved (.operand (((op.form? (kinds.map Kind.size)).map (·.move depth)).getD depth))
  | _, position => .moved position

/-- The slot that the action reads, and the kind that it must find there. -/
def reads : Action → Option (Nat × Kind)
  | .load slot kind => some (slot, kind)
  | .increment slot => some (slot, .int)
  | .subroutineReturn slot => some (slot, .returnAddress)
  | _ => none

variable {action : Action} {index : Nat} {frame other after : Frame}

theorem perform_at? (performed : action.perform index frame = .ok after) (position : Position) :
    after.at? position = (action.origin (frame.stack.map (·.kind)) position).value index frame := by
  cases action with
  | keep =>
    cases performed
    rfl
  | consume operands yield =>
    obtain ⟨expected, rfl⟩ := perform_consume.1 performed
    have inside : operands.length ≤ frame.stack.length := by
      have := congrArg List.length expected
      simp only [List.length_take, List.length_map, List.length_reverse] at this
      omega
    cases position with
    | slot i => rfl
    | operand depth => exact (yield.value_origin depth inside).symm
  | load slot kind =>
    obtain ⟨value, found, -, -, rfl⟩ := perform_load.1 performed
    rcases position with i | _ | depth
    · rfl
    · exact found.symm
    · rfl
  | store slot kind =>
    obtain ⟨value, below, stack, -, inside, rfl⟩ := perform_store.1 performed
    cases position with
    | slot i =>
      have width : ((frame.stack.map (·.kind)).head?.map Kind.size).getD 1 = value.size := by simp [stack]; rfl
      rw [origin, width, Origin.value_written inside (by simp [Origin.value, Frame.at?, stack])]
      rfl
    | operand depth => simp [origin, Origin.value, Frame.at?, stack]
  | increment slot =>
    obtain ⟨value, found, -, rfl⟩ := perform_increment.1 performed
    cases position with
    | slot i =>
      have fits : slot + (Value.derived .int [value]).size ≤ frame.locals.length := Frame.int_fits found
      exact (Origin.value_written fits (by simp [Origin.value, Frame.at?, found])).symm
    | operand depth => rfl
  | shuffle op =>
    obtain ⟨stack, applied, rfl⟩ := perform_shuffle.1 performed
    obtain ⟨form, found, rfl⟩ := StackOp.apply_eq_ok.1 applied
    have widths : (frame.stack.map (·.kind)).map Kind.size = frame.stack.map (·.size) :=
      List.map_map
    have proper : form.Proper frame.stack.length := by simpa using StackOp.form?_proper found
    cases position with
    | slot i => rfl
    | operand depth =>
      rw [origin, widths, found]
      exact StackOp.Form.getElem?_rearrange proper depth
  | subroutineReturn slot =>
    obtain ⟨value, -, -, rfl⟩ := perform_subroutineReturn.1 performed
    rfl

theorem perform_reads (performed : action.perform index frame = .ok after) {slot : Nat} {kind : Kind}
    (reads : action.reads = some (slot, kind)) :
    kind ≠ .uninitialized ∧ ∃ value, frame.locals[slot]? = some value ∧ value.kind = kind := by
  cases action <;> cases reads
  case load =>
    obtain ⟨value, found, same, readable, -⟩ := perform_load.1 performed
    exact ⟨readable, value, found, same⟩
  case increment =>
    obtain ⟨value, found, same, -⟩ := perform_increment.1 performed
    exact ⟨by simp, value, found, same⟩
  case subroutineReturn =>
    obtain ⟨value, found, same, -⟩ := perform_subroutineReturn.1 performed
    exact ⟨by simp, value, found, same⟩

theorem perform_shape {after' : Frame} (similar : other.Similar frame)
    (performed' : action.perform index other = .ok after') (performed : action.perform index frame = .ok after) :
    after'.locals.length = after.locals.length ∧ after'.stack.length = after.stack.length := by
  have present : ∀ position, (after'.at? position).isSome = (after.at? position).isSome := by
    intro position
    rw [perform_at? performed', perform_at? performed, similar.kinds]
    exact Origin.isSome_value similar index _
  refine ⟨length_eq_of_isSome fun i => present (.slot i), length_eq_of_isSome fun i => present (.operand i)⟩

/-- An action that succeeds on a frame succeeds on every similar one in which it finds what it reads. -/
theorem perform_of_similar (performed : action.perform index frame = .ok after) (similar : other.Similar frame)
    (finds : ∀ slot kind, action.reads = some (slot, kind) →
      ∃ value, other.locals[slot]? = some value ∧ value.kind = kind) :
    ∃ after', action.perform index other = .ok after' := by
  cases action with
  | keep => exact ⟨other, rfl⟩
  | consume operands yield =>
    obtain ⟨expected, -⟩ := perform_consume.1 performed
    exact ⟨_, perform_consume.2 ⟨similar.kinds ▸ expected, rfl⟩⟩
  | load slot kind =>
    obtain ⟨value, found, same⟩ := finds slot kind rfl
    exact ⟨_, perform_load.2 ⟨value, found, same, (perform_reads performed rfl).1, rfl⟩⟩
  | store slot kind =>
    obtain ⟨value, below, stack, expected, inside, -⟩ := perform_store.1 performed
    have kinds := similar.kinds
    cases taken : other.stack with
    | nil => simp [taken, stack] at kinds
    | cons value' below' =>
      simp only [taken, stack, List.map_cons, List.cons.injEq] at kinds
      have same : value'.kind = value.kind := kinds.1
      have size : value'.size = value.size := congrArg Kind.size same
      have counts := similar.counts
      exact ⟨_, perform_store.2 ⟨value', below', taken, by rw [same, ← expected], by omega, rfl⟩⟩
  | increment slot =>
    obtain ⟨value, found, same⟩ := finds slot .int rfl
    exact ⟨_, perform_increment.2 ⟨value, found, same, rfl⟩⟩
  | shuffle op =>
    obtain ⟨stack, applied, -⟩ := perform_shuffle.1 performed
    obtain ⟨form, found, -⟩ := StackOp.apply_eq_ok.1 applied
    have widths : other.stack.map (·.size) = frame.stack.map (·.size) := by
      simpa [Value.size, Function.comp_def] using congrArg (List.map Kind.size) similar.kinds
    exact ⟨_, perform_shuffle.2 ⟨_, StackOp.apply_eq_ok.2 ⟨form, widths ▸ found, rfl⟩, rfl⟩⟩
  | subroutineReturn slot =>
    obtain ⟨value, found, same⟩ := finds slot .returnAddress rfl
    exact ⟨_, perform_subroutineReturn.2 ⟨value, found, same, rfl⟩⟩

end Action
end CallProvenance
