import CallProvenance.Execute
import Mathlib.Data.List.Basic

/-! Instructions by what they do to a frame. An instruction decodes to an action without looking at the
frame, and all that fails later depends on the frame alone. The few actions replace the many
opcodes in every argument about execution. -/
namespace CallProvenance

theorem ok_bind {ε α β : Type} {a : α} {f : α → Except ε β} : (.ok a : Except ε α) >>= f = f a := rfl

theorem except_bind_eq_ok {ε α β : Type} {x : Except ε α} {f : α → Except ε β} {b : β} :
    x >>= f = .ok b ↔ ∃ a, x = .ok a ∧ f a = .ok b := by
  cases x <;> simp [bind, Except.bind]

theorem mem_of_mapM_ok {ε α β : Type} {f : α → Except ε β} {xs : List α} {ys : List β}
    (mapped : xs.mapM f = .ok ys) {y : β} (member : y ∈ ys) : ∃ x ∈ xs, f x = .ok y := by
  induction xs generalizing ys with
  | nil =>
    cases mapped
    simp at member
  | cons x xs ih =>
    rw [List.mapM_cons] at mapped
    obtain ⟨z, head, rest⟩ := except_bind_eq_ok.1 mapped
    obtain ⟨zs, tail, rest⟩ := except_bind_eq_ok.1 rest
    cases rest
    rcases List.mem_cons.1 member with rfl | later
    · exact ⟨x, by simp, head⟩
    · obtain ⟨x', inside, same⟩ := ih tail later
      exact ⟨x', by simp [inside], same⟩

theorem exists_of_mapM_ok {ε α β : Type} {f : α → Except ε β} {xs : List α} {ys : List β}
    (mapped : xs.mapM f = .ok ys) {x : α} (member : x ∈ xs) : ∃ y, f x = .ok y := by
  induction xs generalizing ys with
  | nil => cases member
  | cons first xs ih =>
    rw [List.mapM_cons] at mapped
    obtain ⟨y, head, rest⟩ := except_bind_eq_ok.1 mapped
    obtain ⟨ys, tail, -⟩ := except_bind_eq_ok.1 rest
    rcases List.mem_cons.1 member with rfl | later
    · exact ⟨y, head⟩
    · exact ih tail later

theorem exists_of_mapM_error {ε α β : Type} {f : α → Except ε β} {xs : List α} {failure : ε}
    (stopped : xs.mapM f = .error failure) : ∃ x ∈ xs, f x = .error failure := by
  induction xs with
  | nil => cases stopped
  | cons x xs ih =>
    rw [List.mapM_cons] at stopped
    cases head : f x with
    | error cause =>
      rw [head] at stopped
      cases stopped
      exact ⟨x, List.mem_cons_self, head⟩
    | ok y =>
      rw [head, ok_bind] at stopped
      cases rest : xs.mapM f with
      | ok ys =>
        rw [rest] at stopped
        cases stopped
      | error cause =>
        rw [rest] at stopped
        cases stopped
        obtain ⟨later, inside, failed⟩ := ih rest
        exact ⟨later, List.mem_cons_of_mem x inside, failed⟩

/-- What an action pushes, given the operands that it took. -/
inductive Yield where
  | nothing
  /-- A value whose source is the instruction. -/
  | produced (kind : Kind)
  /-- A value with the sources of all operands. -/
  | computed (kind : Kind)
  /-- The first operand as it stands. -/
  | same
  deriving DecidableEq, Repr

namespace Yield

def ofResult : Option Kind → Yield
  | none => .nothing
  | some kind => .computed kind

def value (index : Nat) (operands : List Value) : Yield → Option Value
  | .nothing => none
  | .produced kind => some (.producedBy kind index)
  | .computed kind => some (.derived kind operands)
  | .same => operands.head?

end Yield

inductive Action where
  | keep
  | consume (operands : List Kind) (yield : Yield)
  | load (slot : Nat) (kind : Kind)
  | store (slot : Nat) (kind : Kind)
  | increment (slot : Nat)
  | shuffle (op : StackOp)
  | subroutineReturn (slot : Nat)
  deriving DecidableEq, Repr

namespace Action

/-- The kind that a store of the given kind finds in a value of kind `found`. -/
def stored (kind found : Kind) : Kind :=
  if kind = .reference ∧ found = .returnAddress then .returnAddress else kind

def perform (index : Nat) (frame : Frame) : Action → Except Inconsistency Frame
  | .keep => .ok frame
  | .consume operands yield => frame.apply operands fun values => yield.value index values
  | .load slot kind => do
    let value ← frame.get slot
    if value.kind = .uninitialized then .error (.uninitializedSlot slot)
    else
      value.expect kind
      return frame.push value
  | .store slot kind => do
    let (value, rest) ← frame.pop
    value.expect (stored kind value.kind)
    rest.set slot value
  | .increment slot => do
    let value ← frame.get slot
    value.expect .int
    frame.set slot (.derived .int [value])
  | .shuffle op => frame.shuffle op
  | .subroutineReturn slot => do
    let value ← frame.get slot
    value.expect .returnAddress
    return frame

end Action

namespace Instruction

/-- The action of an instruction whose operand has the shape that its opcode asks for. -/
def action (instruction : Instruction) : Except Inconsistency Action := do
  match instruction.effect? with
  | none => .error (.unsupportedOpcode instruction.opcode)
  | some .noop | some (.leave none) => return .keep
  | some (.push kind) => return .consume [] (.produced kind)
  | some .constant => return .consume [] (.produced (← instruction.constant).kind)
  | some (.load kind) => return .load (← instruction.slot) kind
  | some (.store kind) => return .store (← instruction.slot) kind
  | some .increment => return .increment (← instruction.incremented)
  | some (.shuffle op) => return .shuffle op
  | some (.unary operand result) => return .consume [operand] (.ofResult result)
  | some (.binary left right result) => return .consume [left, right] (.ofResult result)
  | some (.arrayStore element) => return .consume [.reference, .int, element] .nothing
  | some .getStatic => return .consume [] (.produced (← instruction.fieldKind))
  | some .putStatic => return .consume [← instruction.fieldKind] .nothing
  | some .getField => return .consume [.reference] (.produced (← instruction.fieldKind))
  | some .putField => return .consume [.reference, ← instruction.fieldKind] .nothing
  | some .invoke =>
    let site ← instruction.site
    let parameters ← Descriptor.operands site.descriptor
    let result ← Descriptor.result site.descriptor
    return .consume (if site.kind = .static then parameters else .reference :: parameters)
      (.ofResult result)
  | some .invokeDynamic =>
    let site ← instruction.dynamicSite
    let parameters ← Descriptor.operands site.descriptor
    let result ← Descriptor.result site.descriptor
    return .consume parameters (.ofResult result)
  | some .checkCast => return .consume [.reference] .same
  | some .newMultiArray =>
    return .consume (List.replicate (← instruction.dimensions) .int) (.computed .reference)
  | some (.leave (some kind)) => return .consume [kind] .nothing
  | some .raise => return .consume [.reference] .nothing
  | some .subroutineReturn => return .subroutineReturn (← instruction.slot)

theorem checkCast_eq (frame : Frame) (index : Nat) :
    (do let (value, rest) ← frame.pop
        value.expect .reference
        return rest.push value) =
      (Action.consume [.reference] .same).perform index frame := by
  obtain ⟨locals, stack⟩ := frame
  cases stack with
  | nil => rfl
  | cons top rest =>
    by_cases kind : top.kind = .reference
    · simp [Frame.pop, Value.expect, kind, Action.perform, Frame.apply, Frame.popN, Value.expectAll, bind,
        Except.bind, Yield.value, Option.elim, pure, Except.pure, Frame.push]
    · simp [Frame.pop, Value.expect, kind, Action.perform, Frame.apply, Frame.popN, Value.expectAll, bind,
        Except.bind]

theorem produced_eq (frame : Frame) (index : Nat) (kind : Kind) :
    (pure (frame.push (.producedBy kind index)) : Except Inconsistency Frame) =
      (Action.consume [] (.produced kind)).perform index frame := by
  simp [Action.perform, Frame.apply, Frame.popN, Value.expectAll, bind, Except.bind, Yield.value,
    Option.elim, pure, Except.pure, Frame.push]

theorem computed_eq (frame : Frame) (index : Nat) (operands : List Kind) (result : Option Kind) :
    frame.apply operands (Value.computed result) =
      (Action.consume operands (.ofResult result)).perform index frame := by
  cases result <;> rfl

theorem execute_eq (instruction : Instruction) (index : Nat) (frame : Frame) :
    instruction.execute index frame = instruction.action >>= Action.perform index frame := by
  unfold execute action
  rcases instruction.effect? with _ | effect
  · rfl
  cases effect with
  | push | constant | getStatic => simp only [bind_assoc, pure_bind, produced_eq]
  | unary | binary | invoke | invokeDynamic =>
    simp only [bind_assoc, pure_bind, computed_eq _ index]
  | checkCast => exact checkCast_eq frame index
  | leave value => cases value <;> rfl
  | _ =>
    simp only [bind_assoc, pure_bind]
    rfl

end Instruction

namespace Value

/-- What a slot holds after the slot above it is overwritten. -/
def torn (value : Value) : Value := if value.size = 2 then .unset else value

@[simp] theorem expect_eq_ok {value : Value} {kind : Kind} {u : Unit} :
    value.expect kind = .ok u ↔ value.kind = kind := by
  unfold expect
  split <;> simp_all

theorem expectAll_eq_ok {values : List Value} {kinds : List Kind} {u : Unit}
    (length : values.length = kinds.length) :
    expectAll values kinds = .ok u ↔ values.map (·.kind) = kinds := by
  induction values generalizing kinds with
  | nil =>
    have : kinds = [] := List.eq_nil_of_length_eq_zero length.symm
    simp [expectAll, this]
  | cons value values ih =>
    obtain ⟨kind, kinds, rfl⟩ := List.exists_cons_of_length_eq_add_one length.symm
    have tail := @ih kinds (by simpa using length)
    simp only [expectAll, except_bind_eq_ok, expect_eq_ok, tail, List.map_cons, List.cons.injEq]
    exact ⟨fun ⟨_, same, rest⟩ => ⟨same, rest⟩, fun ⟨same, rest⟩ => ⟨(), same, rest⟩⟩

end Value

namespace Frame

variable {frame after : Frame}

theorem get_eq_ok {slot : Nat} {value : Value} :
    frame.get slot = .ok value ↔ frame.locals[slot]? = some value := by
  unfold get
  split <;> simp_all

theorem pop_eq_ok {answer : Value × Frame} :
    frame.pop = .ok answer ↔
      ∃ top below, frame.stack = top :: below ∧ answer = (top, ⟨frame.locals, below⟩) := by
  unfold pop
  split <;> simp_all [eq_comm]

theorem set_eq_ok {slot : Nat} {value : Value} :
    frame.set slot value = .ok after ↔
      slot + value.size ≤ frame.locals.length ∧ after = ⟨write frame.locals slot value, frame.stack⟩ := by
  unfold set
  split
  · simp only [reduceCtorEq, false_iff]
    omega
  · simp only [Except.ok.injEq, eq_comm, iff_and_self]
    omega

/-- The operands lie on top of the stack, the last one uppermost. -/
theorem apply_eq_ok {operands : List Kind} (result : List Value → Option Value) :
    frame.apply operands result = .ok after ↔
      (frame.stack.map (·.kind)).take operands.length = operands.reverse ∧
      after = ⟨frame.locals, (result (frame.stack.take operands.length).reverse).toList ++
        frame.stack.drop operands.length⟩ := by
  unfold apply
  simp only [except_bind_eq_ok, popN]
  by_cases short : frame.stack.length < operands.length
  · have uneven : (frame.stack.map (·.kind)).take operands.length ≠ operands.reverse := fun same => by
      have := congrArg List.length same
      simp only [List.length_map, List.length_take, List.length_reverse] at this
      omega
    simp [short, uneven]
  · have length : (frame.stack.take operands.length).reverse.length = operands.length := by
      simp only [List.length_reverse, List.length_take]
      omega
    simp only [short, if_false, Except.ok.injEq, exists_eq_left', Value.expectAll_eq_ok length,
      List.map_reverse, List.map_take, List.reverse_eq_iff]
    refine ⟨?_, ?_⟩
    · rintro ⟨-, kinds, answer⟩
      refine ⟨kinds, ?_⟩
      cases made : result (frame.stack.take operands.length).reverse <;> simp_all [pure, Except.pure, push]
    · rintro ⟨kinds, rfl⟩
      refine ⟨(), kinds, ?_⟩
      cases made : result (frame.stack.take operands.length).reverse <;> simp_all [pure, Except.pure, push]

theorem length_clobber (locals : List Value) (slot : Nat) : (clobber locals slot).length = locals.length := by
  cases slot with
  | zero => rfl
  | succ below =>
    simp only [clobber]
    split
    · simp
    · rfl

@[simp] theorem length_write (locals : List Value) (slot : Nat) (value : Value) :
    (write locals slot value).length = locals.length := by
  unfold write
  split <;> simp [length_clobber]

theorem getElem?_clobber (locals : List Value) (slot i : Nat) :
    (clobber locals slot)[i]? =
      if i + 1 = slot then (locals[i]?).map Value.torn
      else locals[i]? := by
  cases slot with
  | zero => simp [clobber]
  | succ below =>
    simp only [clobber, Nat.add_right_cancel_iff]
    by_cases same : i = below
    · subst same
      by_cases inside : i < locals.length
      · by_cases wide : locals[i].size = 2 <;> simp [inside, wide, Value.torn]
      · simp [inside]
    · split <;> simp [Ne.symm same]

/-- Reading after a write: the value, the unset half of a wide one, a pair torn from above, or what
was there before. -/
theorem getElem?_write {locals : List Value} {slot : Nat} {value : Value} (i : Nat)
    (inside : slot + value.size ≤ locals.length) :
    (write locals slot value)[i]? =
      if i = slot then some value
      else if i = slot + 1 ∧ value.size = 2 then some .unset
      else if i + 1 = slot then (locals[i]?).map Value.torn
      else locals[i]? := by
  have positive : 0 < value.size := by
    rcases Kind.size_eq_one_or_two value.kind with size | size <;> simp [Value.size, size]
  by_cases here : i = slot
  · subst here
    have lower : i < locals.length := by omega
    unfold write
    split <;> simp [length_clobber, lower]
  by_cases upper : i = slot + 1 ∧ value.size = 2
  · obtain ⟨rfl, wide⟩ := upper
    have lower : slot + 1 < locals.length := by omega
    simp [write, wide, length_clobber, lower]
  · have kept : (write locals slot value)[i]? = (clobber locals slot)[i]? := by
      unfold write
      split
      · rename_i wide
        have apart : i ≠ slot + 1 := fun same => upper ⟨same, wide⟩
        simp [Ne.symm apart, Ne.symm here]
      · simp [Ne.symm here]
    rw [kept, getElem?_clobber, if_neg here, if_neg upper]

theorem int_fits {locals : List Value} {slot : Nat} {value : Value} {operands : List Value}
    (found : locals[slot]? = some value) :
    slot + (Value.derived .int operands).size ≤ locals.length :=
  (List.getElem?_eq_some_iff.1 found).1

end Frame

namespace Action

variable {index slot : Nat} {kind : Kind} {frame after : Frame}

theorem perform_consume {operands : List Kind} {yield : Yield} :
    (consume operands yield).perform index frame = .ok after ↔
      (frame.stack.map (·.kind)).take operands.length = operands.reverse ∧
      after = ⟨frame.locals, (yield.value index (frame.stack.take operands.length).reverse).toList ++
        frame.stack.drop operands.length⟩ :=
  Frame.apply_eq_ok fun values => yield.value index values

theorem perform_load :
    (load slot kind).perform index frame = .ok after ↔
      ∃ value, frame.locals[slot]? = some value ∧ value.kind = kind ∧ kind ≠ .uninitialized ∧
        after = ⟨frame.locals, value :: frame.stack⟩ := by
  simp only [perform, except_bind_eq_ok, Frame.get_eq_ok]
  refine exists_congr fun value => and_congr_right fun _ => ?_
  split
  · rename_i unset
    simp only [reduceCtorEq, false_iff]
    rintro ⟨rfl, readable, -⟩
    exact readable unset
  · rename_i readable
    simp only [except_bind_eq_ok, Value.expect_eq_ok, pure, Except.pure, Except.ok.injEq, Frame.push,
      exists_const, eq_comm (b := after)]
    exact ⟨fun ⟨same, answer⟩ => ⟨same, same ▸ readable, answer⟩, fun ⟨same, _, answer⟩ => ⟨same, answer⟩⟩

theorem perform_store :
    (store slot kind).perform index frame = .ok after ↔
      ∃ value below, frame.stack = value :: below ∧ value.kind = stored kind value.kind ∧
        slot + value.size ≤ frame.locals.length ∧
        after = ⟨Frame.write frame.locals slot value, below⟩ := by
  simp only [perform, except_bind_eq_ok, Frame.pop_eq_ok, Value.expect_eq_ok, Frame.set_eq_ok,
    exists_const]
  grind

theorem perform_increment :
    (increment slot).perform index frame = .ok after ↔
      ∃ value, frame.locals[slot]? = some value ∧ value.kind = .int ∧
        after = ⟨Frame.write frame.locals slot (.derived .int [value]), frame.stack⟩ := by
  simp only [perform, except_bind_eq_ok, Frame.get_eq_ok, Value.expect_eq_ok, Frame.set_eq_ok,
    exists_const]
  refine exists_congr fun value => and_congr_right fun found => and_congr_right fun _ => ?_
  exact ⟨And.right, fun answer => ⟨Frame.int_fits found, answer⟩⟩

theorem perform_shuffle {op : StackOp} :
    (shuffle op).perform index frame = .ok after ↔
      ∃ stack, op.apply frame.stack = .ok stack ∧ after = ⟨frame.locals, stack⟩ := by
  simp only [perform, Frame.shuffle, except_bind_eq_ok, pure, Except.pure, Except.ok.injEq,
    eq_comm (b := after)]

theorem perform_subroutineReturn :
    (subroutineReturn slot).perform index frame = .ok after ↔
      ∃ value, frame.locals[slot]? = some value ∧ value.kind = .returnAddress ∧ after = frame := by
  simp only [perform, except_bind_eq_ok, Frame.get_eq_ok, Value.expect_eq_ok, exists_const, pure,
    Except.pure, Except.ok.injEq, eq_comm (b := after)]

end Action
end CallProvenance
