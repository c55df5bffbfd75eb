import CallProvenance.Proofs.ActionEffects
import Mathlib.Data.Fin.SuccPred

/-! The law of execution. What an instruction takes from the stack, what it pushes or writes and where the
sources of the result come from is listed once for each effect; every execution that succeeds
keeps to the list, and leaves all else in the frame as it was. The operations that only
rearrange the stack have a law of their own. For arithmetic, conversions and accesses to arrays the kinds
follow from the number of the opcode. -/
namespace CallProvenance

inductive Making where
  /-- The instruction is the only source. -/
  | fresh
  /-- The result is a value that was there before. -/
  | moved
  /-- The result has the sources of all that was used for it. -/
  | gathered
  deriving DecidableEq, Repr

def Making.Explains (index : Nat) (used : List Value) (result : Value) : Making → Prop
  | .fresh => ∀ i, i ∈ result.sources ↔ i = index
  | .moved => used = [result]
  | .gathered => ∀ i, i ∈ result.sources ↔ ∃ value ∈ used, i ∈ value.sources

structure Profile where
  arity : Nat := 0
  /-- The kind of the value that is pushed, if there is one. -/
  result : Option Kind := none
  reads : Option Nat := none
  target : Option Nat := none
  making : Making := .gathered
  deriving DecidableEq, Repr

def Descriptor.parameterCount (descriptor : String) : Nat := (operands descriptor).toOption.elim 0 List.length

def Descriptor.returned (descriptor : String) : Option Kind := (result descriptor).toOption.join

/-- The profile of an instruction with the given effect. -/
def Effect.profile (instruction : Instruction) : Effect → Profile
  | .noop | .subroutineReturn | .shuffle _ => {}
  | .push kind => { result := some kind, making := .fresh }
  | .constant => { result := instruction.constant.toOption.map Constant.kind, making := .fresh }
  | .load kind => { result := some kind, reads := instruction.slot.toOption, making := .moved }
  | .store _ => { arity := 1, target := instruction.slot.toOption, making := .moved }
  | .increment => { reads := instruction.incremented.toOption, target := instruction.incremented.toOption }
  | .unary _ result => { arity := 1, result }
  | .binary _ _ result => { arity := 2, result }
  | .arrayStore _ => { arity := 3 }
  | .getStatic => { result := instruction.fieldKind.toOption, making := .fresh }
  | .putStatic => { arity := 1 }
  | .getField => { arity := 1, result := instruction.fieldKind.toOption, making := .fresh }
  | .putField => { arity := 2 }
  | .invoke =>
    { arity := instruction.site.toOption.elim 0 fun site =>
        Descriptor.parameterCount site.descriptor + if site.kind = .static then 0 else 1
      result := instruction.site.toOption.bind fun site => Descriptor.returned site.descriptor }
  | .invokeDynamic =>
    { arity := instruction.dynamicSite.toOption.elim 0 fun site => Descriptor.parameterCount site.descriptor
      result := instruction.dynamicSite.toOption.bind fun site => Descriptor.returned site.descriptor }
  | .checkCast => { arity := 1, result := some .reference, making := .moved }
  | .newMultiArray => { arity := instruction.dimensions.toOption.getD 0, result := some .reference }
  | .leave none => {}
  | .leave (some _) | .raise => { arity := 1 }

/-- The values that one execution takes, uses, pushes and writes. -/
structure Exchange where
  operands : List Value
  below : List Value
  read : Option Value := none
  pushed : Option Value := none
  written : Option Value := none

/-- The locals after a write: a wide value unsets the slot above its own, and a wide value whose upper half
is overwritten is unset itself. -/
structure WrittenAt (slot : Nat) (value : Value) (locals after : List Value) : Prop where
  here : after[slot]? = some value
  above : value.size = 2 → after[slot + 1]? = some .unset
  torn : ∀ i old, i + 1 = slot → locals[i]? = some old → old.size = 2 → after[i]? = some .unset
  others : ∀ i, i ≠ slot → (i = slot + 1 → value.size ≠ 2) →
    (i + 1 = slot → ∀ old, locals[i]? = some old → old.size ≠ 2) → after[i]? = locals[i]?

inductive LocalsAfter : Option Nat → Option Value → List Value → List Value → Prop where
  | kept {locals : List Value} : LocalsAfter none none locals locals
  | written {slot : Nat} {value : Value} {locals after : List Value} :
      WrittenAt slot value locals after → LocalsAfter (some slot) (some value) locals after

/-- The exchange leads from one frame to the other and keeps to the profile. -/
structure Profile.Governs (profile : Profile) (index : Nat) (frame after : Frame) (exchange : Exchange) : Prop where
  taken : frame.stack = exchange.operands ++ exchange.below
  arity : exchange.operands.length = profile.arity
  left : after.stack = exchange.pushed.toList ++ exchange.below
  kind : exchange.pushed.map (·.kind) = profile.result
  read : exchange.read.map some = profile.reads.map (frame.locals[·]?)
  locals : LocalsAfter profile.target exchange.written frame.locals after.locals
  sources : ∀ result, exchange.pushed = some result ∨ exchange.written = some result →
    profile.making.Explains index (exchange.operands ++ exchange.read.toList) result

theorem Frame.write_writtenAt {locals : List Value} {slot : Nat} {value : Value}
    (inside : slot + value.size ≤ locals.length) : WrittenAt slot value locals (write locals slot value) where
  here := by rw [getElem?_write slot inside, if_pos rfl]
  above wide := by rw [getElem?_write _ inside, if_neg (by omega), if_pos ⟨rfl, wide⟩]
  torn i old next found wide := by
    rw [getElem?_write i inside, if_neg (by omega), if_neg (by omega), if_pos next, found, Option.map_some, Value.torn,
      if_pos wide]
  others i apart upper lower := by
    rw [getElem?_write i inside, if_neg apart, if_neg fun both => upper both.1 both.2]
    split
    · rename_i next
      cases found : locals[i]? with
      | none => rfl
      | some old => rw [Option.map_some, Value.torn, if_neg (lower next old found)]
    · rfl

namespace Yield

/-- The kind of the value that is pushed after operands of the given kinds. -/
def kind? (operands : List Kind) : Yield → Option Kind
  | .nothing => none
  | .produced kind | .computed kind => some kind
  | .same => operands.head?

def making : Yield → Making
  | .produced _ => .fresh
  | .same => .moved
  | .nothing | .computed _ => .gathered

variable {yield : Yield} {index : Nat} {operands : List Value}

theorem kind_value : (yield.value index operands).map (·.kind) = yield.kind? (operands.map (·.kind)) := by
  cases yield with
  | nothing | produced | computed => rfl
  | same => exact List.head?_map.symm

/-- A value is handed on only where it is the one operand. -/
theorem explains_value {result : Value} (one : yield = .same → operands.length = 1)
    (made : yield.value index operands = some result) : yield.making.Explains index operands result := by
  cases yield with
  | nothing => cases made
  | produced kind =>
    cases made
    exact fun i => Sources.mem_single
  | computed kind =>
    cases made
    exact fun i => Value.mem_derived
  | same =>
    obtain ⟨value, rfl⟩ := List.length_eq_one_iff.1 (one rfl)
    cases made
    rfl

end Yield

theorem Making.Explains.reverse {making : Making} {index : Nat} {used : List Value} {result : Value}
    (explains : making.Explains index used.reverse result) : making.Explains index used result := by
  cases making with
  | fresh => exact explains
  | moved => exact List.reverse_eq_iff.1 explains
  | gathered => simpa [Explains] using explains

namespace Action

def profile : Action → Profile
  | .keep | .subroutineReturn _ | .shuffle _ => {}
  | .consume operands yield =>
    { arity := operands.length, result := yield.kind? operands, making := yield.making }
  | .load slot kind => { result := some kind, reads := some slot, making := .moved }
  | .store slot _ => { arity := 1, target := some slot, making := .moved }
  | .increment slot => { reads := some slot, target := some slot }

/-- The action does not rearrange the stack, and an operand that it hands on is its only one. -/
def Plain : Action → Prop
  | .shuffle _ => False
  | .consume operands yield => yield = .same → operands.length = 1
  | _ => True

variable {action : Action} {index : Nat} {frame after : Frame}

theorem consume_governs {operands : List Kind} {yield : Yield} (one : yield = .same → operands.length = 1)
    (performed : (consume operands yield).perform index frame = .ok after) :
    ∃ exchange, (consume operands yield).profile.Governs index frame after exchange := by
  obtain ⟨expected, rfl⟩ := perform_consume.1 performed
  have kinds : (frame.stack.take operands.length).reverse.map (·.kind) = operands := by
    rw [List.map_reverse, List.map_take, expected, List.reverse_reverse]
  have length : (frame.stack.take operands.length).reverse.length = operands.length := by
    simpa using congrArg List.length kinds
  -- The operands are compared in the order in which they were pushed, and lie on the stack the other way round.
  refine ⟨{ operands := frame.stack.take operands.length, below := frame.stack.drop operands.length,
            pushed := yield.value index (frame.stack.take operands.length).reverse }, ?_⟩
  constructor
  case taken => exact (List.take_append_drop ..).symm
  case arity => rw [← List.length_reverse]; exact length
  case left => rfl
  case kind => rw [Yield.kind_value, kinds]; rfl
  case read => rfl
  case locals => exact .kept
  case sources =>
    rintro result (made | impossible)
    · have explains := Yield.explains_value (fun same => length.trans (one same)) made
      simpa [profile] using explains.reverse
    · cases impossible

theorem perform_governs (plain : action.Plain) (performed : action.perform index frame = .ok after) :
    ∃ exchange, action.profile.Governs index frame after exchange := by
  cases action with
  | keep =>
    cases performed
    exact ⟨{ operands := [], below := frame.stack }, rfl, rfl, rfl, rfl, rfl, .kept, by simp⟩
  | consume operands yield => exact consume_governs plain performed
  | load slot kind =>
    obtain ⟨value, found, rfl, -, rfl⟩ := perform_load.1 performed
    refine ⟨{ operands := [], below := frame.stack, read := some value, pushed := some value },
      rfl, rfl, rfl, rfl, ?_, .kept, ?_⟩
    · simp [profile, found]
    · rintro result (same | impossible)
      · cases same
        rfl
      · cases impossible
  | store slot kind =>
    obtain ⟨value, below, stack, -, inside, rfl⟩ := perform_store.1 performed
    refine ⟨{ operands := [value], below, written := some value }, stack, rfl, rfl, rfl, rfl,
      .written (Frame.write_writtenAt inside), ?_⟩
    rintro result (impossible | same)
    · cases impossible
    · cases same
      rfl
  | increment slot =>
    obtain ⟨value, found, -, rfl⟩ := perform_increment.1 performed
    refine ⟨{ operands := [], below := frame.stack, read := some value, written := some (.derived .int [value]) },
      rfl, rfl, rfl, rfl, ?_, .written (Frame.write_writtenAt (Frame.int_fits found)), ?_⟩
    · simp [profile, found]
    · rintro result (impossible | same)
      · cases impossible
      · cases same
        exact fun i => Value.mem_derived
  | shuffle op => exact plain.elim
  | subroutineReturn slot =>
    obtain ⟨value, -, -, rfl⟩ := perform_subroutineReturn.1 performed
    exact ⟨{ operands := [], below := after.stack }, rfl, rfl, rfl, rfl, rfl, .kept, by simp⟩

end Action

namespace Instruction

variable {instruction : Instruction} {action : Action} {effect : Effect}

theorem ofResult_profile (operands : List Kind) (result : Option Kind) :
    (Action.consume operands (.ofResult result)).profile = { arity := operands.length, result } ∧
      (Action.consume operands (.ofResult result)).Plain := by
  cases result <;> exact ⟨rfl, nofun⟩

/-- The profile that the effect lists is the one of the decoded action. -/
theorem action_profile (known : instruction.effect? = some effect) (other : ∀ op, effect ≠ .shuffle op)
    (decoded : instruction.action = .ok action) : action.profile = effect.profile instruction ∧ action.Plain := by
  unfold Instruction.action at decoded
  simp only [known] at decoded
  -- What the opcode table says is not needed any more, and nothing below must evaluate it.
  clear known
  cases effect
  case shuffle op => exact absurd rfl (other op)
  case load | store | increment | subroutineReturn =>
    obtain ⟨slot, read, rest⟩ := except_bind_eq_ok.1 decoded
    cases rest
    exact ⟨by simp [Effect.profile, Action.profile, read, Except.toOption], trivial⟩
  case constant | getStatic | putStatic | getField | putField | newMultiArray =>
    obtain ⟨found, read, rest⟩ := except_bind_eq_ok.1 decoded
    cases rest
    exact ⟨by simp [Effect.profile, Action.profile, read, Except.toOption, Yield.kind?, Yield.making], nofun⟩
  case invoke =>
    obtain ⟨site, read, rest⟩ := except_bind_eq_ok.1 decoded
    obtain ⟨parameters, parsed, rest⟩ := except_bind_eq_ok.1 rest
    obtain ⟨result, parsed', rest⟩ := except_bind_eq_ok.1 rest
    cases rest
    refine ⟨?_, (ofResult_profile _ _).2⟩
    rw [(ofResult_profile _ _).1]
    by_cases static : site.kind = .static <;>
      simp [Effect.profile, read, parsed, parsed', static, Except.toOption, Descriptor.parameterCount,
        Descriptor.returned]
  case invokeDynamic =>
    obtain ⟨site, read, rest⟩ := except_bind_eq_ok.1 decoded
    obtain ⟨parameters, parsed, rest⟩ := except_bind_eq_ok.1 rest
    obtain ⟨result, parsed', rest⟩ := except_bind_eq_ok.1 rest
    cases rest
    refine ⟨?_, (ofResult_profile _ _).2⟩
    rw [(ofResult_profile _ _).1]
    simp [Effect.profile, read, parsed, parsed', Except.toOption, Descriptor.parameterCount, Descriptor.returned]
  case unary | binary =>
    cases decoded
    exact ofResult_profile _ _
  case checkCast =>
    cases decoded
    exact ⟨rfl, fun _ => rfl⟩
  case leave value =>
    cases value with
    | none =>
      cases decoded
      exact ⟨rfl, trivial⟩
    | some kind =>
      cases decoded
      exact ⟨rfl, nofun⟩
  case noop =>
    cases decoded
    exact ⟨rfl, trivial⟩
  case push | arrayStore | raise =>
    cases decoded
    exact ⟨rfl, nofun⟩

/-- An instruction that does more than to rearrange the stack keeps to its profile whenever it executes: it
takes its operands, pushes at most one value and leaves the entries below alone, writes at most
one slot, and the sources of the result arise as the profile says. -/
theorem execute_keeps_to_profile {index : Nat} {frame after : Frame}
    (executed : instruction.execute index frame = .ok after) (other : ∀ op, instruction.effect? ≠ some (.shuffle op)) :
    ∃ effect exchange, instruction.effect? = some effect ∧
      (effect.profile instruction).Governs index frame after exchange := by
  rw [execute_eq] at executed
  obtain ⟨action, decoded, performed⟩ := except_bind_eq_ok.1 executed
  obtain ⟨effect, known, -⟩ := action_eq_ok decoded
  have apart : ∀ op, effect ≠ .shuffle op := fun op same => other op (same ▸ known)
  obtain ⟨same, plain⟩ := action_profile known apart decoded
  obtain ⟨exchange, governs⟩ := action.perform_governs plain performed
  exact ⟨effect, exchange, known, same ▸ governs⟩

def calling : Instruction := ⟨7, 0xb6, .invoke ⟨"Counter", "advance", "(JI)J", .virtual⟩⟩

def callingFrame : Frame where
  locals := [.unknown .reference]
  stack := [.producedBy .int 4, .derived .long [.producedBy .long 1, .producedBy .long 3], .producedBy .reference 0]

theorem execute_keeps_to_profile_calling :
    ∃ after exchange, calling.execute 5 callingFrame = .ok after ∧
      (Effect.invoke.profile calling).Governs 5 callingFrame after exchange ∧
      exchange.operands = callingFrame.stack ∧ ∃ result, exchange.pushed = some result ∧ result.kind = .long ∧
        ∀ i, i ∈ result.sources ↔ i = 0 ∨ i = 1 ∨ i = 3 ∨ i = 4 := by
  have accepted : (calling.execute 5 callingFrame).toOption.isSome = true := by decide +kernel
  have called : calling.effect? = some .invoke := by decide +kernel
  have profile : Effect.invoke.profile calling = { arity := 3, result := some .long } := by decide +kernel
  obtain ⟨after, executed⟩ : ∃ after, calling.execute 5 callingFrame = .ok after := by
    cases run : calling.execute 5 callingFrame with
    | error cause => simp [run, Except.toOption] at accepted
    | ok after => exact ⟨after, rfl⟩
  obtain ⟨effect, exchange, known, governs⟩ := execute_keeps_to_profile executed (by simp [called])
  obtain rfl : .invoke = effect := by simpa [called] using known
  refine ⟨after, exchange, executed, governs, ?_⟩
  rw [profile] at governs
  have operands : exchange.operands = callingFrame.stack := by
    have all := congrArg (List.take 3) governs.taken
    rw [List.take_left' governs.arity] at all
    exact all.symm
  obtain ⟨result, pushed, kind⟩ := Option.map_eq_some_iff.1 governs.kind
  have read : exchange.read = none := by simpa using governs.read
  have sources := governs.sources result (.inl pushed)
  refine ⟨operands, result, pushed, kind, fun i => (sources i).trans ?_⟩
  simp only [operands, read, Option.toList_none, List.append_nil, callingFrame]
  simp [Value.mem_derived, Value.producedBy]
  omega

end Instruction

/-- What an effect takes and gives that depends on nothing but the opcode. -/
def Effect.consumption? : Effect → Option (List Kind × Option Kind)
  | .unary operand result => some ([operand], result)
  | .binary left right result => some ([left, right], result)
  | .arrayStore element => some ([.reference, .int, element], none)
  | _ => none

theorem Instruction.action_of_consumption {instruction : Instruction} {effect : Effect} {operands : List Kind}
    {result : Option Kind} (known : instruction.effect? = some effect)
    (consumes : effect.consumption? = some (operands, result)) :
    instruction.action = .ok (.consume operands (.ofResult result)) := by
  unfold Instruction.action
  simp only [known]
  clear known
  cases effect with
  | unary | binary | arrayStore =>
    cases consumes
    rfl
  | _ => cases consumes

/-- The instructions that compute with numbers or access the elements of arrays. -/
inductive Computation where
  /-- Addition, subtraction, multiplication, division and remainder. -/
  | arithmetic (operation : Fin 5) (number : Fin 4)
  | negation (number : Fin 4)
  /-- Shifts to the left, to the right, and to the right without regard to the sign. -/
  | shift (operation : Fin 3) (long : Bool)
  /-- Conjunction, disjunction and exclusive disjunction. -/
  | bitwise (operation : Fin 3) (long : Bool)
  | conversion (number : Fin 4) (other : Fin 3)
  /-- To a byte, a character or a short. -/
  | narrowing (target : Fin 3)
  | longComparison
  /-- The two that there are differ in what they make of values which are not numbers. -/
  | comparison (double greater : Bool)
  | elementLoad (element : Fin 8)
  | elementStore (element : Fin 8)
  deriving DecidableEq, Repr

namespace Computation

def number : Fin 4 → Kind
  | 0 => .int
  | 1 => .long
  | 2 => .float
  | 3 => .double

def integer (long : Bool) : Kind := if long then .long else .int

/-- The kinds of array elements in the order of their opcodes; bytes, characters and shorts come last. -/
def element (i : Fin 8) : Kind :=
  if small : i < 4 then number (i.castLT small) else if i = 4 then .reference else .int

def opcode : Computation → UInt8
  | arithmetic operation number => .ofNat (0x60 + 4 * operation + number)
  | negation number => .ofNat (0x74 + number)
  | shift operation long => .ofNat (0x78 + 2 * operation + long.toNat)
  | bitwise operation long => .ofNat (0x7e + 2 * operation + long.toNat)
  | conversion number other => .ofNat (0x85 + 3 * number + other)
  | narrowing target => .ofNat (0x91 + target)
  | longComparison => 0x94
  | comparison double greater => .ofNat (0x95 + 2 * double.toNat + greater.toNat)
  | elementLoad element => .ofNat (0x2e + element)
  | elementStore element => .ofNat (0x4f + element)

def operands : Computation → List Kind
  | arithmetic _ i => [number i, number i]
  | negation i | conversion i _ => [number i]
  | shift _ long => [integer long, .int]
  | bitwise _ long => [integer long, integer long]
  | narrowing _ => [.int]
  | longComparison => [.long, .long]
  | comparison double _ => if double then [.double, .double] else [.float, .float]
  | elementLoad _ => [.reference, .int]
  | elementStore i => [.reference, .int, element i]

def result : Computation → Option Kind
  | arithmetic _ i | negation i => some (number i)
  | shift _ long | bitwise _ long => some (integer long)
  | conversion i other => some (number (i.succAbove other))
  | narrowing _ | longComparison | comparison _ _ => some .int
  | elementLoad i => some (element i)
  | elementStore _ => none

theorem consumption (computation : Computation) :
    (Opcode.effect? computation.opcode).bind Effect.consumption? = some (computation.operands, computation.result) := by
  cases computation with
  | arithmetic operation number =>
    revert operation number
    decide +kernel
  | negation number =>
    revert number
    decide +kernel
  | shift operation long | bitwise operation long =>
    revert operation long
    decide +kernel
  | conversion number other =>
    revert number other
    decide +kernel
  | narrowing target =>
    revert target
    decide +kernel
  | longComparison => decide +kernel
  | comparison double greater =>
    revert double greater
    decide +kernel
  | elementLoad element | elementStore element =>
    revert element
    decide +kernel

/-- Numbers and array elements are computed exactly from operands of the kinds that the opcode names, and the result has
the kind that it names and the sources of all operands. -/
theorem execute_eq_ok (computation : Computation) {instruction : Instruction} {index : Nat} {frame after : Frame}
    (coded : instruction.opcode = computation.opcode) :
    instruction.execute index frame = .ok after ↔
      ∃ taken below, frame.stack = taken ++ below ∧ taken.reverse.map (·.kind) = computation.operands ∧
        after = ⟨frame.locals, (Value.computed computation.result taken.reverse).toList ++ below⟩ := by
  obtain ⟨effect, known, consumes⟩ := Option.bind_eq_some_iff.1 computation.consumption
  rw [← coded] at known
  have made (values : List Value) :
      (Yield.ofResult computation.result).value index values = Value.computed computation.result values := by
    cases computation.result <;> rfl
  rw [Instruction.execute_eq, Instruction.action_of_consumption known consumes, ok_bind, Action.perform_consume, made]
  constructor
  · rintro ⟨kinds, rfl⟩
    refine ⟨_, _, (List.take_append_drop computation.operands.length _).symm, ?_, rfl⟩
    rw [List.map_reverse, List.map_take, kinds, List.reverse_reverse]
  · rintro ⟨taken, below, stack, kinds, rfl⟩
    have length : computation.operands.length = taken.length := by
      rw [← kinds, List.length_map, List.length_reverse]
    rw [stack, length, List.map_append, List.take_left' (List.length_map ..), List.take_left, List.drop_left]
    refine ⟨?_, rfl⟩
    rw [← kinds, List.map_reverse, List.reverse_reverse]

end Computation
end CallProvenance
