import CallProvenance.Proofs.Order
import CallProvenance.Proofs.Origins

/-! What every action keeps: the number of slots, a bound on the growth of the stack, readable stack
entries, and the provenance of sources. -/
namespace CallProvenance

namespace Value

theorem mem_derived {kind : Kind} {operands : List Value} {i : Nat} :
    i ∈ (derived kind operands).sources ↔ ∃ v ∈ operands, i ∈ v.sources := by
  simp [derived]

theorem not_mem_unset {i : Nat} : i ∉ unset.sources := Sources.not_mem_empty

theorem mem_torn {v : Value} {i : Nat} (source : i ∈ v.torn.sources) : i ∈ v.sources := by
  unfold torn at source
  split at source
  · exact absurd source not_mem_unset
  · exact source

end Value

/-- A value has the sources of values that were there before, or it was just produced. -/
theorem Origin.mem_value {origin : Origin} {index i : Nat} {frame : Frame} {v : Value}
    (made : origin.value index frame = some v) (source : i ∈ v.sources) :
    (∃ w ∈ frame.values, i ∈ w.sources) ∨ (i = index ∧ ∃ kind, origin = .produced kind) := by
  cases origin with
  | moved position => exact .inl ⟨v, Frame.mem_values_iff.2 ⟨position, made⟩, source⟩
  | torn position =>
    obtain ⟨w, found, rfl⟩ := Option.map_eq_some_iff.1 made
    exact .inl ⟨w, Frame.mem_values_iff.2 ⟨position, found⟩, Value.mem_torn source⟩
  | unset =>
    cases made
    exact absurd source Value.not_mem_unset
  | produced kind =>
    cases made
    exact .inr ⟨Sources.mem_single.1 source, kind, rfl⟩
  | derived kind positions =>
    cases made
    obtain ⟨w, operand, source⟩ := Value.mem_derived.1 source
    obtain ⟨position, -, found⟩ := List.mem_filterMap.1 operand
    exact .inl ⟨w, Frame.mem_values_iff.2 ⟨position, found⟩, source⟩

namespace Yield

theorem length_value (index : Nat) (operands : List Value) (yield : Yield) :
    (yield.value index operands).toList.length ≤ 1 := by
  cases yield.value index operands <;> simp

/-- The yield makes the instruction a source. -/
def produces : Yield → Bool
  | .produced _ => true
  | _ => false

def Readable : Yield → Prop
  | .produced kind | .computed kind => kind ≠ .uninitialized
  | _ => True

theorem value_readable {index : Nat} {operands : List Value} {yield : Yield} {v : Value}
    (readable : yield.Readable) (operands_readable : ∀ w ∈ operands, w.kind ≠ .uninitialized)
    (member : v ∈ (yield.value index operands).toList) : v.kind ≠ .uninitialized := by
  cases yield with
  | nothing => simp [value] at member
  | produced kind =>
    obtain rfl : v = .producedBy kind index := by simpa [value, eq_comm] using member
    exact readable
  | computed kind =>
    obtain rfl : v = .derived kind operands := by simpa [value, eq_comm] using member
    exact readable
  | same => exact operands_readable v (List.mem_of_mem_head? (by simpa [value] using member))

end Yield

namespace Action

variable {action : Action} {index : Nat} {frame after : Frame}

def produces : Action → Bool
  | .consume _ yield => yield.produces
  | _ => false

def Readable : Action → Prop
  | .consume _ yield => yield.Readable
  | _ => True

theorem perform_count (performed : action.perform index frame = .ok after) :
    after.locals.length = frame.locals.length := by
  cases action with
  | keep => cases performed; rfl
  | consume => obtain ⟨-, rfl⟩ := perform_consume.1 performed; rfl
  | load => obtain ⟨_, -, -, -, rfl⟩ := perform_load.1 performed; rfl
  | store => obtain ⟨_, _, -, -, -, rfl⟩ := perform_store.1 performed; simp
  | increment => obtain ⟨_, -, -, rfl⟩ := perform_increment.1 performed; simp
  | shuffle => obtain ⟨_, -, rfl⟩ := perform_shuffle.1 performed; rfl
  | subroutineReturn => obtain ⟨_, -, -, rfl⟩ := perform_subroutineReturn.1 performed; rfl

theorem perform_height (performed : action.perform index frame = .ok after) :
    after.stack.length ≤ frame.stack.length + 2 := by
  cases action with
  | keep => cases performed; omega
  | consume operands yield =>
    obtain ⟨-, rfl⟩ := perform_consume.1 performed
    have := yield.length_value index (frame.stack.take operands.length).reverse
    simp only [List.length_append, List.length_drop]
    omega
  | load => obtain ⟨_, -, -, -, rfl⟩ := perform_load.1 performed; simp
  | store => obtain ⟨_, _, stack, -, -, rfl⟩ := perform_store.1 performed; simp [stack]; omega
  | increment => obtain ⟨_, -, -, rfl⟩ := perform_increment.1 performed; simp
  | shuffle =>
    obtain ⟨_, applied, rfl⟩ := perform_shuffle.1 performed
    exact StackOp.length_apply applied
  | subroutineReturn => obtain ⟨_, -, -, rfl⟩ := perform_subroutineReturn.1 performed; omega

/-- Only a producing action makes a source, and values are computed from operands and from the slot
that the action reads. -/
def Allows (action : Action) : Origin → Prop
  | .produced _ => action.produces = true
  | .derived _ positions => ∀ used ∈ positions, (∃ depth, used = .operand depth) ∨
      ∃ slot kind, action.reads = some (slot, kind) ∧ used = .slot slot
  | _ => True

theorem allows_origin (action : Action) (kinds : List Kind) (position : Position) :
    action.Allows (action.origin kinds position) := by
  cases action with
  | consume operands yield =>
    cases yield <;> rcases position with _ | _ | _ <;> first | trivial | rfl | skip
    intro used listed
    obtain ⟨depth, -, rfl⟩ := List.mem_map.1 listed
    exact .inl ⟨depth, rfl⟩
  | keep | shuffle | subroutineReturn => cases position <;> trivial
  | load => rcases position with _ | _ | _ <;> trivial
  | store slot kind =>
    cases position with
    | operand => trivial
    | slot i =>
      simp only [origin, Origin.written]
      split_ifs <;> trivial
  | increment slot =>
    cases position with
    | operand => trivial
    | slot i =>
      simp only [origin, Origin.written]
      split_ifs
      · intro used listed
        exact .inr ⟨slot, .int, rfl, List.mem_singleton.1 listed⟩
      all_goals trivial

/-- A source after an action was there before, or is the instruction itself. -/
theorem perform_sources (performed : action.perform index frame = .ok after) {v : Value} {i : Nat}
    (member : v ∈ after.values) (source : i ∈ v.sources) :
    (∃ w ∈ frame.values, i ∈ w.sources) ∨ (i = index ∧ action.produces = true) := by
  obtain ⟨position, found⟩ := Frame.mem_values_iff.1 member
  rw [perform_at? performed] at found
  refine (Origin.mem_value found source).imp_right ?_
  rintro ⟨here, kind, made⟩
  have allowed := action.allows_origin (frame.stack.map (·.kind)) position
  rw [made] at allowed
  exact ⟨here, allowed⟩

theorem perform_readable (readable : action.Readable) (performed : action.perform index frame = .ok after)
    (before : ∀ v ∈ frame.stack, v.kind ≠ .uninitialized) : ∀ v ∈ after.stack, v.kind ≠ .uninitialized := by
  intro v member
  cases action with
  | keep => cases performed; exact before v member
  | consume operands yield =>
    obtain ⟨-, rfl⟩ := perform_consume.1 performed
    rcases List.mem_append.1 member with pushed | kept
    · refine Yield.value_readable readable (fun w taken => before w ?_) pushed
      exact List.mem_of_mem_take (List.mem_reverse.1 taken)
    · exact before v (List.mem_of_mem_drop kept)
  | load slot kind =>
    obtain ⟨value, found, same, set, rfl⟩ := perform_load.1 performed
    rcases List.mem_cons.1 member with rfl | kept
    · exact same ▸ set
    · exact before v kept
  | store slot kind =>
    obtain ⟨value, below, stack, -, -, rfl⟩ := perform_store.1 performed
    exact before v (by simp [stack, show v ∈ below from member])
  | increment slot =>
    obtain ⟨value, -, -, rfl⟩ := perform_increment.1 performed
    exact before v member
  | shuffle op =>
    obtain ⟨stack, applied, rfl⟩ := perform_shuffle.1 performed
    exact before v (StackOp.mem_of_apply applied member)
  | subroutineReturn slot =>
    obtain ⟨value, -, -, rfl⟩ := perform_subroutineReturn.1 performed
    exact before v member

end Action

theorem TypeDescriptor.kind_readable (type : TypeDescriptor) : type.kind ≠ .uninitialized := by
  cases type <;> simp [kind]

theorem Constant.kind_readable (value : Constant) : value.kind ≠ .uninitialized := by
  cases value <;> simp [kind]

namespace Effect

def produces : Effect → Bool
  | .push _ | .constant | .getStatic | .getField => true
  | _ => false

def readable : Effect → Bool
  | .push kind | .unary _ (some kind) | .binary _ _ (some kind) => kind ≠ .uninitialized
  | _ => true

end Effect

theorem Opcode.effect_readable {opcode : UInt8} {effect : Effect} (found : effect? opcode = some effect) :
    effect.readable = true := by
  have all : ∀ info ∈ table.toList, info.effect.all (·.readable) = true := by decide +kernel
  obtain ⟨info, listed, has⟩ := Option.bind_eq_some_iff.1 found
  have member : info ∈ table.toList := Array.mem_toList_iff.2 (Array.mem_of_getElem? listed)
  simpa [has] using all info member

theorem Descriptor.fieldKind_readable {descriptor : String} {kind : Kind}
    (parsed : fieldKind descriptor = .ok kind) : kind ≠ .uninitialized := by
  unfold fieldKind at parsed
  split at parsed
  · cases parsed
  · cases parsed
  · cases parsed
    exact TypeDescriptor.kind_readable _

theorem Descriptor.result_readable {descriptor : String} {kind : Kind}
    (parsed : result descriptor = .ok (some kind)) : kind ≠ .uninitialized := by
  unfold result resultKind at parsed
  cases parsed_method : method descriptor with
  | error => simp [parsed_method, Except.map, Except.mapError] at parsed
  | ok parsed_descriptor =>
    simp only [parsed_method, Except.map, Except.mapError, Except.ok.injEq] at parsed
    split at parsed
    · cases parsed
    · cases parsed
      exact TypeDescriptor.kind_readable _

namespace Instruction

variable {instruction : Instruction} {action : Action}

theorem fieldKind_readable {kind : Kind} (decoded : instruction.fieldKind = .ok kind) :
    kind ≠ .uninitialized := by
  unfold fieldKind at decoded
  split at decoded
  · rename_i ref _
    cases parsed : Descriptor.fieldKind ref.descriptor with
    | error => simp [parsed, Except.mapError] at decoded
    | ok =>
      simp only [parsed, Except.mapError, Except.ok.injEq] at decoded
      exact decoded ▸ Descriptor.fieldKind_readable parsed
  · cases decoded

theorem ofResult_readable {result : Option Kind}
    (readable : ∀ kind, result = some kind → kind ≠ .uninitialized) : (Yield.ofResult result).Readable := by
  cases result with
  | none => trivial
  | some kind => exact readable kind rfl

theorem ofResult_produces (result : Option Kind) : (Yield.ofResult result).produces = false := by
  cases result <;> rfl

/-- A decoded action pushes nothing unreadable of its own making, and only the effects that stand for
a source make a source. -/
theorem action_eq_ok (decoded : instruction.action = .ok action) :
    ∃ effect, instruction.effect? = some effect ∧ action.Readable ∧
      (action.produces = true → effect.produces = true) := by
  unfold Instruction.action at decoded
  cases found : instruction.effect? with
  | none => simp [found] at decoded
  | some effect =>
    refine ⟨effect, rfl, ?_⟩
    have listed := Opcode.effect_readable found
    have computed {result : Option Kind} (readable : ∀ kind, result = some kind → kind ≠ .uninitialized) :
        (Yield.ofResult result).Readable ∧ ((Yield.ofResult result).produces = true → effect.produces = true) :=
      ⟨ofResult_readable readable, by simp [ofResult_produces]⟩
    cases effect <;> simp only [found] at decoded
    case push kind =>
      cases decoded
      have readable : kind ≠ .uninitialized := by simpa [Effect.readable] using listed
      exact ⟨readable, fun _ => rfl⟩
    case constant =>
      obtain ⟨value, -, rest⟩ := except_bind_eq_ok.1 decoded
      cases rest
      exact ⟨value.kind_readable, fun _ => rfl⟩
    case getStatic | getField =>
      obtain ⟨kind, field, rest⟩ := except_bind_eq_ok.1 decoded
      cases rest
      exact ⟨fieldKind_readable field, fun _ => rfl⟩
    case unary operand result | binary left right result =>
      cases decoded
      refine computed fun kind same => ?_
      subst same
      simpa [Effect.readable] using listed
    case invoke | invokeDynamic =>
      obtain ⟨site, -, rest⟩ := except_bind_eq_ok.1 decoded
      obtain ⟨parameters, -, rest⟩ := except_bind_eq_ok.1 rest
      obtain ⟨result, parsed, rest⟩ := except_bind_eq_ok.1 rest
      cases rest
      exact computed fun kind same => Descriptor.result_readable (same ▸ parsed)
    case newMultiArray =>
      obtain ⟨count, -, rest⟩ := except_bind_eq_ok.1 decoded
      cases rest
      exact ⟨by simp [Action.Readable, Yield.Readable], nofun⟩
    case load | store | increment | putStatic | putField | subroutineReturn =>
      obtain ⟨_, -, rest⟩ := except_bind_eq_ok.1 decoded
      cases rest
      exact ⟨trivial, nofun⟩
    case leave value => cases value <;> cases decoded <;> exact ⟨trivial, nofun⟩
    all_goals
      cases decoded
      exact ⟨trivial, nofun⟩

end Instruction
end CallProvenance
