import CallProvenance.Proofs.ArisingFrames
import CallProvenance.Proofs.StepFailures

/-! Local slots are always in range. The frame at entry is sized by the slots that the operands of all
instructions name, and execution goes by the kinds of values; the two agree for every opcode and
operand, and no step changes the number of slots. -/
namespace CallProvenance

/-- A slot that does not exist, or frames with different numbers of slots, wherever it was found. -/
def Inconsistency.isSlotFault : Inconsistency → Bool
  | .slotOutOfRange _ _ | .localCountMismatch _ _ => true
  | .located _ _ cause => cause.isSlotFault
  | _ => false

theorem Inconsistency.isSlotFault_spares : SparesOperands isSlotFault :=
  ⟨rfl, fun _ => rfl, fun _ _ => rfl, fun _ => rfl⟩

/-- The frames cannot be told apart by their stacks, the number of their slots, or the given slots. -/
structure Frame.AgreeAt (slots : List Nat) (frame other : Frame) : Prop where
  stack : other.stack = frame.stack
  count : other.locals.length = frame.locals.length
  locals : ∀ i ∈ slots, other.locals[i]? = frame.locals[i]?

/-- Both results are the same failure, or frames that agree on the given slots. -/
inductive Frame.AgreeingResults (slots : List Nat) : Except Inconsistency Frame → Except Inconsistency Frame → Prop where
  | failure (cause : Inconsistency) : AgreeingResults slots (.error cause) (.error cause)
  | success {after after' : Frame} : AgreeAt slots after after' → AgreeingResults slots (.ok after) (.ok after')

namespace Frame

variable {slots : List Nat} {frame other : Frame} {slot : Nat}

theorem AgreeingResults.bind {α : Type} {first : Except Inconsistency α} {rest rest' : α → Except Inconsistency Frame}
    (next : ∀ value, first = .ok value → AgreeingResults slots (rest value) (rest' value)) :
    AgreeingResults slots (first >>= rest) (first >>= rest') := by
  cases first with
  | error cause => exact .failure cause
  | ok value => exact next value rfl

theorem AgreeAt.get (agree : AgreeAt slots frame other) (member : slot ∈ slots) : other.get slot = frame.get slot := by
  simp only [Frame.get, agree.locals slot member, agree.count]

theorem AgreeAt.set (agree : AgreeAt slots frame other) (value : Value) :
    AgreeingResults slots (frame.set slot value) (other.set slot value) := by
  unfold Frame.set
  rw [agree.count]
  split
  · exact .failure _
  · rename_i fits
    refine .success ⟨agree.stack, by simp [agree.count], ?_⟩
    intro i member
    have inside : slot + value.size ≤ frame.locals.length := by omega
    have inside' : slot + value.size ≤ other.locals.length := by rw [agree.count]; exact inside
    rw [getElem?_write i inside, getElem?_write i inside', agree.locals i member]

theorem AgreeAt.apply (agree : AgreeAt slots frame other) (operands : List Kind) (result : List Value → Option Value) :
    AgreeingResults slots (frame.apply operands result) (other.apply operands result) := by
  unfold Frame.apply popN
  rw [agree.stack]
  split
  · exact .failure _
  · refine @AgreeingResults.bind slots Unit (Value.expectAll _ operands) _ _ fun _ _ => .success ?_
    cases result (frame.stack.take operands.length).reverse with
    | none => exact ⟨rfl, agree.count, agree.locals⟩
    | some value => exact ⟨rfl, agree.count, agree.locals⟩

end Frame

namespace Action

variable {action : Action} {index : Nat} {frame other after : Frame}

/-- What an action does is decided by the stack and the slots that it touches. -/
theorem perform_agrees (agree : frame.AgreeAt action.slots other) :
    Frame.AgreeingResults action.slots (action.perform index frame) (action.perform index other) := by
  cases action with
  | keep => exact .success agree
  | consume operands yield => exact agree.apply operands fun values => yield.value index values
  | load slot kind =>
    have positive := kind.size_pos
    have here : slot ∈ (load slot kind).slots := mem_loadSlots.2 (by omega)
    simp only [perform, agree.get here]
    refine .bind fun value _ => ?_
    split
    · exact .failure _
    · exact .bind fun _ _ => .success ⟨by simp [Frame.push, agree.stack], agree.count, agree.locals⟩
  | store slot kind =>
    simp only [perform, Frame.pop, agree.stack]
    cases frame.stack with
    | nil => exact .failure _
    | cons value below =>
      have agree' : Frame.AgreeAt (store slot kind).slots { frame with stack := below } { other with stack := below } :=
        ⟨rfl, agree.count, agree.locals⟩
      exact Frame.AgreeingResults.bind fun _ _ => agree'.set value
  | increment slot =>
    have here : slot ∈ (increment slot).slots := mem_storeSlots.2 (by simp [Kind.size])
    simp only [perform, agree.get here]
    exact .bind fun value _ => .bind fun _ _ => agree.set _
  | shuffle op =>
    simp only [perform, Frame.shuffle, agree.stack]
    exact .bind fun stack _ => .success ⟨rfl, agree.count, agree.locals⟩
  | subroutineReturn slot =>
    simp only [perform, agree.get (List.mem_singleton.2 rfl)]
    exact .bind fun value _ => .bind fun _ _ => .success agree

theorem write_outside {locals : List Value} {slot i : Nat} {kind : Kind} {value : Value} (size : value.size = kind.size)
    (inside : slot + value.size ≤ locals.length) (outside : i ∉ storeSlots slot kind) :
    (Frame.write locals slot value)[i]? = locals[i]? := by
  have positive := kind.size_pos
  have apart : ¬ (slot ≤ i + 1 ∧ i < slot + kind.size) := fun here => outside (mem_storeSlots.2 here)
  rw [Frame.getElem?_write i inside, if_neg (by omega), if_neg (by omega), if_neg (by omega)]

/-- Slots that an action does not touch are left as they are. -/
theorem perform_outside (performed : action.perform index frame = .ok after) {i : Nat} (outside : i ∉ action.slots) :
    after.locals[i]? = frame.locals[i]? := by
  cases action with
  | keep => cases performed; rfl
  | consume => obtain ⟨-, rfl⟩ := perform_consume.1 performed; rfl
  | load => obtain ⟨_, -, -, -, rfl⟩ := perform_load.1 performed; rfl
  | store slot kind =>
    obtain ⟨value, _, -, same, inside, rfl⟩ := perform_store.1 performed
    exact write_outside (size_of_stored same) inside outside
  | increment slot =>
    obtain ⟨value, found, -, rfl⟩ := perform_increment.1 performed
    exact write_outside rfl (Frame.int_fits found) outside
  | shuffle => obtain ⟨_, -, rfl⟩ := perform_shuffle.1 performed; rfl
  | subroutineReturn => obtain ⟨_, -, -, rfl⟩ := perform_subroutineReturn.1 performed; rfl

end Action

namespace Opcode

variable {opcode : UInt8} {kind : Kind}

theorem slotWidth_load (listed : effect? opcode = some (.load kind)) : slotWidth opcode = kind.size := by
  unfold slotWidth
  simp only [listed]

theorem slotWidth_store (listed : effect? opcode = some (.store kind)) : slotWidth opcode = kind.size := by
  unfold slotWidth
  simp only [listed]

theorem slotWidth_pos (opcode : UInt8) : 0 < slotWidth opcode := by
  unfold slotWidth
  split
  · exact Kind.size_pos _
  · exact Kind.size_pos _
  · exact Nat.one_pos

end Opcode

namespace Instruction

variable {instruction : Instruction} {action : Action}

/-- The slots that an instruction looks at or changes. -/
def slots (instruction : Instruction) : List Nat := instruction.action.toOption.elim [] Action.slots

/-- How many slots there must be for the operand. -/
def slotEnd (instruction : Instruction) : Nat :=
  match instruction.operand with
  | .slot slot => slot + Opcode.slotWidth instruction.opcode
  | .increment slot => slot + 1
  | _ => 0

theorem slots_eq (decoded : instruction.action = .ok action) : instruction.slots = action.slots := by
  simp [slots, decoded, Except.toOption]

theorem slotEnd_slot {slot : Nat} (named : instruction.slot = .ok slot) :
    instruction.slotEnd = slot + Opcode.slotWidth instruction.opcode := by
  unfold Instruction.slot at named
  split at named
  · rename_i operand
    cases named
    simp only [slotEnd, operand]
  · cases named

theorem slotEnd_incremented {slot : Nat} (named : instruction.incremented = .ok slot) :
    instruction.slotEnd = slot + 1 := by
  unfold incremented at named
  split at named
  · rename_i operand
    cases named
    simp only [slotEnd, operand]
  · cases named

/-- The kinds that decide what execution touches fit into the width of the opcode. -/
theorem action_slots_lt (decoded : instruction.action = .ok action) : ∀ i ∈ action.slots, i < instruction.slotEnd := by
  unfold Instruction.action at decoded
  intro i member
  cases known : instruction.effect? with
  | none => simp [known] at decoded
  | some effect =>
    have listed : Opcode.effect? instruction.opcode = some effect := known
    cases effect <;> simp only [known] at decoded
    case load kind =>
      obtain ⟨slot, named, rest⟩ := except_bind_eq_ok.1 decoded
      cases rest
      rw [slotEnd_slot named, Opcode.slotWidth_load listed]
      exact (Action.mem_loadSlots.1 member).2
    case store kind =>
      obtain ⟨slot, named, rest⟩ := except_bind_eq_ok.1 decoded
      cases rest
      rw [slotEnd_slot named, Opcode.slotWidth_store listed]
      exact (Action.mem_storeSlots.1 member).2
    case increment =>
      obtain ⟨slot, named, rest⟩ := except_bind_eq_ok.1 decoded
      cases rest
      rw [slotEnd_incremented named]
      exact (Action.mem_storeSlots.1 member).2
    case subroutineReturn =>
      obtain ⟨slot, named, rest⟩ := except_bind_eq_ok.1 decoded
      cases rest
      rw [slotEnd_slot named, List.mem_singleton.1 member]
      have := Opcode.slotWidth_pos instruction.opcode
      omega
    case leave value =>
      cases value <;> (cases decoded; simp [Action.slots] at member)
    case invoke | invokeDynamic =>
      obtain ⟨site, -, rest⟩ := except_bind_eq_ok.1 decoded
      obtain ⟨parameters, -, rest⟩ := except_bind_eq_ok.1 rest
      obtain ⟨result, -, rest⟩ := except_bind_eq_ok.1 rest
      cases rest
      simp [Action.slots] at member
    case constant | getStatic | putStatic | getField | putField | newMultiArray =>
      obtain ⟨_, -, rest⟩ := except_bind_eq_ok.1 decoded
      cases rest
      simp [Action.slots] at member
    all_goals
      cases decoded
      simp [Action.slots] at member

theorem avoids_execute {index : Nat} {frame : Frame} (inside : ∀ i ∈ instruction.slots, i < frame.locals.length) :
    Avoids Inconsistency.isSlotFault (instruction.execute index frame) := by
  rw [execute_eq]
  refine (avoids_action rfl rfl fun _ _ => rfl).bind fun action decoded => ?_
  rw [slots_eq decoded] at inside
  exact action.avoids_perform Inconsistency.isSlotFault_spares frame index (.inl inside)

end Instruction

namespace Method

variable {method : Method} {instruction : Instruction} {point : Nat} {frame : Frame}

theorem usedSlots_eq (method : Method) :
    method.usedSlots = method.code.foldl (fun used instruction => max used instruction.slotEnd) 0 := by
  unfold usedSlots
  congr 1
  funext used instruction
  unfold Instruction.slotEnd
  cases instruction.operand <;> simp

theorem slotEnd_le_foldl (code : List Instruction) (used : Nat) :
    used ≤ code.foldl (fun used instruction => max used instruction.slotEnd) used ∧
      ∀ instruction ∈ code, instruction.slotEnd ≤ code.foldl (fun used instruction => max used instruction.slotEnd) used := by
  induction code generalizing used with
  | nil => simp
  | cons first rest ih =>
    obtain ⟨start, each⟩ := ih (max used first.slotEnd)
    rw [List.foldl_cons]
    refine ⟨le_trans (le_max_left _ _) start, ?_⟩
    intro instruction member
    rcases List.mem_cons.1 member with rfl | later
    · exact le_trans (le_max_right _ _) start
    · exact each instruction later

theorem slotEnd_le_entryLocals {locals : List Value} (made : method.entryLocals = .ok locals)
    (member : instruction ∈ method.code) : instruction.slotEnd ≤ locals.length := by
  have named : instruction.slotEnd ≤ method.usedSlots := by
    rw [usedSlots_eq]
    exact (slotEnd_le_foldl method.code 0).2 instruction member
  obtain ⟨parameters, -, rest⟩ := except_bind_eq_ok.1 made
  cases rest
  rw [List.length_append, List.length_replicate]
  omega

theorem Arises.slots_lt (arises : method.Arises point frame) (member : instruction ∈ method.code) :
    ∀ i ∈ instruction.slots, i < frame.locals.length := by
  intro i touched
  obtain ⟨locals, made, count⟩ := arises.count
  cases decoded : instruction.action with
  | error cause => simp [Instruction.slots, decoded, Except.toOption] at touched
  | ok action =>
    rw [Instruction.slots_eq decoded] at touched
    have named := Instruction.action_slots_lt decoded i touched
    have room := slotEnd_le_entryLocals made member
    omega

end Method

theorem Frame.avoids_merge {current incoming : Frame} {history : History}
    (same : current.locals.length = incoming.locals.length) :
    Avoids Inconsistency.isSlotFault (current.merge incoming history) := by
  unfold merge
  rw [if_neg (not_not.2 same)]
  exact .ite (.error rfl) (.ite (.ok _) (.ok _))

theorem FlowGraph.merge_slotFault {current incoming : Frame} {notes notes' : SimulationNotes} {cause : Inconsistency}
    (same : current.locals.length = incoming.locals.length)
    (failed : merge current incoming notes = .error cause notes') : cause.isSlotFault = false := by
  obtain ⟨history, inner⟩ := merge_failed failed
  exact Frame.avoids_merge same cause inner

theorem Method.simulate_slotFault {method : Method} {cause : Inconsistency} (failed : method.simulate = .error cause) :
    cause.isSlotFault = false := by
  rcases simulate_eq_error failed with unbuilt | ⟨graph, built, unmade |
    ⟨point, frame, s, s', arises, sent⟩ | ⟨point, current, incoming, s, s', arises, arises', merged⟩⟩
  · exact FlowGraph.avoids_ofMethod method (fun _ => rfl) cause unbuilt
  · have parsed : Avoids Inconsistency.isSlotFault method.entryLocals :=
      (Descriptor.avoids_operands fun _ => rfl).bind fun _ _ => .ok _
    exact parsed cause unmade
  · obtain ⟨instruction, inner, found, rfl, fault⟩ := FlowGraph.transfer_eq_error sent
    rw [FlowGraph.ofMethod_method built] at found
    have member := List.mem_of_getElem? found
    rcases fault with executed | leads
    · exact Instruction.avoids_execute (arises.slots_lt member) inner executed
    · exact FlowGraph.avoids_successors (fun _ => rfl) rfl rfl inner leads
  · exact FlowGraph.merge_slotFault (arises'.same_count arises) merged

/-- No simulation fails for want of a slot or at frames with different numbers of slots. Whenever an
instruction meets a frame, all slots that it touches are there; these are the only ones that
decide what it does and the only ones that it changes. -/
theorem Method.touched_slots_exist (method : Method) :
    (∀ cause, method.simulate = .error cause → cause.isSlotFault = false) ∧
    (∀ point frame instruction, method.Arises point frame → method.code[point]? = some instruction →
      (∀ i ∈ instruction.slots, i < frame.locals.length) ∧
      ∀ cause, instruction.execute point frame = .error cause → cause.isSlotFault = false) ∧
    (∀ (instruction : Instruction) index (frame other : Frame), frame.AgreeAt instruction.slots other →
      Frame.AgreeingResults instruction.slots (instruction.execute index frame) (instruction.execute index other)) ∧
    (∀ (instruction : Instruction) index (frame after : Frame), instruction.execute index frame = .ok after →
      ∀ i, i ∉ instruction.slots → after.locals[i]? = frame.locals[i]?) := by
  refine ⟨fun cause => simulate_slotFault, ?_, ?_, ?_⟩
  · intro point frame instruction arises found
    have inside := arises.slots_lt (List.mem_of_getElem? found)
    exact ⟨inside, Instruction.avoids_execute inside⟩
  · intro instruction index frame other agree
    simp only [Instruction.execute_eq]
    refine .bind fun action decoded => ?_
    rw [Instruction.slots_eq decoded] at agree ⊢
    exact Action.perform_agrees agree
  · intro instruction index frame after executed i outside
    rw [Instruction.execute_eq] at executed
    obtain ⟨action, decoded, performed⟩ := except_bind_eq_ok.1 executed
    rw [Instruction.slots_eq decoded] at outside
    exact Action.perform_outside performed outside

/-- A method that stores a wide value beyond the slots that it declares, and increments its upper half. -/
def Method.overreaching : Method where
  name := "overreach"
  descriptor := "()V"
  isStatic := true
  maxLocals := 1
  code := [⟨0, 0x09, .constant (.long 0)⟩, ⟨1, 0x37, .slot 5⟩, ⟨3, 0x84, .increment 6⟩, ⟨6, 0xb1, .none⟩]

theorem Method.touched_slots_exist_overreaching :
    (∃ cause, overreaching.simulate = .error cause ∧ cause.isSlotFault = false) ∧
    ∃ frame store, overreaching.Arises 1 frame ∧ overreaching.code[1]? = some store ∧ store.slots = [4, 5, 6] ∧
      ∀ i ∈ store.slots, i < frame.locals.length := by
  obtain ⟨failures, touched, -⟩ := touched_slots_exist overreaching
  constructor
  · have refused : overreaching.simulate.toOption.isNone = true := by decide +kernel
    cases failed : overreaching.simulate with
    | ok simulation => simp [failed, Except.toOption] at refused
    | error cause => exact ⟨cause, rfl, failures cause failed⟩
  · let graph : FlowGraph := ⟨overreaching, FlowGraph.positionsOf overreaching, []⟩
    have walked : (graph.walk [0]).any (fun there => there.1 = 1) = true := by decide +kernel
    obtain ⟨⟨point, frame⟩, ends, point_eq⟩ := (Option.any_eq_true _ _).1 walked
    obtain rfl : point = 1 := of_decide_eq_true point_eq
    have arises : overreaching.Arises 1 frame := .path rfl (FlowGraph.reaches_walk ends)
    have slots : (⟨1, 0x37, .slot 5⟩ : Instruction).slots = [4, 5, 6] := by decide +kernel
    exact ⟨frame, _, arises, rfl, slots, (touched 1 frame _ arises rfl).1⟩

end CallProvenance
