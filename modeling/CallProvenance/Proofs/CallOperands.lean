import CallProvenance.Calls
import CallProvenance.Proofs.PathSoundness

/-! What calls find on the stack. An instruction with a call opcode executes only if its operand is a call
site whose descriptor can be read, and only on a stack whose top has the kinds that the call
takes. Stable frames are frames on which every instruction that is reached executes. -/
namespace CallProvenance

namespace Opcode

/-- The opcodes of calls on virtual, special, static and interface methods. -/
def invokes : List UInt8 := [0xb6, 0xb7, 0xb8, 0xb9]

def invokeDynamic : UInt8 := 0xba

/-- The positions of an effect in the table are the opcodes that have it. -/
theorem effect_eq_iff {effect : Effect} {opcodes : List UInt8}
    (listed : (table.toList.zipIdx.filter (·.1.effect = some effect)).map (·.2) = opcodes.map (·.toNat))
    (opcode : UInt8) : effect? opcode = some effect ↔ opcode ∈ opcodes := by
  have numbered : opcode.toNat ∈ opcodes.map (·.toNat) ↔ opcode ∈ opcodes :=
    List.mem_map_of_injective fun _ _ => UInt8.toNat_inj.1
  rw [← numbered, ← listed]
  simp [effect?, info?, Option.bind_eq_some_iff, List.mem_zipIdx_iff_getElem?]

theorem effect_eq_invoke (opcode : UInt8) : effect? opcode = some .invoke ↔ opcode ∈ invokes :=
  effect_eq_iff (by decide +kernel) opcode

theorem effect_eq_invokeDynamic (opcode : UInt8) :
    effect? opcode = some .invokeDynamic ↔ opcode = invokeDynamic := by
  have listed : effect? opcode = some .invokeDynamic ↔ opcode ∈ [invokeDynamic] :=
    effect_eq_iff (by decide +kernel) opcode
  rw [listed, List.mem_singleton]

end Opcode

namespace Frame

variable {frame : Frame} {kinds : List Kind}

/-- The stack has values of the given kinds on top, the last one uppermost. -/
def Offers (frame : Frame) (kinds : List Kind) : Prop :=
  (frame.stack.map (·.kind)).take kinds.length = kinds.reverse

def top (frame : Frame) (count : Nat) : List Value := (frame.stack.take count).reverse

namespace Offers

variable (offers : frame.Offers kinds)
include offers

theorem le_height : kinds.length ≤ frame.stack.length := by
  have lengths := congrArg List.length offers
  simp only [List.length_take, List.length_map, List.length_reverse] at lengths
  omega

theorem peekN : frame.peekN kinds.length = .ok (frame.top kinds.length) := by
  have enough := offers.le_height
  rw [Frame.peekN, if_neg (by omega)]
  rfl

theorem map_kind_top : (frame.top kinds.length).map (·.kind) = kinds := by
  rw [top, List.map_reverse, List.map_take, offers, List.reverse_reverse]

theorem length_top : (frame.top kinds.length).length = kinds.length := by
  have kinds := congrArg List.length offers.map_kind_top
  rwa [List.length_map] at kinds

end Offers

/-- The first kind is that of the deepest value, below those of the other kinds. -/
theorem Offers.cons {kind : Kind} (offers : frame.Offers (kind :: kinds)) :
    frame.Offers kinds ∧ ∃ value, frame.stack[kinds.length]? = some value ∧ value.kind = kind := by
  have enough : kinds.length < frame.stack.length := offers.le_height
  unfold Offers at offers
  rw [List.length_cons, List.take_add_one, List.getElem?_map, List.reverse_cons] at offers
  obtain ⟨upper, deepest⟩ := List.append_inj offers (by simp; omega)
  refine ⟨upper, frame.stack[kinds.length], List.getElem?_eq_getElem enough, ?_⟩
  simpa [List.getElem?_eq_getElem enough] using deepest

theorem top_succ {count : Nat} {value : Value} (found : frame.stack[count]? = some value) :
    frame.top (count + 1) = value :: frame.top count := by
  rw [top, List.take_add_one, found, Option.toList_some, List.reverse_append]
  rfl

theorem getElem?_top {count k : Nat} (enough : count ≤ frame.stack.length) (inside : k < count) :
    (frame.top count)[k]? = frame.stack[count - k - 1]? := by
  have length : (frame.stack.take count).length = count := by
    rw [List.length_take]
    omega
  rw [top, List.getElem?_reverse (by omega), length, List.getElem?_take_of_lt (by omega)]
  congr 1
  omega

end Frame

namespace Action

theorem offers_of_perform {operands : List Kind} {yield : Yield} {index : Nat} {frame after : Frame}
    (performed : (consume operands yield).perform index frame = .ok after) : frame.Offers operands :=
  (perform_consume.1 performed).1

end Action

/-- The kinds that a call site takes, the receiver first. -/
def CallSite.operands (site : CallSite) (parameters : List Kind) : List Kind :=
  if site.kind = .static then parameters else .reference :: parameters

namespace Instruction

variable {instruction : Instruction} {acted : Action}

theorem site_eq_ok {site : CallSite} : instruction.site = .ok site ↔ instruction.operand = .invoke site := by
  unfold Instruction.site
  split <;> simp_all

theorem dynamicSite_eq_ok {site : DynamicSite} :
    instruction.dynamicSite = .ok site ↔ instruction.operand = .invokeDynamic site := by
  unfold dynamicSite
  split <;> simp_all

theorem action_invoke (effect : instruction.effect? = some .invoke) (acts : instruction.action = .ok acted) :
    ∃ site parameters result, instruction.operand = .invoke site ∧
      Descriptor.operands site.descriptor = .ok parameters ∧
      acted = .consume (site.operands parameters) (.ofResult result) := by
  unfold Instruction.action at acts
  simp only [effect] at acts
  obtain ⟨site, shape, rest⟩ := except_bind_eq_ok.1 acts
  obtain ⟨parameters, parsed, rest⟩ := except_bind_eq_ok.1 rest
  obtain ⟨result, -, rest⟩ := except_bind_eq_ok.1 rest
  cases rest
  exact ⟨site, parameters, result, site_eq_ok.1 shape, parsed, rfl⟩

theorem action_invokeDynamic (effect : instruction.effect? = some .invokeDynamic)
    (acts : instruction.action = .ok acted) :
    ∃ site parameters result, instruction.operand = .invokeDynamic site ∧
      Descriptor.operands site.descriptor = .ok parameters ∧ acted = .consume parameters (.ofResult result) := by
  unfold Instruction.action at acts
  simp only [effect] at acts
  obtain ⟨site, shape, rest⟩ := except_bind_eq_ok.1 acts
  obtain ⟨parameters, parsed, rest⟩ := except_bind_eq_ok.1 rest
  obtain ⟨result, -, rest⟩ := except_bind_eq_ok.1 rest
  cases rest
  exact ⟨site, parameters, result, dynamicSite_eq_ok.1 shape, parsed, rfl⟩

end Instruction

namespace FlowGraph

variable {graph : FlowGraph} {point : Nat} {frame : Frame} {flows : List (Nat × Frame)}
  {notes notes' : SimulationNotes} {instruction : Instruction}
  (sent : graph.transfer point frame notes = .ok flows notes')
  (found : graph.method.code[point]? = some instruction)
include sent found

theorem performs_of_transfer :
    ∃ action after, instruction.action = .ok action ∧ action.perform point frame = .ok after := by
  rcases transfer_eq_ok sent with ⟨outside, -⟩ | ⟨action, targets, after, decodes, performed, -⟩
  · simp [outside] at found
  · obtain ⟨instruction', found', acts, -⟩ := decodes
    obtain rfl : instruction = instruction' := Option.some.inj (found.symm.trans found')
    exact ⟨action, after, acts, performed⟩

/-- A call that executes finds its receiver and its arguments on the stack. -/
theorem offers_of_invoke (effect : instruction.effect? = some .invoke) :
    ∃ site parameters, instruction.operand = .invoke site ∧
      Descriptor.operands site.descriptor = .ok parameters ∧ frame.Offers (site.operands parameters) := by
  obtain ⟨action, after, acts, performed⟩ := performs_of_transfer sent found
  obtain ⟨site, parameters, result, operand, parsed, rfl⟩ := Instruction.action_invoke effect acts
  exact ⟨site, parameters, operand, parsed, Action.offers_of_perform performed⟩

theorem offers_of_invokeDynamic (effect : instruction.effect? = some .invokeDynamic) :
    ∃ site parameters, instruction.operand = .invokeDynamic site ∧
      Descriptor.operands site.descriptor = .ok parameters ∧ frame.Offers parameters := by
  obtain ⟨action, after, acts, performed⟩ := performs_of_transfer sent found
  obtain ⟨site, parameters, result, operand, parsed, rfl⟩ := Instruction.action_invokeDynamic effect acts
  exact ⟨site, parameters, operand, parsed, Action.offers_of_perform performed⟩

end FlowGraph
end CallProvenance
