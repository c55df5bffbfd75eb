import CallProvenance.Simulation
import CallProvenance.Proofs.ActionEffects
import CallProvenance.Proofs.FrameMerge
import CallProvenance.Proofs.Iterations

/-! The flow problem of a method body: which flows leave an instruction, that they stay inside the
code, and how its joins behave. -/
namespace CallProvenance

namespace FlowGraph

variable {graph : FlowGraph} {method : Method}

@[simp] theorem semantics_entry (graph : FlowGraph) : graph.semantics.entry = graph.entry := rfl

@[simp] theorem semantics_transfer (graph : FlowGraph) : graph.semantics.transfer = graph.transfer := rfl

@[simp] theorem semantics_merge (graph : FlowGraph) : graph.semantics.merge = merge := rfl

section Targets

theorem positionAt_mem {positions : List (Nat × Nat)} {offset index : Nat}
    (found : positionAt positions offset = .ok index) : (offset, index) ∈ positions := by
  unfold positionAt at found
  split at found
  · rename_i at_offset index' first
    cases found
    have same : at_offset = offset := by simpa using List.find?_some first
    exact same ▸ List.mem_of_find?_eq_some first
  · cases found

theorem positionsOf_lt {offset index : Nat} (member : (offset, index) ∈ positionsOf method) :
    index < method.code.length := by
  simp only [positionsOf, List.mem_reverse, List.mem_map, Prod.mk.injEq, Prod.exists] at member
  obtain ⟨instruction, index', listed, -, rfl⟩ := member
  simpa using (List.mem_zipIdx listed).2.1

theorem ofMethod_method (built : ofMethod method = .ok graph) : graph.method = method := by
  obtain ⟨protections, -, rest⟩ := except_bind_eq_ok.1 built
  cases rest
  rfl

theorem ofMethod_positions (built : ofMethod method = .ok graph) : graph.positions = positionsOf method := by
  obtain ⟨protections, -, rest⟩ := except_bind_eq_ok.1 built
  cases rest
  rfl

theorem protection_entry {positions : List (Nat × Nat)} {range : HandlerRange} {handler : Protection}
    (resolved : protection positions range = .ok (some handler)) :
    positionAt positions range.handler = .ok handler.entry := by
  unfold protection at resolved
  split at resolved
  · cases resolved
  · obtain ⟨entry, found, rest⟩ := except_bind_eq_ok.1 resolved
    dsimp only at rest
    split at rest
    · cases rest
      exact found
    · cases rest

variable (built : ofMethod method = .ok graph)
include built

theorem target_lt {offset index : Nat} (found : graph.target offset = .ok index) :
    index < method.code.length := by
  have member := positionAt_mem found
  rw [ofMethod_positions built] at member
  exact positionsOf_lt member

theorem handler_lt {handler : Protection} (member : handler ∈ graph.protections) :
    handler.entry < method.code.length := by
  obtain ⟨protections, resolved, rest⟩ := except_bind_eq_ok.1 built
  cases rest
  have listed : some handler ∈ protections := by simpa using member
  obtain ⟨range, -, single⟩ := mem_of_mapM_ok resolved listed
  exact positionsOf_lt (positionAt_mem (protection_entry single))

theorem next_lt {point index : Nat} (found : graph.next point = .ok index) : index < method.code.length := by
  unfold next at found
  split at found
  · cases found
    rwa [← ofMethod_method built]
  · cases found

theorem jumpTarget_lt {instruction : Instruction} {index : Nat}
    (found : graph.jumpTarget instruction = .ok index) : index < method.code.length := by
  unfold jumpTarget at found
  split at found
  · exact target_lt built found
  · cases found

theorem returnPoints_lt {index : Nat} (member : index ∈ graph.returnPoints) :
    index < method.code.length := by
  simp only [returnPoints, List.mem_filterMap, Prod.exists] at member
  obtain ⟨instruction, before, -, same⟩ := member
  split at same
  · rename_i subroutine
    cases same
    rw [← ofMethod_method built]
    exact subroutine.2
  · cases same

theorem successors_lt {point target : Nat} {instruction : Instruction} {targets : List Nat}
    (found : graph.successors point instruction = .ok targets) (member : target ∈ targets) :
    target < method.code.length := by
  unfold successors at found
  split at found
  · cases found
    simp at member
  · cases found
    exact returnPoints_lt built member
  · obtain ⟨jump, jumps, rest⟩ := except_bind_eq_ok.1 found
    cases rest
    exact jumpTarget_lt built (by simpa [List.mem_singleton.1 member] using jumps)
  · obtain ⟨jump, jumps, rest⟩ := except_bind_eq_ok.1 found
    cases rest
    exact jumpTarget_lt built (by simpa [List.mem_singleton.1 member] using jumps)
  · obtain ⟨next, nexts, rest⟩ := except_bind_eq_ok.1 found
    obtain ⟨jump, jumps, rest⟩ := except_bind_eq_ok.1 rest
    cases rest
    rcases List.mem_cons.1 member with rfl | later
    · exact next_lt built nexts
    · exact jumpTarget_lt built (by simpa [List.mem_singleton.1 later] using jumps)
  · split at found
    · obtain ⟨offset, -, single⟩ := mem_of_mapM_ok found member
      exact target_lt built single
    · cases found
  · obtain ⟨next, nexts, rest⟩ := except_bind_eq_ok.1 found
    cases rest
    exact next_lt built (by simpa [List.mem_singleton.1 member] using nexts)

end Targets

section Transfer

variable {point : Nat} {frame after : Frame} {flows : List (Nat × Frame)} {notes notes' : SimulationNotes}
  {action : Action} {targets : List Nat}

/-- The instruction at `point` has the given action and successors, whatever the frame. -/
def Decodes (graph : FlowGraph) (point : Nat) (action : Action) (targets : List Nat) : Prop :=
  ∃ instruction, graph.method.code[point]? = some instruction ∧ instruction.action = .ok action ∧
    graph.successors point instruction = .ok targets

theorem Decodes.unique {action' : Action} {targets' : List Nat} (decodes : graph.Decodes point action targets)
    (decodes' : graph.Decodes point action' targets') : action' = action ∧ targets' = targets := by
  obtain ⟨instruction, found, acts, leads⟩ := decodes
  obtain ⟨instruction', found', acts', leads'⟩ := decodes'
  obtain rfl : instruction = instruction' := Option.some.inj (found.symm.trans found')
  exact ⟨Except.ok.inj (acts'.symm.trans acts), Except.ok.inj (leads'.symm.trans leads)⟩

/-- The flows out of an instruction that turns `frame` into `after`: to the handlers that protect it,
and to its successors. -/
inductive Leaves (graph : FlowGraph) (point : Nat) (targets : List Nat) (frame after : Frame) :
    Nat → Frame → Prop where
  | thrown {handler : Protection} : handler ∈ graph.protections → handler.protects point = true →
      Leaves graph point targets frame after handler.entry frame.caught
  | completed {target : Nat} : target ∈ targets → Leaves graph point targets frame after target after

theorem mem_flows {next : Nat} {frame' : Frame} :
    (next, frame') ∈ ((graph.protections.filter (·.protects point)).map fun handler =>
      (handler.entry, frame.caught)) ++ targets.map (fun target => (target, after)) ↔
    graph.Leaves point targets frame after next frame' := by
  simp only [List.mem_append, List.mem_map, List.mem_filter, Prod.mk.injEq]
  constructor
  · rintro (⟨handler, ⟨listed, protects⟩, rfl, rfl⟩ | ⟨target, listed, rfl, rfl⟩)
    · exact .thrown listed protects
    · exact .completed listed
  · rintro (⟨listed, protects⟩ | listed)
    · exact .inl ⟨_, ⟨listed, protects⟩, rfl, rfl⟩
    · exact .inr ⟨_, listed, rfl, rfl⟩

theorem transfer_of_execute {instruction : Instruction} (found : graph.method.code[point]? = some instruction)
    (executed : instruction.execute point frame = .ok after) (leads : graph.successors point instruction = .ok targets)
    (notes : SimulationNotes) :
    ∃ notes', graph.transfer point frame notes =
      .ok (((graph.protections.filter (·.protects point)).map fun handler => (handler.entry, frame.caught)) ++
        targets.map fun target => (target, after)) notes' := by
  simp only [transfer, found, FlowGraph.flows, executed, leads]
  exact ⟨_, rfl⟩

theorem transfer_of_perform (decodes : graph.Decodes point action targets)
    (performed : action.perform point frame = .ok after) (notes : SimulationNotes) :
    ∃ flows notes', graph.transfer point frame notes = .ok flows notes' ∧
      ∀ next frame', (next, frame') ∈ flows ↔ graph.Leaves point targets frame after next frame' := by
  obtain ⟨instruction, found, acts, leads⟩ := decodes
  have executed : instruction.execute point frame = .ok after := by
    rw [Instruction.execute_eq, acts]
    exact performed
  obtain ⟨notes', sent⟩ := transfer_of_execute found executed leads notes
  exact ⟨_, notes', sent, fun _ _ => mem_flows⟩

/-- A transfer that does not fail has executed its instruction. It sends the caught frame to each handler that
protects the instruction, and the frame that the instruction leaves to each of its successors. -/
theorem transfer_flows {instruction : Instruction} (found : graph.method.code[point]? = some instruction)
    (sent : graph.transfer point frame notes = .ok flows notes') :
    ∃ after targets, instruction.execute point frame = .ok after ∧ graph.successors point instruction = .ok targets ∧
      flows = ((graph.protections.filter (·.protects point)).map fun handler => (handler.entry, frame.caught)) ++
        targets.map fun target => (target, after) := by
  cases leaving : graph.flows point instruction frame with
  | error cause =>
    simp only [transfer, found, leaving] at sent
    cases sent
  | ok flows' =>
    simp only [transfer, found, leaving] at sent
    obtain ⟨_, _, -, rest⟩ := bind_eq_ok.1 sent
    obtain ⟨rfl, -⟩ := pure_eq_ok.1 rest
    obtain ⟨after, executed, rest⟩ := except_bind_eq_ok.1 leaving
    obtain ⟨targets, leads, rest⟩ := except_bind_eq_ok.1 rest
    cases rest
    exact ⟨after, targets, executed, leads, rfl⟩

/-- A transfer that does not fail has executed an instruction, unless it lies outside the code. -/
theorem transfer_eq_ok (sent : graph.transfer point frame notes = .ok flows notes') :
    (graph.method.code[point]? = none ∧ flows = []) ∨
    ∃ action targets after, graph.Decodes point action targets ∧ action.perform point frame = .ok after ∧
      ∀ next frame', (next, frame') ∈ flows ↔ graph.Leaves point targets frame after next frame' := by
  cases found : graph.method.code[point]? with
  | none =>
    simp only [transfer, found] at sent
    exact .inl ⟨rfl, (pure_eq_ok.1 sent).1.symm⟩
  | some instruction =>
    right
    obtain ⟨after, targets, executed, leads, rfl⟩ := transfer_flows found sent
    rw [Instruction.execute_eq] at executed
    obtain ⟨action, acts, performed⟩ := except_bind_eq_ok.1 executed
    exact ⟨action, targets, after, ⟨instruction, found, acts, leads⟩, performed, fun _ _ => mem_flows⟩

/-- All that a transfer notes is what the instruction takes, if it is a dynamic call. -/
theorem transfer_notes {instruction : Instruction} (found : graph.method.code[point]? = some instruction)
    (sent : graph.transfer point frame notes = .ok flows notes') :
    notes' = { notes with dynamicArguments := notes.dynamicArguments.note instruction point frame } := by
  cases leaving : graph.flows point instruction frame with
  | error cause =>
    simp only [transfer, found, leaving] at sent
    cases sent
  | ok flows' =>
    simp only [transfer, found, leaving] at sent
    obtain ⟨_, _, modified, rest⟩ := bind_eq_ok.1 sent
    obtain ⟨-, rfl⟩ := pure_eq_ok.1 rest
    exact (modify_eq_ok.1 modified).symm

/-- A transfer that fails says at which instruction. -/
theorem transfer_eq_error {cause : Inconsistency} (failed : graph.transfer point frame notes = .error cause notes') :
    ∃ instruction inner, graph.method.code[point]? = some instruction ∧ cause = inner.locate instruction ∧
      (instruction.execute point frame = .error inner ∨ graph.successors point instruction = .error inner) := by
  cases found : graph.method.code[point]? with
  | none =>
    simp only [transfer, found] at failed
    exact absurd failed pure_ne_error
  | some instruction =>
    cases leaving : graph.flows point instruction frame with
    | ok flows' =>
      simp only [transfer, found, leaving] at failed
      rcases bind_eq_error.1 failed with now | ⟨_, _, -, rest⟩
      · cases now
      · exact absurd rest pure_ne_error
    | error inner =>
      simp only [transfer, found, leaving] at failed
      cases failed
      refine ⟨instruction, inner, rfl, rfl, ?_⟩
      cases executed : instruction.execute point frame with
      | error first =>
        simp only [FlowGraph.flows, executed] at leaving
        cases leaving
        exact .inl rfl
      | ok after =>
        cases leads : graph.successors point instruction with
        | error second =>
          simp only [FlowGraph.flows, executed, leads] at leaving
          cases leaving
          exact .inr rfl
        | ok targets =>
          simp only [FlowGraph.flows, executed, leads] at leaving
          cases leaving

theorem transfer_outside (outside : graph.method.code[point]? = none) (frame : Frame) (notes : SimulationNotes) :
    graph.transfer point frame notes = .ok [] notes := by
  simp only [transfer, outside]
  rfl

theorem Decodes.perform_of_transfer (decodes : graph.Decodes point action targets)
    (sent : graph.transfer point frame notes = .ok flows notes') :
    ∃ after, action.perform point frame = .ok after ∧
      ∀ next frame', (next, frame') ∈ flows ↔ graph.Leaves point targets frame after next frame' := by
  rcases transfer_eq_ok sent with ⟨outside, -⟩ | ⟨action', targets', after, decodes', performed, same⟩
  · obtain ⟨instruction, found, -⟩ := decodes
    simp [outside] at found
  · obtain ⟨rfl, rfl⟩ := decodes.unique decodes'
    exact ⟨after, performed, same⟩

/-- Whether a transfer succeeds depends on the action alone. -/
theorem transfer_of_transfer {other : Frame} (sent : graph.transfer point frame notes = .ok flows notes')
    (performs : ∀ {action targets after}, graph.Decodes point action targets →
      action.perform point frame = .ok after → ∃ after', action.perform point other = .ok after')
    (s : SimulationNotes) : ∃ flows s', graph.transfer point other s = .ok flows s' := by
  rcases transfer_eq_ok sent with ⟨outside, -⟩ | ⟨action, targets, after, decodes, performed, -⟩
  · exact ⟨[], s, transfer_outside outside other s⟩
  · obtain ⟨after', performed'⟩ := performs decodes performed
    obtain ⟨flows, s', sent', -⟩ := transfer_of_perform decodes performed' s
    exact ⟨flows, s', sent'⟩

/-- Only inside the code can a transfer have flows. -/
theorem transfer_mem {next : Nat} {frame' : Frame} (sent : graph.transfer point frame notes = .ok flows notes')
    (member : (next, frame') ∈ flows) :
    ∃ action targets after, graph.Decodes point action targets ∧ action.perform point frame = .ok after ∧
      graph.Leaves point targets frame after next frame' := by
  rcases transfer_eq_ok sent with ⟨-, rfl⟩ | ⟨action, targets, after, decodes, performed, leaves⟩
  · simp at member
  · exact ⟨action, targets, after, decodes, performed, (leaves next frame').1 member⟩

theorem leaves_lt (built : ofMethod method = .ok graph) (decodes : graph.Decodes point action targets)
    {next : Nat} {frame' : Frame} (leaves : graph.Leaves point targets frame after next frame') :
    next < method.code.length := by
  obtain ⟨instruction, -, -, leads⟩ := decodes
  cases leaves with
  | thrown listed _ => exact handler_lt built listed
  | completed listed => exact successors_lt built leads listed

end Transfer

section Merge

variable {current incoming : Frame} {notes notes' : SimulationNotes}

/-- The join of frames is recorded in the history, and nothing else is noted. -/
theorem merge_notes {answer : Option Frame} (merged : merge current incoming notes = .ok answer notes') :
    ∃ history, current.merge incoming notes.history = .ok (answer, history) ∧ notes' = { notes with history } := by
  obtain ⟨_, _, got, rest⟩ := bind_eq_ok.1 merged
  cases got
  cases inner : current.merge incoming notes.history with
  | error cause =>
    simp only [inner] at rest
    cases rest
  | ok pair =>
    obtain ⟨answer', history⟩ := pair
    simp only [inner] at rest
    obtain ⟨_, _, modified, rest⟩ := bind_eq_ok.1 rest
    obtain ⟨rfl, rfl⟩ := pure_eq_ok.1 rest
    exact ⟨history, rfl, (modify_eq_ok.1 modified).symm⟩

theorem merge_eq_ok {answer : Option Frame} (merged : merge current incoming notes = .ok answer notes') :
    (answer = none ∧ incoming ≤ current) ∨
    (∃ joined, answer = some joined ∧ ¬ incoming ≤ current ∧ Frame.IsJoin current incoming joined) := by
  obtain ⟨history, inner, -⟩ := merge_notes merged
  exact Frame.merge_eq_ok inner

theorem merge_failed {cause : Inconsistency} (failed : merge current incoming notes = .error cause notes') :
    ∃ history, current.merge incoming history = .error cause := by
  rcases bind_eq_error.1 failed with now | ⟨notes, _, -, rest⟩
  · cases now
  cases inner : current.merge incoming notes.history with
  | error first =>
    simp only [inner] at rest
    cases rest
    exact ⟨notes.history, inner⟩
  | ok pair =>
    obtain ⟨answer, history⟩ := pair
    simp only [inner] at rest
    rcases bind_eq_error.1 rest with now | ⟨_, _, -, rest⟩
    · cases now
    · exact absurd rest pure_ne_error

theorem merge_eq_error {cause : Inconsistency} (failed : merge current incoming notes = .error cause notes') :
    current.stack.length ≠ incoming.stack.length ∨ current.locals.length ≠ incoming.locals.length := by
  obtain ⟨history, inner⟩ := merge_failed failed
  exact Frame.merge_eq_error inner

theorem joined_isJoin {joined : Frame} (merged : merge current incoming notes = .ok (some joined) notes') :
    Frame.IsJoin current incoming joined ∧ ¬ incoming ≤ current := by
  rcases merge_eq_ok merged with ⟨impossible, -⟩ | ⟨joined', same, changed, join⟩
  · cases impossible
  · cases same
    exact ⟨join, changed⟩

theorem semantics_ascends (graph : FlowGraph) : graph.semantics.Ascends where
  kept merged := by
    rcases merge_eq_ok merged with ⟨-, below⟩ | ⟨_, impossible, -⟩
    · exact below
    · cases impossible
  joined merged :=
    have join := (joined_isJoin merged).1
    ⟨join.current_le, join.incoming_le⟩

theorem semantics_raises (graph : FlowGraph) : graph.semantics.Raises Frame.rank := by
  intro current incoming joined notes notes' merged
  obtain ⟨join, changed⟩ := joined_isJoin merged
  exact Frame.rank_lt_of_not_le join.current_le fun back => changed (join.incoming_le.trans back)

end Merge

end FlowGraph
end CallProvenance
