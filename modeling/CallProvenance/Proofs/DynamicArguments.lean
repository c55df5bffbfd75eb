import CallProvenance.Proofs.CallOperands
import CallProvenance.Proofs.LastExecution

/-! The table of dynamic arguments. Every execution of a dynamic call overwrites what an earlier one took,
and the last one was given the stable frame; so the table agrees with the stable frames. -/
namespace CallProvenance

namespace DynamicArguments

variable {index : Nat} {arguments : List Value} {entries : List (Nat × List Value)}

theorem lookup_cons (i : Nat) (found : List Value) (entries : List (Nat × List Value)) (q : Nat) :
    ((i, found) :: entries).lookup q = if q = i then some found else entries.lookup q := by
  by_cases here : q = i
  · simp [here]
  · have apart : (q == i) = false := beq_eq_false_iff_ne.2 here
    simp [List.lookup_cons, apart, here]

theorem lookup_insert (index : Nat) (arguments : List Value) (entries : List (Nat × List Value)) (q : Nat) :
    (insert index arguments entries).lookup q = if q = index then some arguments else entries.lookup q := by
  induction entries with
  | nil => exact lookup_cons index arguments [] q
  | cons entry entries ih =>
    obtain ⟨i, found⟩ := entry
    unfold insert
    split
    · exact lookup_cons ..
    · split
      · rename_i same
        simp only [lookup_cons, same]
        split <;> rfl
      · rename_i apart
        simp only [lookup_cons, ih]
        -- The head differs from the new entry, so it does not matter which of them is tested first.
        split <;> split <;> simp_all

theorem key_of_mem_insert {entry : Nat × List Value} (member : entry ∈ insert index arguments entries) :
    entry.1 = index ∨ entry ∈ entries := by
  induction entries with
  | nil => exact .inl (by rw [List.mem_singleton.1 member])
  | cons head entries ih =>
    unfold insert at member
    split at member
    · rcases List.mem_cons.1 member with rfl | old
      · exact .inl rfl
      · exact .inr old
    · split at member
      · rcases List.mem_cons.1 member with rfl | old
        · exact .inl rfl
        · exact .inr (List.mem_cons_of_mem _ old)
      · rcases List.mem_cons.1 member with rfl | later
        · exact .inr List.mem_cons_self
        · exact (ih later).imp_right (List.mem_cons_of_mem _)

theorem insert_ascending (index : Nat) (arguments : List Value)
    (ascending : entries.Pairwise (fun a b => a.1 < b.1)) :
    (insert index arguments entries).Pairwise (fun a b => a.1 < b.1) := by
  induction entries with
  | nil => exact List.pairwise_singleton _ _
  | cons entry entries ih =>
    obtain ⟨i, found⟩ := entry
    have above := (List.pairwise_cons.1 ascending).1
    have rest := (List.pairwise_cons.1 ascending).2
    unfold insert
    split
    · rename_i before
      refine List.pairwise_cons.2 ⟨fun other member => ?_, ascending⟩
      rcases List.mem_cons.1 member with rfl | later
      · exact before
      · exact Nat.lt_trans before (above other later)
    · split
      · rename_i same
        exact List.pairwise_cons.2 ⟨fun other member => same ▸ above other member, rest⟩
      · refine List.pairwise_cons.2 ⟨fun other member => ?_, ih rest⟩
        rcases key_of_mem_insert member with here | later
        · simp only [here]
          omega
        · exact above other later

theorem mem_entries_iff {recorded : DynamicArguments}
    (ascending : recorded.entries.Pairwise (fun a b => a.1 < b.1)) :
    (index, arguments) ∈ recorded.entries ↔ recorded.find? index = some arguments := by
  obtain ⟨entries⟩ := recorded
  simp only [find?] at *
  induction entries with
  | nil => simp
  | cons entry entries ih =>
    obtain ⟨i, found⟩ := entry
    have above := (List.pairwise_cons.1 ascending).1
    have rest := ih (List.pairwise_cons.1 ascending).2
    rw [List.mem_cons, lookup_cons, rest, Prod.mk.injEq]
    by_cases here : index = i
    · have absent : entries.lookup index ≠ some arguments := fun found =>
        Nat.ne_of_lt (above _ (rest.2 found)) here.symm
      rw [if_pos here, Option.some.injEq, or_iff_left absent, and_iff_right here, eq_comm]
    · rw [if_neg here, or_iff_right fun same => here same.1]

theorem find?_note {recorded : DynamicArguments} {instruction : Instruction} {frame : Frame} :
    (recorded.note instruction index frame).find? =
      Function.update recorded.find? index ((instruction.dynamicArguments frame).or (recorded.find? index)) := by
  funext q
  unfold note
  cases instruction.dynamicArguments frame with
  | none => simp
  | some arguments => simp [find?, lookup_insert, Function.update_apply]

/-- Entries stand in the order of their instructions, and only at dynamic calls. -/
structure Sound (recorded : DynamicArguments) (method : Method) : Prop where
  ascending : recorded.entries.Pairwise (fun a b => a.1 < b.1)
  dynamic : ∀ index arguments, recorded.find? index = some arguments →
    ∃ instruction, method.code[index]? = some instruction ∧ instruction.effect? = some .invokeDynamic

end DynamicArguments

namespace Instruction

variable {instruction : Instruction} {frame : Frame}

theorem effect_of_dynamicArguments {arguments : List Value}
    (taken : instruction.dynamicArguments frame = some arguments) : instruction.effect? = some .invokeDynamic := by
  unfold dynamicArguments at taken
  split at taken
  · rename_i effect _
    exact effect
  · cases taken

theorem dynamicArguments_of_offers {site : DynamicSite} {parameters : List Kind}
    (effect : instruction.effect? = some .invokeDynamic) (operand : instruction.operand = .invokeDynamic site)
    (parsed : Descriptor.operands site.descriptor = .ok parameters) (offers : frame.Offers parameters) :
    instruction.dynamicArguments frame = some (frame.top parameters.length) := by
  unfold dynamicArguments
  simp only [effect, operand, parsed]
  change (frame.peekN parameters.length).toOption = _
  rw [offers.peekN]
  rfl

end Instruction

/-- What the instruction at `index` takes from the frame, if it is a dynamic call. -/
def Method.dynamicArguments (method : Method) (index : Nat) (frame : Frame) : Option (List Value) :=
  (method.code[index]?).bind (·.dynamicArguments frame)

theorem Method.dynamicArguments_eq {method : Method} {index : Nat} {instruction : Instruction}
    (found : method.code[index]? = some instruction) (frame : Frame) :
    method.dynamicArguments index frame = instruction.dynamicArguments frame := by
  rw [dynamicArguments, found, Option.bind_some]

namespace DynamicArguments.Sound

variable {recorded : DynamicArguments} {method : Method} {index : Nat}

theorem empty (method : Method) : Sound {} method := ⟨List.Pairwise.nil, nofun⟩

variable (sound : recorded.Sound method)
include sound

theorem find?_eq_none (plain : ∀ instruction, method.code[index]? = some instruction →
    instruction.effect? ≠ some .invokeDynamic) : recorded.find? index = none := by
  refine Option.eq_none_iff_forall_ne_some.2 fun arguments found => ?_
  obtain ⟨instruction, at_index, effect⟩ := sound.dynamic index arguments found
  exact plain instruction at_index effect

theorem note {instruction : Instruction} (found : method.code[index]? = some instruction) {frame : Frame} :
    (recorded.note instruction index frame).Sound method := by
  unfold DynamicArguments.note
  cases taken : instruction.dynamicArguments frame with
  | none => exact sound
  | some arguments =>
    refine ⟨insert_ascending index arguments sound.ascending, fun q others found' => ?_⟩
    simp only [find?, lookup_insert] at found'
    split at found'
    · rename_i here
      exact ⟨instruction, here ▸ found, Instruction.effect_of_dynamicArguments taken⟩
    · exact sound.dynamic q others found'

end DynamicArguments.Sound

namespace FlowGraph

variable {graph : FlowGraph} {point : Nat} {frame : Frame} {flows : List (Nat × Frame)}
  {notes notes' : SimulationNotes}

/-- An execution that succeeds leaves in the table what the instruction takes from its frame. -/
theorem transfer_remembers (sound : notes.dynamicArguments.Sound graph.method)
    (sent : graph.transfer point frame notes = .ok flows notes') :
    notes'.dynamicArguments.Sound graph.method ∧
      notes'.dynamicArguments.find? =
        Function.update notes.dynamicArguments.find? point (graph.method.dynamicArguments point frame) := by
  cases found : graph.method.code[point]? with
  | none =>
    obtain ⟨-, rfl⟩ := EStateM.Result.ok.inj ((transfer_outside found frame notes).symm.trans sent)
    have unseen : notes.dynamicArguments.find? point = none := sound.find?_eq_none (by simp [found])
    rw [Method.dynamicArguments, found, Option.bind_none, ← unseen, Function.update_eq_self]
    exact ⟨sound, rfl⟩
  | some instruction =>
    have noted : notes'.dynamicArguments = notes.dynamicArguments.note instruction point frame := by
      rw [transfer_notes found sent]
    rw [noted, DynamicArguments.find?_note, Method.dynamicArguments_eq found]
    refine ⟨sound.note found, ?_⟩
    cases taken : instruction.dynamicArguments frame with
    | none =>
      -- A dynamic call that executes takes arguments, so this is no dynamic call and has no entry.
      have plain : instruction.effect? ≠ some .invokeDynamic := fun effect => by
        obtain ⟨site, parameters, operand, parsed, offers⟩ := offers_of_invokeDynamic sent found effect
        rw [Instruction.dynamicArguments_of_offers effect operand parsed offers] at taken
        cases taken
      have unseen : notes.dynamicArguments.find? point = none := sound.find?_eq_none fun other found' =>
        Option.some.inj (found.symm.trans found') ▸ plain
      rw [unseen, Option.or_none]
    | some arguments => rw [Option.some_or]

theorem semantics_remembers (graph : FlowGraph) :
    graph.semantics.Remembers (fun notes => notes.dynamicArguments.Sound graph.method)
      (fun notes => notes.dynamicArguments.find?) graph.method.dynamicArguments where
  entry := by
    intro s fact s' sound started
    rw [entry_notes started]
    exact ⟨sound, rfl⟩
  transfer := by
    intro point fact s flows s' sound sent
    exact transfer_remembers sound sent
  merge := by
    intro current incoming s answer s' sound merged
    obtain ⟨history, -, rfl⟩ := merge_notes merged
    exact ⟨sound, rfl⟩

end FlowGraph

namespace Method

variable {method : Method} {simulation : Simulation} {index : Nat} {frame : Frame}

theorem exists_graph (simulated : method.simulate = .ok simulation) :
    ∃ graph, FlowGraph.ofMethod method = .ok graph := by
  obtain ⟨graph, built, -⟩ := except_bind_eq_ok.1 simulated
  exact ⟨graph, built⟩

theorem simulate_remembers (simulated : method.simulate = .ok simulation) :
    simulation.dynamicArguments.Sound method ∧ ∀ index, simulation.dynamicArguments.find? index =
      simulation.frames[index]?.join.bind (method.dynamicArguments index) := by
  obtain ⟨graph, built⟩ := exists_graph simulated
  obtain ⟨fixed, notes, solved, rfl⟩ := (simulate_eq_ok built).1 simulated
  obtain rfl := FlowGraph.ofMethod_method built
  exact graph.semantics_remembers.solve (.empty graph.method) (fun _ => rfl) solved

/-- A dynamic call that is reached finds its arguments in its stable frame, and the table has them. -/
theorem simulate_dynamicCall (simulated : method.simulate = .ok simulation)
    (reached : simulation.frames[index]? = some (some frame)) {instruction : Instruction}
    (found : method.code[index]? = some instruction) (effect : instruction.effect? = some .invokeDynamic) :
    ∃ site parameters, instruction.operand = .invokeDynamic site ∧
      Descriptor.operands site.descriptor = .ok parameters ∧ frame.Offers parameters ∧
      simulation.dynamicArguments.find? index = some (frame.top parameters.length) := by
  obtain ⟨graph, built⟩ := exists_graph simulated
  obtain ⟨s, flows, s', sent⟩ := simulate_transfers built simulated reached
  obtain ⟨site, parameters, operand, parsed, offers⟩ :=
    FlowGraph.offers_of_invokeDynamic sent (FlowGraph.ofMethod_method built ▸ found) effect
  refine ⟨site, parameters, operand, parsed, offers, ?_⟩
  rw [(simulate_remembers simulated).2 index, reached, Option.join_some, Option.bind_some, dynamicArguments_eq found]
  exact Instruction.dynamicArguments_of_offers effect operand parsed offers

theorem simulate_entry (simulated : method.simulate = .ok simulation) {arguments : List Value}
    (member : (index, arguments) ∈ simulation.dynamicArguments.entries) :
    ∃ instruction frame, method.code[index]? = some instruction ∧ instruction.effect? = some .invokeDynamic ∧
      simulation.frames[index]? = some (some frame) := by
  obtain ⟨sound, found⟩ := simulate_remembers simulated
  have recorded := (DynamicArguments.mem_entries_iff sound.ascending).1 member
  obtain ⟨instruction, at_index, effect⟩ := sound.dynamic index arguments recorded
  obtain ⟨frame, reached, -⟩ := Option.bind_eq_some_iff.1 ((found index).symm.trans recorded)
  exact ⟨instruction, frame, at_index, effect, Option.join_eq_some_iff.1 reached⟩

/-- The table has one entry for each dynamic call that is reached, in instruction order, and no other.
An entry has one value for each parameter of the call site, and these values are the topmost
ones of the stable frame in the order in which they were pushed. -/
theorem simulate_dynamicArguments_agree (simulated : method.simulate = .ok simulation) :
    simulation.dynamicArguments.entries.Pairwise (fun a b => a.1 < b.1) ∧
    (∀ index, (∃ arguments, (index, arguments) ∈ simulation.dynamicArguments.entries) ↔
      ∃ instruction frame, method.code[index]? = some instruction ∧ instruction.opcode = Opcode.invokeDynamic ∧
        simulation.frames[index]? = some (some frame)) ∧
    ∀ index arguments, (index, arguments) ∈ simulation.dynamicArguments.entries →
      ∃ instruction site parameters frame, method.code[index]? = some instruction ∧
        instruction.operand = .invokeDynamic site ∧ Descriptor.operands site.descriptor = .ok parameters ∧
        simulation.frames[index]? = some (some frame) ∧ arguments.length = parameters.length ∧
        arguments = (frame.stack.take parameters.length).reverse := by
  have sound := (simulate_remembers simulated).1
  refine ⟨sound.ascending, fun index => ⟨?_, ?_⟩, fun index arguments member => ?_⟩
  · rintro ⟨arguments, member⟩
    obtain ⟨instruction, frame, at_index, effect, reached⟩ := simulate_entry simulated member
    exact ⟨instruction, frame, at_index, (Opcode.effect_eq_invokeDynamic _).1 effect, reached⟩
  · rintro ⟨instruction, frame, at_index, opcode, reached⟩
    obtain ⟨_, _, -, -, -, recorded⟩ :=
      simulate_dynamicCall simulated reached at_index ((Opcode.effect_eq_invokeDynamic _).2 opcode)
    exact ⟨_, (DynamicArguments.mem_entries_iff sound.ascending).2 recorded⟩
  · obtain ⟨instruction, frame, at_index, effect, reached⟩ := simulate_entry simulated member
    obtain ⟨site, parameters, operand, parsed, offers, recorded⟩ :=
      simulate_dynamicCall simulated reached at_index effect
    obtain rfl : frame.top parameters.length = arguments :=
      Option.some.inj (recorded.symm.trans ((DynamicArguments.mem_entries_iff sound.ascending).1 member))
    exact ⟨instruction, site, parameters, frame, at_index, operand, parsed, reached, offers.length_top, rfl⟩

/-- A method that makes a call, passes the result to a dynamic call, and goes on to make the dynamic
call with a constant. Its last instruction is never reached. -/
def dispatching : Method where
  name := "dispatch"
  descriptor := "()V"
  isStatic := true
  code := [⟨0, 0x01, .none⟩, ⟨1, 0x0a, .constant (.long 1)⟩, ⟨2, 0x05, .constant (.int 2)⟩,
    ⟨3, 0xb6, .invoke ⟨"Sink", "accept", "(JI)I", .virtual⟩⟩,
    ⟨6, 0xba, .invokeDynamic ⟨"apply", "(I)V", ⟨6, "Linker", "link", "()V"⟩⟩⟩,
    ⟨11, 0x06, .constant (.int 3)⟩, ⟨12, 0xa7, .jump 6⟩, ⟨15, 0xb8, .invoke ⟨"Sink", "flush", "()V", .static⟩⟩]

theorem dispatching_simulates : ∃ simulation stable, dispatching.simulate = .ok simulation ∧
    simulation.frames[4]? = some (some stable) ∧
    stable.stack.map (·.toFacets) = [⟨.int, .single 0 ∪ .single 1 ∪ .single 2 ∪ .single 5⟩] := by
  have accepted : dispatching.simulate.toOption.any (fun simulation =>
      simulation.frames[4]?.join.any (fun stable =>
        stable.stack.map (·.toFacets) = [⟨.int, .single 0 ∪ .single 1 ∪ .single 2 ∪ .single 5⟩])) = true := by
    decide +kernel
  obtain ⟨simulation, simulated, accepted⟩ := (Option.any_eq_true _ _).1 accepted
  obtain ⟨stable, found, facets⟩ := (Option.any_eq_true _ _).1 accepted
  exact ⟨simulation, stable, ok_of_toOption simulated, Option.join_eq_some_iff.1 found, of_decide_eq_true facets⟩

/-- The first execution of the dynamic call does not see the constant; the table does. -/
theorem simulate_dynamicArguments_agree_dispatching : ∃ simulation arguments,
    dispatching.simulate = .ok simulation ∧ (4, arguments) ∈ simulation.dynamicArguments.entries ∧
      arguments.map (·.toFacets) = [⟨.int, .single 0 ∪ .single 1 ∪ .single 2 ∪ .single 5⟩] := by
  obtain ⟨simulation, stable, simulated, reached, facets⟩ := dispatching_simulates
  obtain ⟨-, present, taken⟩ := simulate_dynamicArguments_agree simulated
  obtain ⟨arguments, member⟩ := (present 4).2 ⟨_, stable, rfl, rfl, reached⟩
  refine ⟨simulation, arguments, simulated, member, ?_⟩
  obtain ⟨instruction, site, parameters, frame, at_index, operand, parsed, reached', -, rfl⟩ :=
    taken 4 arguments member
  obtain rfl : stable = frame := by simpa [reached] using reached'
  obtain rfl : ⟨6, 0xba, .invokeDynamic ⟨"apply", "(I)V", ⟨6, "Linker", "link", "()V"⟩⟩⟩ = instruction :=
    Option.some.inj at_index
  cases operand
  have declared : Descriptor.operands "(I)V" = .ok [.int] := ok_of_toOption (by decide +kernel)
  obtain rfl : [.int] = parameters := Except.ok.inj (declared.symm.trans parsed)
  rw [List.map_reverse, List.map_take, facets]
  rfl

end Method
end CallProvenance
