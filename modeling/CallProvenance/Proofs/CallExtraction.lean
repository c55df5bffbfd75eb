import CallProvenance.Proofs.DynamicArguments
import Mathlib.Data.List.Forall2

/-! The calls of a simulated method. Taking them from the stable frames cannot fail, as each call that
is reached executes on its stable frame: it finds its receiver and its arguments there. -/
namespace CallProvenance

namespace Operand

def target? : Operand → Option CallTarget
  | .invoke site => some (.method site)
  | .invokeDynamic site => some (.dynamic site)
  | _ => Option.none

/-- An operand that names a call stands on an opcode of such calls. -/
def fits (opcode : UInt8) : Operand → Bool
  | .invoke _ => opcode ∈ Opcode.invokes
  | .invokeDynamic _ => opcode = Opcode.invokeDynamic
  | _ => true

end Operand

/-- Operands that name calls occur on call opcodes only. -/
def Method.CallsMatch (method : Method) : Prop :=
  ∀ instruction ∈ method.code, instruction.operand.fits instruction.opcode = true

instance (method : Method) : Decidable method.CallsMatch :=
  inferInstanceAs (Decidable (∀ instruction ∈ method.code, instruction.operand.fits instruction.opcode = true))

namespace CallTarget

def descriptor : CallTarget → String
  | .method site => site.descriptor
  | .dynamic site => site.descriptor

/-- Static and dynamic calls have no receiver. -/
def takesReceiver : CallTarget → Bool
  | .method site => site.kind ≠ .static
  | .dynamic _ => false

end CallTarget

namespace Call

/-- The values of a call stand on top of the stack, the last argument uppermost and the receiver
directly below the arguments. -/
structure TakenFrom (call : Call) (frame : Frame) (parameters : List Kind) : Prop where
  arity : call.arguments.length = parameters.length
  argument : ∀ k < parameters.length, call.arguments[k]? = frame.stack[parameters.length - k - 1]?
  kinds : call.arguments.map (·.kind) = parameters
  present : call.receiver.isSome = call.target.takesReceiver
  receiver : ∀ value, call.receiver = some value →
    frame.stack[parameters.length]? = some value ∧ value.kind = .reference

theorem takenFrom_top {frame : Frame} {parameters : List Kind} (offers : frame.Offers parameters)
    {line : Option Nat} {target : CallTarget} {receiver : Option Value}
    (present : receiver.isSome = target.takesReceiver)
    (below : ∀ value, receiver = some value →
      frame.stack[parameters.length]? = some value ∧ value.kind = .reference) :
    TakenFrom ⟨line, target, receiver, frame.top parameters.length⟩ frame parameters where
  arity := offers.length_top
  argument _ inside := Frame.getElem?_top offers.le_height inside
  kinds := offers.map_kind_top
  present := present
  receiver := below

end Call

def Instruction.isCall (instruction : Instruction) : Bool :=
  instruction.opcode ∈ Opcode.invokes ∨ instruction.opcode = Opcode.invokeDynamic

theorem Instruction.isCall_of_target {instruction : Instruction} {target : CallTarget}
    (fits : instruction.operand.fits instruction.opcode = true)
    (calls : instruction.operand.target? = some target) : instruction.isCall = true := by
  unfold isCall
  cases operand : instruction.operand with
  | invoke site =>
    rw [operand] at fits
    exact decide_eq_true (.inl (of_decide_eq_true fits))
  | invokeDynamic site =>
    rw [operand] at fits
    exact decide_eq_true (.inr (of_decide_eq_true fits))
  | _ =>
    rw [operand] at calls
    cases calls

/-- Optional results of a fallible map, if it is known where there is one. -/
theorem exists_mapM_filterMap {ε α β : Type} {f : α → Except ε (Option β)} {keep : α → Bool} {related : α → β → Prop}
    {xs : List α} (kept : ∀ x ∈ xs, keep x = true → ∃ y, f x = .ok (some y) ∧ related x y)
    (dropped : ∀ x ∈ xs, keep x = false → f x = .ok none) :
    ∃ ys, xs.mapM f = .ok ys ∧ List.Forall₂ related (xs.filter keep) (ys.filterMap id) := by
  induction xs with
  | nil => exact ⟨[], rfl, .nil⟩
  | cons x xs ih =>
    obtain ⟨ys, mapped, aligned⟩ := ih (fun x member => kept x (List.mem_cons_of_mem _ member))
      fun x member => dropped x (List.mem_cons_of_mem _ member)
    cases keeps : keep x with
    | true =>
      obtain ⟨y, made, holds⟩ := kept x List.mem_cons_self keeps
      refine ⟨some y :: ys, by rw [List.mapM_cons, made, mapped]; rfl, ?_⟩
      rw [List.filter_cons_of_pos keeps]
      exact .cons holds aligned
    | false =>
      have made := dropped x List.mem_cons_self keeps
      refine ⟨none :: ys, by rw [List.mapM_cons, made, mapped]; rfl, ?_⟩
      rw [List.filter_cons_of_neg (by simp [keeps])]
      exact aligned

namespace Simulation

variable {simulation : Simulation} {method : Method} {instruction : Instruction} {index : Nat}
  {frame : Frame} {line : Option Nat}

def CallAt (simulation : Simulation) (method : Method) (index : Nat) (call : Call) : Prop :=
  ∃ instruction frame parameters, method.code[index]? = some instruction ∧
    simulation.frames[index]? = some (some frame) ∧ instruction.operand.target? = some call.target ∧
    Descriptor.operands call.target.descriptor = .ok parameters ∧ method.lineOfEach[index]? = some call.line ∧
    call.TakenFrom frame parameters

def reachesCall (simulation : Simulation) (row : Instruction × Nat) : Bool :=
  row.1.isCall && simulation.frames[row.2]?.join.isSome

def reachedCalls (simulation : Simulation) (method : Method) : List Nat :=
  (method.code.zipIdx.filter simulation.reachesCall).map (·.2)

theorem callAt_invoke {site : CallSite} {parameters : List Kind}
    (reached : simulation.frames[index]? = some (some frame)) (operand : instruction.operand = .invoke site)
    (parsed : Descriptor.operands site.descriptor = .ok parameters)
    (offers : frame.Offers (site.operands parameters)) (line : Option Nat) :
    ∃ call, simulation.callAt instruction index line = .ok (some call) ∧ call.line = line ∧
      instruction.operand.target? = some call.target ∧
      Descriptor.operands call.target.descriptor = .ok parameters ∧ call.TakenFrom frame parameters := by
  unfold callAt
  simp only [reached, Option.join_some, operand, parsed]
  by_cases static : site.kind = .static
  · rw [CallSite.operands, if_pos static] at offers
    refine ⟨⟨line, .method site, none, frame.top parameters.length⟩, ?_, rfl, rfl, parsed, ?_⟩
    · change (if site.kind = .static then _ else _) = _
      rw [if_pos static, offers.peekN]
      rfl
    · exact Call.takenFrom_top offers (by simp [CallTarget.takesReceiver, static]) nofun
  · rw [CallSite.operands, if_neg static] at offers
    obtain ⟨upper, receiver, deepest, kind⟩ := offers.cons
    refine ⟨⟨line, .method site, some receiver, frame.top parameters.length⟩, ?_, rfl, rfl, parsed, ?_⟩
    · have taken : frame.peekN (parameters.length + 1) = .ok (receiver :: frame.top parameters.length) :=
        Frame.top_succ deepest ▸ offers.peekN
      change (if site.kind = .static then _ else _) = _
      rw [if_neg static, taken]
      rfl
    · refine Call.takenFrom_top upper (by simp [CallTarget.takesReceiver, static]) fun value same => ?_
      exact Option.some.inj same ▸ ⟨deepest, kind⟩

theorem callAt_invokeDynamic {site : DynamicSite} {parameters : List Kind}
    (reached : simulation.frames[index]? = some (some frame)) (operand : instruction.operand = .invokeDynamic site)
    (parsed : Descriptor.operands site.descriptor = .ok parameters) (offers : frame.Offers parameters)
    (recorded : simulation.dynamicArguments.find? index = some (frame.top parameters.length)) (line : Option Nat) :
    ∃ call, simulation.callAt instruction index line = .ok (some call) ∧ call.line = line ∧
      instruction.operand.target? = some call.target ∧
      Descriptor.operands call.target.descriptor = .ok parameters ∧ call.TakenFrom frame parameters := by
  refine ⟨⟨line, .dynamic site, none, frame.top parameters.length⟩, ?_, rfl, by rw [operand]; rfl, parsed,
    Call.takenFrom_top offers rfl nofun⟩
  unfold callAt
  simp only [reached, Option.join_some, operand, recorded]
  rfl

theorem callAt_reached (simulated : method.simulate = .ok simulation)
    (found : method.code[index]? = some instruction) (at_line : method.lineOfEach[index]? = some line)
    (reaches : simulation.reachesCall (instruction, index) = true) :
    ∃ call, simulation.callAt instruction index line = .ok (some call) ∧ simulation.CallAt method index call := by
  obtain ⟨calls, reached⟩ := Bool.and_eq_true_iff.1 reaches
  obtain ⟨frame, reached⟩ := Option.isSome_iff_exists.1 reached
  replace reached := Option.join_eq_some_iff.1 reached
  -- The instruction has executed on its stable frame, so the frame offers what the call takes.
  rcases of_decide_eq_true calls with invokes | dynamic
  · obtain ⟨graph, built⟩ := Method.exists_graph simulated
    obtain ⟨s, flows, s', sent⟩ := Method.simulate_transfers built simulated reached
    obtain ⟨site, parameters, operand, parsed, offers⟩ := FlowGraph.offers_of_invoke sent
      (FlowGraph.ofMethod_method built ▸ found) ((Opcode.effect_eq_invoke _).2 invokes)
    obtain ⟨call, made, rfl, target, declared, taken⟩ := callAt_invoke reached operand parsed offers line
    exact ⟨call, made, instruction, frame, parameters, found, reached, target, declared, at_line, taken⟩
  · obtain ⟨site, parameters, operand, parsed, offers, recorded⟩ :=
      Method.simulate_dynamicCall simulated reached found ((Opcode.effect_eq_invokeDynamic _).2 dynamic)
    obtain ⟨call, made, rfl, target, declared, taken⟩ :=
      callAt_invokeDynamic reached operand parsed offers recorded line
    exact ⟨call, made, instruction, frame, parameters, found, reached, target, declared, at_line, taken⟩

theorem callAt_other (fits : instruction.operand.fits instruction.opcode = true)
    (other : simulation.reachesCall (instruction, index) = false) :
    simulation.callAt instruction index line = .ok none := by
  unfold callAt
  cases reached : simulation.frames[index]?.join with
  | none => rfl
  | some frame =>
    cases operand : instruction.operand with
    | invoke | invokeDynamic =>
      have calls := Instruction.isCall_of_target fits (by rw [operand]; rfl)
      simp [reachesCall, calls, reached] at other
    | _ => rfl

end Simulation

namespace Method

variable {method : Method} {simulation : Simulation}

theorem length_foldl_snd {α β γ : Type} {step : γ × List β → α → γ × List β}
    (grows : ∀ state a, (step state a).2.length = state.2.length + 1) (xs : List α) (state : γ × List β) :
    (xs.foldl step state).2.length = state.2.length + xs.length := by
  induction xs generalizing state with
  | nil => rfl
  | cons x xs ih =>
    rw [List.foldl_cons, ih, grows, List.length_cons]
    omega

theorem length_lineOfEach (method : Method) : method.lineOfEach.length = method.code.length := by
  unfold lineOfEach
  rw [List.length_reverse, length_foldl_snd fun _ _ => rfl, List.length_nil, Nat.zero_add]

/-- The instructions in order, each with its position and its line. -/
def rows (method : Method) : List ((Instruction × Nat) × Option Nat) := method.code.zipIdx.zip method.lineOfEach

theorem mem_rows {instruction : Instruction} {index : Nat} {line : Option Nat}
    (member : ((instruction, index), line) ∈ method.rows) :
    method.code[index]? = some instruction ∧ method.lineOfEach[index]? = some line := by
  obtain ⟨i, row⟩ := List.mem_iff_getElem?.1 member
  obtain ⟨numbered, at_line⟩ := List.getElem?_zip_eq_some.1 row
  rw [List.getElem?_zipIdx, Option.map_eq_some_iff] at numbered
  obtain ⟨_, found, same⟩ := numbered
  cases same
  rw [Nat.zero_add]
  exact ⟨found, at_line⟩

theorem filter_rows (keep : Instruction × Nat → Bool) (method : Method) :
    (method.code.zipIdx.filter keep).map (·.2) = (method.rows.filter fun row => keep row.1).map (·.1.2) := by
  have first : method.rows.map Prod.fst = method.code.zipIdx :=
    List.map_fst_zip (by rw [List.length_zipIdx, length_lineOfEach])
  rw [← first, List.filter_map, List.map_map]
  rfl

theorem calls_eq_ok {calls : List Call} : simulation.calls method = .ok calls ↔
    ∃ found, method.rows.mapM (fun row => simulation.callAt row.1.1 row.1.2 row.2) = .ok found ∧
      found.filterMap id = calls := by
  change (method.rows.mapM (fun row => simulation.callAt row.1.1 row.1.2 row.2) >>= _) = _ ↔ _
  simp only [except_bind_eq_ok]
  exact exists_congr fun found => and_congr_right fun _ => ⟨Except.ok.inj, congrArg Except.ok⟩

theorem exists_found (matched : method.CallsMatch) (simulated : method.simulate = .ok simulation) :
    ∃ found, method.rows.mapM (fun row => simulation.callAt row.1.1 row.1.2 row.2) = .ok found ∧
      List.Forall₂ (fun row call => simulation.CallAt method row.1.2 call)
        (method.rows.filter fun row => simulation.reachesCall row.1) (found.filterMap id) := by
  refine exists_mapM_filterMap ?_ ?_
  · rintro ⟨⟨instruction, index⟩, line⟩ member reaches
    obtain ⟨found, at_line⟩ := mem_rows member
    exact Simulation.callAt_reached simulated found at_line reaches
  · rintro ⟨⟨instruction, index⟩, line⟩ member other
    have fits := matched instruction (List.mem_of_getElem? (mem_rows member).1)
    exact Simulation.callAt_other fits other

/-- The calls of a simulated method are one record for each call that is reached, in instruction order.
Each holds the values that the call finds in its stable frame. -/
theorem simulate_calls_aligned (matched : method.CallsMatch) (simulated : method.simulate = .ok simulation) :
    ∃ calls, simulation.calls method = .ok calls ∧
      List.Forall₂ (simulation.CallAt method) (simulation.reachedCalls method) calls := by
  obtain ⟨found, mapped, aligned⟩ := exists_found matched simulated
  refine ⟨found.filterMap id, calls_eq_ok.2 ⟨found, mapped, rfl⟩, ?_⟩
  rw [Simulation.reachedCalls, filter_rows]
  exact List.forall₂_map_left_iff.2 aligned

/-- The call that is never reached has no record. -/
theorem simulate_calls_aligned_dispatching : ∃ simulation accept apply, dispatching.CallsMatch ∧
    dispatching.simulate = .ok simulation ∧ simulation.calls dispatching = .ok [accept, apply] ∧
    simulation.CallAt dispatching 3 accept ∧ simulation.CallAt dispatching 4 apply := by
  have matched : dispatching.CallsMatch := by decide
  have accepted : dispatching.simulate.toOption.any
      (fun simulation => simulation.reachedCalls dispatching = [3, 4]) = true := by
    decide +kernel
  obtain ⟨simulation, simulated, accepted⟩ := (Option.any_eq_true _ _).1 accepted
  replace simulated := ok_of_toOption simulated
  obtain ⟨calls, made, aligned⟩ := simulate_calls_aligned matched simulated
  rw [of_decide_eq_true accepted] at aligned
  obtain ⟨accept, _, first, later, rfl⟩ := List.forall₂_cons_left_iff.1 aligned
  obtain ⟨apply, _, second, none_left, rfl⟩ := List.forall₂_cons_left_iff.1 later
  obtain rfl := List.forall₂_nil_left_iff.1 none_left
  exact ⟨simulation, accept, apply, matched, simulated, made, first, second⟩

end Method
end CallProvenance
