import CallProvenance.Proofs.ArisingFrames

/-! Wide values in local slots. A wide value takes two slots, and the second holds nothing readable.
A store may overlap a pair from below, from above or across two pairs, and a join may mix frames
whose pairs lie differently; no frame of a simulation has a lower half without its upper half. -/
namespace CallProvenance

namespace Value

/-- Every wide value of the row is followed by an unreadable one. -/
def Paired (row : List Value) : Prop :=
  ∀ (i : Nat) (v : Value), row[i]? = some v → v.kind = .long ∨ v.kind = .double →
    ∃ w, row[i + 1]? = some w ∧ w.kind = .uninitialized

theorem size_eq_two {v : Value} : v.size = 2 ↔ v.kind = .long ∨ v.kind = .double := Kind.size_eq_two

theorem torn_narrow (v : Value) : ¬ (v.torn.kind = .long ∨ v.torn.kind = .double) := by
  unfold torn
  split
  · simp [unset, unknown]
  · rename_i narrow
    exact fun wide => narrow (size_eq_two.2 wide)

theorem torn_of_unreadable {v : Value} (lost : v.kind = .uninitialized) : v.torn = v := by
  simp [torn, size, lost, Kind.size]

namespace Paired

variable {row first second : List Value}

theorem of_narrow (narrow : ∀ v ∈ row, ¬ (v.kind = .long ∨ v.kind = .double)) : Paired row :=
  fun _ v found wide => absurd wide (narrow v (List.mem_of_getElem? found))

theorem append (left : Paired first) (right : Paired second) : Paired (first ++ second) := by
  intro i v found wide
  by_cases inside : i < first.length
  · rw [List.getElem?_append_left inside] at found
    obtain ⟨w, next, lost⟩ := left i v found wide
    have inside' := (List.getElem?_eq_some_iff.1 next).1
    exact ⟨w, by rw [List.getElem?_append_left inside', next], lost⟩
  · rw [List.getElem?_append_right (by omega)] at found
    obtain ⟨w, next, lost⟩ := right _ v found wide
    have shifted : i + 1 - first.length = i - first.length + 1 := by omega
    exact ⟨w, by rw [List.getElem?_append_right (by omega), shifted, next], lost⟩

/-- A store keeps pairs together, whatever it overlaps. -/
theorem write {slot : Nat} {value : Value} (paired : Paired row) (inside : slot + value.size ≤ row.length) :
    Paired (Frame.write row slot value) := by
  intro i v found wide
  rw [Frame.getElem?_write i inside] at found
  rw [Frame.getElem?_write (i + 1) inside]
  by_cases here : i = slot
  · -- The stored value brings its own upper half.
    rw [if_pos here] at found
    obtain rfl := Option.some.inj found
    have upper : i + 1 = slot + 1 ∧ value.size = 2 := ⟨by omega, size_eq_two.2 wide⟩
    rw [if_neg (by omega), if_pos upper]
    exact ⟨unset, rfl, rfl⟩
  rw [if_neg here] at found
  by_cases upper : i = slot + 1 ∧ value.size = 2
  · rw [if_pos upper] at found
    obtain rfl := Option.some.inj found
    simp [unset, unknown] at wide
  rw [if_neg upper] at found
  by_cases below : i + 1 = slot
  · rw [if_pos below] at found
    obtain ⟨u, -, rfl⟩ := Option.map_eq_some_iff.1 found
    exact absurd wide (torn_narrow u)
  -- A pair that begins elsewhere keeps its upper half, even if the store goes right above it.
  rw [if_neg below] at found
  obtain ⟨w, next, lost⟩ := paired i v found wide
  have apart : ¬ (i + 1 = slot + 1 ∧ value.size = 2) := by omega
  rw [if_neg below, if_neg apart, next, Option.map_some, torn_of_unreadable lost]
  exact ⟨w, by split <;> rfl, lost⟩

/-- A slot that is wide after a join was wide in the same way on both sides. -/
theorem join (left : Paired first) (right : Paired second) (same : first.length = second.length)
    (joined : IsJoin first second row) : Paired row := by
  intro i v found wide
  obtain ⟨u, u', at_left, at_right, facets⟩ := joined.getElem? found
  have kinds : v.kind = u.kind ⊔ u'.kind := congrArg Facets.kind facets
  have readable : u.kind ⊔ u'.kind ≠ .uninitialized := by
    rw [← kinds]
    rcases wide with wide | wide <;> simp [wide]
  obtain ⟨kind, kind'⟩ := Kind.eq_of_sup readable
  rw [← kinds] at kind kind'
  obtain ⟨w, next, lost⟩ := left i u at_left (by rwa [kind])
  obtain ⟨w', next', lost'⟩ := right i u' at_right (by rwa [kind'])
  have inside : i + 1 < row.length := by
    rw [joined.length same]
    exact (List.getElem?_eq_some_iff.1 next).1
  obtain ⟨z, z', at_left', at_right', facets'⟩ := joined.getElem? (List.getElem?_eq_getElem inside)
  obtain rfl : w = z := Option.some.inj (next.symm.trans at_left')
  obtain rfl : w' = z' := Option.some.inj (next'.symm.trans at_right')
  refine ⟨row[i + 1], List.getElem?_eq_getElem inside, ?_⟩
  have kinds' : row[i + 1].kind = w.kind ⊔ w'.kind := congrArg Facets.kind facets'
  rw [kinds', lost, lost', sup_idem]

end Paired
end Value

theorem Value.Paired.parameters (kinds : List Kind) :
    Paired (kinds.flatMap fun kind => if kind.size = 2 then [unknown kind, unset] else [unknown kind]) := by
  induction kinds with
  | nil => exact .of_narrow (by simp)
  | cons kind kinds ih =>
    rw [List.flatMap_cons]
    refine .append ?_ ih
    split
    · intro i v found wide
      rcases i with _ | _ | i
      · exact ⟨unset, rfl, rfl⟩
      · obtain rfl : unset = v := by simpa using found
        simp [unset, unknown] at wide
      · simp at found
    · rename_i narrow
      refine .of_narrow fun v member wide => narrow (Kind.size_eq_two.2 ?_)
      rwa [List.mem_singleton.1 member] at wide

theorem Method.entryLocals_paired {method : Method} {locals : List Value}
    (made : method.entryLocals = .ok locals) : Value.Paired locals := by
  obtain ⟨parameters, -, rest⟩ := except_bind_eq_ok.1 made
  cases rest
  have receiver : Value.Paired (if method.isStatic then [] else [Value.unknown .reference]) := by
    refine .of_narrow fun v member => ?_
    split at member
    · simp at member
    · simp [List.mem_singleton.1 member, Value.unknown]
  refine (receiver.append (.parameters parameters)).append (.of_narrow fun v member => ?_)
  simp [(List.mem_replicate.1 member).2, Value.unset, Value.unknown]

namespace Frame

variable {frame after current incoming joined : Frame} {history history' : History}

/-- Every wide local is followed by an unreadable slot. -/
def Paired (frame : Frame) : Prop := Value.Paired frame.locals

theorem Paired.set {slot : Nat} {value : Value} (paired : frame.Paired)
    (stored : frame.set slot value = .ok after) : after.Paired := by
  obtain ⟨inside, rfl⟩ := set_eq_ok.1 stored
  exact Value.Paired.write paired inside

theorem Paired.isJoin (left : current.Paired) (right : incoming.Paired)
    (join : IsJoin current incoming joined) : joined.Paired :=
  Value.Paired.join left right join.counts join.locals

theorem Paired.merge {answer : Option Frame} (left : current.Paired) (right : incoming.Paired)
    (merged : current.merge incoming history = .ok (answer, history')) : (answer.getD current).Paired := by
  rcases merge_eq_ok merged with ⟨rfl, -⟩ | ⟨joined, rfl, -, join⟩
  · exact left
  · exact left.isJoin right join

theorem Paired.upper {slot : Nat} {v : Value} (paired : frame.Paired) (found : frame.locals[slot]? = some v)
    (wide : v.kind = .long ∨ v.kind = .double) :
    ∃ w, frame.get (slot + 1) = .ok w ∧ w.kind = .uninitialized := by
  obtain ⟨w, next, lost⟩ := paired slot v found wide
  exact ⟨w, get_eq_ok.2 next, lost⟩

end Frame

theorem Action.perform_paired {action : Action} {index : Nat} {frame after : Frame} (paired : frame.Paired)
    (performed : action.perform index frame = .ok after) : after.Paired := by
  cases action with
  | keep => cases performed; exact paired
  | consume => obtain ⟨-, rfl⟩ := perform_consume.1 performed; exact paired
  | load => obtain ⟨_, -, -, -, rfl⟩ := perform_load.1 performed; exact paired
  | store => obtain ⟨_, _, -, -, inside, rfl⟩ := perform_store.1 performed; exact Value.Paired.write paired inside
  | increment =>
    obtain ⟨_, found, -, rfl⟩ := perform_increment.1 performed
    exact Value.Paired.write paired (Frame.int_fits found)
  | shuffle => obtain ⟨_, -, rfl⟩ := perform_shuffle.1 performed; exact paired
  | subroutineReturn => obtain ⟨_, -, -, rfl⟩ := perform_subroutineReturn.1 performed; exact paired

theorem Instruction.execute_paired {instruction : Instruction} {index : Nat} {frame after : Frame}
    (paired : frame.Paired) (executed : instruction.execute index frame = .ok after) : after.Paired := by
  rw [execute_eq] at executed
  obtain ⟨action, -, performed⟩ := except_bind_eq_ok.1 executed
  exact Action.perform_paired paired performed

theorem Method.Arises.paired {method : Method} {point : Nat} {frame : Frame} (arises : method.Arises point frame) :
    frame.Paired := by
  refine arises.induct (fun _ frame => frame.Paired) (fun {graph} _ => ?_) Frame.Paired.isJoin
  constructor
  · exact fun made => Method.entryLocals_paired made
  · intro point next frame after frame' action targets paired _ performed leaves
    cases leaves with
    | thrown => exact paired
    | completed => exact Action.perform_paired paired performed

section UpperHalf

variable {instruction : Instruction} {frame : Frame} {slot index : Nat} {v : Value}

theorem Instruction.load_upper {kind : Kind} (paired : frame.Paired) (found : frame.locals[slot]? = some v)
    (wide : v.kind = .long ∨ v.kind = .double) (loads : instruction.effect? = some (.load kind))
    (operand : instruction.operand = .slot (slot + 1)) :
    instruction.execute index frame = .error (.uninitializedSlot (slot + 1)) := by
  obtain ⟨w, next, lost⟩ := paired.upper found wide
  unfold execute
  simp only [loads, Instruction.slot, operand, next, lost, bind, Except.bind, if_true]

theorem Instruction.increment_upper (paired : frame.Paired) (found : frame.locals[slot]? = some v)
    (wide : v.kind = .long ∨ v.kind = .double) (increments : instruction.effect? = some .increment)
    (operand : instruction.operand = .increment (slot + 1)) :
    instruction.execute index frame = .error (.kindMismatch .int .uninitialized) := by
  obtain ⟨w, next, lost⟩ := paired.upper found wide
  unfold execute
  simp only [increments, incremented, operand, next, Value.expect, lost, bind, Except.bind, reduceCtorEq, if_false]

end UpperHalf

/-- All frames that arise in a simulation have the same number of slots, with every wide value in a
pair of them, and the upper slot of a pair can be neither loaded nor incremented. Stores to any
slot, joins and the execution of any instruction keep pairs together. -/
theorem Method.wide_locals_in_pairs (method : Method) :
    (∀ point frame, method.Arises point frame →
      (∀ point' frame', method.Arises point' frame' → frame'.locals.length = frame.locals.length) ∧
      frame.Paired ∧
      ∀ slot v index, frame.locals[slot]? = some v → v.kind = .long ∨ v.kind = .double →
        ∀ instruction : Instruction,
          (∀ kind, instruction.effect? = some (.load kind) → instruction.operand = .slot (slot + 1) →
            instruction.execute index frame = .error (.uninitializedSlot (slot + 1))) ∧
          (instruction.effect? = some .increment → instruction.operand = .increment (slot + 1) →
            instruction.execute index frame = .error (.kindMismatch .int .uninitialized))) ∧
    (∀ simulation point frame, method.simulate = .ok simulation →
      simulation.frames[point]? = some (some frame) → method.Arises point frame) ∧
    (∀ (frame after : Frame) slot value, frame.Paired → frame.set slot value = .ok after → after.Paired) ∧
    (∀ (current incoming : Frame) history answer history', current.Paired → incoming.Paired →
      current.merge incoming history = .ok (answer, history') → (answer.getD current).Paired) ∧
    (∀ (instruction : Instruction) index (frame after : Frame), frame.Paired →
      instruction.execute index frame = .ok after → after.Paired) := by
  refine ⟨?_, ?_, ?_, ?_, ?_⟩
  · intro point frame arises
    have paired := arises.paired
    refine ⟨fun point' frame' => arises.same_count, paired, ?_⟩
    intro slot v index found wide instruction
    exact ⟨fun kind => Instruction.load_upper paired found wide, Instruction.increment_upper paired found wide⟩
  · exact fun simulation point frame => arises_of_simulate
  · exact fun frame after slot value => Frame.Paired.set
  · exact fun current incoming history answer history' => Frame.Paired.merge
  · exact fun instruction index frame after => Instruction.execute_paired

/-- A method that stores its first parameter across the slots of both. -/
def Method.straddling : Method where
  name := "straddle"
  descriptor := "(JD)V"
  isStatic := true
  maxLocals := 4
  code := [⟨0, 0x1e, .slot 0⟩, ⟨1, 0x40, .slot 1⟩, ⟨2, 0xb1, .none⟩]

theorem Method.wide_locals_in_pairs_straddling :
    ∃ frame, straddling.Arises 2 frame ∧ frame.Paired ∧
      frame.locals.map (·.kind) = [.uninitialized, .long, .uninitialized, .uninitialized] ∧
      (⟨3, 0x1c, .slot 2⟩ : Instruction).execute 3 frame = .error (.uninitializedSlot 2) := by
  have accepted : straddling.simulate.toOption.any (fun simulation => simulation.frames[2]?.join.any (fun frame =>
      frame.locals.map (·.kind) = [.uninitialized, .long, .uninitialized, .uninitialized])) = true := by
    decide +kernel
  obtain ⟨simulation, simulated, accepted⟩ := (Option.any_eq_true _ _).1 accepted
  obtain ⟨frame, found, kinds⟩ := (Option.any_eq_true _ _).1 accepted
  have kinds := of_decide_eq_true kinds
  obtain ⟨arising, answers, -⟩ := wide_locals_in_pairs straddling
  have arises := answers simulation 2 frame (ok_of_toOption simulated) (Option.join_eq_some_iff.1 found)
  obtain ⟨-, paired, unreadable⟩ := arising 2 frame arises
  obtain ⟨v, at_one, kind⟩ := value_of_kinds kinds (i := 1) rfl
  have load : (⟨3, 0x1c, .slot 2⟩ : Instruction).effect? = some (.load .int) := by decide +kernel
  exact ⟨frame, arises, paired, kinds, (unreadable 1 v 3 at_one (.inl kind) _).1 _ load rfl⟩

end CallProvenance
