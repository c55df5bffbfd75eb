import CallProvenance.Proofs.CallExtraction
import CallProvenance.Proofs.LinearSweep

/-! Which handlers protect an instruction. A handler table gives ranges of offsets, and the flow graph turns each into
the positions of the first and the last instruction that start in it. For code that is in order no instruction between
these two starts outside the range, so that a thrown value flows to exactly the handlers whose ranges hold the offset
of the instruction, in the order of the table. -/
namespace CallProvenance

theorem HandlerRange.covers_iff {range : HandlerRange} {offset : Nat} :
    range.covers offset = true ↔ range.start ≤ offset ∧ offset < range.stop := by simp [covers]

namespace Method

variable {method : Method} {range : HandlerRange}

def startsIn (method : Method) (range : HandlerRange) : Bool :=
  method.code.any fun instruction => range.covers instruction.offset

/-- The row cannot be used: its range is empty, or no instruction starts at its handler. -/
def Rejects (method : Method) (range : HandlerRange) : Prop :=
  range.stop ≤ range.start ∨ ∀ instruction ∈ method.code, instruction.offset ≠ range.handler

/-- The protection stands for the row: it leads to the row's handler, and it protects the instructions whose
offsets lie in the row's range. -/
structure Resolves (method : Method) (range : HandlerRange) (protection : Protection) : Prop where
  entry : ∃ instruction, method.code[protection.entry]? = some instruction ∧ instruction.offset = range.handler
  protects : ∀ (i : Nat) (instruction : Instruction), method.code[i]? = some instruction →
    protection.protects i = range.covers instruction.offset

/-- The flow to the handler of a row: the locals as they are, and on the stack one reference of unknown origin. -/
def Catches (method : Method) (frame : Frame) (range : HandlerRange) (flow : Nat × Frame) : Prop :=
  (∃ instruction, method.code[flow.1]? = some instruction ∧ instruction.offset = range.handler) ∧
    flow.2 = ⟨frame.locals, [.unknown .reference]⟩

end Method

namespace FlowGraph

variable {method : Method} {graph : FlowGraph} {range : HandlerRange} {offset index : Nat}

section Least

variable {α : Type} {before : α → α → Bool} {xs : List α} {a x : α}

theorem leastBy_eq_none : leastBy before xs = none ↔ xs = [] := by
  cases xs <;> simp [leastBy]

theorem leastBy_eq_some (asymm : ∀ a b, before a b = true → before b a = false)
    (trans : ∀ a b c, before b a = false → before c b = false → before c a = false)
    (found : leastBy before xs = some x) : x ∈ xs ∧ ∀ y ∈ xs, before y x = false := by
  have irrefl : ∀ a, before a a = false := by
    intro a
    cases same : before a a with
    | false => rfl
    | true => exact absurd (asymm a a same) (by simp [same])
  have fold : ∀ (rest : List α) (a : α),
      let least := rest.foldl (fun least b => if before b least then b else least) a
      least ∈ a :: rest ∧ ∀ y ∈ a :: rest, before y least = false := by
    intro rest
    induction rest with
    | nil => simp [irrefl]
    | cons b rest ih =>
      intro a
      rw [List.foldl_cons]
      by_cases earlier : before b a = true
      · rw [if_pos earlier]
        obtain ⟨member, first⟩ := ih b
        refine ⟨List.mem_cons_of_mem _ member, ?_⟩
        rintro y (_ | ⟨_, later⟩)
        · exact trans _ b _ (first b List.mem_cons_self) (asymm b a earlier)
        · exact first y later
      · rw [if_neg earlier]
        obtain ⟨member, first⟩ := ih a
        have head := first a List.mem_cons_self
        refine ⟨?_, ?_⟩
        · rcases List.mem_cons.1 member with same | later
          · exact List.mem_cons.2 (.inl same)
          · exact List.mem_cons_of_mem _ (List.mem_cons_of_mem _ later)
        · rintro y (_ | ⟨_, _ | ⟨_, later⟩⟩)
          · exact head
          · exact trans _ a _ head (by simpa using earlier)
          · exact first y (List.mem_cons_of_mem _ later)
  cases xs with
  | nil => simp [leastBy] at found
  | cons a rest =>
    rw [leastBy, Option.some.injEq] at found
    exact found ▸ fold rest a

end Least

theorem mem_positionsOf : (offset, index) ∈ positionsOf method ↔
    ∃ instruction, method.code[index]? = some instruction ∧ instruction.offset = offset := by
  simp only [positionsOf, List.mem_reverse, List.mem_map, Prod.exists, Prod.mk.injEq, List.mk_mem_zipIdx_iff_getElem?]
  constructor
  · rintro ⟨instruction, _, found, same, rfl⟩
    exact ⟨instruction, found, same⟩
  · rintro ⟨instruction, found, same⟩
    exact ⟨instruction, index, found, same, rfl⟩

theorem positionAt_eq_error :
    (∃ cause, positionAt (positionsOf method) offset = .error cause) ↔
      ∀ instruction ∈ method.code, instruction.offset ≠ offset := by
  constructor
  · rintro ⟨cause, failed⟩ instruction member same
    obtain ⟨i, found⟩ := List.mem_iff_getElem?.1 member
    have listed : (offset, i) ∈ positionsOf method := mem_positionsOf.2 ⟨instruction, found, same⟩
    unfold positionAt at failed
    split at failed
    · cases failed
    · rename_i absent
      exact absurd (List.find?_eq_none.1 absent _ listed) (by simp)
  · intro absent
    unfold positionAt
    split
    · rename_i at_offset i found
      obtain ⟨instruction, there, rfl⟩ := mem_positionsOf.1 (List.mem_of_find?_eq_some found)
      have same : instruction.offset = offset := by simpa using List.find?_some found
      exact absurd same (absent instruction (List.mem_of_getElem? there))
    · exact ⟨_, rfl⟩

/-- The first and the last instruction that start in a range bound the positions of all that do. -/
theorem protects_of_ends {covered : List (Nat × Nat)} {first last : Nat × Nat} (inOrder : method.InOrder)
    (all : covered = (positionsOf method).filter fun row => range.covers row.1)
    (least : leastBy (fun a b => a.1 < b.1) covered = some first)
    (greatest : leastBy (fun a b => b.1 < a.1) covered = some last) (entry : Nat) {i : Nat} {instruction : Instruction}
    (found : method.code[i]? = some instruction) :
    Protection.protects ⟨first.2, last.2, entry⟩ i = range.covers instruction.offset := by
  subst all
  obtain ⟨firstIn, firstLeast⟩ := leastBy_eq_some (by simp; omega) (by simp; omega) least
  obtain ⟨lastIn, lastGreatest⟩ := leastBy_eq_some (by simp; omega) (by simp; omega) greatest
  obtain ⟨firstListed, firstCovered⟩ := List.mem_filter.1 firstIn
  obtain ⟨lastListed, lastCovered⟩ := List.mem_filter.1 lastIn
  obtain ⟨firstInstruction, atFirst, sameFirst⟩ := mem_positionsOf.1 firstListed
  obtain ⟨lastInstruction, atLast, sameLast⟩ := mem_positionsOf.1 lastListed
  have fromFirst := inOrder.le_iff atFirst found
  have toLast := inOrder.le_iff found atLast
  rw [HandlerRange.covers_iff] at firstCovered lastCovered
  rw [Bool.eq_iff_iff, HandlerRange.covers_iff, Protection.protects, Bool.and_eq_true, decide_eq_true_eq,
    decide_eq_true_eq, ← fromFirst, ← toLast]
  constructor
  · rintro ⟨behindFirst, beforeLast⟩
    omega
  · intro covers
    have listed : (instruction.offset, i) ∈ (positionsOf method).filter fun row => range.covers row.1 :=
      List.mem_filter.2 ⟨mem_positionsOf.2 ⟨instruction, found, rfl⟩, HandlerRange.covers_iff.2 covers⟩
    have notBefore := firstLeast _ listed
    have notBehind := lastGreatest _ listed
    simp only [decide_eq_false_iff_not] at notBefore notBehind
    omega

theorem exists_positionAt (valid : ¬method.Rejects range) :
    ∃ entry, positionAt (positionsOf method) range.handler = .ok entry := by
  cases position : positionAt (positionsOf method) range.handler with
  | error cause => exact absurd (positionAt_eq_error.1 ⟨cause, position⟩) (not_or.1 valid).2
  | ok entry => exact ⟨entry, rfl⟩

theorem mem_covered : (∃ row, row ∈ (positionsOf method).filter fun row => range.covers row.1) ↔
    method.startsIn range = true := by
  simp only [List.mem_filter, Prod.exists, mem_positionsOf, Method.startsIn, List.any_eq_true]
  constructor
  · rintro ⟨offset, i, ⟨instruction, found, rfl⟩, covers⟩
    exact ⟨instruction, List.mem_of_getElem? found, covers⟩
  · rintro ⟨instruction, member, covers⟩
    obtain ⟨i, found⟩ := List.mem_iff_getElem?.1 member
    exact ⟨instruction.offset, i, ⟨instruction, found, rfl⟩, covers⟩

theorem protection_unused (valid : ¬method.Rejects range) (unused : method.startsIn range = false) :
    protection (positionsOf method) range = .ok none := by
  obtain ⟨entry, position⟩ := exists_positionAt valid
  have empty : ((positionsOf method).filter fun row => range.covers row.1) = [] := by
    refine List.eq_nil_iff_forall_not_mem.2 fun row member => ?_
    rw [mem_covered.1 ⟨row, member⟩] at unused
    cases unused
  unfold protection
  rw [if_neg (not_or.1 valid).1, position, empty]
  rfl

theorem protection_used (inOrder : method.InOrder) (valid : ¬method.Rejects range)
    (used : method.startsIn range = true) :
    ∃ handler, protection (positionsOf method) range = .ok (some handler) ∧ method.Resolves range handler := by
  obtain ⟨entry, position⟩ := exists_positionAt valid
  obtain ⟨row, member⟩ := mem_covered.2 used
  have ends : ∀ before, ∃ row,
      leastBy before ((positionsOf method).filter fun row => range.covers row.1) = some row := by
    intro before
    refine Option.ne_none_iff_exists'.1 fun none => ?_
    rw [leastBy_eq_none.1 none] at member
    cases member
  obtain ⟨first, least⟩ := ends fun a b => a.1 < b.1
  obtain ⟨last, greatest⟩ := ends fun a b => b.1 < a.1
  refine ⟨⟨first.2, last.2, entry⟩, ?_, mem_positionsOf.1 (positionAt_mem position), fun i instruction found => ?_⟩
  · unfold protection
    rw [if_neg (not_or.1 valid).1, position, ok_bind]
    simp only [least, greatest]
    rfl
  · exact protects_of_ends inOrder rfl least greatest entry found

/-- A row is refused exactly if its range is empty or its handler is no instruction. -/
theorem protection_eq_error :
    (∃ cause, protection (positionsOf method) range = .error cause) ↔ method.Rejects range := by
  constructor
  · rintro ⟨cause, failed⟩
    by_contra valid
    obtain ⟨entry, position⟩ := exists_positionAt valid
    unfold protection at failed
    rw [if_neg (not_or.1 valid).1, position, ok_bind] at failed
    dsimp only at failed
    split at failed <;> cases failed
  · intro rejects
    unfold protection
    split
    · exact ⟨_, rfl⟩
    · rename_i nonempty
      obtain ⟨cause, failed⟩ := positionAt_eq_error.2 (rejects.resolve_left nonempty)
      rw [failed]
      exact ⟨cause, rfl⟩

/-- A handler table is refused exactly if one of its rows is. -/
theorem ofMethod_eq_error :
    (∃ cause, ofMethod method = .error cause) ↔ ∃ range ∈ method.handlers, method.Rejects range := by
  simp only [← protection_eq_error]
  have stops : ∀ ranges : List HandlerRange, (∃ cause, ranges.mapM (protection (positionsOf method)) = .error cause) ↔
      ∃ range ∈ ranges, ∃ cause, protection (positionsOf method) range = .error cause := by
    intro ranges
    induction ranges with
    | nil => simp [pure, Except.pure]
    | cons range ranges ih =>
      rw [List.mapM_cons]
      cases first : protection (positionsOf method) range with
      | error cause => simp [bind, Except.bind, first]
      | ok handler =>
        rw [ok_bind]
        cases later : ranges.mapM (protection (positionsOf method)) with
        | error cause => simpa [bind, Except.bind, first, later] using ih
        | ok handlers => simpa [bind, Except.bind, pure, Except.pure, first, later] using ih
  rw [← stops, ofMethod]
  cases method.handlers.mapM (protection (positionsOf method)) with
  | error cause => exact ⟨fun _ => ⟨cause, rfl⟩, fun _ => ⟨cause, rfl⟩⟩
  | ok handlers => exact ⟨nofun, nofun⟩

/-- The protections of a graph are the rows whose ranges hold the start of an instruction, in the order of the table. -/
theorem ofMethod_resolves (inOrder : method.InOrder) (built : ofMethod method = .ok graph) :
    List.Forall₂ method.Resolves (method.handlers.filter method.startsIn) graph.protections := by
  have valid : ∀ range ∈ method.handlers, ¬method.Rejects range := by
    intro range member rejects
    obtain ⟨cause, failed⟩ := ofMethod_eq_error.2 ⟨range, member, rejects⟩
    cases built.symm.trans failed
  obtain ⟨found, mapped, aligned⟩ := exists_mapM_filterMap
    (fun range member used => protection_used inOrder (valid range member) used)
    (fun range member unused => protection_unused (valid range member) unused)
  obtain ⟨rows, resolved, rest⟩ := except_bind_eq_ok.1 built
  cases rest
  cases mapped.symm.trans resolved
  exact aligned

/-- A thrown value flows to the handlers of the rows whose ranges hold the offset of the instruction. -/
theorem thrown_catches (inOrder : method.InOrder) (built : ofMethod method = .ok graph) {i : Nat}
    {instruction : Instruction} (found : method.code[i]? = some instruction) (frame : Frame) :
    List.Forall₂ (method.Catches frame) (method.handlers.filter (·.covers instruction.offset))
      ((graph.protections.filter (·.protects i)).map fun handler => (handler.entry, frame.caught)) := by
  have used : method.handlers.filter (·.covers instruction.offset) =
      (method.handlers.filter method.startsIn).filter (·.covers instruction.offset) := by
    rw [List.filter_filter]
    refine List.filter_congr fun range _ => ?_
    cases covers : range.covers instruction.offset with
    | false => rfl
    | true => exact (List.any_eq_true.2 ⟨instruction, List.mem_of_getElem? found, covers⟩).symm
  have resolved : List.Forall₂ method.Resolves (method.handlers.filter (·.covers instruction.offset))
      (graph.protections.filter (·.protects i)) := by
    rw [used]
    refine List.rel_filter (fun range handler resolves => ?_) (ofMethod_resolves inOrder built)
    exact (Bool.eq_iff_iff.1 (resolves.protects i instruction found)).symm
  exact List.forall₂_map_right_iff.2 (resolved.imp fun range handler resolves => ⟨resolves.entry, rfl⟩)

end FlowGraph

/-- A handler table is refused exactly if a row has an empty range or a handler that is no instruction. Otherwise an
instruction of code that is in order, as decoded code is, sends what is thrown to the handlers of the rows whose
ranges hold its offset, once for each row and in the order of the table, and apart from that sends only what it
leaves behind to its successors. -/
theorem Method.handlers_follow_ranges (method : Method) :
    (∀ pool bootstraps code, Bytecode.decode pool bootstraps code = .ok method.code → method.InOrder) ∧
    ((∃ cause, FlowGraph.ofMethod method = .error cause) ↔ ∃ range ∈ method.handlers, method.Rejects range) ∧
    ∀ graph, method.InOrder → FlowGraph.ofMethod method = .ok graph →
      List.Forall₂ method.Resolves (method.handlers.filter method.startsIn) graph.protections ∧
      ∀ (i : Nat) (instruction : Instruction) (frame : Frame), method.code[i]? = some instruction →
        ∃ thrown, List.Forall₂ (method.Catches frame) (method.handlers.filter (·.covers instruction.offset)) thrown ∧
          ∀ notes flows, (∃ notes', graph.transfer i frame notes = .ok flows notes') ↔
            ∃ after targets, instruction.execute i frame = .ok after ∧ graph.successors i instruction = .ok targets ∧
              flows = thrown ++ targets.map fun target => (target, after) := by
  refine ⟨fun _ _ _ => Bytecode.inOrder_of_decode, FlowGraph.ofMethod_eq_error, fun graph inOrder built => ?_⟩
  refine ⟨FlowGraph.ofMethod_resolves inOrder built, fun i instruction frame found => ?_⟩
  refine ⟨_, FlowGraph.thrown_catches inOrder built found frame, fun notes flows => ⟨?_, ?_⟩⟩
  · rintro ⟨notes', sent⟩
    exact FlowGraph.transfer_flows (FlowGraph.ofMethod_method built ▸ found) sent
  · rintro ⟨after, targets, executed, leads, rfl⟩
    exact FlowGraph.transfer_of_execute (FlowGraph.ofMethod_method built ▸ found) executed leads notes

/-- Of the rows the first protects nothing, the second starts inside an instruction, and the third goes on behind
the end of the code. -/
def Method.shielded : Method where
  name := "shield"
  descriptor := "()V"
  isStatic := true
  code := [⟨0, 0x11, .constant (.int 300)⟩, ⟨3, 0x57, .none⟩, ⟨4, 0xb1, .none⟩, ⟨5, 0x57, .none⟩, ⟨6, 0xb1, .none⟩]
  handlers := [⟨1, 3, 5⟩, ⟨1, 4, 5⟩, ⟨0, 9, 4⟩]

theorem Method.handlers_follow_ranges_shielded :
    let frame : Frame := ⟨[], [.unknown .int]⟩
    shielded.InOrder ∧ ∃ graph first second after notes, FlowGraph.ofMethod shielded = .ok graph ∧
      graph.protections.length = 2 ∧ graph.transfer 1 frame {} = .ok [first, second, (2, after)] notes ∧
      shielded.Catches frame ⟨1, 4, 5⟩ first ∧ shielded.Catches frame ⟨0, 9, 4⟩ second := by
  intro frame
  have inOrder : shielded.InOrder := by decide
  have accepted : (FlowGraph.ofMethod shielded).toOption.any
      (fun graph => (graph.successors 1 ⟨3, 0x57, .none⟩).toOption = some [2]) = true := by decide +kernel
  have executes : (Instruction.execute ⟨3, 0x57, .none⟩ 1 frame).toOption.isSome = true := by decide +kernel
  obtain ⟨graph, built, leads⟩ := (Option.any_eq_true _ _).1 accepted
  obtain ⟨after, executed⟩ := Option.isSome_iff_exists.1 executes
  replace built := ok_of_toOption built
  obtain ⟨rows, sends⟩ := (handlers_follow_ranges shielded).2.2 graph inOrder built
  obtain ⟨thrown, caught, sent⟩ := sends 1 ⟨3, 0x57, .none⟩ frame rfl
  have covering : shielded.handlers.filter (·.covers 3) = [⟨1, 4, 5⟩, ⟨0, 9, 4⟩] := by decide
  rw [covering] at caught
  obtain ⟨first, _, toFirst, later, rfl⟩ := List.forall₂_cons_left_iff.1 caught
  obtain ⟨second, _, toSecond, none_left, rfl⟩ := List.forall₂_cons_left_iff.1 later
  obtain rfl := List.forall₂_nil_left_iff.1 none_left
  obtain ⟨notes, flows⟩ := (sent {} [first, second, (2, after)]).2
    ⟨after, [2], ok_of_toOption executed, ok_of_toOption (of_decide_eq_true leads), rfl⟩
  exact ⟨inOrder, graph, first, second, after, notes, built, rows.length_eq.symm, flows, toFirst, toSecond⟩

end CallProvenance
