import CallProvenance.Proofs.CallExtraction
import CallProvenance.Proofs.LinearSweep

/-! The source lines of calls. A cursor passes the markers of a line table once, along the offsets of the
instructions. Wherever it stands, its line is the one that a lookup in the sorted table finds for the
greatest offset so far. -/
namespace CallProvenance

/-- The markers in the order of their offsets. Those at one offset keep their own order. -/
structure StablySorted (markers sorted : List LineMarker) : Prop where
  ascending : sorted.Pairwise fun a b => a.start ≤ b.start
  stable : ∀ offset, sorted.filter (·.start = offset) = markers.filter (·.start = offset)

/-- The line of the last marker up to an offset. -/
def lineUpTo (sorted : List LineMarker) (offset : Nat) : Option Nat :=
  (sorted.filter (·.start ≤ offset)).getLast?.map (·.line)

/-- The greatest offset of the instructions up to a position. -/
def Method.reach (method : Method) (index : Nat) : Option Nat :=
  ((method.code.take (index + 1)).map (·.offset)).max?

section Sorting

variable {markers sorted other : List LineMarker}

theorem stablySorted_mergeSort (markers : List LineMarker) :
    StablySorted markers (markers.mergeSort fun a b => a.start ≤ b.start) := by
  have trans (a b c : LineMarker) (first : decide (a.start ≤ b.start) = true)
      (second : decide (b.start ≤ c.start) = true) : decide (a.start ≤ c.start) = true :=
    decide_eq_true (Nat.le_trans (of_decide_eq_true first) (of_decide_eq_true second))
  have total (a b : LineMarker) : (decide (a.start ≤ b.start) || decide (b.start ≤ a.start)) = true := by
    simpa using Nat.le_total a.start b.start
  refine ⟨(List.pairwise_mergeSort trans total markers).imp of_decide_eq_true, fun offset => ?_⟩
  -- The markers at one offset are in order as they stand, so sorting keeps them as a sublist.
  have level : (markers.filter (·.start = offset)).Pairwise fun a b => decide (a.start ≤ b.start) = true := by
    refine List.pairwise_of_forall_mem_list fun a first b second => decide_eq_true ?_
    have first := of_decide_eq_true (List.mem_filter.1 first).2
    have second := of_decide_eq_true (List.mem_filter.1 second).2
    omega
  have kept := (List.sublist_mergeSort trans total level List.filter_sublist).filter (·.start = offset)
  rw [List.filter_filter, List.filter_congr fun _ _ => Bool.and_self _] at kept
  exact (kept.eq_of_length ((List.mergeSort_perm markers _).filter _).length_eq.symm).symm

theorem mem_of_filter_eq (same : ∀ offset, sorted.filter (·.start = offset) = other.filter (·.start = offset))
    {marker : LineMarker} (member : marker ∈ sorted) : marker ∈ other := by
  have own : marker ∈ sorted.filter (·.start = marker.start) := List.mem_filter.2 ⟨member, decide_eq_true rfl⟩
  rw [same] at own
  exact (List.mem_filter.1 own).1

theorem eq_of_filter_eq (ascending : sorted.Pairwise fun a b => a.start ≤ b.start)
    (ascending' : other.Pairwise fun a b => a.start ≤ b.start)
    (same : ∀ offset, sorted.filter (·.start = offset) = other.filter (·.start = offset)) : sorted = other := by
  induction sorted generalizing other with
  | nil =>
    refine (List.eq_nil_iff_forall_not_mem.2 fun marker member => ?_).symm
    exact List.not_mem_nil (mem_of_filter_eq (fun offset => (same offset).symm) member)
  | cons a rest ih =>
    cases other with
    | nil => exact absurd (mem_of_filter_eq same List.mem_cons_self) List.not_mem_nil
    | cons b rest' =>
      obtain ⟨first, later⟩ := List.pairwise_cons.1 ascending
      obtain ⟨first', later'⟩ := List.pairwise_cons.1 ascending'
      -- Each head is a least marker of both lists.
      have level : a.start = b.start := by
        have below : b.start ≤ a.start := by
          rcases List.mem_cons.1 (mem_of_filter_eq same List.mem_cons_self) with rfl | member
          · exact Nat.le_refl _
          · exact first' a member
        have above : a.start ≤ b.start := by
          rcases List.mem_cons.1 (mem_of_filter_eq (fun offset => (same offset).symm) List.mem_cons_self) with
            rfl | member
          · exact Nat.le_refl _
          · exact first b member
        omega
      have heads := same a.start
      rw [List.filter_cons_of_pos (by simp), List.filter_cons_of_pos (by simp [level])] at heads
      obtain ⟨rfl, tails⟩ := List.cons.inj heads
      refine congrArg (a :: ·) (ih later later' fun offset => ?_)
      by_cases here : a.start = offset
      · exact here ▸ tails
      · have others := same offset
        rwa [List.filter_cons_of_neg (by simpa using here), List.filter_cons_of_neg (by simpa using here)] at others

theorem StablySorted.eq_mergeSort (sort : StablySorted markers sorted) :
    sorted = markers.mergeSort fun a b => a.start ≤ b.start :=
  have made := stablySorted_mergeSort markers
  eq_of_filter_eq sort.ascending made.ascending fun offset => (sort.stable offset).trans (made.stable offset).symm

theorem lt_of_mem_dropWhile {offset : Nat} {marker : LineMarker}
    (ascending : sorted.Pairwise fun a b => a.start ≤ b.start)
    (member : marker ∈ sorted.dropWhile (·.start ≤ offset)) : offset < marker.start := by
  induction sorted with
  | nil => cases member
  | cons a rest ih =>
    obtain ⟨first, ascending⟩ := List.pairwise_cons.1 ascending
    by_cases passed : a.start ≤ offset
    · rw [List.dropWhile_cons_of_pos (by simpa using passed)] at member
      exact ih ascending member
    · rw [List.dropWhile_cons_of_neg (by simpa using passed)] at member
      rcases List.mem_cons.1 member with rfl | later
      · omega
      · have := first marker later
        omega

end Sorting

namespace LineCursor

variable {sorted passed : List LineMarker} {seen : List Nat} {cursor : LineCursor} {offset bound : Nat}

/-- The cursor has seen some offsets: the markers up to one of them are behind it, the others lie ahead. -/
structure Stands (sorted passed : List LineMarker) (seen : List Nat) (cursor : LineCursor) : Prop where
  split : passed ++ cursor.ahead = sorted
  behind : ∀ marker ∈ passed, ∃ offset ∈ seen, marker.start ≤ offset
  ahead : ∀ marker ∈ cursor.ahead, ∀ offset ∈ seen, offset < marker.start
  line : cursor.current = passed.getLast?.map (·.line)

theorem stands_start (markers : List LineMarker) :
    Stands (markers.mergeSort fun a b => a.start ≤ b.start) [] [] (start markers) where
  split := rfl
  behind := nofun
  ahead _ _ _ := nofun
  line := rfl

/-- The cursor may be led back to a smaller offset. It then stays, as all markers ahead lie further. -/
theorem Stands.advance (stands : Stands sorted passed seen cursor)
    (ascending : sorted.Pairwise fun a b => a.start ≤ b.start) (offset : Nat) :
    ∃ passed', Stands sorted passed' (seen ++ [offset]) (cursor.advance offset) := by
  refine ⟨passed ++ cursor.ahead.takeWhile (·.start ≤ offset), ?_, fun marker member => ?_,
    fun marker member offset' listed => ?_, ?_⟩
  · change _ ++ cursor.ahead.dropWhile (·.start ≤ offset) = sorted
    rw [List.append_assoc, List.takeWhile_append_dropWhile, stands.split]
  · rcases List.mem_append.1 member with before | now
    · obtain ⟨offset', listed, reached⟩ := stands.behind marker before
      exact ⟨offset', List.mem_append_left _ listed, reached⟩
    · have reached := List.all_eq_true.1 List.all_takeWhile marker now
      exact ⟨offset, List.mem_append_right _ (List.mem_singleton_self _), of_decide_eq_true reached⟩
  · rcases List.mem_append.1 listed with before | now
    · exact stands.ahead marker ((List.dropWhile_sublist _).subset member) offset' before
    · rw [List.mem_singleton.1 now]
      refine lt_of_mem_dropWhile (ascending.sublist ?_) member
      exact stands.split ▸ List.sublist_append_right _ _
  · rw [List.getLast?_append, Option.map_or, ← stands.line]
    rfl

theorem Stands.current_eq (stands : Stands sorted passed seen cursor) (furthest : seen.max? = some bound) :
    cursor.current = lineUpTo sorted bound := by
  obtain ⟨listed, greatest⟩ := List.max?_eq_some_iff.1 furthest
  have behind : passed.filter (·.start ≤ bound) = passed := by
    refine List.filter_eq_self.2 fun marker member => decide_eq_true ?_
    obtain ⟨offset, member', reached⟩ := stands.behind marker member
    exact Nat.le_trans reached (greatest offset member')
  have ahead : cursor.ahead.filter (·.start ≤ bound) = [] := by
    refine List.filter_eq_nil_iff.2 fun marker member reached => ?_
    exact Nat.not_le.2 (stands.ahead marker member bound listed) (of_decide_eq_true reached)
  rw [lineUpTo, ← stands.split, List.filter_append, behind, ahead, List.append_nil, stands.line]

/-- The lines that the cursor shows on its way along the instructions. -/
def lines : LineCursor → List Instruction → List (Option Nat)
  | _, [] => []
  | cursor, instruction :: rest =>
    (cursor.advance instruction.offset).current :: lines (cursor.advance instruction.offset) rest

theorem Stands.lines (ascending : sorted.Pairwise fun a b => a.start ≤ b.start)
    (stands : Stands sorted passed seen cursor) {code : List Instruction} {index : Nat} {line : Option Nat}
    (shown : (cursor.lines code)[index]? = some line) :
    ∃ passed' cursor', Stands sorted passed' (seen ++ (code.take (index + 1)).map (·.offset)) cursor' ∧
      line = cursor'.current := by
  induction code generalizing passed seen cursor index with
  | nil => cases shown
  | cons instruction rest ih =>
    obtain ⟨passed', stands'⟩ := stands.advance ascending instruction.offset
    cases index with
    | zero => exact ⟨passed', _, stands', (Option.some.inj shown).symm⟩
    | succ index =>
      obtain ⟨passed'', cursor', stands'', same⟩ := ih stands' shown
      rw [List.append_assoc] at stands''
      exact ⟨passed'', cursor', stands'', same⟩

theorem foldl_lines {step : LineCursor × List (Option Nat) → Instruction → LineCursor × List (Option Nat)}
    (steps : ∀ state instruction, step state instruction =
      (state.1.advance instruction.offset, (state.1.advance instruction.offset).current :: state.2))
    (code : List Instruction) (state : LineCursor × List (Option Nat)) :
    (code.foldl step state).2.reverse = state.2.reverse ++ state.1.lines code := by
  induction code generalizing state with
  | nil => rw [List.foldl_nil, lines, List.append_nil]
  | cons instruction rest ih => rw [List.foldl_cons, ih, steps, List.reverse_cons, List.append_assoc]; rfl

end LineCursor

namespace Method

variable {method : Method} {index : Nat} {line : Option Nat} {instruction : Instruction}

theorem lineOfEach_eq (method : Method) : method.lineOfEach = (LineCursor.start method.lines).lines method.code :=
  LineCursor.foldl_lines (fun _ _ => rfl) method.code (LineCursor.start method.lines, [])

theorem exists_reach (found : method.code[index]? = some instruction) : ∃ bound, method.reach index = some bound := by
  refine Option.ne_none_iff_exists'.1 fun nothing => ?_
  rw [reach, List.max?_eq_none_iff, List.map_eq_nil_iff, List.take_eq_nil_iff] at nothing
  rcases nothing with nothing | nothing
  · cases nothing
  · rw [nothing] at found
    cases found

theorem line_eq_lineUpTo {sorted : List LineMarker} {bound : Nat} (sort : StablySorted method.lines sorted)
    (shown : method.lineOfEach[index]? = some line) (reaches : method.reach index = some bound) :
    line = lineUpTo sorted bound := by
  rw [lineOfEach_eq] at shown
  obtain ⟨passed, cursor, stands, same⟩ := (LineCursor.stands_start method.lines).lines
    (stablySorted_mergeSort method.lines).ascending shown
  rw [same, sort.eq_mergeSort]
  exact stands.current_eq reaches

/-- In code that is in order an instruction is further than all before it. -/
theorem InOrder.reach_eq (inOrder : method.InOrder) (found : method.code[index]? = some instruction) :
    method.reach index = some instruction.offset := by
  refine List.max?_eq_some_iff.2 ⟨List.mem_map.2 ⟨instruction, ?_, rfl⟩, fun offset member => ?_⟩
  · exact List.mem_of_getElem? ((List.getElem?_take_of_lt (Nat.lt_succ_self index)).trans found)
  · obtain ⟨earlier, taken, rfl⟩ := List.mem_map.1 member
    obtain ⟨k, found'⟩ := List.mem_iff_getElem?.1 taken
    rw [List.getElem?_take] at found'
    split at found'
    · exact (inOrder.le_iff found' found).2 (by omega)
    · cases found'

end Method

namespace Simulation

variable {simulation : Simulation} {method : Method} {instruction : Instruction} {index : Nat}
  {line : Option Nat} {answer : Option Call} {calls : List Call}

def reachesTarget (simulation : Simulation) (row : Instruction × Nat) : Bool :=
  row.1.operand.target?.isSome && simulation.frames[row.2]?.join.isSome

def reachedTargets (simulation : Simulation) (method : Method) : List Nat :=
  (method.code.zipIdx.filter simulation.reachesTarget).map (·.2)

/-- The call at a position has the line of the last marker up to the greatest offset so far. -/
def LineFound (simulation : Simulation) (method : Method) (sorted : List LineMarker) (index : Nat) (call : Call) :
    Prop :=
  ∃ instruction frame bound, method.code[index]? = some instruction ∧
    simulation.frames[index]? = some (some frame) ∧ instruction.operand.target? = some call.target ∧
    method.reach index = some bound ∧ call.line = lineUpTo sorted bound

theorem callAt_cases (made : simulation.callAt instruction index line = .ok answer) :
    (simulation.reachesTarget (instruction, index) = true ∧
      ∃ call, answer = some call ∧ instruction.operand.target? = some call.target ∧ call.line = line) ∨
    (simulation.reachesTarget (instruction, index) = false ∧ answer = none) := by
  unfold callAt at made
  unfold reachesTarget
  cases reached : simulation.frames[index]?.join with
  | none =>
    rw [reached] at made
    cases made
    exact .inr ⟨Bool.and_false _, rfl⟩
  | some frame =>
    rw [reached] at made
    cases operand : instruction.operand with
    | invoke site =>
      rw [operand] at made
      obtain ⟨parameters, -, made⟩ := except_bind_eq_ok.1 made
      split at made
      · obtain ⟨arguments, -, made⟩ := except_bind_eq_ok.1 made
        cases made
        exact .inl ⟨rfl, _, rfl, rfl, rfl⟩
      · obtain ⟨values, -, made⟩ := except_bind_eq_ok.1 made
        cases made
        exact .inl ⟨rfl, _, rfl, rfl, rfl⟩
    | invokeDynamic site =>
      rw [operand] at made
      cases recorded : simulation.dynamicArguments.find? index with
      | some arguments =>
        simp only [recorded] at made
        cases made
        exact .inl ⟨rfl, _, rfl, rfl, rfl⟩
      | none =>
        simp only [recorded] at made
        obtain ⟨parameters, -, made⟩ := except_bind_eq_ok.1 made
        obtain ⟨arguments, -, made⟩ := except_bind_eq_ok.1 made
        cases made
        exact .inl ⟨rfl, _, rfl, rfl, rfl⟩
    | _ =>
      rw [operand] at made
      cases made
      exact .inr ⟨rfl, rfl⟩

/-- Whatever frames the calls are taken from, each has the line that the table gives for its position. -/
theorem calls_lineFound {sorted : List LineMarker} (sort : StablySorted method.lines sorted)
    (made : simulation.calls method = .ok calls) :
    List.Forall₂ (simulation.LineFound method sorted) (simulation.reachedTargets method) calls := by
  obtain ⟨found, mapped, rfl⟩ := Method.calls_eq_ok.1 made
  have kept : ∀ row ∈ method.rows, simulation.reachesTarget row.1 = true → ∃ call,
      simulation.callAt row.1.1 row.1.2 row.2 = .ok (some call) ∧ simulation.LineFound method sorted row.1.2 call := by
    rintro ⟨⟨instruction, index⟩, line⟩ member reaches
    obtain ⟨listed, shown⟩ := Method.mem_rows member
    obtain ⟨answer, single⟩ := exists_of_mapM_ok mapped member
    rcases callAt_cases single with ⟨-, call, rfl, target, rfl⟩ | ⟨other, -⟩
    · obtain ⟨frame, reached⟩ := Option.isSome_iff_exists.1 (Bool.and_eq_true_iff.1 reaches).2
      obtain ⟨bound, reach⟩ := Method.exists_reach listed
      exact ⟨call, single, instruction, frame, bound, listed, Option.join_eq_some_iff.1 reached, target, reach,
        Method.line_eq_lineUpTo sort shown reach⟩
    · rw [reaches] at other
      cases other
  have dropped : ∀ row ∈ method.rows, simulation.reachesTarget row.1 = false →
      simulation.callAt row.1.1 row.1.2 row.2 = .ok none := by
    rintro ⟨⟨instruction, index⟩, line⟩ member other
    obtain ⟨answer, single⟩ := exists_of_mapM_ok mapped member
    rcases callAt_cases single with ⟨reaches, -⟩ | ⟨-, rfl⟩
    · rw [reaches] at other
      cases other
    · exact single
  obtain ⟨found', mapped', aligned⟩ := exists_mapM_filterMap kept dropped
  cases mapped.symm.trans mapped'
  rw [reachedTargets, Method.filter_rows]
  exact List.forall₂_map_left_iff.2 aligned

end Simulation

/-- Each call that is reached has the line of the last marker, in the stably sorted table, up to the greatest
offset so far. In code that is in order this is the call's own offset, whatever lies between the calls. -/
theorem Method.calls_take_lines (method : Method) :
    (∃! sorted, StablySorted method.lines sorted) ∧
      (∀ sorted (simulation : Simulation) calls, StablySorted method.lines sorted →
        simulation.calls method = .ok calls →
        List.Forall₂ (simulation.LineFound method sorted) (simulation.reachedTargets method) calls) ∧
      (∀ simulation, method.CallsMatch → method.simulate = .ok simulation →
        ∃ calls, simulation.calls method = .ok calls) ∧
      (∀ (index : Nat) instruction, method.InOrder → method.code[index]? = some instruction →
        method.reach index = some instruction.offset) ∧
      ∀ pool bootstraps code, Bytecode.decode pool bootstraps code = .ok method.code → method.InOrder := by
  refine ⟨⟨_, stablySorted_mergeSort method.lines, fun _ sort => sort.eq_mergeSort⟩,
    fun _ _ _ sort made => Simulation.calls_lineFound sort made, fun simulation matched simulated => ?_,
    fun _ _ inOrder found => inOrder.reach_eq found, fun _ _ _ decoded => Bytecode.inOrder_of_decode decoded⟩
  obtain ⟨found, mapped, -⟩ := exists_found matched simulated
  exact ⟨_, calls_eq_ok.2 ⟨found, mapped, rfl⟩⟩

/-- The call at offset 20 is never reached. It still leads the cursor past the marker at 15. -/
def Method.scattered : Method where
  name := "scatter"
  descriptor := "()V"
  isStatic := true
  code := [⟨6, 0xb8, .invoke ⟨"Sink", "open", "()V", .static⟩⟩, ⟨4, 0xa7, .jump 9⟩,
    ⟨20, 0xb8, .invoke ⟨"Sink", "skip", "()V", .static⟩⟩, ⟨9, 0xb8, .invoke ⟨"Sink", "flush", "()V", .static⟩⟩,
    ⟨12, 0xb1, .none⟩]
  lines := [⟨9, 4⟩, ⟨0, 1⟩, ⟨0, 2⟩, ⟨15, 7⟩]

theorem Method.calls_take_lines_scattered : ∃ simulation first second, scattered.CallsMatch ∧
    scattered.simulate = .ok simulation ∧ simulation.calls scattered = .ok [first, second] ∧
    first.line = some 2 ∧ second.line = some 7 := by
  have matched : scattered.CallsMatch := by decide
  have accepted : scattered.simulate.toOption.any
      (fun simulation => simulation.reachedTargets scattered = [0, 3]) = true := by
    decide +kernel
  obtain ⟨simulation, simulated, accepted⟩ := (Option.any_eq_true _ _).1 accepted
  replace simulated := ok_of_toOption simulated
  have sort : StablySorted scattered.lines [⟨0, 1⟩, ⟨0, 2⟩, ⟨9, 4⟩, ⟨15, 7⟩] := by
    refine ⟨by decide, fun offset => ?_⟩
    by_cases first : 0 = offset <;> by_cases second : 9 = offset <;> simp [scattered, first, second]
    omega
  obtain ⟨-, takes, exist, -⟩ := calls_take_lines scattered
  obtain ⟨calls, made⟩ := exist simulation matched simulated
  have aligned := takes _ simulation calls sort made
  rw [of_decide_eq_true accepted] at aligned
  obtain ⟨first, _, own, later, rfl⟩ := List.forall₂_cons_left_iff.1 aligned
  obtain ⟨second, _, own', none_left, rfl⟩ := List.forall₂_cons_left_iff.1 later
  obtain rfl := List.forall₂_nil_left_iff.1 none_left
  obtain ⟨-, -, bound, -, -, -, reach, line⟩ := own
  obtain ⟨-, -, bound', -, -, -, reach', line'⟩ := own'
  cases reach
  cases reach'
  exact ⟨simulation, first, second, matched, simulated, made, line, line'⟩

end CallProvenance
