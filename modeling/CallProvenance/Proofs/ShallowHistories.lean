import CallProvenance.Proofs.Convergence
import CallProvenance.Proofs.MeasuredDepth
import CallProvenance.Proofs.PathSoundness
import CallProvenance.Proofs.SharedValues

/-! Histories stay shallow. A join is recorded only if it lies strictly above both of its sides, so that no chain
of joins is longer than the rank of the value at its top, whatever the order in which values are
joined. All values of a simulation are made by the operations on values, and their sources are
instructions; loops therefore cannot deepen the history beyond the number of instructions. -/
namespace CallProvenance

namespace Value

/-- What is made without a join, from values that are there already. -/
inductive Fresh (values : List Value) : Value → Prop where
  | unknown (kind : Kind) : Fresh values (.unknown kind)
  | producedBy (kind : Kind) (index : Nat) : Fresh values (.producedBy kind index)
  | derived (kind : Kind) {operands : List Value} : operands ⊆ values → Fresh values (.derived kind operands)

/-- Values that were made one after the other, the newest first, and the history of their joins. -/
inductive Made : List Value → History → Prop where
  | start : Made [] .empty
  | fresh {values : List Value} {history : History} {value : Value} :
      Made values history → Fresh values value → Made (value :: values) history
  | merge {values : List Value} {history : History} {current incoming : Value} :
      Made values history → current ∈ values → incoming ∈ values →
      Made ((merge current incoming history).1 :: values) (merge current incoming history).2

/-- The place is known to the history, and no chain of joins below it is longer than the value's rank. -/
structure Shallow (history : History) (value : Value) : Prop where
  known : history.Knows value.place
  depth_le : history.depth value.place ≤ value.rank

variable {values row other : List Value} {history : History} {value current incoming : Value}

theorem Fresh.place_eq (fresh : Fresh values value) : value.place = none := by cases fresh <;> rfl

theorem Fresh.mono {larger : List Value} (fresh : Fresh values value) (included : values ⊆ larger) :
    Fresh larger value := by
  cases fresh with
  | unknown kind => exact .unknown kind
  | producedBy kind index => exact .producedBy kind index
  | derived kind operands => exact .derived kind (List.Subset.trans operands included)

/-- A join is one of its sides, or it lies strictly above both and is recorded. -/
theorem merge_cases (current incoming : Value) (history : History) :
    merge current incoming history = (current, history) ∨ merge current incoming history = (incoming, history) ∨
    current.toFacets < current.toFacets ⊔ incoming.toFacets ∧
      incoming.toFacets < current.toFacets ⊔ incoming.toFacets ∧
      merge current incoming history =
        ({ toFacets := current.toFacets ⊔ incoming.toFacets, place := some history.size },
          (history.record current.place incoming.place).2) := by
  by_cases kept : current.join incoming.toFacets = current.toFacets
  · have settled : current.settle incoming.toFacets = .current := by simp only [Facets.settle, if_pos kept]
    exact .inl (by simp only [merge, settled])
  by_cases taken : current.join incoming.toFacets = incoming.toFacets
  · have settled : current.settle incoming.toFacets = .incoming := by
      simp only [Facets.settle, if_neg kept, if_pos taken]
    exact .inr (.inl (by simp only [merge, settled]))
  · have settled : current.settle incoming.toFacets = .neither := by
      simp only [Facets.settle, if_neg kept, if_neg taken]
    refine .inr (.inr ⟨lt_of_le_of_ne le_sup_left (Ne.symm kept), lt_of_le_of_ne le_sup_right (Ne.symm taken), ?_⟩)
    simp only [merge, settled]
    rfl

namespace Shallow

theorem of_fresh (fresh : Fresh values value) : Shallow history value := by
  have place := fresh.place_eq
  exact ⟨place ▸ history.knows_none, by rw [place]; exact Nat.zero_le _⟩

theorem record {left right : Place} (shallow : Shallow history value) :
    Shallow (history.record left right).2 value :=
  ⟨shallow.known.record, by rw [History.depth_record shallow.known]; exact shallow.depth_le⟩

theorem recorded (left : Shallow history current) (right : Shallow history incoming)
    (above : current.toFacets < current.toFacets ⊔ incoming.toFacets)
    (above' : incoming.toFacets < current.toFacets ⊔ incoming.toFacets) :
    Shallow (history.record current.place incoming.place).2
      { toFacets := current.toFacets ⊔ incoming.toFacets, place := some history.size } := by
  have rank := Facets.rank_strictMono above
  have rank' := Facets.rank_strictMono above'
  have depth := left.depth_le
  have depth' := right.depth_le
  constructor
  · rintro _ ⟨⟩
    simp
  · simp only [History.depth_recorded]
    omega

end Shallow

namespace Made

/-- Whatever is made is shallow, and the history of the joins is ordered. -/
theorem shallow (made : Made values history) :
    history.Ordered ∧ ∀ value ∈ values, Shallow history value := by
  induction made with
  | start => exact ⟨History.ordered_empty, by simp⟩
  | fresh _ fresh ih =>
    refine ⟨ih.1, ?_⟩
    rintro _ (_ | ⟨_, member⟩)
    · exact .of_fresh fresh
    · exact ih.2 _ member
  | @merge values history current incoming _ left right ih =>
    obtain ⟨ordered, all⟩ := ih
    have below := all current left
    have below' := all incoming right
    rcases merge_cases current incoming history with same | same | ⟨above, above', same⟩
    · rw [same]
      exact ⟨ordered, List.forall_mem_cons.2 ⟨below, all⟩⟩
    · rw [same]
      exact ⟨ordered, List.forall_mem_cons.2 ⟨below', all⟩⟩
    · rw [same]
      refine ⟨History.ordered_record.2 ⟨ordered, below.known, below'.known⟩, ?_⟩
      exact List.forall_mem_cons.2 ⟨below.recorded below' above above', fun _ member => (all _ member).record⟩

theorem extend (made : Made values history) (new : ∀ value ∈ row, value ∈ values ∨ Fresh values value) :
    ∃ larger, Made larger history ∧ values ⊆ larger ∧ row ⊆ larger := by
  induction row with
  | nil => exact ⟨values, made, List.Subset.refl _, by simp⟩
  | cons value row ih =>
    obtain ⟨larger, made', included, covered⟩ := ih fun v member => new v (List.mem_cons_of_mem _ member)
    rcases new value List.mem_cons_self with old | fresh
    · exact ⟨larger, made', included, List.cons_subset.2 ⟨included old, covered⟩⟩
    · refine ⟨value :: larger, made'.fresh (fresh.mono included), List.subset_cons_of_subset _ included, ?_⟩
      exact List.cons_subset_cons _ covered

theorem mergeAll (made : Made values history) (left : row ⊆ values) (right : other ⊆ values) :
    ∃ larger, Made larger (Value.mergeAll row other history).2 ∧ values ⊆ larger ∧
      (Value.mergeAll row other history).1 ⊆ larger := by
  induction row generalizing other values history with
  | nil => exact ⟨values, made, List.Subset.refl _, by simp [Value.mergeAll]⟩
  | cons v row ih =>
    cases other with
    | nil => exact ⟨values, made, List.Subset.refl _, by simp [Value.mergeAll]⟩
    | cons w other =>
      obtain ⟨first, left⟩ := List.cons_subset.1 left
      obtain ⟨second, right⟩ := List.cons_subset.1 right
      have joined := made.merge first second
      obtain ⟨larger, made', included, covered⟩ :=
        ih joined (List.subset_cons_of_subset _ left) (List.subset_cons_of_subset _ right)
      rw [mergeAll_cons]
      obtain ⟨head, included⟩ := List.cons_subset.1 included
      exact ⟨larger, made', included, List.cons_subset.2 ⟨head, covered⟩⟩

end Made
end Value

namespace Frame

variable {current incoming : Frame} {values : List Value} {history history' : History}

theorem merge_made (made : Value.Made values history) (left : current.values ⊆ values)
    (right : incoming.values ⊆ values) {answer : Option Frame}
    (merged : current.merge incoming history = .ok (answer, history')) :
    ∃ larger, Value.Made larger history' ∧ values ⊆ larger ∧ ∀ joined ∈ answer, joined.values ⊆ larger := by
  rcases merge_eq_ok merged with ⟨rfl, below⟩ | ⟨joined, rfl, above, join⟩
  · rw [merge_of_le below] at merged
    cases merged
    exact ⟨values, made, List.Subset.refl _, by simp⟩
  · rw [merge_of_not_le join.heights join.counts above] at merged
    cases merged
    obtain ⟨left, left'⟩ := List.append_subset.1 left
    obtain ⟨right, right'⟩ := List.append_subset.1 right
    obtain ⟨first, made, included, locals⟩ := made.mergeAll left right
    obtain ⟨larger, made, included', stack⟩ := made.mergeAll (List.Subset.trans left' included)
      (List.Subset.trans right' included)
    refine ⟨larger, made, List.Subset.trans included included', ?_⟩
    rintro _ ⟨⟩
    exact List.append_subset.2 ⟨List.Subset.trans locals included', stack⟩

end Frame

theorem Origin.value_made {origin : Origin} {index : Nat} {frame : Frame} {value : Value}
    (found : origin.value index frame = some value) : value ∈ frame.values ∨ Value.Fresh frame.values value := by
  cases origin with
  | moved position => exact .inl (Frame.mem_values_iff.2 ⟨position, found⟩)
  | torn position =>
    obtain ⟨old, at_position, rfl⟩ := Option.map_eq_some_iff.1 found
    unfold Value.torn
    split
    · exact .inr (.unknown .uninitialized)
    · exact .inl (Frame.mem_values_iff.2 ⟨position, at_position⟩)
  | unset =>
    cases found
    exact .inr (.unknown .uninitialized)
  | produced kind =>
    cases found
    exact .inr (.producedBy kind index)
  | derived kind positions =>
    cases found
    refine .inr (.derived kind fun operand member => ?_)
    obtain ⟨position, -, at_position⟩ := List.mem_filterMap.1 member
    exact Frame.mem_values_iff.2 ⟨position, at_position⟩

namespace FlowGraph

variable {graph : FlowGraph}

theorem leaves_made {point next : Nat} {action : Action} {targets : List Nat} {frame after frame' : Frame}
    (performed : action.perform point frame = .ok after)
    (leaves : graph.Leaves point targets frame after next frame') {value : Value} (member : value ∈ frame'.values) :
    value ∈ frame.values ∨ Value.Fresh frame.values value := by
  cases leaves with
  | thrown =>
    rcases Frame.mem_caught member with slot | rfl
    · exact .inl (List.mem_append_left _ slot)
    · exact .inr (.unknown .reference)
  | completed =>
    obtain ⟨position, found⟩ := Frame.mem_values_iff.1 member
    rw [Action.perform_at? performed] at found
    exact Origin.value_made found

/-- All values of the facts, and of the flows that are still to be taken in, are among those made with the
history. -/
def AllMade (flows : List (Nat × Frame)) (work : Worklist Frame) (notes : SimulationNotes) : Prop :=
  ∃ values, Value.Made values notes.history ∧
    FlowSemantics.Keeps.Everywhere (fun _ frame => frame.values ⊆ values) work ∧
    ∀ flow ∈ flows, flow.2.values ⊆ values

theorem everywhere_subset {values larger : List Value} {work : Worklist Frame}
    (facts : FlowSemantics.Keeps.Everywhere (fun _ frame => frame.values ⊆ values) work) (included : values ⊆ larger) :
    FlowSemantics.Keeps.Everywhere (fun _ frame => frame.values ⊆ larger) work :=
  fun point frame found => List.Subset.trans (facts point frame found) included

theorem transfer_made {point : Nat} {frame : Frame} {flows : List (Nat × Frame)} {notes notes' : SimulationNotes}
    {values : List Value} (made : Value.Made values notes.history) (inside : frame.values ⊆ values)
    (sent : graph.transfer point frame notes = .ok flows notes') :
    ∃ larger, Value.Made larger notes'.history ∧ values ⊆ larger ∧ ∀ flow ∈ flows, flow.2.values ⊆ larger := by
  have history : notes'.history = notes.history := by
    cases found : graph.method.code[point]? with
    | none =>
      obtain ⟨-, rfl⟩ := EStateM.Result.ok.inj ((transfer_outside found frame notes).symm.trans sent)
      rfl
    | some instruction => rw [transfer_notes found sent]
  have new : ∀ value ∈ flows.flatMap (·.2.values), value ∈ values ∨ Value.Fresh values value := by
    intro value member
    obtain ⟨⟨next, frame'⟩, listed, member⟩ := List.mem_flatMap.1 member
    obtain ⟨action, targets, after, -, performed, leaves⟩ := transfer_mem sent listed
    exact (leaves_made performed leaves member).imp (fun old => inside old) (·.mono inside)
  obtain ⟨larger, made, included, covered⟩ := made.extend new
  refine ⟨larger, history ▸ made, included, fun flow listed value member => ?_⟩
  exact covered (List.mem_flatMap.2 ⟨flow, listed, member⟩)

theorem allMade_invariant (graph : FlowGraph) : Worklist.Invariant graph.semantics (AllMade []) AllMade where
  serve := by
    rintro work s point rest frame flows s' ⟨values, made, facts, -⟩ - found sent
    rw [semantics_transfer] at sent
    obtain ⟨larger, made, included, covered⟩ := transfer_made made (facts point frame found) sent
    exact ⟨larger, made, everywhere_subset facts included, covered⟩
  skip before _ _ := before
  receive := by
    rintro work s flow flows work' s' ⟨values, made, facts, waiting⟩ received
    have head := waiting flow List.mem_cons_self
    have tail : ∀ later ∈ flows, later.2.values ⊆ values := fun later member =>
      waiting later (List.mem_cons_of_mem _ member)
    cases received with
    | outside => exact ⟨values, made, facts, tail⟩
    | first => exact ⟨values, made, FlowSemantics.Keeps.everywhere_update facts head, tail⟩
    | kept found merged =>
      obtain ⟨history, inner, rfl⟩ := merge_notes merged
      obtain ⟨larger, made, included, -⟩ := Frame.merge_made made (facts _ _ found) head inner
      exact ⟨larger, made, everywhere_subset facts included, fun later member =>
        List.Subset.trans (tail later member) included⟩
    | joined found merged =>
      obtain ⟨history, inner, rfl⟩ := merge_notes merged
      obtain ⟨larger, made, included, covered⟩ := Frame.merge_made made (facts _ _ found) head inner
      refine ⟨larger, made, ?_, fun later member => List.Subset.trans (tail later member) included⟩
      exact FlowSemantics.Keeps.everywhere_update (everywhere_subset facts included) (covered _ rfl)
  done before := before

end FlowGraph

namespace Method

variable {method : Method} {simulation : Simulation}

/-- All values of the stable frames are made by the operations on values, in one run of them. -/
theorem simulate_made (simulated : method.simulate = .ok simulation) :
    ∃ values, Value.Made values simulation.history ∧
      ∀ (point : Nat) frame, simulation.frames[point]? = some (some frame) → frame.values ⊆ values := by
  obtain ⟨graph, built, -⟩ := except_bind_eq_ok.1 simulated
  obtain ⟨fixed, notes, solved, rfl⟩ := (simulate_eq_ok built).1 simulated
  cases length : method.code.length with
  | zero =>
    rw [length] at solved
    cases solved
    exact ⟨[], .start, by simp⟩
  | succ more =>
    rw [length, FlowSemantics.solve_succ] at solved
    obtain ⟨first, t, started, settled⟩ := bind_eq_ok.1 solved
    obtain rfl := FlowGraph.entry_notes started
    obtain ⟨locals, made, rfl⟩ := FlowGraph.entry_eq_ok started
    have entry : ∀ value ∈ Frame.values { locals }, value ∈ [] ∨ Value.Fresh [] value := by
      intro value member
      rw [Frame.values, List.append_nil] at member
      obtain ⟨kind, rfl⟩ := entryLocals_unknown made member
      exact .inr (.unknown kind)
    obtain ⟨values, built, -, covered⟩ := Value.Made.start.extend entry
    have start : FlowGraph.AllMade [] (.start { locals } more) {} :=
      ⟨values, built, FlowSemantics.Keeps.everywhere_start covered, by simp⟩
    obtain ⟨final, ⟨values, built, facts, -⟩, -, rfl⟩ := graph.allMade_invariant.run start settled
    exact ⟨values, built, facts⟩

theorem simulate_sources_lt (simulated : method.simulate = .ok simulation) {point : Nat} {frame : Frame}
    (found : simulation.frames[point]? = some (some frame)) {value : Value} (member : value ∈ frame.values)
    {i : Nat} (source : i ∈ value.sources) : i < method.code.length := by
  obtain ⟨graph, built, -⟩ := except_bind_eq_ok.1 simulated
  obtain ⟨fixed, notes, solved, rfl⟩ := (simulate_eq_ok built).1 simulated
  obtain ⟨more, length⟩ := FlowSemantics.exists_more solved found
  rw [length] at solved
  have produced := graph.keeps_sources.solve (fun started => ?_) solved found value member i source
  · obtain ⟨instruction, effect, at_source, -⟩ := produced
    rw [FlowGraph.ofMethod_method built] at at_source
    exact (List.getElem?_eq_some_iff.1 at_source).1
  · obtain ⟨locals, made, rfl⟩ := FlowGraph.entry_eq_ok started
    exact fun v member i source => absurd source (FlowGraph.entry_sources made member i)

/-- No value of a stable frame ranks above the number of instructions, unless its kind is lost. -/
theorem simulate_rank_le (simulated : method.simulate = .ok simulation) {frame : Frame}
    (reached : frame ∈ simulation.reached) {value : Value} (member : value ∈ frame.values) :
    value.rank ≤ method.code.length + 1 := by
  obtain ⟨point, found⟩ := FlowSemantics.mem_reached.1 reached
  have sources := Sources.size_le_of_forall_lt fun i source => simulate_sources_lt simulated found member source
  unfold Facets.rank
  split <;> omega

end Method

/-- The depth of a value, the length of the longest chain of joins below it, is at most the number of its
sources, or one more if its kind is lost. The values of a simulation are no exception, so that
its depth is bounded by the number of instructions. -/
theorem histories_stay_shallow :
    (∀ values history, Value.Made values history → ∀ value ∈ values,
      IsGreatest {n | history.Chain value.place n} (history.depth value.place) ∧
      history.depth value.place ≤ value.sources.size + if value.kind = .uninitialized then 1 else 0) ∧
    ∀ (method : Method) (simulation : Simulation), method.simulate = .ok simulation →
      (∃ values, Value.Made values simulation.history ∧ ∀ frame ∈ simulation.reached, frame.values ⊆ values) ∧
      simulation.joinDepth ≤ method.code.length + 1 := by
  constructor
  · intro values history made value member
    obtain ⟨ordered, shallow⟩ := made.shallow
    exact ⟨ordered.depth_isGreatest value.place, (shallow value member).depth_le⟩
  · intro method simulation simulated
    obtain ⟨values, made, facts⟩ := Method.simulate_made simulated
    have covered : ∀ frame ∈ simulation.reached, frame.values ⊆ values := by
      intro frame reached
      obtain ⟨point, found⟩ := FlowSemantics.mem_reached.1 reached
      exact facts point frame found
    refine ⟨⟨values, made, covered⟩, made.shallow.1.maxDepth_le fun place listed => ?_⟩
    obtain ⟨frame, reached, listed⟩ := List.mem_flatMap.1 listed
    obtain ⟨value, member, rfl⟩ := List.mem_map.1 listed
    calc simulation.history.depth value.place
        ≤ value.rank := (made.shallow.2 value (covered frame reached member)).depth_le
      _ ≤ method.code.length + 1 := Method.simulate_rank_le simulated reached member

/-- A lost kind counts: without any source there may be a join. -/
theorem histories_stay_shallow_alternating :
    (∃ values history value, Value.Made values history ∧ value ∈ values ∧ value.sources.size = 0 ∧
      IsGreatest {n | history.Chain value.place n} 1) ∧
    ∃ simulation, Method.alternating.simulate = .ok simulation ∧ simulation.joinDepth = 2 ∧
      simulation.joinDepth ≤ Method.alternating.code.length + 1 := by
  constructor
  · have made := (Value.Made.start.fresh (.unknown .float)).fresh (.unknown .int)
    have merged := made.merge List.mem_cons_self (List.mem_cons_of_mem _ List.mem_cons_self)
    have depth : (Value.merge (.unknown .int) (.unknown .float) .empty).2.depth
        (Value.merge (.unknown .int) (.unknown .float) .empty).1.place = 1 := by
      decide +kernel
    have greatest := (histories_stay_shallow.1 _ _ merged _ List.mem_cons_self).1
    rw [depth] at greatest
    exact ⟨_, _, _, merged, List.mem_cons_self, by decide +kernel, greatest⟩
  · have ran : Method.alternating.simulate.toOption.any (fun simulation => simulation.joinDepth = 2) = true := by
      decide +kernel
    obtain ⟨simulation, simulated, deep⟩ := (Option.any_eq_true _ _).1 ran
    have simulated := Method.ok_of_toOption simulated
    exact ⟨simulation, simulated, of_decide_eq_true deep,
      (histories_stay_shallow.2 Method.alternating simulation simulated).2⟩

end CallProvenance
