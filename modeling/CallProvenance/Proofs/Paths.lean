import CallProvenance.Proofs.Flows
import CallProvenance.Proofs.Monotone

/-! Execution paths of a method body, and properties of frames that every step of a path keeps. Those
that joins keep too hold of the frames that the solver finds. -/
namespace CallProvenance

namespace Frame

theorem mem_caught {frame : Frame} {v : Value} (member : v ∈ frame.caught.values) :
    v ∈ frame.locals ∨ v = .unknown .reference := by
  simpa [values, caught, clearStack, push] using member

end Frame

theorem Method.entryLocals_unknown {method : Method} {locals : List Value} (made : method.entryLocals = .ok locals)
    {v : Value} (member : v ∈ locals) : ∃ kind, v = .unknown kind := by
  obtain ⟨parameters, -, rest⟩ := except_bind_eq_ok.1 made
  cases rest
  simp only [parameterSlots, List.mem_append, List.mem_flatMap, List.mem_replicate] at member
  rcases member with (receiver | ⟨kind, -, pair⟩) | ⟨-, rfl⟩
  · split at receiver
    · simp at receiver
    · exact ⟨_, List.mem_singleton.1 receiver⟩
  · split at pair
    · rcases List.mem_cons.1 pair with rfl | upper
      · exact ⟨kind, rfl⟩
      · exact ⟨.uninitialized, List.mem_singleton.1 upper⟩
    · exact ⟨kind, List.mem_singleton.1 pair⟩
  · exact ⟨.uninitialized, rfl⟩

theorem Method.entryLocals_sources {method : Method} {locals : List Value} (made : method.entryLocals = .ok locals)
    {v : Value} (member : v ∈ locals) (i : Nat) : i ∉ v.sources := by
  obtain ⟨kind, rfl⟩ := entryLocals_unknown made member
  exact Sources.not_mem_empty

namespace FlowGraph

variable {graph : FlowGraph} {method : Method} {point next : Nat} {frame frame' after : Frame}
  {action : Action} {targets : List Nat}

/-- Some execution path ends before the instruction at `point` with `frame`. A path starts at the first
instruction with the locals at entry and an empty stack, and goes on along any flow that the
last instruction sends. -/
inductive Reaches (graph : FlowGraph) : Nat → Frame → Prop where
  | entry {locals : List Value} : graph.method.code ≠ [] → graph.method.entryLocals = .ok locals →
      Reaches graph 0 { locals }
  | step {point next : Nat} {frame frame' : Frame} {flows : List (Nat × Frame)} {notes notes' : SimulationNotes} :
      Reaches graph point frame → graph.transfer point frame notes = .ok flows notes' →
      (next, frame') ∈ flows → Reaches graph next frame'

theorem Reaches.leaves (path : graph.Reaches point frame) (decodes : graph.Decodes point action targets)
    (performed : action.perform point frame = .ok after)
    (leaves : graph.Leaves point targets frame after next frame') : graph.Reaches next frame' := by
  obtain ⟨flows, notes', sent, same⟩ := transfer_of_perform decodes performed {}
  exact path.step sent ((same next frame').2 leaves)

/-- Where a path goes on to when it takes the flow of the given number at each instruction. -/
def follow (graph : FlowGraph) : List Nat → Nat × Frame → Option (Nat × Frame)
  | [], here => some here
  | choice :: choices, (point, frame) =>
    match graph.transfer point frame {} with
    | .error _ _ => none
    | .ok flows _ => flows[choice]?.bind (graph.follow choices)

def walk (graph : FlowGraph) (choices : List Nat) : Option (Nat × Frame) :=
  match graph.method.code, graph.method.entryLocals with
  | _ :: _, .ok locals => graph.follow choices (0, { locals })
  | _, _ => none

theorem reaches_follow {choices : List Nat} {here there : Nat × Frame} (path : graph.Reaches here.1 here.2)
    (followed : graph.follow choices here = some there) : graph.Reaches there.1 there.2 := by
  induction choices generalizing here with
  | nil =>
    cases followed
    exact path
  | cons choice choices ih =>
    rw [follow] at followed
    split at followed
    · cases followed
    · rename_i flows notes' sent
      obtain ⟨flow, found, rest⟩ := Option.bind_eq_some_iff.1 followed
      exact ih (path.step sent (List.mem_of_getElem? found)) rest

theorem reaches_walk {choices : List Nat} {there : Nat × Frame} (walked : graph.walk choices = some there) :
    graph.Reaches there.1 there.2 := by
  unfold walk at walked
  split at walked
  · rename_i code made
    exact reaches_follow (.entry (by simp [code]) made) walked
  · cases walked

theorem Reaches.lt_length (built : ofMethod method = .ok graph) (path : graph.Reaches point frame) :
    point < method.code.length := by
  cases path with
  | entry nonempty _ => exact List.length_pos_iff.2 (ofMethod_method built ▸ nonempty)
  | step _ sent member =>
    obtain ⟨action, targets, after, decodes, -, leaves⟩ := transfer_mem sent member
    exact leaves_lt built decodes leaves

/-- A property of the frames at each instruction that holds at entry and along every flow. -/
structure Preserves (graph : FlowGraph) (holds : Nat → Frame → Prop) : Prop where
  entry : ∀ {locals}, graph.method.entryLocals = .ok locals → holds 0 { locals }
  leaves : ∀ {point next frame after frame' action targets}, holds point frame →
    graph.Decodes point action targets → action.perform point frame = .ok after →
    graph.Leaves point targets frame after next frame' → holds next frame'

namespace Preserves

variable {holds : Nat → Frame → Prop}

theorem reaches (preserves : graph.Preserves holds) (path : graph.Reaches point frame) : holds point frame := by
  induction path with
  | entry _ made => exact preserves.entry made
  | step _ sent member ih =>
    obtain ⟨action, targets, after, decodes, performed, leaves⟩ := transfer_mem sent member
    exact preserves.leaves ih decodes performed leaves

theorem keeps (preserves : graph.Preserves holds)
    (joins : ∀ {point current incoming joined}, holds point current → holds point incoming →
      Frame.IsJoin current incoming joined → holds point joined) : graph.semantics.Keeps holds := by
  constructor
  · rintro point frame notes flows notes' before sent ⟨next, frame'⟩ member
    rw [semantics_transfer] at sent
    obtain ⟨action, targets, after, decodes, performed, leaves⟩ := transfer_mem sent member
    exact preserves.leaves before decodes performed leaves
  · intro point current incoming notes joined notes' left right merged
    exact joins left right (joined_isJoin merged).1

end Preserves

theorem entry_eq_ok {notes notes' : SimulationNotes} {first : Frame}
    (started : graph.entry notes = .ok first notes') :
    ∃ locals, graph.method.entryLocals = .ok locals ∧ first = { locals } := by
  unfold entry at started
  cases made : graph.method.entryLocals with
  | error cause =>
    rw [made] at started
    cases started
  | ok locals =>
    rw [made] at started
    exact ⟨locals, rfl, (pure_eq_ok.1 started).1.symm⟩

theorem entry_notes {notes notes' : SimulationNotes} {first : Frame} (started : graph.entry notes = .ok first notes') :
    notes' = notes := by
  unfold entry at started
  cases made : graph.method.entryLocals with
  | error cause =>
    rw [made] at started
    cases started
  | ok locals =>
    rw [made] at started
    exact (pure_eq_ok.1 started).2.symm

theorem preserves_count {locals : List Value} (made : graph.method.entryLocals = .ok locals) :
    graph.Preserves fun _ frame => frame.locals.length = locals.length where
  entry made' := by rw [Except.ok.inj (made.symm.trans made')]
  leaves before _ performed leaves := by
    cases leaves with
    | thrown => exact before
    | completed => rw [Action.perform_count performed, before]

theorem Reaches.count_eq {q : Nat} {f g : Frame} (path : graph.Reaches point f) (path' : graph.Reaches q g) :
    f.locals.length = g.locals.length := by
  obtain ⟨locals, made⟩ : ∃ locals, graph.method.entryLocals = .ok locals := by
    induction path with
    | entry _ made => exact ⟨_, made⟩
    | step _ _ _ ih => exact ih
  rw [(preserves_count made).reaches path, (preserves_count made).reaches path']

theorem preserves_readable (graph : FlowGraph) : graph.Preserves fun _ frame => frame.StackReadable where
  entry _ v member := by simp at member
  leaves before decodes performed leaves := by
    cases leaves with
    | thrown =>
      intro v member
      obtain rfl : v = .unknown .reference := by simpa [Frame.caught, Frame.clearStack, Frame.push] using member
      simp [Value.unknown]
    | completed =>
      obtain ⟨instruction, -, acts, -⟩ := decodes
      obtain ⟨effect, -, readable, -⟩ := Instruction.action_eq_ok acts
      exact Action.perform_readable readable performed before

/-- The instruction at the index makes a value of its own. -/
def Produces (graph : FlowGraph) (index : Nat) : Prop :=
  ∃ instruction effect, graph.method.code[index]? = some instruction ∧
    instruction.effect? = some effect ∧ effect.produces = true

/-- Along a flow, a source was there before or is the instruction itself. -/
theorem leaves_sources (decodes : graph.Decodes point action targets)
    (performed : action.perform point frame = .ok after)
    (leaves : graph.Leaves point targets frame after next frame') {v : Value} (member : v ∈ frame'.values)
    {i : Nat} (source : i ∈ v.sources) :
    (∃ w ∈ frame.values, i ∈ w.sources) ∨ (i = point ∧ graph.Produces point) := by
  cases leaves with
  | thrown =>
    rcases Frame.mem_caught member with slot | rfl
    · exact .inl ⟨v, List.mem_append_left _ slot, source⟩
    · exact absurd source Sources.not_mem_empty
  | completed =>
    refine (Action.perform_sources performed member source).imp_right ?_
    rintro ⟨here, produces⟩
    obtain ⟨instruction, found, acts, -⟩ := decodes
    obtain ⟨effect, has, -, makes⟩ := Instruction.action_eq_ok acts
    exact ⟨here, instruction, effect, found, has, makes produces⟩

theorem entry_sources {locals : List Value} (made : graph.method.entryLocals = .ok locals) {v : Value}
    (member : v ∈ Frame.values { locals }) (i : Nat) : i ∉ v.sources := by
  rw [Frame.values, List.append_nil] at member
  exact Method.entryLocals_sources made member i

/-- Sources only ever name instructions that make values. -/
theorem preserves_sources (graph : FlowGraph) :
    graph.Preserves fun _ frame => ∀ v ∈ frame.values, ∀ i, i ∈ v.sources → graph.Produces i where
  entry made v member i source := absurd source (entry_sources made member i)
  leaves before decodes performed leaves v member i source := by
    rcases leaves_sources decodes performed leaves member source with ⟨w, old, source⟩ | ⟨rfl, produces⟩
    · exact before w old i source
    · exact produces

/-- A source in a frame of a path is an instruction that some path visits. -/
theorem Reaches.source (path : graph.Reaches point frame) {v : Value} (member : v ∈ frame.values) {i : Nat}
    (source : i ∈ v.sources) : ∃ visited, graph.Reaches i visited := by
  induction path generalizing v with
  | entry _ made => exact absurd source (entry_sources made member i)
  | step path sent flow ih =>
    obtain ⟨action, targets, after, decodes, performed, leaves⟩ := transfer_mem sent flow
    rcases leaves_sources decodes performed leaves member source with ⟨w, old, source⟩ | ⟨rfl, -⟩
    · exact ih old source
    · exact ⟨_, path⟩

end FlowGraph
end CallProvenance
