import CallProvenance.Proofs.Monotone
import CallProvenance.Proofs.FrameMerge

/-! Frames that say no more than a set of frames does. In every position the kind is one of the set's or
stands for two different ones, and each source of a readable value occurs in the set with the same
kind. Sources of unreadable values are left free: a join may lose a wide value that an
action then tears on each side alone. -/
namespace CallProvenance

namespace Value

/-- The value says no more than the values of the column. -/
structure Attested (column : Value → Prop) (value : Value) : Prop where
  kind : (∃ v, column v ∧ v.kind = value.kind) ∨
    (value.kind = .uninitialized ∧ ∃ v w, column v ∧ column w ∧ v.kind ≠ w.kind)
  sources : value.kind ≠ .uninitialized → ∀ i, i ∈ value.sources →
    ∃ v, column v ∧ v.kind = value.kind ∧ i ∈ v.sources

theorem torn_of_wide {v : Value} (wide : v.size = 2) : v.torn = unset := if_pos wide

theorem torn_of_narrow {v : Value} (narrow : v.size ≠ 2) : v.torn = v := if_neg narrow

namespace Attested

variable {column column' : Value → Prop} {value u v w : Value}

theorem of_mem (member : column value) : value.Attested column :=
  ⟨.inl ⟨value, member, rfl⟩, fun _ _ source => ⟨value, member, rfl, source⟩⟩

theorem mono (attested : value.Attested column) (included : ∀ v, column v → column' v) : value.Attested column' := by
  constructor
  · rcases attested.kind with ⟨v, member, same⟩ | ⟨lost, v, w, left, right, different⟩
    · exact .inl ⟨v, included v member, same⟩
    · exact .inr ⟨lost, v, w, included v left, included w right, different⟩
  · intro readable i source
    obtain ⟨v, member, same, source⟩ := attested.sources readable i source
    exact ⟨v, included v member, same, source⟩

theorem kind_eq {kind : Kind} (attested : value.Attested column) (uniform : ∀ v, column v → v.kind = kind) :
    value.kind = kind := by
  rcases attested.kind with ⟨v, member, same⟩ | ⟨-, v, w, left, right, different⟩
  · exact same ▸ uniform v member
  · exact absurd ((uniform v left).trans (uniform w right).symm) different

theorem join (left : u.Attested column) (right : v.Attested column)
    (joined : w.toFacets = u.toFacets ⊔ v.toFacets) : w.Attested column := by
  have kind : w.kind = u.kind ⊔ v.kind := congrArg Facets.kind joined
  have sources : w.sources = u.sources ⊔ v.sources := congrArg Facets.sources joined
  constructor
  · by_cases same : u.kind = v.kind
    · rw [kind, ← same, sup_idem]
      exact left.kind
    have lost : w.kind = .uninitialized := by rw [kind, Kind.sup_eq, if_neg same]
    rcases left.kind with ⟨a, member, kind_a⟩ | ⟨-, mixed⟩
    · rcases right.kind with ⟨b, member', kind_b⟩ | ⟨-, mixed⟩
      · exact .inr ⟨lost, a, b, member, member', by rwa [kind_a, kind_b]⟩
      · exact .inr ⟨lost, mixed⟩
    · exact .inr ⟨lost, mixed⟩
  · intro readable i source
    rw [kind] at readable ⊢
    obtain ⟨same, same'⟩ := Kind.eq_of_sup readable
    rw [sources, Sources.mem_sup] at source
    rcases source with source | source
    · rw [← same] at readable ⊢
      exact left.sources readable i source
    · rw [← same'] at readable ⊢
      exact right.sources readable i source

theorem torn (attested : v.Attested column) : v.torn.Attested fun w => ∃ u, column u ∧ u.torn = w := by
  by_cases wide : v.size = 2
  · obtain ⟨a, member, same⟩ := attested.kind.resolve_right fun mixed => kind_ne_of_size wide mixed.1
    have wide' : a.size = 2 := by rwa [size, same]
    rw [torn_of_wide wide]
    exact of_mem ⟨a, member, torn_of_wide wide'⟩
  rw [torn_of_narrow wide]
  have kept : ∀ a : Value, a.kind = v.kind → a.torn = a := fun a same => by
    refine torn_of_narrow fun wide' => wide ?_
    rwa [size, ← same]
  constructor
  · rcases attested.kind with ⟨a, member, same⟩ | ⟨lost, a, b, left, right, different⟩
    · exact .inl ⟨a, ⟨a, member, kept a same⟩, same⟩
    -- Tearing keeps two kinds apart, or makes one of them unreadable.
    by_cases wide_a : a.size = 2
    · exact .inl ⟨unset, ⟨a, left, torn_of_wide wide_a⟩, lost.symm⟩
    by_cases wide_b : b.size = 2
    · exact .inl ⟨unset, ⟨b, right, torn_of_wide wide_b⟩, lost.symm⟩
    · exact .inr ⟨lost, a, b, ⟨a, left, torn_of_narrow wide_a⟩, ⟨b, right, torn_of_narrow wide_b⟩, different⟩
  · intro readable i source
    obtain ⟨a, member, same, source⟩ := attested.sources readable i source
    exact ⟨a, ⟨a, member, kept a same⟩, same, source⟩

end Attested
end Value

namespace Frame

/-- What the frames of a set hold in one position. -/
def Column (paths : Frame → Prop) (position : Position) (v : Value) : Prop :=
  ∃ f, paths f ∧ f.at? position = some v

/-- The frame says no more than the frames of the set. -/
structure Attested (paths : Frame → Prop) (frame : Frame) : Prop where
  shape : ∃ f, paths f ∧ f.locals.length = frame.locals.length ∧ f.stack.length = frame.stack.length
  values : ∀ position value, frame.at? position = some value → value.Attested (Column paths position)

/-- The frames of the set are similar, and their stacks can be read. -/
structure Uniform (paths : Frame → Prop) : Prop where
  similar : ∀ {f g}, paths f → paths g → f.Similar g
  readable : ∀ {f}, paths f → f.StackReadable

namespace Attested

variable {paths paths' : Frame → Prop} {frame current incoming joined : Frame}

theorem of_mem (member : paths frame) : frame.Attested paths :=
  ⟨⟨frame, member, rfl, rfl⟩, fun _ _ found => .of_mem ⟨frame, member, found⟩⟩

theorem mono (attested : frame.Attested paths) (included : ∀ f, paths f → paths' f) : frame.Attested paths' := by
  obtain ⟨f, member, counts, heights⟩ := attested.shape
  refine ⟨⟨f, included f member, counts, heights⟩, fun position value found => ?_⟩
  refine (attested.values position value found).mono ?_
  rintro v ⟨f, member, found⟩
  exact ⟨f, included f member, found⟩

theorem caught (attested : frame.Attested paths) :
    frame.caught.Attested fun g => ∃ f, paths f ∧ f.caught = g := by
  obtain ⟨f, member, counts, -⟩ := attested.shape
  refine ⟨⟨f.caught, ⟨f, member, rfl⟩, counts, rfl⟩, fun position value found => ?_⟩
  cases position with
  | slot index =>
    refine (attested.values (.slot index) value found).mono ?_
    rintro v ⟨g, member, found⟩
    exact ⟨g.caught, ⟨g, member, rfl⟩, found⟩
  | operand depth => exact .of_mem ⟨f.caught, ⟨f, member, rfl⟩, found⟩

theorem join (left : current.Attested paths) (right : incoming.Attested paths)
    (join : IsJoin current incoming joined) : joined.Attested paths := by
  obtain ⟨f, member, counts, heights⟩ := left.shape
  refine ⟨⟨f, member, ?_, ?_⟩, fun position value found => ?_⟩
  · rw [counts, join.locals.length join.counts]
  · rw [heights, join.stack.length join.heights]
  obtain ⟨u, v, found_u, found_v, facets⟩ := join.at? found
  exact (left.values position u found_u).join (right.values position v found_v) facets

theorem similar (uniform : Uniform paths) (attested : frame.Attested paths) {f : Frame} (member : paths f) :
    f.Similar frame := by
  obtain ⟨g, member', counts, heights⟩ := attested.shape
  have same := uniform.similar member member'
  refine .of_kind_eq (same.counts.trans counts) (same.heights.trans heights) fun depth v w found found' => ?_
  refine ((attested.values (.operand depth) w found').kind_eq ?_).symm
  rintro u ⟨h, member', found'⟩
  exact (uniform.similar member' member).kind_eq found' found

theorem readable (uniform : Uniform paths) (attested : frame.Attested paths) : frame.StackReadable := by
  obtain ⟨f, member, -⟩ := attested.shape
  intro v listed
  have kinds : v.kind ∈ f.stack.map (·.kind) := by
    rw [(attested.similar uniform member).kinds]
    exact List.mem_map_of_mem listed
  obtain ⟨w, listed', same⟩ := List.mem_map.1 kinds
  exact same ▸ uniform.readable member w listed'

end Attested
end Frame

/-- Readable origins carry attestation from frames to the values made from them. -/
theorem Origin.attested {paths : Frame → Prop} {frame : Frame} {origin : Origin} {index : Nat} {value : Value}
    (attested : frame.Attested paths) (made : origin.value index frame = some value)
    (readable : ∀ kind positions, origin = .derived kind positions → ∀ position ∈ positions,
      ∀ v, frame.at? position = some v → v.kind ≠ .uninitialized) :
    value.Attested fun v => ∃ f, paths f ∧ origin.value index f = some v := by
  obtain ⟨f, member, -⟩ := attested.shape
  cases origin with
  | moved position => exact attested.values position value made
  | torn position =>
    obtain ⟨old, found, rfl⟩ := Option.map_eq_some_iff.1 made
    refine (attested.values position old found).torn.mono ?_
    rintro v ⟨u, ⟨g, member, found⟩, rfl⟩
    exact ⟨g, member, Option.map_eq_some_iff.2 ⟨u, found, rfl⟩⟩
  | unset | produced => exact .of_mem ⟨f, member, made⟩
  | derived kind positions =>
    cases made
    refine ⟨.inl ⟨_, ⟨f, member, rfl⟩, rfl⟩, fun _ i source => ?_⟩
    obtain ⟨u, operand, source⟩ := Value.mem_derived.1 source
    obtain ⟨position, listed, found⟩ := List.mem_filterMap.1 operand
    obtain ⟨v, ⟨g, member, found'⟩, -, source⟩ := (attested.values position u found).sources
      (readable kind positions rfl position listed u found) i source
    exact ⟨_, ⟨g, member, rfl⟩, rfl, Value.mem_derived.2 ⟨v, List.mem_filterMap.2 ⟨position, listed, found'⟩, source⟩⟩

namespace Action

variable {action : Action} {index : Nat} {paths : Frame → Prop} {frame after : Frame}

/-- If an action succeeds on every frame of a uniform set, it succeeds on each frame that the set
attests. -/
theorem perform_of_attested (uniform : Frame.Uniform paths) (attested : frame.Attested paths)
    (succeeds : ∀ f, paths f → ∃ g, action.perform index f = .ok g) :
    ∃ after, action.perform index frame = .ok after := by
  obtain ⟨f, member, -⟩ := attested.shape
  obtain ⟨g, performed⟩ := succeeds f member
  have similar := attested.similar uniform member
  refine perform_of_similar performed similar.symm fun slot kind reads => ?_
  obtain ⟨-, v, found, -⟩ := perform_reads performed reads
  obtain ⟨value, found'⟩ : ∃ value, frame.at? (.slot slot) = some value := by
    rw [← Option.isSome_iff_exists, ← similar.isSome_at?, Frame.at?, found]
    rfl
  refine ⟨value, found', (attested.values (.slot slot) value found').kind_eq ?_⟩
  rintro w ⟨h, member, found⟩
  obtain ⟨g, performed⟩ := succeeds h member
  obtain ⟨-, u, found', same⟩ := perform_reads performed reads
  obtain rfl : w = u := Option.some.inj (found.symm.trans found')
  exact same

theorem perform_attested (uniform : Frame.Uniform paths) (attested : frame.Attested paths)
    (succeeds : ∀ f, paths f → ∃ g, action.perform index f = .ok g)
    (performed : action.perform index frame = .ok after) :
    after.Attested fun g => ∃ f, paths f ∧ action.perform index f = .ok g := by
  obtain ⟨f, member, -⟩ := attested.shape
  obtain ⟨g, performed'⟩ := succeeds f member
  refine ⟨⟨g, ⟨f, member, performed'⟩, perform_shape (attested.similar uniform member) performed' performed⟩, ?_⟩
  intro position value found
  rw [perform_at? performed] at found
  refine (Origin.attested attested found fun kind positions made used listed v found => ?_).mono ?_
  · have allowed := action.allows_origin (frame.stack.map (·.kind)) position
    rw [made] at allowed
    rcases allowed used listed with ⟨depth, rfl⟩ | ⟨slot, kind, reads, rfl⟩
    · exact attested.readable uniform v (List.mem_of_getElem? found)
    · obtain ⟨readable, w, found', rfl⟩ := perform_reads performed reads
      obtain rfl : v = w := Option.some.inj (found.symm.trans found')
      exact readable
  · rintro v ⟨f, member, made⟩
    obtain ⟨g, performed'⟩ := succeeds f member
    refine ⟨g, ⟨f, member, performed'⟩, ?_⟩
    rw [perform_at? performed', (attested.similar uniform member).kinds, made]

end Action
end CallProvenance
