import CallProvenance.Frame
import Mathlib.Data.List.Forall2
import Mathlib.Data.List.Perm.Subperm
import Mathlib.Order.Lattice
import Mathlib.Algebra.GroupWithZero.Nat

/-! The information order. A kind lies below itself and below `uninitialized`, a set of sources
below every larger set, and facets compare in both respects; joins are least upper bounds in
this order. Rows of values and frames compare position by position. -/
namespace CallProvenance

namespace Kind

instance : PartialOrder Kind where
  le a b := a = b ∨ b = .uninitialized
  le_refl _ := .inl rfl
  le_trans a b c := by
    rintro (rfl | rfl) (rfl | rfl) <;> simp
  le_antisymm a b := by
    rintro (rfl | rfl) (same | same) <;> simp [same]

theorem le_iff {a b : Kind} : a ≤ b ↔ a = b ∨ b = .uninitialized := Iff.rfl

instance : SemilatticeSup Kind where
  sup := join
  le_sup_left a b := by
    by_cases same : a = b
    · simp [join, same]
    · simp [join, same, le_iff]
  le_sup_right a b := by
    by_cases same : a = b
    · simp [join, same]
    · simp [join, same, le_iff]
  sup_le a b c := by
    rintro (rfl | rfl) (rfl | same)
    · simp
    · exact .inr same
    · exact .inr rfl
    · exact .inr rfl

theorem sup_eq (a b : Kind) : a ⊔ b = if a = b then a else .uninitialized := rfl

/-- Below a readable kind there is only the kind itself. -/
theorem eq_of_le {a b : Kind} (below : a ≤ b) (readable : b ≠ .uninitialized) : a = b :=
  below.resolve_right readable

/-- A join of kinds is readable only if both sides are it. -/
theorem eq_of_sup {a b : Kind} (readable : a ⊔ b ≠ .uninitialized) : a = a ⊔ b ∧ b = a ⊔ b :=
  ⟨eq_of_le le_sup_left readable, eq_of_le le_sup_right readable⟩

end Kind

namespace Sources

instance : PartialOrder Sources where
  le a b := ∀ i, i ∈ a → i ∈ b
  le_refl _ _ member := member
  le_trans _ _ _ first second i member := second i (first i member)
  le_antisymm _ _ first second := ext_mem fun i => ⟨first i, second i⟩

instance : SemilatticeSup Sources where
  sup := (· ∪ ·)
  le_sup_left _ _ _ member := mem_union.2 (.inl member)
  le_sup_right _ _ _ member := mem_union.2 (.inr member)
  sup_le _ _ _ left right i member := (mem_union.1 member).elim (left i) (right i)

@[simp] theorem mem_sup {i : Nat} {a b : Sources} : i ∈ a ⊔ b ↔ i ∈ a ∨ i ∈ b := mem_union

theorem mem_foldl_union {i : Nat} (sets : List Sources) (first : Sources) :
    i ∈ sets.foldl (· ∪ ·) first ↔ i ∈ first ∨ ∃ set ∈ sets, i ∈ set := by
  induction sets generalizing first with
  | nil => simp
  | cons set sets ih =>
    simp only [List.foldl_cons, ih, mem_union, List.mem_cons, exists_eq_or_imp]
    exact or_assoc

@[simp] theorem mem_unions {i : Nat} {sets : List Sources} :
    i ∈ unions sets ↔ ∃ set ∈ sets, i ∈ set := by
  simp [unions, mem_foldl_union]

theorem nodup (a : Sources) : a.indices.Nodup := a.increasing.imp Nat.ne_of_lt

theorem size_mono {a b : Sources} (below : a ≤ b) : a.size ≤ b.size :=
  (List.subperm_of_subset a.nodup below).length_le

/-- A set is not smaller than a different set that it contains. -/
theorem eq_of_le_of_size {a b : Sources} (below : a ≤ b) (size : b.size ≤ a.size) : a = b := by
  have same := (List.subperm_of_subset a.nodup below).perm_of_length_le size
  exact ext_mem fun i => same.mem_iff

/-- A set of numbers below a bound is no larger than the bound. -/
theorem size_le_of_forall_lt {a : Sources} {bound : Nat} (below : ∀ i, i ∈ a → i < bound) :
    a.size ≤ bound := by
  have inside : a.indices ⊆ List.range bound := fun i member => List.mem_range.2 (below i member)
  have := (List.subperm_of_subset a.nodup inside).length_le
  rwa [List.length_range] at this

end Sources

namespace Facets

instance : PartialOrder Facets where
  le a b := a.kind ≤ b.kind ∧ a.sources ≤ b.sources
  le_refl _ := ⟨le_rfl, le_rfl⟩
  le_trans _ _ _ first second := ⟨first.1.trans second.1, first.2.trans second.2⟩
  le_antisymm a b first second := by
    have kind := le_antisymm first.1 second.1
    have sources := le_antisymm first.2 second.2
    cases a; cases b
    simp_all

instance : SemilatticeSup Facets where
  sup := join
  le_sup_left _ _ := ⟨le_sup_left, le_sup_left⟩
  le_sup_right _ _ := ⟨le_sup_right, le_sup_right⟩
  sup_le _ _ _ left right := ⟨sup_le left.1 right.1, sup_le left.2 right.2⟩

@[simp] theorem sources_sup (a b : Facets) : (a ⊔ b).sources = a.sources ⊔ b.sources := rfl

/-- How far a value has risen: each source counts one, and so does the loss of its kind. -/
def rank (facets : Facets) : Nat :=
  facets.sources.size + if facets.kind = .uninitialized then 1 else 0

theorem rank_mono {a b : Facets} (below : a ≤ b) : a.rank ≤ b.rank := by
  have sources := Sources.size_mono below.2
  rcases below.1 with same | lost
  · simp only [rank, same]; omega
  · simp only [rank, lost]; split <;> simp <;> omega

theorem rank_strictMono {a b : Facets} (below : a < b) : a.rank < b.rank := by
  have kinds := below.le.1
  by_contra bounded
  have sources : a.sources = b.sources := by
    apply Sources.eq_of_le_of_size below.le.2
    rcases kinds with same | lost
    · simp only [rank, same] at bounded; omega
    · simp only [rank, lost] at bounded; split at bounded <;> simp at bounded <;> omega
  have kind : a.kind = b.kind := by
    rcases kinds with same | lost
    · exact same
    · by_contra different
      simp [rank, lost, sources, lost ▸ different] at bounded
  apply below.ne
  cases a; cases b
  simp_all

end Facets

/-- Values compare by their facets; their places in the history do not matter. -/
instance : Preorder Value := Preorder.lift Value.toFacets

namespace Value

theorem rank_lt_of_not_le {v w : Value} (below : v ≤ w) (strict : ¬ w ≤ v) : v.rank < w.rank :=
  Facets.rank_strictMono (lt_of_le_not_ge below strict)

abbrev RowLe (a b : List Value) : Prop := List.Forall₂ (· ≤ ·) a b

namespace RowLe

theorem trans {a b c : List Value} (first : RowLe a b) (second : RowLe b c) : RowLe a c := by
  induction first generalizing c with
  | nil => exact second
  | cons head _ ih =>
    cases second with
    | cons head' tail' => exact .cons (head.trans head') (ih tail')

theorem iff_getElem? {a b : List Value} :
    RowLe a b ↔ a.length = b.length ∧
      ∀ (i : Nat) (v w : Value), a[i]? = some v → b[i]? = some w → v ≤ w := by
  rw [RowLe, List.forall₂_iff_get]
  refine and_congr_right fun _ => ⟨fun below i v w found found' => ?_, fun below i h h' => ?_⟩
  · obtain ⟨h, rfl⟩ := List.getElem?_eq_some_iff.1 found
    obtain ⟨h', rfl⟩ := List.getElem?_eq_some_iff.1 found'
    exact below i h h'
  · exact below i _ _ (List.getElem?_eq_getElem h) (List.getElem?_eq_getElem h')

theorem getElem? {a b : List Value} (below : RowLe a b) {i : Nat} {w : Value} (found : b[i]? = some w) :
    ∃ v, a[i]? = some v ∧ v ≤ w := by
  obtain ⟨length, pointwise⟩ := iff_getElem?.1 below
  obtain ⟨inside, -⟩ := List.getElem?_eq_some_iff.1 found
  have found' := List.getElem?_eq_getElem (length ▸ inside)
  exact ⟨_, found', pointwise i _ w found' found⟩

theorem sum_rank_le {a b : List Value} (below : RowLe a b) :
    (a.map (·.rank)).sum ≤ (b.map (·.rank)).sum := by
  induction below with
  | nil => exact le_rfl
  | cons head _ ih =>
    have := Facets.rank_mono head
    simp only [List.map_cons, List.sum_cons]
    omega

theorem sum_rank_lt {a b : List Value} (below : RowLe a b) (strict : ¬ RowLe b a) :
    (a.map (·.rank)).sum < (b.map (·.rank)).sum := by
  induction below with
  | nil => exact absurd .nil strict
  | @cons v w a b head tail ih =>
    simp only [List.map_cons, List.sum_cons]
    by_cases back : w ≤ v
    · have := ih fun tail' => strict (.cons back tail')
      have := Facets.rank_mono head
      omega
    · have := rank_lt_of_not_le head back
      have := sum_rank_le tail
      omega

end RowLe
end Value

/-- A local slot, or an operand counted from the top of the stack. -/
inductive Position where
  | slot (index : Nat)
  | operand (depth : Nat)
  deriving DecidableEq, Repr

namespace Frame

/-- Frames of one shape compare position by position. -/
instance : Preorder Frame where
  le f g := Value.RowLe f.locals g.locals ∧ Value.RowLe f.stack g.stack
  le_refl _ := ⟨List.forall₂_refl _, List.forall₂_refl _⟩
  le_trans _ _ _ first second := ⟨first.1.trans second.1, first.2.trans second.2⟩

theorem le_iff {f g : Frame} :
    f ≤ g ↔ Value.RowLe f.locals g.locals ∧ Value.RowLe f.stack g.stack := Iff.rfl

def rank (frame : Frame) : Nat := (frame.values.map (·.rank)).sum

theorem rank_lt_of_not_le {f g : Frame} (below : f ≤ g) (strict : ¬ g ≤ f) : f.rank < g.rank := by
  simp only [rank, values, List.map_append, List.sum_append]
  have locals := below.1.sum_rank_le
  have stack := below.2.sum_rank_le
  by_cases back : Value.RowLe g.locals f.locals
  · have := below.2.sum_rank_lt fun back' => strict ⟨back, back'⟩
    omega
  · have := below.1.sum_rank_lt back
    omega

def at? (frame : Frame) : Position → Option Value
  | .slot index => frame.locals[index]?
  | .operand depth => frame.stack[depth]?

theorem mem_values_iff {frame : Frame} {v : Value} :
    v ∈ frame.values ↔ ∃ position, frame.at? position = some v := by
  rw [values, List.mem_append]
  constructor
  · rintro (member | member)
    · obtain ⟨index, found⟩ := List.mem_iff_getElem?.1 member
      exact ⟨.slot index, found⟩
    · obtain ⟨depth, found⟩ := List.mem_iff_getElem?.1 member
      exact ⟨.operand depth, found⟩
  · rintro ⟨position, found⟩
    cases position with
    | slot index => exact .inl (List.mem_of_getElem? found)
    | operand depth => exact .inr (List.mem_of_getElem? found)

section Positions

variable {f g : Frame}

theorem le_iff_at? :
    f ≤ g ↔ f.locals.length = g.locals.length ∧ f.stack.length = g.stack.length ∧
      ∀ position v w, f.at? position = some v → g.at? position = some w → v ≤ w := by
  rw [le_iff, Value.RowLe.iff_getElem?, Value.RowLe.iff_getElem?]
  constructor
  · rintro ⟨⟨counts, locals⟩, heights, stack⟩
    refine ⟨counts, heights, fun position v w found found' => ?_⟩
    cases position with
    | slot index => exact locals index v w found found'
    | operand depth => exact stack depth v w found found'
  · rintro ⟨counts, heights, pointwise⟩
    exact ⟨⟨counts, fun index => pointwise (.slot index)⟩, heights, fun depth => pointwise (.operand depth)⟩

theorem exists_above (below : f ≤ g) {position : Position} {v : Value} (found : f.at? position = some v) :
    ∃ w, g.at? position = some w ∧ v ≤ w := by
  obtain ⟨counts, heights, pointwise⟩ := le_iff_at?.1 below
  have present : (g.at? position).isSome := by
    cases position with
    | slot index =>
      have inside := (List.getElem?_eq_some_iff.1 found).1
      simpa [at?, ← counts] using inside
    | operand depth =>
      have inside := (List.getElem?_eq_some_iff.1 found).1
      simpa [at?, ← heights] using inside
  obtain ⟨w, found'⟩ := Option.isSome_iff_exists.1 present
  exact ⟨w, found', pointwise position v w found found'⟩

end Positions

end Frame
end CallProvenance
