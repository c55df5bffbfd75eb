import CallProvenance.History
import Mathlib.Data.List.Induction
import Mathlib.Order.Bounds.Basic

/-! Depths of places in a history. A join is made of places that were recorded before it, and later joins
leave the depths of earlier places alone. So the table that one pass fills holds, for each place,
the length of the longest chain of joins below it. -/
namespace CallProvenance
namespace History

def depthIn (table : Array Nat) : Place → Nat
  | none => 0
  | some i => table[i]?.getD 0

/-- The depths of all recorded joins: one more than the deeper input. -/
def depths (h : History) : Array Nat :=
  h.joins.foldl
    (fun table join => table.push (1 + max (depthIn table join.current) (depthIn table join.incoming)))
    #[]

variable {history : History} {place current incoming : Place} {i n : Nat} {join : Join}

def depth (history : History) (place : Place) : Nat := depthIn history.depths place

/-- The place was recorded, unless no join made it. -/
def Knows (history : History) (place : Place) : Prop := ∀ k ∈ place, k < history.size

/-- Every join is made of places that were recorded before it. -/
def Ordered (history : History) : Prop :=
  ∀ (i : Nat) (join : Join), history.joins[i]? = some join →
    (∀ k ∈ join.current, k < i) ∧ ∀ k ∈ join.incoming, k < i

/-- A chain of `n` joins, each an input of the one above it, starts at the place. -/
inductive Chain (history : History) : Place → Nat → Prop where
  | stop {place : Place} : Chain history place 0
  | current {i n : Nat} {join : Join} : history.joins[i]? = some join → Chain history join.current n →
      Chain history (some i) (n + 1)
  | incoming {i n : Nat} {join : Join} : history.joins[i]? = some join → Chain history join.incoming n →
      Chain history (some i) (n + 1)

/-- Every history is recorded join by join. -/
@[elab_as_elim]
theorem record_induction {motive : History → Prop} (empty : motive .empty)
    (record : ∀ history current incoming, motive history → motive (history.record current incoming).2)
    (history : History) : motive history := by
  obtain ⟨⟨joins⟩⟩ := history
  induction joins using List.reverseRecOn with
  | nil => exact empty
  | append_singleton joins join ih =>
    have recorded := record ⟨⟨joins⟩⟩ join.current join.incoming ih
    simpa [History.record] using recorded

theorem knows_none (history : History) : history.Knows none := by simp [Knows]

theorem ordered_empty : Ordered .empty := by simp [Ordered, empty]

@[simp] theorem size_record (history : History) (current incoming : Place) :
    (history.record current incoming).2.size = history.size + 1 := by
  simp [record, size]

theorem Knows.record (known : history.Knows place) : (history.record current incoming).2.Knows place := by
  intro k member
  have := known k member
  simp
  omega

theorem joins_record (i : Nat) : (history.record current incoming).2.joins[i]? =
    if i = history.size then some ⟨current, incoming⟩ else history.joins[i]? := by
  simp only [History.record, Array.getElem?_push]
  rfl

/-- A history stays ordered exactly if only known places are joined. -/
theorem ordered_record : (history.record current incoming).2.Ordered ↔
    history.Ordered ∧ history.Knows current ∧ history.Knows incoming := by
  constructor
  · intro ordered
    have last := ordered history.size ⟨current, incoming⟩ (by rw [joins_record, if_pos rfl])
    refine ⟨fun i join found => ordered i join ?_, last⟩
    have inside : i < history.size := (Array.getElem?_eq_some_iff.1 found).1
    rw [joins_record, if_neg (by omega), found]
  · rintro ⟨ordered, known, known'⟩ i join found
    rw [joins_record] at found
    split at found
    · subst i
      cases found
      exact ⟨known, known'⟩
    · exact ordered i join found

theorem depths_record (history : History) (current incoming : Place) :
    (history.record current incoming).2.depths =
      history.depths.push (1 + max (history.depth current) (history.depth incoming)) := by
  simp [depths, History.record, depth]

theorem size_depths (history : History) : history.depths.size = history.size := by
  induction history using record_induction with
  | empty => rfl
  | record history current incoming ih => rw [depths_record, Array.size_push, ih, size_record]

theorem depth_record (known : history.Knows place) :
    (history.record current incoming).2.depth place = history.depth place := by
  cases place with
  | none => rfl
  | some i =>
    have inside : i < history.depths.size := size_depths history ▸ known i rfl
    simp only [depth, depthIn, depths_record, Array.getElem?_push, if_neg (Nat.ne_of_lt inside)]

theorem depth_recorded (history : History) (current incoming : Place) :
    (history.record current incoming).2.depth (some history.size) =
      1 + max (history.depth current) (history.depth incoming) := by
  rw [depth, depths_record, ← size_depths history, depthIn, Array.getElem?_push_size, Option.getD_some]

/-- The depth of any join is one more than that of its deeper input. -/
theorem Ordered.depth_eq (ordered : history.Ordered) (found : history.joins[i]? = some join) :
    history.depth (some i) = 1 + max (history.depth join.current) (history.depth join.incoming) := by
  induction history using record_induction with
  | empty => simp [empty] at found
  | record history current incoming ih =>
    obtain ⟨ordered, known, known'⟩ := ordered_record.1 ordered
    rw [joins_record] at found
    split at found
    · rename_i last
      subst last
      cases found
      rw [depth_recorded, depth_record known, depth_record known']
    · have inside : i < history.size := (Array.getElem?_eq_some_iff.1 found).1
      obtain ⟨before, before'⟩ := ordered i join found
      have known_inputs : history.Knows join.current ∧ history.Knows join.incoming :=
        ⟨fun k member => (before k member).trans inside, fun k member => (before' k member).trans inside⟩
      have known_join : history.Knows (some i) := by
        rintro k ⟨⟩
        exact inside
      rw [depth_record known_join, depth_record known_inputs.1, depth_record known_inputs.2]
      exact ih ordered found

theorem Ordered.chain_le_depth (ordered : history.Ordered) (chain : history.Chain place n) :
    n ≤ history.depth place := by
  induction chain with
  | stop => exact Nat.zero_le _
  | current found _ ih =>
    rw [ordered.depth_eq found]
    omega
  | incoming found _ ih =>
    rw [ordered.depth_eq found]
    omega

theorem Ordered.exists_chain (ordered : history.Ordered) (place : Place) :
    history.Chain place (history.depth place) := by
  cases place with
  | none => exact .stop
  | some i =>
    -- The inputs of a join stand before it, so the induction is on the place.
    induction i using Nat.strongRecOn with
    | ind i ih =>
      have below : ∀ {input : Place}, (∀ k ∈ input, k < i) → history.Chain input (history.depth input) := by
        intro input before
        cases input with
        | none => exact .stop
        | some k => exact ih k (before k rfl)
      cases found : history.joins[i]? with
      | none =>
        have outside : history.depths.size ≤ i := size_depths history ▸ Array.getElem?_eq_none_iff.1 found
        have flat : history.depth (some i) = 0 := by simp [depth, depthIn, outside]
        exact flat ▸ .stop
      | some join =>
        obtain ⟨before, before'⟩ := ordered i join found
        rw [ordered.depth_eq found, Nat.add_comm]
        rcases le_total (history.depth join.current) (history.depth join.incoming) with deeper | deeper
        · rw [max_eq_right deeper]
          exact .incoming found (below before')
        · rw [max_eq_left deeper]
          exact .current found (below before)

/-- In an ordered history the depth of a place is the length of the longest chain of joins below it. -/
theorem Ordered.depth_isGreatest (ordered : history.Ordered) (place : Place) :
    IsGreatest {n | history.Chain place n} (history.depth place) :=
  ⟨ordered.exists_chain place, fun _ chain => ordered.chain_le_depth chain⟩

end History
end CallProvenance
