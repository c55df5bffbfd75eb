/-! Finite sets of instruction indices, kept as increasing lists. Two sets with the same
members are equal, so equality of sets can be decided by comparing lists. -/
namespace CallProvenance

structure Sources where
  indices : List Nat
  increasing : indices.Pairwise (· < ·)
  deriving DecidableEq, Repr

namespace Sources

instance : Membership Nat Sources := ⟨fun s i => i ∈ s.indices⟩

theorem mem_def {i : Nat} {s : Sources} : i ∈ s ↔ i ∈ s.indices := Iff.rfl

def size (s : Sources) : Nat := s.indices.length

def empty : Sources := ⟨[], .nil⟩

def single (i : Nat) : Sources := ⟨[i], .cons (by simp) .nil⟩

/-- Merges two increasing lists and keeps one copy of a shared index. -/
def merge : List Nat → List Nat → List Nat
  | [], ys => ys
  | xs, [] => xs
  | x :: xs, y :: ys =>
    if x < y then x :: merge xs (y :: ys)
    else if y < x then y :: merge (x :: xs) ys
    else x :: merge xs ys
  termination_by xs ys => xs.length + ys.length

theorem mem_merge (xs ys : List Nat) (i : Nat) : i ∈ merge xs ys ↔ i ∈ xs ∨ i ∈ ys := by
  fun_induction merge xs ys with
  | case1 => simp
  | case2 => simp
  | case3 x xs y ys _ ih => simp [ih, or_assoc]
  | case4 x xs y ys _ _ ih => simp only [List.mem_cons, ih]; grind
  | case5 x xs y ys h h' ih =>
    have same : x = y := by omega
    simp only [List.mem_cons, ih, same]; grind

theorem merge_increasing (xs ys : List Nat) (hx : xs.Pairwise (· < ·)) (hy : ys.Pairwise (· < ·)) :
    (merge xs ys).Pairwise (· < ·) := by
  fun_induction merge xs ys with
  | case1 => exact hy
  | case2 => exact hx
  | case3 x xs y ys h ih =>
    rw [List.pairwise_cons] at hx
    refine List.pairwise_cons.2 ⟨fun i hi => ?_, ih hx.2 hy⟩
    rw [List.pairwise_cons] at hy
    rcases (mem_merge _ _ _).1 hi with hi | hi
    · exact hx.1 i hi
    · rcases List.mem_cons.1 hi with rfl | hi
      · exact h
      · exact Nat.lt_trans h (hy.1 i hi)
  | case4 x xs y ys _ h ih =>
    rw [List.pairwise_cons] at hy
    refine List.pairwise_cons.2 ⟨fun i hi => ?_, ih hx hy.2⟩
    rw [List.pairwise_cons] at hx
    rcases (mem_merge _ _ _).1 hi with hi | hi
    · rcases List.mem_cons.1 hi with rfl | hi
      · exact h
      · exact Nat.lt_trans h (hx.1 i hi)
    · exact hy.1 i hi
  | case5 x xs y ys h h' ih =>
    have same : x = y := by omega
    rw [List.pairwise_cons] at hx hy
    refine List.pairwise_cons.2 ⟨fun i hi => ?_, ih hx.2 hy.2⟩
    rcases (mem_merge _ _ _).1 hi with hi | hi
    · exact hx.1 i hi
    · exact same ▸ hy.1 i hi

def union (a b : Sources) : Sources :=
  ⟨merge a.indices b.indices, merge_increasing _ _ a.increasing b.increasing⟩

instance : Union Sources := ⟨union⟩

@[simp] theorem mem_union {i : Nat} {a b : Sources} : i ∈ a ∪ b ↔ i ∈ a ∨ i ∈ b :=
  mem_merge _ _ _

@[simp] theorem not_mem_empty {i : Nat} : i ∉ empty := by simp [mem_def, empty]

@[simp] theorem mem_single {i j : Nat} : i ∈ single j ↔ i = j := by simp [mem_def, single]

theorem eq_of_increasing : ∀ {xs ys : List Nat}, xs.Pairwise (· < ·) → ys.Pairwise (· < ·) →
    (∀ i, i ∈ xs ↔ i ∈ ys) → xs = ys
  | [], [], _, _, _ => rfl
  | [], y :: _, _, _, h => by simpa using (h y).2 (by simp)
  | x :: _, [], _, _, h => by simpa using (h x).1 (by simp)
  | x :: xs, y :: ys, hx, hy, h => by
    rw [List.pairwise_cons] at hx hy
    have same : x = y := by
      have left := (h x).1 (by simp)
      have right := (h y).2 (by simp)
      rcases List.mem_cons.1 left with left | left
      · exact left
      · rcases List.mem_cons.1 right with right | right
        · exact right.symm
        · have := hx.1 y right
          have := hy.1 x left
          omega
    subst same
    congr 1
    refine eq_of_increasing hx.2 hy.2 fun i => ⟨fun hi => ?_, fun hi => ?_⟩
    · have := hx.1 i hi
      have := (h i).1 (by simp [hi])
      grind
    · have := hy.1 i hi
      have := (h i).2 (by simp [hi])
      grind

/-- A set is determined by its members. -/
theorem ext_mem {a b : Sources} (h : ∀ i, i ∈ a ↔ i ∈ b) : a = b := by
  cases a; cases b
  congr
  exact eq_of_increasing ‹_› ‹_› h

def unions (sets : List Sources) : Sources := sets.foldl (· ∪ ·) empty

end Sources
end CallProvenance
