/-! The record of joins made while values flow together. Each entry names the places of its
two inputs, so a place may be shared by many later joins. Depths are measured by a walk from the
places in question that comes to the inputs of a join before the join itself and measures no join twice. -/
namespace CallProvenance

/-- Where a value stands in a history: `none` when no join made it. -/
abbrev Place := Option Nat

structure Join where
  current : Place
  incoming : Place
  deriving DecidableEq, Repr

structure History where
  joins : Array Join
  deriving Repr

namespace History

def empty : History := ⟨#[]⟩

def size (h : History) : Nat := h.joins.size

def record (h : History) (current incoming : Place) : Place × History :=
  (some h.size, ⟨h.joins.push ⟨current, incoming⟩⟩)

/-- What a walk knows of a recorded join. -/
inductive Mark where
  | unseen
  /-- Its inputs are being measured. Without a cycle no visit comes to such a join. -/
  | opened
  | measured (depth : Nat)
  deriving DecidableEq, Repr

def Mark.depth? : Mark → Option Nat
  | .measured depth => some depth
  | _ => none

inductive Task where
  /-- Have a join measured, its inputs first. -/
  | visit (i : Nat)
  /-- Measure a join whose inputs have been visited. -/
  | measure (i : Nat)
  deriving DecidableEq, Repr

/-- The depth that the marks hold for a place. Without a recorded join there is none to measure. -/
def depth? (marks : Array Mark) : Place → Option Nat
  | none => some 0
  | some i =>
    match marks[i]? with
    | some mark => mark.depth?
    | none => some 0

/-- One more than the deeper input. An input without a depth counts nothing. -/
def measure (marks : Array Mark) (join : Join) : Nat :=
  let above (input : Place) : Nat := ((depth? marks input).map (· + 1)).getD 0
  max (above join.current) (above join.incoming)

/-- The visit that a place needs, unless its depth is known. -/
def request (marks : Array Mark) (place : Place) : List Task :=
  if (depth? marks place).isNone then place.toList.map .visit else []

/-- One step of a walk: the marks after it, and what to do before anything else. -/
def step (h : History) (marks : Array Mark) : Task → Array Mark × List Task
  | .visit i =>
    match marks[i]?, h.joins[i]? with
    | some .unseen, some join =>
      let inputs := request marks join.incoming ++ request marks join.current
      (marks.setIfInBounds i .opened, inputs ++ [.measure i])
    | _, _ => (marks, [])
  | .measure i =>
    match marks[i]?, h.joins[i]? with
    | some .opened, some join => (marks.setIfInBounds i (.measured (measure marks join)), [])
    | _, _ => (marks, [])

/-- A bound on the steps of a walk: a join is opened once, which adds at most three tasks. -/
def work (marks : Array Mark) (tasks : List Task) : Nat := 3 * marks.count .unseen + tasks.length

theorem count_unseen_set {marks : Array Mark} {i : Nat} {old : Mark} (found : marks[i]? = some old) (new : Mark)
    (seen : new ≠ .unseen) :
    (marks.setIfInBounds i new).count .unseen + (if old = .unseen then 1 else 0) = marks.count .unseen := by
  obtain ⟨inside, rfl⟩ := Array.getElem?_eq_some_iff.1 found
  rw [Array.setIfInBounds, dif_pos inside, Array.count_set inside]
  by_cases same : marks[i] = .unseen
  · have present : 0 < marks.count .unseen := Array.count_pos_iff.2 (same ▸ Array.getElem_mem inside)
    simp only [same, seen, beq_self_eq_true, if_true, beq_iff_eq, if_false]
    omega
  · simp [same, seen]

/-- A step opens a join that is unseen, measures one that is opened, or does nothing. -/
theorem step_cases (h : History) (marks : Array Mark) (task : Task) :
    h.step marks task = (marks, []) ∨
    (∃ i join, task = .visit i ∧ marks[i]? = some .unseen ∧ h.joins[i]? = some join ∧
      h.step marks task = (marks.setIfInBounds i .opened,
        request marks join.incoming ++ request marks join.current ++ [.measure i])) ∨
    ∃ i join, task = .measure i ∧ marks[i]? = some .opened ∧ h.joins[i]? = some join ∧
      h.step marks task = (marks.setIfInBounds i (.measured (measure marks join)), []) := by
  cases task with
  | visit i =>
    simp only [step]
    split
    · rename_i join unseen recorded
      exact .inr (.inl ⟨i, join, rfl, unseen, recorded, rfl⟩)
    · exact .inl rfl
  | measure i =>
    simp only [step]
    split
    · rename_i join opened recorded
      exact .inr (.inr ⟨i, join, rfl, opened, recorded, rfl⟩)
    · exact .inl rfl

theorem length_request_le (marks : Array Mark) (place : Place) : (request marks place).length ≤ 1 := by
  unfold request
  split
  · cases place <;> simp
  · exact Nat.zero_le 1

theorem work_step (h : History) (marks : Array Mark) (task : Task) (rest : List Task) :
    work (h.step marks task).1 ((h.step marks task).2 ++ rest) < work marks (task :: rest) := by
  rcases h.step_cases marks task with same | ⟨i, join, -, unseen, -, opened⟩ | ⟨i, join, -, opened, -, measured⟩
  · simp [same, work]
  · have fewer := count_unseen_set unseen .opened (by simp)
    have incoming := length_request_le marks join.incoming
    have current := length_request_le marks join.current
    simp only [if_true] at fewer
    simp only [opened, work, List.length_append, List.length_cons, List.length_nil]
    omega
  · have same := count_unseen_set opened (.measured (measure marks join)) (by simp)
    simp only [reduceCtorEq, if_false, Nat.add_zero] at same
    simp [measured, work, same]

/-- The marks when all tasks are done, the first task first. -/
def walk (h : History) (marks : Array Mark) : List Task → Array Mark
  | [] => marks
  | task :: rest =>
    let next := h.step marks task
    h.walk next.1 (next.2 ++ rest)
termination_by tasks => work marks tasks
decreasing_by exact work_step h marks task rest

def survey (h : History) (state : Array Mark × Nat) (place : Place) : Array Mark × Nat :=
  let marks := h.walk state.1 (place.toList.map .visit)
  (marks, max state.2 ((depth? marks place).getD 0))

/-- The longest chain of joins below any of the places. What was measured for one place serves the next. -/
def maxDepth (h : History) (places : List Place) : Nat :=
  (places.foldl h.survey (Array.replicate h.size .unseen, 0)).2

end History
end CallProvenance
