import CallProvenance.Proofs.HistoryDepth
import Mathlib.Data.Fintype.EquivFin
import Mathlib.Order.WellFounded

/-! The walk that measures a history. Whatever joins share, and in whatever order they are listed, the walk
comes to the inputs of a join before it measures the join, as long as no join lies below itself. So the
depths that it finds are those of plain recursion, and what it has found for one place serves all others. -/
namespace CallProvenance
namespace History

variable {history : History} {place other : Place} {places : List Place} {marks marks' : Array Mark} {i k : Nat}
  {join : Join} {tasks rest : List Task}

/-- The first place is an input of the join at the second. -/
inductive Input (history : History) : Place → Place → Prop where
  | current {i : Nat} {join : Join} : history.joins[i]? = some join → Input history join.current (some i)
  | incoming {i : Nat} {join : Join} : history.joins[i]? = some join → Input history join.incoming (some i)

/-- No place lies below itself. -/
def Acyclic (history : History) : Prop := ∀ place, ¬Relation.TransGen history.Input place place

theorem Input.recorded (input : history.Input place (some i)) : i < history.size := by
  cases input with
  | current found => exact (Array.getElem?_eq_some_iff.1 found).1
  | incoming found => exact (Array.getElem?_eq_some_iff.1 found).1

theorem acyclic_of_rank (rank : Place → Nat) (rises : ∀ (i : Nat) (join : Join), history.joins[i]? = some join →
    rank join.current < rank (some i) ∧ rank join.incoming < rank (some i)) : history.Acyclic := by
  intro place cycle
  have step : ∀ {below above}, history.Input below above → rank below < rank above := by
    rintro _ _ (found | found)
    · exact (rises _ _ found).1
    · exact (rises _ _ found).2
  have higher : ∀ {above}, Relation.TransGen history.Input place above → rank place < rank above := by
    intro above path
    induction path with
    | single input => exact step input
    | tail _ input ih => exact ih.trans (step input)
  exact Nat.lt_irrefl _ (higher cycle)

theorem Ordered.acyclic (ordered : history.Ordered) : history.Acyclic := by
  have earlier : ∀ {i : Nat} {input : Place}, (∀ k ∈ input, k < i) → input.elim 0 (· + 1) < i + 1 := by
    intro i input before
    cases input with
    | none => exact Nat.succ_pos i
    | some k => exact Nat.succ_lt_succ (before k rfl)
  refine acyclic_of_rank (fun place => place.elim 0 (· + 1)) fun i join found => ?_
  exact ⟨earlier (ordered i join found).1, earlier (ordered i join found).2⟩

/-- There are finitely many joins, so without a cycle every descent ends. -/
theorem Acyclic.wellFounded (acyclic : history.Acyclic) : WellFounded history.Input := by
  let below (k i : Fin history.size) : Prop := Relation.TransGen history.Input (some k.val) (some i.val)
  have trans : IsTrans _ below := ⟨fun _ _ _ => Relation.TransGen.trans⟩
  have irrefl : Std.Irrefl below := ⟨fun i => acyclic (some i.val)⟩
  have descent : WellFounded below := Finite.wellFounded_of_trans_of_irrefl below
  have unrecorded : ∀ i, ¬i < history.size → Acc history.Input (some i) :=
    fun i outside => ⟨_, fun _ input => absurd input.recorded outside⟩
  have unmade : Acc history.Input none := ⟨_, fun _ input => by cases input⟩
  have recorded : ∀ i : Fin history.size, Acc history.Input (some i.val) := by
    intro i
    induction i using descent.induction with
    | h i ih =>
      refine ⟨_, fun place input => ?_⟩
      cases place with
      | none => exact unmade
      | some k =>
        by_cases inside : k < history.size
        · exact ih ⟨k, inside⟩ (.single input)
        · exact unrecorded k inside
  refine ⟨fun place => ?_⟩
  cases place with
  | none => exact unmade
  | some i =>
    by_cases inside : i < history.size
    · exact recorded ⟨i, inside⟩
    · exact unrecorded i inside

/-- The depth of a place by plain recursion: one more than the deeper input of its join, if it has one. -/
def recursiveDepth (acyclic : history.Acyclic) : Place → Nat
  | none => 0
  | some i =>
    match found : history.joins[i]? with
    | none => 0
    | some join => 1 + max (recursiveDepth acyclic join.current) (recursiveDepth acyclic join.incoming)
termination_by place => acyclic.wellFounded.wrap place
decreasing_by
  · exact .current found
  · exact .incoming found

section Recursion

variable (acyclic : history.Acyclic)

theorem recursiveDepth_none : recursiveDepth acyclic none = 0 := by rw [recursiveDepth]

theorem recursiveDepth_unrecorded (absent : history.joins[i]? = none) : recursiveDepth acyclic (some i) = 0 := by
  rw [recursiveDepth]
  split
  · rfl
  · rename_i found
    rw [absent] at found
    cases found

theorem recursiveDepth_join (found : history.joins[i]? = some join) :
    recursiveDepth acyclic (some i) =
      1 + max (recursiveDepth acyclic join.current) (recursiveDepth acyclic join.incoming) := by
  rw [recursiveDepth]
  split
  · rename_i absent
    rw [found] at absent
    cases absent
  · rename_i same
    rw [found] at same
    cases same
    rfl

end Recursion

/-- For an ordered history, plain recursion agrees with the table that one pass fills. -/
theorem Ordered.recursiveDepth_eq (ordered : history.Ordered) (place : Place) :
    recursiveDepth ordered.acyclic place = history.depth place := by
  induction place using ordered.acyclic.wellFounded.induction with
  | h place ih =>
    cases place with
    | none => exact recursiveDepth_none _
    | some i =>
      cases found : history.joins[i]? with
      | none =>
        have outside : history.depths.size ≤ i := size_depths history ▸ Array.getElem?_eq_none_iff.1 found
        rw [recursiveDepth_unrecorded _ found]
        simp [depth, depthIn, outside]
      | some join =>
        rw [recursiveDepth_join _ found, ordered.depth_eq found, ih _ (.current found), ih _ (.incoming found)]

theorem walk_cons (marks : Array Mark) (task : Task) (rest : List Task) :
    history.walk marks (task :: rest) =
      history.walk (history.step marks task).1 ((history.step marks task).2 ++ rest) := by
  rw [walk]

/-- What the marks hold is right. -/
structure Sound (acyclic : history.Acyclic) (marks : Array Mark) : Prop where
  size : marks.size = history.size
  depth : ∀ place d, depth? marks place = some d → d = recursiveDepth acyclic place

/-- The marks go on from others: the same joins are opened, and no depth is lost. -/
structure Continues (marks marks' : Array Mark) : Prop where
  opened : ∀ k : Nat, marks'[k]? = some .opened ↔ marks[k]? = some .opened
  kept : ∀ place, (depth? marks place).isSome → (depth? marks' place).isSome

/-- No join below the place, nor the place itself, is being measured. -/
def Clear (history : History) (marks : Array Mark) (place : Place) : Prop :=
  ∀ k : Nat, Relation.ReflTransGen history.Input (some k) place → marks[k]? ≠ some .opened

theorem Continues.refl (marks : Array Mark) : Continues marks marks := ⟨fun _ => Iff.rfl, fun _ => id⟩

theorem Continues.trans {first second third : Array Mark} (left : Continues first second)
    (right : Continues second third) : Continues first third :=
  ⟨fun k => (right.opened k).trans (left.opened k), fun place known => right.kept place (left.kept place known)⟩

theorem Clear.continues (clear : history.Clear marks place) (continues : Continues marks marks') :
    history.Clear marks' place :=
  fun k below opened => clear k below ((continues.opened k).1 opened)

theorem depth?_set (inside : i < marks.size) (mark : Mark) (place : Place) :
    depth? (marks.setIfInBounds i mark) place = if place = some i then mark.depth? else depth? marks place := by
  cases place with
  | none => simp [depth?]
  | some k =>
    by_cases same : k = i
    · subst same
      simp [depth?, inside]
    · have apart : i ≠ k := fun equal => same equal.symm
      simp [depth?, apart, same]

theorem opened_set (inside : i < marks.size) (mark : Mark) (k : Nat) :
    (marks.setIfInBounds i mark)[k]? = some .opened ↔ if k = i then mark = .opened else marks[k]? = some .opened := by
  by_cases same : k = i
  · subst same
    simp [inside]
  · have apart : i ≠ k := fun equal => same equal.symm
    simp [apart, same]

section Walk

variable {acyclic : history.Acyclic}

theorem Sound.set (sound : Sound acyclic marks) (inside : i < marks.size) {mark : Mark}
    (right : ∀ d ∈ mark.depth?, d = recursiveDepth acyclic (some i)) : Sound acyclic (marks.setIfInBounds i mark) where
  size := by rw [Array.size_setIfInBounds, sound.size]
  depth := by
    intro place d held
    rw [depth?_set inside] at held
    split at held
    · rename_i same
      exact same ▸ right d held
    · exact sound.depth place d held

/-- Once both inputs have depths, a join is measured as plain recursion would. -/
theorem Sound.measure_eq (sound : Sound acyclic marks) (found : history.joins[i]? = some join)
    (current : (depth? marks join.current).isSome) (incoming : (depth? marks join.incoming).isSome) :
    measure marks join = recursiveDepth acyclic (some i) := by
  obtain ⟨c, current⟩ := Option.isSome_iff_exists.1 current
  obtain ⟨d, incoming⟩ := Option.isSome_iff_exists.1 incoming
  rw [recursiveDepth_join acyclic found, ← sound.depth _ c current, ← sound.depth _ d incoming]
  simp only [measure, current, incoming, Option.map_some, Option.getD_some]
  omega

/-- The tasks are done and leave marks that go on from the given ones and hold a depth for the place. -/
def Measures (acyclic : history.Acyclic) (marks : Array Mark) (tasks : List Task) (place : Place) : Prop :=
  ∀ rest, ∃ marks', history.walk marks (tasks ++ rest) = history.walk marks' rest ∧ Sound acyclic marks' ∧
    Continues marks marks' ∧ (depth? marks' place).isSome

theorem Measures.of_known (sound : Sound acyclic marks) (known : (depth? marks place).isSome) :
    Measures acyclic marks [] place :=
  fun _ => ⟨marks, rfl, sound, .refl marks, known⟩

theorem Measures.of_request (sound : Sound acyclic marks') (continues : ∀ place, (depth? marks place).isSome →
    (depth? marks' place).isSome) (visited : Measures acyclic marks' (place.toList.map .visit) place) :
    Measures acyclic marks' (request marks place) place := by
  unfold request
  split
  · exact visited
  · rename_i known
    exact .of_known sound (continues place (by simpa [Option.isSome_iff_ne_none] using known))

theorem step_visit_known (known : (depth? marks (some i)).isSome) : history.step marks (.visit i) = (marks, []) := by
  rcases history.step_cases marks (.visit i) with same | ⟨_, _, task, unseen, -, -⟩ | ⟨_, _, task, -, -, -⟩
  · exact same
  · cases task
    simp [depth?, unseen, Mark.depth?] at known
  · cases task

theorem unseen_of_depth? (unknown : depth? marks (some i) = none) (closed : marks[i]? ≠ some .opened) :
    marks[i]? = some .unseen := by
  cases found : marks[i]? with
  | none => simp [depth?, found] at unknown
  | some mark =>
    cases mark with
    | unseen => rfl
    | opened => exact absurd found closed
    | measured depth => simp [depth?, found, Mark.depth?] at unknown

theorem Clear.input (acyclic : history.Acyclic) (clear : history.Clear marks (some i)) (inside : i < marks.size)
    (input : history.Input place (some i)) : history.Clear (marks.setIfInBounds i .opened) place := by
  intro k below opened
  rw [opened_set inside] at opened
  split at opened
  · rename_i same
    subst same
    exact acyclic (some k) (.tail' below input)
  · exact clear k (.tail below input) opened

theorem isSome_depth?_open (unseen : marks[i]? = some .unseen) (known : (depth? marks place).isSome) :
    (depth? (marks.setIfInBounds i .opened) place).isSome := by
  obtain ⟨inside, -⟩ := Array.getElem?_eq_some_iff.1 unseen
  rw [depth?_set inside, if_neg, known]
  rintro rfl
  simp [depth?, unseen, Mark.depth?] at known

theorem Continues.close (unseen : marks[i]? = some .unseen)
    (between : Continues (marks.setIfInBounds i .opened) marks') (inside' : i < marks'.size) (d : Nat) :
    Continues marks (marks'.setIfInBounds i (.measured d)) := by
  obtain ⟨inside, -⟩ := Array.getElem?_eq_some_iff.1 unseen
  refine ⟨fun k => ?_, fun place known => ?_⟩
  · rw [opened_set inside', between.opened, opened_set inside]
    by_cases same : k = i
    · subst same
      simp [unseen]
    · simp [same]
  · rw [depth?_set inside']
    split
    · rfl
    · exact between.kept place (isSome_depth?_open unseen known)

/-- Visiting an unseen join measures it, if visiting its inputs measures them. -/
theorem Measures.of_inputs (sound : Sound acyclic marks) (clear : history.Clear marks (some i))
    (unseen : marks[i]? = some .unseen)
    (visited : ∀ place marks', history.Input place (some i) → Sound acyclic marks' → history.Clear marks' place →
      Measures acyclic marks' (place.toList.map .visit) place) :
    Measures acyclic marks [.visit i] (some i) := by
  intro rest
  obtain ⟨inside, -⟩ := Array.getElem?_eq_some_iff.1 unseen
  have recorded : i < history.joins.size := Nat.lt_of_lt_of_eq inside sound.size
  obtain ⟨join, found⟩ : ∃ join, history.joins[i]? = some join := ⟨_, Array.getElem?_eq_getElem recorded⟩
  have opening : history.step marks (.visit i) = (marks.setIfInBounds i .opened,
      request marks join.incoming ++ request marks join.current ++ [.measure i]) := by
    simp only [step, unseen, found]
  have opened : (marks.setIfInBounds i .opened)[i]? = some .opened := (opened_set inside .opened i).2 (by simp)
  have kept₁ : ∀ place, (depth? marks place).isSome → (depth? (marks.setIfInBounds i .opened) place).isSome :=
    fun _ known => isSome_depth?_open unseen known
  have clear₁ : ∀ {place}, history.Input place (some i) → history.Clear (marks.setIfInBounds i .opened) place :=
    fun input => clear.input acyclic inside input
  have sound₁ : Sound acyclic (marks.setIfInBounds i .opened) := sound.set inside fun _ held => by cases held
  generalize set : marks.setIfInBounds i .opened = first at *
  obtain ⟨second, walk₂, sound₂, continues₂, incoming⟩ :=
    Measures.of_request sound₁ kept₁ (visited _ _ (.incoming found) sound₁ (clear₁ (.incoming found)))
      (request marks join.current ++ .measure i :: rest)
  obtain ⟨third, walk₃, sound₃, continues₃, current⟩ :=
    Measures.of_request sound₂ (fun place known => continues₂.kept place (kept₁ place known))
      (visited _ _ (.current found) sound₂ ((clear₁ (.current found)).continues continues₂)) (.measure i :: rest)
  -- The join is still open, and both of its inputs are measured.
  have between : Continues first third := continues₂.trans continues₃
  have still : third[i]? = some .opened := (between.opened i).2 opened
  obtain ⟨inside₃, -⟩ := Array.getElem?_eq_some_iff.1 still
  have depth := sound₃.measure_eq found current (continues₃.kept _ incoming)
  have closing : history.step third (.measure i) = (third.setIfInBounds i (.measured (measure third join)), []) := by
    simp only [step, still, found]
  refine ⟨third.setIfInBounds i (.measured (measure third join)), ?_, sound₃.set inside₃ ?_,
    .close unseen (set ▸ between) inside₃ _, ?_⟩
  · calc history.walk marks ([.visit i] ++ rest)
        = history.walk first (request marks join.incoming ++ (request marks join.current ++ .measure i :: rest)) := by
          rw [List.singleton_append, walk_cons, opening]
          simp only [List.append_assoc, List.singleton_append]
      _ = history.walk third (.measure i :: rest) := walk₂.trans walk₃
      _ = history.walk (third.setIfInBounds i (.measured (measure third join))) rest := by
          rw [walk_cons, closing, List.nil_append]
  · rintro _ ⟨⟩
    exact depth
  · rw [depth?_set inside₃, if_pos rfl]
    rfl

/-- Visiting a place measures it. The induction is on the place: the inputs of a join come before it. -/
theorem measures_visit (acyclic : history.Acyclic) (place : Place) (marks : Array Mark)
    (sound : Sound acyclic marks) (clear : history.Clear marks place) :
    Measures acyclic marks (place.toList.map .visit) place := by
  induction place using acyclic.wellFounded.induction generalizing marks with
  | h place ih =>
    cases place with
    | none => exact .of_known sound rfl
    | some i =>
      cases held : depth? marks (some i) with
      | some d =>
        intro rest
        have known : (depth? marks (some i)).isSome := by rw [held]; rfl
        refine ⟨marks, ?_, sound, .refl marks, known⟩
        rw [Option.toList_some, List.map_singleton, List.singleton_append, walk_cons, step_visit_known known,
          List.nil_append]
      | none =>
        have unseen := unseen_of_depth? held (clear i .refl)
        exact .of_inputs sound clear unseen fun place marks' input sound' clear' => ih place input marks' sound' clear'

end Walk

section Places

variable {acyclic : history.Acyclic}

theorem sound_start (acyclic : history.Acyclic) : Sound acyclic (Array.replicate history.size .unseen) where
  size := Array.size_replicate
  depth := by
    intro place d held
    cases place with
    | none =>
      cases held
      rw [recursiveDepth_none]
    | some i =>
      by_cases inside : i < history.size
      · simp [depth?, inside, Mark.depth?] at held
      · have absent : history.joins[i]? = none := Array.getElem?_eq_none (Nat.le_of_not_lt inside)
        rw [recursiveDepth_unrecorded acyclic absent]
        simpa [depth?, inside] using held.symm

/-- Between two places no join is open, so that the next walk finds the way clear. -/
theorem foldl_survey (sound : Sound acyclic marks) (closed : ∀ k : Nat, marks[k]? ≠ some .opened) (deepest : Nat) :
    (places.foldl history.survey (marks, deepest)).2 = (places.map (recursiveDepth acyclic)).foldl max deepest := by
  induction places generalizing marks deepest with
  | nil => rfl
  | cons place places ih =>
    obtain ⟨marks', walked, sound', continues, known⟩ :=
      measures_visit acyclic place marks sound (fun k _ => closed k) []
    obtain ⟨d, held⟩ := Option.isSome_iff_exists.1 known
    rw [List.append_nil, walk] at walked
    have surveyed : history.survey (marks, deepest) place = (marks', max deepest (recursiveDepth acyclic place)) := by
      simp only [survey, walked, held, Option.getD_some, sound'.depth place d held]
    rw [List.foldl_cons, surveyed, List.map_cons, List.foldl_cons]
    exact ih sound' (fun k opened => closed k ((continues.opened k).1 opened)) _

theorem closed_start (k : Nat) : (Array.replicate history.size Mark.unseen)[k]? ≠ some .opened := by
  simp [Array.getElem?_replicate]

/-- The depths that a walk finds stay below any bound on those of an ordered history. -/
theorem Ordered.maxDepth_le (ordered : history.Ordered) {bound : Nat}
    (below : ∀ place ∈ places, history.depth place ≤ bound) : history.maxDepth places ≤ bound := by
  have fold : ∀ (places : List Place) (deepest : Nat), deepest ≤ bound →
      (∀ place ∈ places, history.depth place ≤ bound) →
      (places.map (recursiveDepth ordered.acyclic)).foldl max deepest ≤ bound := by
    intro places
    induction places with
    | nil => exact fun deepest start _ => start
    | cons place places ih =>
      intro deepest start below
      refine ih _ (max_le start ?_) fun other member => below other (List.mem_cons_of_mem _ member)
      rw [ordered.recursiveDepth_eq]
      exact below place List.mem_cons_self
  rw [maxDepth, foldl_survey (sound_start ordered.acyclic) closed_start]
  exact fold places 0 (Nat.zero_le _) below

end Places

/-- The walk finds the greatest of the recursive depths of the places, and zero if there are none. It does so for
every history without a cycle, however its joins are listed and whatever they share. -/
theorem maxDepth_eq_recursive (acyclic : history.Acyclic) (places : List Place) :
    history.maxDepth places = (places.map (recursiveDepth acyclic)).foldl max 0 :=
  foldl_survey (sound_start acyclic) closed_start 0

/-- Joins that are listed before their inputs, one of them with the same input twice. -/
def braided : History := ⟨#[⟨some 2, some 1⟩, ⟨some 2, some 2⟩, ⟨none, some 3⟩, ⟨none, none⟩]⟩

theorem maxDepth_eq_recursive_braided : braided.Acyclic ∧ braided.maxDepth [some 1, none, some 0, some 0] = 4 := by
  have acyclic : braided.Acyclic := by
    refine acyclic_of_rank (fun place => place.elim 0 (4 - ·)) fun i join found => ?_
    match i, found with
    | 0, rfl | 1, rfl | 2, rfl | 3, rfl => decide
  have atFirst : braided.joins[0]? = some ⟨some 2, some 1⟩ := rfl
  have atSecond : braided.joins[1]? = some ⟨some 2, some 2⟩ := rfl
  have atThird : braided.joins[2]? = some ⟨none, some 3⟩ := rfl
  have atFourth : braided.joins[3]? = some ⟨none, none⟩ := rfl
  refine ⟨acyclic, ?_⟩
  rw [maxDepth_eq_recursive acyclic]
  simp [recursiveDepth_join acyclic atFirst, recursiveDepth_join acyclic atSecond, recursiveDepth_join acyclic atThird,
    recursiveDepth_join acyclic atFourth, recursiveDepth_none acyclic]

end History
end CallProvenance
