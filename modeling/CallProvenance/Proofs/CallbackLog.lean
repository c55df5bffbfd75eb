import CallProvenance.Proofs.LastExecution

/-! Which callbacks a run uses. The callbacks of any flow problem can be made to write down their
uses, and this changes no answer. The log shows that the last execution of every point was given
the fact which the point has at the end, and that nothing is called after a failure. -/
namespace CallProvenance

variable {ε δ σ τ φ α β : Type}

/-- Leaves the answer of a computation and maps its state and its failure. -/
def mapResult (view : τ → σ) (name : ε → δ) : EStateM.Result ε τ α → EStateM.Result δ σ α
  | .ok a t => .ok a (view t)
  | .error e t => .error (name e) (view t)

/-- `fine` does what `coarse` does, on the part of its state that `view` shows and with the failures
that `name` gives. -/
def Projects (view : τ → σ) (name : ε → δ) (fine : EStateM ε τ α) (coarse : EStateM δ σ α) : Prop :=
  ∀ t, mapResult view name (fine t) = coarse (view t)

namespace Projects

variable {view : τ → σ} {name : ε → δ}

theorem pure (a : α) : Projects view name (pure a) (pure a) := fun _ => rfl

theorem bind {fine : EStateM ε τ α} {coarse : EStateM δ σ α} {next : α → EStateM ε τ β} {next' : α → EStateM δ σ β}
    (first : Projects view name fine coarse) (later : ∀ a, Projects view name (next a) (next' a)) :
    Projects view name (fine >>= next) (coarse >>= next') := by
  intro t
  change mapResult view name (EStateM.bind fine next t) = EStateM.bind coarse next' (view t)
  unfold EStateM.bind
  rw [← first t]
  cases fine t with
  | ok a t' => exact later a t'
  | error e t' => rfl

end Projects

namespace FlowSemantics

/-- Callback by callback, one problem does what the other does on a part of the state. -/
structure Refines (view : τ → σ) (name : ε → δ) (fine : FlowSemantics ε τ φ) (coarse : FlowSemantics δ σ φ) : Prop where
  entry : Projects view name fine.entry coarse.entry
  transfer : ∀ point fact, Projects view name (fine.transfer point fact) (coarse.transfer point fact)
  merge : ∀ current incoming, Projects view name (fine.merge current incoming) (coarse.merge current incoming)

namespace Refines

variable {view : τ → σ} {name : ε → δ} {fine : FlowSemantics ε τ φ} {coarse : FlowSemantics δ σ φ}
  (refines : Refines view name fine coarse)
include refines

theorem receive (work : Worklist φ) (flow : Nat × φ) :
    Projects view name (work.receive fine flow) (work.receive coarse flow) := by
  unfold Worklist.receive
  split
  · exact .pure _
  · exact .pure _
  · refine .bind (refines.merge _ _) fun answer => ?_
    cases answer <;> exact .pure _

theorem receiveAll (flows : List (Nat × φ)) (work : Worklist φ) :
    Projects view name (Worklist.receiveAll fine flows work) (Worklist.receiveAll coarse flows work) := by
  induction flows generalizing work with
  | nil => exact .pure _
  | cons flow flows ih => exact .bind (refines.receive work flow) ih

theorem execute (work : Worklist φ) (point : Nat) :
    Projects view name (work.execute fine point) (work.execute coarse point) := by
  unfold Worklist.execute
  split
  · exact .bind (refines.transfer _ _) fun flows => refines.receiveAll flows _
  · exact .pure _

theorem run (budget : Nat) (work : Worklist φ) :
    Projects view name (Worklist.run fine budget work) (Worklist.run coarse budget work) := by
  induction budget, work using Worklist.run_induction with
  | settled budget work queue =>
    rw [Worklist.run_nil queue, Worklist.run_nil queue]
    exact .pure _
  | spent work point rest queue =>
    rw [Worklist.run_zero queue, Worklist.run_zero queue]
    exact .pure _
  | serve budget work point rest queue ih =>
    rw [Worklist.run_succ queue, Worklist.run_succ queue]
    exact .bind (refines.execute _ point) ih

theorem solve (budget count : Nat) : Projects view name (fine.solve budget count) (coarse.solve budget count) := by
  cases count with
  | zero => exact .pure _
  | succ more =>
    rw [solve_succ, solve_succ]
    exact .bind refines.entry fun fact => refines.run budget _

end Refines

inductive Callback (φ : Type) where
  | entry
  | transfer (point : Nat) (fact : φ)
  | merge (current incoming : φ)
  deriving DecidableEq, Repr

def Callback.execution : Callback φ → Option (Nat × φ)
  | .transfer point fact => some (point, fact)
  | _ => none

/-- One use of a callback, and the failure that it ended in. -/
structure Use (ε φ : Type) where
  callback : Callback φ
  failure : Option ε := none
  deriving DecidableEq, Repr

def logged (callback : Callback φ) (run : EStateM ε σ α) : EStateM ε (σ × List (Use ε φ)) α := fun state =>
  match run state.1 with
  | .ok a s => .ok a (s, state.2 ++ [⟨callback, none⟩])
  | .error e s => .error e (s, state.2 ++ [⟨callback, some e⟩])

def logging (semantics : FlowSemantics ε σ φ) : FlowSemantics ε (σ × List (Use ε φ)) φ where
  entry := logged .entry semantics.entry
  transfer point fact := logged (.transfer point fact) (semantics.transfer point fact)
  merge current incoming := logged (.merge current incoming) (semantics.merge current incoming)

/-- The points executed, each with the fact it was given, in order. -/
def executions (log : List (Use ε φ)) : List (Nat × φ) := log.filterMap (·.callback.execution)

def lastFact (log : List (Use ε φ)) (point : Nat) : Option φ :=
  ((executions log).filter (·.1 = point)).getLast?.map (·.2)

section Log

variable {state state' : σ × List (Use ε φ)} {callback : Callback φ} {run : EStateM ε σ α}

theorem logged_eq_ok {a : α} (done : logged callback run state = .ok a state') :
    state'.2 = state.2 ++ [⟨callback, none⟩] := by
  unfold logged at done
  split at done <;> cases done
  rfl

theorem logged_eq_error {e : ε} (failed : logged callback run state = .error e state') :
    state'.2 = state.2 ++ [⟨callback, some e⟩] := by
  unfold logged at failed
  split at failed <;> cases failed
  rfl

theorem logged_projects (callback : Callback φ) (run : EStateM ε σ α) :
    Projects Prod.fst id (logged callback run) run := by
  rintro ⟨s, log⟩
  simp only [logged]
  cases run s <;> rfl

theorem executions_concat (log : List (Use ε φ)) (use : Use ε φ) :
    executions (log ++ [use]) = executions log ++ use.callback.execution.toList := by
  cases made : use.callback.execution <;> simp [executions, made]

theorem lastFact_transfer (log : List (Use ε φ)) (point : Nat) (fact : φ) (failure : Option ε) :
    lastFact (log ++ [⟨.transfer point fact, failure⟩]) = Function.update (lastFact log) point (some fact) := by
  funext q
  unfold lastFact
  rw [executions_concat]
  by_cases here : q = point
  · simp [Callback.execution, here]
  · simp [Callback.execution, here, Ne.symm here]

theorem lastFact_other (log : List (Use ε φ)) {use : Use ε φ} (other : use.callback.execution = none) :
    lastFact (log ++ [use]) = lastFact log := by
  funext q
  unfold lastFact
  rw [executions_concat, other, Option.toList_none, List.append_nil]

theorem lastFact_isSome {log : List (Use ε φ)} {point : Nat} :
    (lastFact log point).isSome ↔ ∃ fact, (point, fact) ∈ executions log := by
  simp [lastFact]

end Log

section Logging

variable (semantics : FlowSemantics ε σ φ)

theorem logging_refines : Refines Prod.fst id semantics.logging semantics where
  entry := logged_projects _ _
  transfer _ _ := logged_projects _ _
  merge _ _ := logged_projects _ _

theorem logging_remembers :
    Remembers semantics.logging (fun _ => True) (fun state => lastFact state.2) (fun _ fact => some fact) where
  entry _ started := ⟨trivial, by rw [logged_eq_ok started, lastFact_other _ rfl]⟩
  transfer _ sent := ⟨trivial, by rw [logged_eq_ok sent, lastFact_transfer]⟩
  merge _ merged := ⟨trivial, by rw [logged_eq_ok merged, lastFact_other _ rfl]⟩

/-- All uses so far succeeded, and the log holds one execution for each that was counted. -/
structure Faithful (iterations : Nat) (log : List (Use ε φ)) : Prop where
  counted : iterations = (executions log).length
  succeeded : ∀ use ∈ log, use.failure = none

theorem Faithful.nil : Faithful 0 ([] : List (Use ε φ)) := ⟨rfl, by simp⟩

theorem Faithful.concat {iterations : Nat} {log : List (Use ε φ)} (before : Faithful iterations log)
    (callback : Callback φ) :
    Faithful (iterations + callback.execution.toList.length) (log ++ [⟨callback, none⟩]) := by
  refine ⟨by simp [before.counted, executions_concat], fun use member => ?_⟩
  rcases List.mem_append.1 member with earlier | now
  · exact before.succeeded use earlier
  · rw [List.mem_singleton.1 now]

theorem faithful_invariant :
    Worklist.Invariant semantics.logging (fun work state => Faithful work.iterations state.2)
      (fun _ work state => Faithful work.iterations state.2) where
  serve before _ _ sent := by
    rw [logged_eq_ok sent]
    exact before.concat (.transfer _ _)
  skip before _ _ := before
  receive := by
    intro work state flow flows work' state' before received
    cases received with
    | outside => exact before
    | first => exact before
    | kept _ merged | joined _ merged =>
      rw [logged_eq_ok merged]
      exact before.concat (.merge _ _)
  done before := before

variable {semantics} {budget count : Nat} {s : σ} {state : σ × List (Use ε φ)}

theorem logging_entry_faithful {fact : φ} (started : semantics.logging.entry (s, []) = .ok fact state) :
    Faithful 0 state.2 := by
  rw [logged_eq_ok started]
  exact Faithful.nil.concat .entry

theorem faithful_of_ok {answer : Option (FixedPoint φ)}
    (ended : semantics.logging.solve budget count (s, []) = .ok answer state) :
    ∃ iterations, Faithful iterations state.2 ∧ ∀ fixed, answer = some fixed → fixed.iterations = iterations := by
  cases count with
  | zero =>
    obtain ⟨rfl, rfl⟩ := pure_eq_ok.1 ended
    exact ⟨0, .nil, fun fixed same => by rw [← Option.some.inj same]⟩
  | succ more =>
    rw [solve_succ] at ended
    obtain ⟨first, t, started, ran⟩ := bind_eq_ok.1 ended
    have before : Faithful (Worklist.start first more).iterations t.2 := logging_entry_faithful started
    obtain ⟨final, faithful, settled⟩ := semantics.faithful_invariant.run_ok before ran
    exact ⟨final.iterations, faithful, fun fixed same => by rw [(settled fixed same).2]⟩

/-- The failure that ends a run is that of the last use in the log, and of no other. -/
theorem last_of_error {e : ε} (failed : semantics.logging.solve budget count (s, []) = .error e state) :
    ∃ earlier callback, state.2 = earlier ++ [⟨callback, some e⟩] ∧ ∀ use ∈ earlier, use.failure = none := by
  cases count with
  | zero => exact absurd failed pure_ne_error
  | succ more =>
    rw [solve_succ] at failed
    rcases bind_eq_error.1 failed with now | ⟨first, t, started, later⟩
    · exact ⟨[], .entry, logged_eq_error now, by simp⟩
    have before : Faithful (Worklist.start first more).iterations t.2 := logging_entry_faithful started
    cases semantics.faithful_invariant.run_error before later with
    | transfer before _ _ failure => exact ⟨_, _, logged_eq_error failure, before.succeeded⟩
    | merge before _ failure => exact ⟨_, _, logged_eq_error failure, before.succeeded⟩

end Logging

/-- How a log accounts for an answer: each execution is counted, the points executed are those that
have a fact, and the last execution of each of them was given that fact. -/
structure Accounts (log : List (Use ε φ)) (fixed : FixedPoint φ) : Prop where
  iterations : fixed.iterations = (executions log).length
  executed : ∀ point, (∃ fact, (point, fact) ∈ executions log) ↔ ∃ fact, fixed.facts[point]? = some (some fact)
  last : ∀ point fact, fixed.facts[point]? = some (some fact) → lastFact log point = some fact

theorem accounts_of_ok {semantics : FlowSemantics ε σ φ} {budget count : Nat} {s : σ}
    {state : σ × List (Use ε φ)} {fixed : FixedPoint φ}
    (solved : semantics.logging.solve budget count (s, []) = .ok (some fixed) state) : Accounts state.2 fixed := by
  obtain ⟨iterations, faithful, counted⟩ := faithful_of_ok solved
  have last : ∀ point, lastFact state.2 point = fixed.facts[point]?.join := fun point => by
    rw [(semantics.logging_remembers.solve trivial (fun _ => rfl) solved).2 point, Option.bind_fun_some]
  refine ⟨(counted fixed rfl).trans faithful.counted, fun point => ?_, fun point fact found => ?_⟩
  · rw [← lastFact_isSome, last, Option.isSome_iff_exists]
    simp only [Option.join_eq_some_iff]
  · rw [last, found]
    rfl

/-- Writing down the uses changes no answer. If a run ends without a failure, no use failed and the log
accounts for the answer; otherwise the last use failed with the error that is returned, and no
use before it did. -/
theorem solve_log_accounts (semantics : FlowSemantics ε σ φ) (budget count : Nat) (s : σ) :
    match semantics.logging.solve budget count (s, []) with
    | .ok answer (s', log) =>
      semantics.solve budget count s = .ok answer s' ∧ (∀ use ∈ log, use.failure = none) ∧
        ∀ fixed, answer = some fixed → Accounts log fixed
    | .error e (s', log) =>
      semantics.solve budget count s = .error e s' ∧
        ∃ earlier callback, log = earlier ++ [⟨callback, some e⟩] ∧ ∀ use ∈ earlier, use.failure = none := by
  have plain := semantics.logging_refines.solve budget count (s, [])
  cases ended : semantics.logging.solve budget count (s, []) with
  | ok answer state =>
    rw [ended] at plain
    obtain ⟨iterations, faithful, -⟩ := faithful_of_ok ended
    refine ⟨plain.symm, faithful.succeeded, ?_⟩
    rintro fixed rfl
    exact accounts_of_ok ended
  | error e state =>
    rw [ended] at plain
    exact ⟨plain.symm, last_of_error ended⟩

/-- Two points that send each other their facts, one higher each time up to a limit. No point may be given a fact
above `top`. -/
def climbing (limit top : Nat) : FlowSemantics String Unit Nat where
  entry := pure 0
  transfer point fact := if top < fact then throw "too high" else pure [(1 - point, min limit (fact + 1))]
  merge current incoming := pure (if incoming ≤ current then none else some incoming)

theorem solve_log_accounts_climbing :
    (∃ log, (climbing 2 2).logging.solve 9 2 ((), []) = .ok (some ⟨#[some 2, some 2], 4⟩) ((), log) ∧
      executions log = [(0, 0), (1, 1), (0, 2), (1, 2)] ∧ Accounts log ⟨#[some 2, some 2], 4⟩) ∧
    ∃ log, (climbing 2 1).logging.solve 9 2 ((), []) = .error "too high" ((), log) ∧
      executions log = [(0, 0), (1, 1), (0, 2)] ∧
      ∃ earlier callback, log = earlier ++ [⟨callback, some "too high"⟩] ∧ ∀ use ∈ earlier, use.failure = none := by
  have settles := solve_log_accounts (climbing 2 2) 9 2 ()
  have fails := solve_log_accounts (climbing 2 1) 9 2 ()
  exact ⟨⟨_, rfl, rfl, settles.2.2 _ rfl⟩, ⟨_, rfl, rfl, fails.2⟩⟩

end FlowSemantics
end CallProvenance
