import CallProvenance.Proofs.Action

/-! The forms of the operations that rearrange the operand stack. A form is chosen by the widths of the
topmost entries alone; it names the entries that then lie on top, and how many old ones they
replace. -/
namespace CallProvenance

namespace StackOp

/-- The entries that replace the topmost `count` ones, named by their old depth. -/
structure Form where
  picks : List Nat
  count : Nat
  deriving DecidableEq, Repr

/-- The form of an operation on entries of the given widths, top first. -/
def form? : StackOp → List Nat → Option Form
  | .pop, 1 :: _ => some ⟨[], 1⟩
  | .pop2, 1 :: 1 :: _ => some ⟨[], 2⟩
  | .pop2, 2 :: _ => some ⟨[], 1⟩
  | .dup, 1 :: _ => some ⟨[0, 0], 1⟩
  | .dupX1, 1 :: 1 :: _ => some ⟨[0, 1, 0], 2⟩
  | .dupX2, 1 :: 1 :: 1 :: _ => some ⟨[0, 1, 2, 0], 3⟩
  | .dupX2, 1 :: 2 :: _ => some ⟨[0, 1, 0], 2⟩
  | .dup2, 1 :: 1 :: _ => some ⟨[0, 1, 0, 1], 2⟩
  | .dup2, 2 :: _ => some ⟨[0, 0], 1⟩
  | .dup2X1, 1 :: 1 :: 1 :: _ => some ⟨[0, 1, 2, 0, 1], 3⟩
  | .dup2X1, 2 :: 1 :: _ => some ⟨[0, 1, 0], 2⟩
  | .dup2X2, 1 :: 1 :: 1 :: 1 :: _ => some ⟨[0, 1, 2, 3, 0, 1], 4⟩
  | .dup2X2, 1 :: 1 :: 2 :: _ => some ⟨[0, 1, 2, 0, 1], 3⟩
  | .dup2X2, 2 :: 1 :: 1 :: _ => some ⟨[0, 1, 2, 0], 3⟩
  | .dup2X2, 2 :: 2 :: _ => some ⟨[0, 1, 0], 2⟩
  | .swap, 1 :: 1 :: _ => some ⟨[1, 0], 2⟩
  | _, _ => none

def Form.rearrange {α : Type} (form : Form) (stack : List α) : List α :=
  form.picks.filterMap (stack[·]?) ++ stack.drop form.count

section Entries

variable {op : StackOp} {top : Value} {rest : List Value}

theorem any_cons : any (top :: rest) = .ok (top, rest) := rfl

theorem single_narrow (narrow : top.size = 1) : single op (top :: rest) = .ok (top, rest) := by
  simp [single, any, narrow, bind, Except.bind]

theorem single_wide (wide : top.size = 2) : single op (top :: rest) = .error (.wideOperand op) := by
  simp [single, any, wide, bind, Except.bind]

end Entries

/-- No operation looks deeper than four entries, so their widths decide everything. -/
theorem apply_toOption (op : StackOp) (stack : List Value) :
    (op.apply stack).toOption = (op.form? (stack.map (·.size))).map (·.rearrange stack) := by
  have widths (v : Value) : v.size = 1 ∨ v.size = 2 := v.kind.size_eq_one_or_two
  rcases stack with _ | ⟨a, _ | ⟨b, _ | ⟨c, _ | ⟨d, rest⟩⟩⟩⟩
  · cases op <;> rfl
  · rcases widths a with wa | wa <;> cases op <;>
      simp only [apply, ok_bind, any_cons, single_narrow, single_wide, wa, ↓reduceIte, Nat.reduceEqDiff,
        List.map_cons] <;> rfl
  · rcases widths a with wa | wa <;> rcases widths b with wb | wb <;> cases op <;>
      simp only [apply, ok_bind, any_cons, single_narrow, single_wide, wa, wb, ↓reduceIte, Nat.reduceEqDiff,
        List.map_cons] <;> rfl
  · rcases widths a with wa | wa <;> rcases widths b with wb | wb <;> rcases widths c with wc | wc <;>
      cases op <;>
      simp only [apply, ok_bind, any_cons, single_narrow, single_wide, wa, wb, wc, ↓reduceIte, Nat.reduceEqDiff,
        List.map_cons] <;> rfl
  · rcases widths a with wa | wa <;> rcases widths b with wb | wb <;> rcases widths c with wc | wc <;>
      rcases widths d with wd | wd <;> cases op <;>
      simp only [apply, ok_bind, any_cons, single_narrow, single_wide, wa, wb, wc, wd, ↓reduceIte,
        Nat.reduceEqDiff, List.map_cons] <;> rfl

theorem apply_eq_ok {op : StackOp} {stack after : List Value} :
    op.apply stack = .ok after ↔
      ∃ form, op.form? (stack.map (·.size)) = some form ∧ after = form.rearrange stack := by
  have same := apply_toOption op stack
  cases applied : op.apply stack with
  | error =>
    rw [applied] at same
    simp [Option.map_eq_none_iff.1 same.symm]
  | ok stack' =>
    rw [applied] at same
    obtain ⟨form, found, rfl⟩ := Option.map_eq_some_iff.1 same.symm
    simp [found, eq_comm]

/-- What holds of every form: it only names entries that it replaces, and adds at most two. -/
structure Form.Proper (form : Form) (height : Nat) : Prop where
  inside : form.count ≤ height
  picks : ∀ depth ∈ form.picks, depth < form.count
  growth : form.picks.length ≤ form.count + 2

theorem form?_proper {op : StackOp} {widths : List Nat} {form : Form}
    (found : op.form? widths = some form) : form.Proper widths.length := by
  unfold form? at found
  split at found <;> cases found <;> constructor <;> simp

namespace Form

variable {α : Type} {form : Form} {stack : List α}

/-- The old depth of the entry at a depth of the rearranged stack. -/
def move (form : Form) (depth : Nat) : Nat :=
  form.picks[depth]?.getD (depth - form.picks.length + form.count)

theorem getElem?_filterMap {picks : List Nat} (inside : ∀ depth ∈ picks, depth < stack.length) (i : Nat) :
    (picks.filterMap (stack[·]?))[i]? = picks[i]?.bind (stack[·]?) := by
  induction picks generalizing i with
  | nil => simp
  | cons pick picks ih =>
    have found := List.getElem?_eq_getElem (inside pick (by simp))
    rw [List.filterMap_cons_some found]
    cases i with
    | zero => simp [found]
    | succ i => simpa using ih (fun depth member => inside depth (by simp [member])) i

theorem length_filterMap {picks : List Nat} (inside : ∀ depth ∈ picks, depth < stack.length) :
    (picks.filterMap (stack[·]?)).length = picks.length := by
  induction picks with
  | nil => rfl
  | cons pick picks ih =>
    rw [List.filterMap_cons_some (List.getElem?_eq_getElem (inside pick (by simp)))]
    simpa using ih fun depth member => inside depth (by simp [member])

theorem Proper.lt_height (proper : form.Proper stack.length) : ∀ depth ∈ form.picks, depth < stack.length :=
  fun depth member => Nat.lt_of_lt_of_le (proper.picks depth member) proper.inside

theorem getElem?_rearrange (proper : form.Proper stack.length) (i : Nat) :
    (form.rearrange stack)[i]? = stack[form.move i]? := by
  unfold rearrange move
  rw [List.getElem?_append, length_filterMap proper.lt_height]
  split
  · rename_i inside
    rw [getElem?_filterMap proper.lt_height, List.getElem?_eq_getElem inside]
    simp
  · rename_i outside
    have missing : form.picks[i]? = none := List.getElem?_eq_none (by omega)
    rw [missing, List.getElem?_drop, Option.getD_none, Nat.add_comm]

theorem length_rearrange (proper : form.Proper stack.length) :
    (form.rearrange stack).length = form.picks.length + (stack.length - form.count) := by
  simp [rearrange, length_filterMap proper.lt_height]

end Form

theorem mem_of_apply {op : StackOp} {stack after : List Value} {v : Value} (applied : op.apply stack = .ok after)
    (member : v ∈ after) : v ∈ stack := by
  obtain ⟨form, -, rfl⟩ := apply_eq_ok.1 applied
  rcases List.mem_append.1 member with picked | kept
  · obtain ⟨depth, -, found⟩ := List.mem_filterMap.1 picked
    exact List.mem_of_getElem? found
  · exact List.mem_of_mem_drop kept

theorem length_apply {op : StackOp} {stack after : List Value} (applied : op.apply stack = .ok after) :
    after.length ≤ stack.length + 2 := by
  obtain ⟨form, found, rfl⟩ := apply_eq_ok.1 applied
  have proper : form.Proper stack.length := by simpa using form?_proper found
  have := proper.growth
  have := proper.inside
  rw [Form.length_rearrange proper]
  omega

end StackOp
end CallProvenance
