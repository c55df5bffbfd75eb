import CallProvenance.Proofs.Shuffle

/-! Stacks as rows of words. A wide value is two words that belong together, and every other value is one
word. In this view the operations that rearrange a stack drop, copy or exchange its topmost words,
whatever values the words belong to, and they fail exactly where this would part a wide value. -/
namespace CallProvenance

/-- A value of one word, or one of the two words of a wide value. -/
inductive Word where
  | whole (value : Value)
  | upper (value : Value)
  | lower (value : Value)

def Value.words (value : Value) : List Word :=
  if value.size = 2 then [.upper value, .lower value] else [.whole value]

theorem Value.length_words (value : Value) : value.words.length = value.size := by
  unfold words
  rcases value.kind.size_eq_one_or_two with size | size <;> simp [Value.size, size]

/-- Which value a word belongs to, and whether the word is its last one, can be read off the word. -/
theorem Value.words_append_inj {v w : Value} {rest rest' : List Word} (same : v.words ++ rest = w.words ++ rest') :
    v = w ∧ rest = rest' := by
  unfold words at same
  split at same <;> split at same <;> simp_all

namespace Word

def ofStack (stack : List Value) : List Word := stack.flatMap Value.words

@[simp] theorem ofStack_nil : ofStack [] = [] := rfl

@[simp] theorem ofStack_cons (v : Value) (rest : List Value) : ofStack (v :: rest) = v.words ++ ofStack rest :=
  List.flatMap_cons

@[simp] theorem ofStack_append (above below : List Value) :
    ofStack (above ++ below) = ofStack above ++ ofStack below := List.flatMap_append

theorem ofStack_eq_nil {stack : List Value} (empty : ofStack stack = []) : stack = [] := by
  cases stack with
  | nil => rfl
  | cons v rest =>
    have none := congrArg List.length empty
    have := v.kind.size_pos
    simp only [ofStack_cons, List.length_append, v.length_words, Value.size, List.length_nil] at none
    omega

/-- A stack can be read off its words. -/
theorem ofStack_injective {stack stack' : List Value} (same : ofStack stack = ofStack stack') : stack = stack' := by
  induction stack generalizing stack' with
  | nil => exact (ofStack_eq_nil same.symm).symm
  | cons v rest ih =>
    cases stack' with
    | nil => exact ofStack_eq_nil same
    | cons w rest' =>
      obtain ⟨rfl, rest_same⟩ := Value.words_append_inj same
      rw [ih rest_same]

/-- The boundary `depth` words below the top runs through a value. -/
def Parts (depth : Nat) (stack : List Value) : Prop :=
  ∃ above value below, stack = above ++ value :: below ∧
    (ofStack above).length < depth ∧ depth < (ofStack above).length + value.size

theorem Parts.cons {depth : Nat} {rest : List Value} (parts : Parts depth rest) (v : Value) :
    Parts (v.size + depth) (v :: rest) := by
  obtain ⟨above, value, below, rfl, start, stop⟩ := parts
  refine ⟨v :: above, value, below, rfl, ?_, ?_⟩ <;>
    simp only [ofStack_cons, List.length_append, v.length_words] <;> omega

theorem exists_cut_of_not_parts {depth : Nat} {stack : List Value} (enough : depth ≤ (ofStack stack).length)
    (whole : ¬ Parts depth stack) : ∃ above below, stack = above ++ below ∧ (ofStack above).length = depth := by
  induction stack generalizing depth with
  | nil => exact ⟨[], [], rfl, by simpa [eq_comm] using enough⟩
  | cons v rest ih =>
    rcases Nat.eq_zero_or_pos depth with rfl | positive
    · exact ⟨[], v :: rest, rfl, rfl⟩
    have inside : v.size ≤ depth := by
      by_contra short
      exact whole ⟨[], v, rest, rfl, positive, by simp; omega⟩
    obtain ⟨left, rfl⟩ := Nat.exists_eq_add_of_le inside
    simp only [ofStack_cons, List.length_append, v.length_words, Nat.add_le_add_iff_left] at enough
    obtain ⟨above, below, rfl, size⟩ := ih enough fun parts => whole (parts.cons v)
    exact ⟨v :: above, below, rfl, by simp [v.length_words, size]⟩

theorem not_parts_of_cut {above below : List Value} : ¬ Parts (ofStack above).length (above ++ below) := by
  rintro ⟨above', value, below', same, start, stop⟩
  rcases List.append_eq_append_iff.1 same with ⟨more, rfl, -⟩ | ⟨more, rfl, rest⟩
  · simp only [ofStack_append, List.length_append] at start
    omega
  · cases more with
    | nil => simp at start
    | cons first more =>
      obtain ⟨rfl, -⟩ := List.cons.inj rest
      simp only [ofStack_append, ofStack_cons, List.length_append, value.length_words] at stop
      omega

/-- A stack can be cut at a boundary exactly where it has enough words and no value is parted. -/
theorem cut_iff {depth : Nat} {stack : List Value} :
    (depth ≤ (ofStack stack).length ∧ ¬ Parts depth stack) ↔
      ∃ above below, stack = above ++ below ∧ (ofStack above).length = depth := by
  constructor
  · rintro ⟨enough, whole⟩
    exact exists_cut_of_not_parts enough whole
  · rintro ⟨above, below, rfl, rfl⟩
    exact ⟨by simp, not_parts_of_cut⟩

end Word

namespace StackOp

/-- The boundaries of the words that an operation moves, counted in words below the top. -/
def boundaries : StackOp → List Nat
  | .pop => [1]
  | .pop2 => [2]
  | .dup => [1]
  | .dupX1 => [1, 2]
  | .dupX2 => [1, 3]
  | .dup2 => [2]
  | .dup2X1 => [2, 3]
  | .dup2X2 => [2, 4]
  | .swap => [1, 2]

/-- Inserts a copy of the topmost `count` words below the topmost `depth` words. -/
def insertCopy {α : Type} (count depth : Nat) (words : List α) : List α :=
  words.take depth ++ (words.take count ++ words.drop depth)

/-- What an operation does to words, top first. -/
def onWords {α : Type} (words : List α) : StackOp → List α
  | .pop => words.drop 1
  | .pop2 => words.drop 2
  | .dup => insertCopy 1 1 words
  | .dupX1 => insertCopy 1 2 words
  | .dupX2 => insertCopy 1 3 words
  | .dup2 => insertCopy 2 2 words
  | .dup2X1 => insertCopy 2 3 words
  | .dup2X2 => insertCopy 2 4 words
  | .swap => (words.take 2).reverse ++ words.drop 2

/-- The stack has the words that the operation moves, and no boundary of these parts a value. -/
structure Fits (op : StackOp) (stack : List Value) : Prop where
  enough : ∀ depth ∈ op.boundaries, depth ≤ (Word.ofStack stack).length
  whole : ∀ depth ∈ op.boundaries, ¬ Word.Parts depth stack

def top : StackOp → Nat
  | .pop | .dup | .dupX1 | .dupX2 | .swap => 1
  | .pop2 | .dup2 | .dup2X1 | .dup2X2 => 2

def beneath : StackOp → Nat
  | .pop | .pop2 | .dup | .dup2 => 0
  | .dupX1 | .dup2X1 | .swap => 1
  | .dupX2 | .dup2X2 => 2

/-- What becomes of the parts into which the boundaries divide a stack. -/
def arrange {α : Type} (first second rest : List α) : StackOp → List α
  | .pop | .pop2 => rest
  | .swap => second ++ (first ++ rest)
  | _ => first ++ (second ++ (first ++ rest))

/-- Takes the values of the topmost `count` words. -/
def draw (op : StackOp) : Nat → List Value → Except Inconsistency (List Value × List Value)
  | 0, stack => .ok ([], stack)
  | _ + 1, [] => .error .stackUnderflow
  | count + 1, value :: rest =>
    if value.size ≤ count + 1 then do
      let (drawn, rest) ← op.draw (count + 1 - value.size) rest
      return (value :: drawn, rest)
    else .error (.wideOperand op)

section Draw

variable {op : StackOp} {count : Nat} {stack drawn rest : List Value}

/-- Drawing cuts the stack at a boundary between values. -/
theorem draw_append : op.draw (Word.ofStack drawn).length (drawn ++ rest) = .ok (drawn, rest) := by
  induction drawn with
  | nil => cases rest <;> rfl
  | cons v drawn ih =>
    have size : v.size = v.size - 1 + 1 := (Nat.sub_add_cancel v.kind.size_pos).symm
    have count : (Word.ofStack (v :: drawn)).length = v.size - 1 + (Word.ofStack drawn).length + 1 := by
      rw [Word.ofStack_cons, List.length_append, v.length_words]
      omega
    have left : v.size - 1 + (Word.ofStack drawn).length + 1 - v.size = (Word.ofStack drawn).length := by omega
    rw [count, List.cons_append, draw, if_pos (by omega), left, ih]
    rfl

theorem draw_eq_ok :
    op.draw count stack = .ok (drawn, rest) ↔ stack = drawn ++ rest ∧ (Word.ofStack drawn).length = count := by
  refine ⟨fun taken => ?_, ?_⟩
  · fun_induction draw op count stack generalizing drawn with
    | case1 stack =>
      cases taken
      exact ⟨rfl, rfl⟩
    | case2 => cases taken
    | case3 count v stack fits ih =>
      obtain ⟨⟨above, below⟩, drawn_above, answer⟩ := except_bind_eq_ok.1 taken
      cases answer
      obtain ⟨rfl, size⟩ := ih drawn_above
      refine ⟨rfl, ?_⟩
      rw [Word.ofStack_cons, List.length_append, v.length_words, size]
      omega
    | case4 => cases taken
  · rintro ⟨rfl, rfl⟩
    exact draw_append

variable {α : Type} (next : List Value × List Value → Except Inconsistency α)

theorem draw_zero : op.draw 0 stack >>= next = next ([], stack) := by
  cases stack <;> rfl

theorem draw_one : op.draw 1 stack >>= next = op.single stack >>= fun taken => next ([taken.1], taken.2) := by
  cases stack with
  | nil => rfl
  | cons a rest =>
    rcases a.kind.size_eq_one_or_two with narrow | wide
    · have drawn : op.draw 1 (a :: rest) = .ok ([a], rest) :=
        draw_eq_ok.2 ⟨rfl, by simp [a.length_words, Value.size, narrow]⟩
      rw [single_narrow narrow, drawn]
      rfl
    · have parted : op.draw 1 (a :: rest) = .error (.wideOperand op) := if_neg (by simp [Value.size, wide])
      rw [single_wide wide, parted]
      rfl

theorem draw_two : op.draw 2 stack >>= next = any stack >>= fun taken =>
    if taken.1.size = 1 then op.single taken.2 >>= fun under => next ([taken.1, under.1], under.2)
    else next ([taken.1], taken.2) := by
  cases stack with
  | nil => rfl
  | cons a rest =>
    rcases a.kind.size_eq_one_or_two with narrow | wide
    · have drawn : op.draw 2 (a :: rest) = op.draw 1 rest >>= fun under => .ok (a :: under.1, under.2) := by
        simp [draw, Value.size, narrow]
        rfl
      have size : a.size = 1 := narrow
      rw [drawn, bind_assoc, draw_one, any_cons, ok_bind, if_pos size]
      rfl
    · have drawn : op.draw 2 (a :: rest) = .ok ([a], rest) :=
        draw_eq_ok.2 ⟨rfl, by simp [a.length_words, Value.size, wide]⟩
      have apart : a.size ≠ 1 := by simp [Value.size, wide]
      rw [drawn, any_cons, ok_bind, ok_bind, if_neg apart]

end Draw

/-- All operations draw the words above their boundaries and put them back in another order. -/
theorem apply_eq_draw (op : StackOp) (stack : List Value) :
    op.apply stack = op.draw op.top stack >>= fun first =>
      op.draw op.beneath first.2 >>= fun second => pure (op.arrange first.1 second.1 second.2) := by
  cases op <;> simp only [apply, top, beneath, arrange, draw_zero, draw_one, draw_two]
  case dup2X1 =>
    -- Here the second entry is taken before the width of the first one decides on a third.
    congr 1
    funext taken
    split <;> rfl
  all_goals rfl

theorem apply_eq_ok_cut {op : StackOp} {stack after : List Value} :
    op.apply stack = .ok after ↔ ∃ first second rest, stack = first ++ (second ++ rest) ∧
      (Word.ofStack first).length = op.top ∧ (Word.ofStack second).length = op.beneath ∧
      after = op.arrange first second rest := by
  simp only [apply_eq_draw, except_bind_eq_ok, Prod.exists, draw_eq_ok, pure, Except.pure, Except.ok.injEq]
  constructor
  · rintro ⟨first, _, ⟨rfl, top⟩, second, rest, ⟨rfl, beneath⟩, rfl⟩
    exact ⟨first, second, rest, rfl, top, beneath, rfl⟩
  · rintro ⟨first, second, rest, rfl, top, beneath, rfl⟩
    exact ⟨first, second ++ rest, ⟨rfl, top⟩, second, rest, ⟨rfl, beneath⟩, rfl⟩

theorem forall_boundaries {op : StackOp} {P : Nat → Prop} :
    (∀ depth ∈ op.boundaries, P depth) ↔ P op.top ∧ P (op.top + op.beneath) := by
  cases op <;> simp [boundaries, top, beneath]

theorem fits_iff_cut {op : StackOp} {stack : List Value} :
    op.Fits stack ↔ ∃ first second rest, stack = first ++ (second ++ rest) ∧
      (Word.ofStack first).length = op.top ∧ (Word.ofStack second).length = op.beneath := by
  constructor
  · intro fits
    obtain ⟨enough, enough'⟩ := forall_boundaries.1 fits.enough
    obtain ⟨whole, whole'⟩ := forall_boundaries.1 fits.whole
    obtain ⟨first, below, rfl, top⟩ := Word.cut_iff.1 ⟨enough, whole⟩
    obtain ⟨above, rest, same, size⟩ := Word.cut_iff.1 ⟨enough', whole'⟩
    rcases List.append_eq_append_iff.1 same with ⟨second, rfl, rfl⟩ | ⟨more, rfl, -⟩
    · simp only [Word.ofStack_append, List.length_append] at size
      exact ⟨first, second, rest, rfl, top, by omega⟩
    · -- The lower boundary lies above the upper one only if the two are the same.
      simp only [Word.ofStack_append, List.length_append] at top
      exact ⟨above ++ more, [], below, rfl, by simpa using top, by simp; omega⟩
  · rintro ⟨first, second, rest, rfl, top, beneath⟩
    have upper := Word.cut_iff.2 ⟨first, second ++ rest, rfl, top⟩
    have size : (Word.ofStack (first ++ second)).length = op.top + op.beneath := by simp [top, beneath]
    have lower := Word.cut_iff.2 ⟨first ++ second, rest, (List.append_assoc ..).symm, size⟩
    exact ⟨forall_boundaries.2 ⟨upper.1, lower.1⟩, forall_boundaries.2 ⟨upper.2, lower.2⟩⟩

theorem ofStack_arrange (op : StackOp) (first second rest : List Value) :
    Word.ofStack (op.arrange first second rest) =
      op.arrange (Word.ofStack first) (Word.ofStack second) (Word.ofStack rest) := by
  cases op <;> simp [arrange]

section Words

variable {α : Type} (first second rest : List α)

theorem insertCopy_append : insertCopy first.length (first.length + second.length) (first ++ (second ++ rest)) =
    first ++ (second ++ (first ++ rest)) := by
  have above : (first ++ (second ++ rest)).take (first.length + second.length) = first ++ second := by
    rw [← List.append_assoc, List.take_left' (by simp)]
  have below : (first ++ (second ++ rest)).drop (first.length + second.length) = rest := by
    rw [← List.append_assoc, List.drop_left' (by simp)]
  rw [insertCopy, above, below, List.take_left, List.append_assoc]

theorem onWords_append {op : StackOp} (top : first.length = op.top) (beneath : second.length = op.beneath) :
    op.onWords (first ++ (second ++ rest)) = op.arrange first second rest := by
  have copied := insertCopy_append first second rest
  rw [top, beneath] at copied
  cases op with
  | pop | pop2 =>
    obtain rfl := List.eq_nil_of_length_eq_zero beneath
    exact List.drop_left' top
  | swap =>
    obtain ⟨a, rfl⟩ := List.length_eq_one_iff.1 top
    obtain ⟨b, rfl⟩ := List.length_eq_one_iff.1 beneath
    rfl
  | dup | dupX1 | dupX2 | dup2 | dup2X1 | dup2X2 => exact copied

end Words
end StackOp

namespace Frame

theorem shuffle_eq_ok {frame after : Frame} {op : StackOp} :
    frame.shuffle op = .ok after ↔ op.apply frame.stack = .ok after.stack ∧ after.locals = frame.locals := by
  simp only [shuffle, except_bind_eq_ok, pure, Except.pure, Except.ok.injEq]
  constructor
  · rintro ⟨stack, applied, rfl⟩
    exact ⟨applied, rfl⟩
  · rintro ⟨applied, locals⟩
    refine ⟨after.stack, applied, ?_⟩
    rw [← locals]

theorem shuffle_words {frame after : Frame} {op : StackOp} (done : frame.shuffle op = .ok after) :
    op.Fits frame.stack ∧ Word.ofStack after.stack = op.onWords (Word.ofStack frame.stack) ∧
      after.locals = frame.locals := by
  obtain ⟨applied, locals⟩ := shuffle_eq_ok.1 done
  obtain ⟨first, second, rest, stack, top, beneath, answer⟩ := StackOp.apply_eq_ok_cut.1 applied
  refine ⟨StackOp.fits_iff_cut.2 ⟨first, second, rest, stack, top, beneath⟩, ?_, locals⟩
  rw [answer, StackOp.ofStack_arrange, stack, Word.ofStack_append, Word.ofStack_append,
    StackOp.onWords_append _ _ _ top beneath]

theorem exists_shuffle {frame : Frame} {op : StackOp} (fits : op.Fits frame.stack) :
    ∃ after, frame.shuffle op = .ok after := by
  obtain ⟨first, second, rest, stack, top, beneath⟩ := StackOp.fits_iff_cut.1 fits
  exact ⟨⟨frame.locals, op.arrange first second rest⟩,
    shuffle_eq_ok.2 ⟨StackOp.apply_eq_ok_cut.2 ⟨first, second, rest, stack, top, beneath, rfl⟩, rfl⟩⟩

/-- An operation that rearranges the stack succeeds exactly where the stack has enough words and no boundary
of the operation parts a value. Its result is the one frame with the same locals whose words
are those of the old stack, dropped, copied or exchanged as the operation says. -/
theorem shuffle_acts_on_words (frame : Frame) (op : StackOp) :
    ((∃ after, frame.shuffle op = .ok after) ↔ op.Fits frame.stack) ∧
    ∀ after, frame.shuffle op = .ok after ↔
      op.Fits frame.stack ∧ Word.ofStack after.stack = op.onWords (Word.ofStack frame.stack) ∧
        after.locals = frame.locals := by
  refine ⟨⟨fun ⟨_, done⟩ => (shuffle_words done).1, exists_shuffle⟩, fun after => ⟨shuffle_words, ?_⟩⟩
  rintro ⟨fits, words, locals⟩
  obtain ⟨after', done⟩ := exists_shuffle fits
  obtain ⟨-, words', locals'⟩ := shuffle_words done
  have stack : after.stack = after'.stack := Word.ofStack_injective (words.trans words'.symm)
  rw [done]
  cases after; cases after'
  simp_all

end Frame
end CallProvenance
