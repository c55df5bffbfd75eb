import CallProvenance.Proofs.InstructionWindow
import Mathlib.Logic.ExistsUnique

/-! The sweep over the code of a method. It goes from each instruction to the byte behind it, so it
accepts a code exactly when decodable instructions lie side by side from its first byte to its last. -/
namespace CallProvenance

/-- The instruction is what the bytes at its offset stand for. -/
def Instruction.DecodedFrom (pool : Pool) (bootstraps : List Nat) (code : Bytes) (instruction : Instruction) : Prop :=
  Bytecode.instructionAt pool bootstraps code instruction.offset = .ok (instruction.opcode, instruction.operand)

/-- The byte at a position is one of the instruction's own. -/
def Instruction.Covers (code : Bytes) (instruction : Instruction) (position : Nat) : Prop :=
  ∃ count, Bytecode.length code instruction.offset = .ok count ∧
    instruction.offset ≤ position ∧ position < instruction.offset + count

/-- Each instruction lies behind the one before it. -/
def Method.InOrder (method : Method) : Prop :=
  method.code.Pairwise fun earlier later => earlier.offset < later.offset

instance (method : Method) : Decidable method.InOrder :=
  inferInstanceAs (Decidable (method.code.Pairwise fun earlier later => earlier.offset < later.offset))

namespace Method.InOrder

variable {method : Method} {i j : Nat} {first second : Instruction}

/-- In code that is in order, positions and offsets rise together. -/
theorem le_iff (inOrder : method.InOrder) (found : method.code[i]? = some first)
    (found' : method.code[j]? = some second) : first.offset ≤ second.offset ↔ i ≤ j := by
  have rises : ∀ {i j : Nat} {first second : Instruction}, method.code[i]? = some first →
      method.code[j]? = some second → i < j → first.offset < second.offset := by
    intro i j first second found found' before
    obtain ⟨inside, rfl⟩ := List.getElem?_eq_some_iff.1 found
    obtain ⟨inside', rfl⟩ := List.getElem?_eq_some_iff.1 found'
    exact List.pairwise_iff_getElem.1 inOrder i j inside inside' before
  rcases Nat.lt_trichotomy i j with before | rfl | behind
  · have := rises found found' before
    omega
  · cases found.symm.trans found'
    simp
  · have := rises found' found behind
    omega

end Method.InOrder

namespace Bytecode

/-- The instructions lie side by side from an offset to the end of the code. -/
def Tiles (code : Bytes) : Nat → List Instruction → Prop
  | start, [] => start = code.size
  | start, instruction :: rest =>
    instruction.offset = start ∧
      ∃ count, length code start = .ok count ∧ 0 < count ∧ Tiles code (start + count) rest

variable {pool : Pool} {bootstraps : List Nat} {code : Bytes} {start offset count position : Nat}
  {instructions : List Instruction} {instruction : Instruction}

namespace Tiles

theorem start_le (tiles : Tiles code start instructions) : start ≤ code.size := by
  induction instructions generalizing start with
  | nil => exact Nat.le_of_eq tiles
  | cons first rest ih =>
    obtain ⟨-, count, -, -, tiled⟩ := tiles
    have := ih tiled
    omega

theorem le_offset (tiles : Tiles code start instructions) (member : instruction ∈ instructions) :
    start ≤ instruction.offset := by
  induction instructions generalizing start with
  | nil => cases member
  | cons first rest ih =>
    obtain ⟨here, count, -, -, tiled⟩ := tiles
    cases member with
    | head => exact Nat.le_of_eq here.symm
    | tail _ member =>
      have := ih tiled member
      omega

theorem offset_lt (tiles : Tiles code start instructions) (member : instruction ∈ instructions) :
    instruction.offset < code.size := by
  induction instructions generalizing start with
  | nil => cases member
  | cons first rest ih =>
    obtain ⟨rfl, count, -, positive, tiled⟩ := tiles
    cases member with
    | head =>
      have := tiled.start_le
      omega
    | tail _ member => exact ih tiled member

theorem measured (tiles : Tiles code start instructions) (member : instruction ∈ instructions) :
    ∃ count, length code instruction.offset = .ok count := by
  induction instructions generalizing start with
  | nil => cases member
  | cons first rest ih =>
    obtain ⟨rfl, count, measured, -, tiled⟩ := tiles
    cases member with
    | head => exact ⟨count, measured⟩
    | tail _ member => exact ih tiled member

theorem pairwise (tiles : Tiles code start instructions) :
    instructions.Pairwise fun earlier later => earlier.offset < later.offset := by
  induction instructions generalizing start with
  | nil => exact .nil
  | cons first rest ih =>
    obtain ⟨rfl, count, -, positive, tiled⟩ := tiles
    refine List.pairwise_cons.2 ⟨fun later member => ?_, ih tiled⟩
    have behind := tiled.le_offset member
    omega

theorem existsUnique_covers (tiles : Tiles code start instructions) (after : start ≤ position)
    (before : position < code.size) :
    ∃! index : Nat, ∃ instruction, instructions[index]? = some instruction ∧ instruction.Covers code position := by
  induction instructions generalizing start with
  | nil =>
    have ended : start = code.size := tiles
    omega
  | cons first rest ih =>
    obtain ⟨rfl, count, measured, -, tiled⟩ := tiles
    by_cases own : position < first.offset + count
    · refine ⟨0, ⟨first, rfl, count, measured, after, own⟩, ?_⟩
      rintro (_ | index) ⟨instruction, found, covers⟩
      · rfl
      · -- What comes behind the first instruction starts behind its bytes.
        have behind := tiled.le_offset (List.mem_of_getElem? found)
        obtain ⟨-, -, reached, -⟩ := covers
        omega
    · obtain ⟨index, covered, unique⟩ := ih tiled (by omega)
      refine ⟨index + 1, covered, ?_⟩
      rintro (_ | other) ⟨instruction, found, covers⟩
      · cases found
        obtain ⟨count', measured', -, reached⟩ := covers
        obtain rfl : count = count' := Except.ok.inj (measured.symm.trans measured')
        exact absurd reached own
      · rw [unique other ⟨instruction, found, covers⟩]

end Tiles

theorem tiles_of_decodeFrom {reversed : List Instruction} (inside : offset ≤ code.size)
    (accepted : decodeFrom pool bootstraps code offset reversed = .ok instructions) :
    ∃ found, instructions = reversed.reverse ++ found ∧ Tiles code offset found ∧
      ∀ instruction ∈ found, instruction.DecodedFrom pool bootstraps code := by
  fun_induction decodeFrom pool bootstraps code offset reversed with
  | case1 | case2 | case3 => cases accepted
  | case4 offset reversed before count measured fits opcode operand decoded ih =>
    obtain ⟨found, rfl, tiled, each⟩ := ih (by omega) accepted
    refine ⟨⟨offset, opcode, operand⟩ :: found, by simp, ?_, ?_⟩
    · exact ⟨rfl, count, measured, length_pos measured, tiled⟩
    · rintro instruction (_ | ⟨_, member⟩)
      · cases answer : instructionAt pool bootstraps code offset with
        | error cause =>
          rw [answer] at decoded
          cases decoded
        | ok result =>
          rw [answer] at decoded
          cases decoded
          exact answer
      · exact each instruction member
  | case5 offset reversed behind =>
    cases accepted
    exact ⟨[], by simp, Nat.le_antisymm inside (by omega), by simp⟩

theorem decodeFrom_of_tiles {found : List Instruction} (tiles : Tiles code offset found)
    (each : ∀ instruction ∈ found, instruction.DecodedFrom pool bootstraps code) (reversed : List Instruction) :
    decodeFrom pool bootstraps code offset reversed = .ok (reversed.reverse ++ found) := by
  induction found generalizing offset reversed with
  | nil =>
    obtain rfl : offset = code.size := tiles
    rw [decodeFrom, if_neg (Nat.lt_irrefl _), List.append_nil]
  | cons first rest ih =>
    obtain ⟨rfl, count, measured, positive, tiled⟩ := tiles
    have fits := tiled.start_le
    have decoded : instructionAt pool bootstraps code first.offset = .ok (first.opcode, first.operand) :=
      each first List.mem_cons_self
    have later := ih tiled (fun instruction member => each instruction (List.mem_cons_of_mem _ member))
      (first :: reversed)
    rw [decodeFrom, if_pos (by omega)]
    simp only [measured, if_neg (show ¬(count = 0 ∨ code.size < first.offset + count) by omega), decoded,
      DecodeStep.run, Except.mapError]
    rw [later, List.reverse_cons, List.append_assoc, List.singleton_append]

/-- The sweep accepts exactly the codes that decodable instructions fill from end to end. -/
theorem decode_eq_ok_iff :
    decode pool bootstraps code = .ok instructions ↔
      Tiles code 0 instructions ∧ ∀ instruction ∈ instructions, instruction.DecodedFrom pool bootstraps code := by
  constructor
  · intro accepted
    obtain ⟨found, rfl, tiled, each⟩ := tiles_of_decodeFrom (Nat.zero_le _) accepted
    exact ⟨tiled, each⟩
  · rintro ⟨tiled, each⟩
    exact decodeFrom_of_tiles tiled each []

theorem inOrder_of_decode {method : Method} (decoded : decode pool bootstraps code = .ok method.code) : method.InOrder :=
  (decode_eq_ok_iff.1 decoded).1.pairwise

/-- The instructions that the sweep finds fill the code, and each byte of it belongs to exactly one of
them. A window in the code that an instruction spans decides, alone, what is decoded there. -/
theorem decode_sweeps (pool : Pool) (bootstraps : List Nat) (code : Bytes) :
    (∀ instructions, decode pool bootstraps code = .ok instructions ↔
      Tiles code 0 instructions ∧ ∀ instruction ∈ instructions, instruction.DecodedFrom pool bootstraps code) ∧
    (∀ instructions, decode pool bootstraps code = .ok instructions → ∀ position < code.size,
      ∃! index : Nat, ∃ instruction, instructions[index]? = some instruction ∧ instruction.Covers code position) ∧
    ∀ offset count, length code offset = .ok count →
      0 < count ∧ (offset + count ≤ code.size →
        (∀ other, code.AgreeOn other offset (offset + count) → length other offset = .ok count ∧
          instructionAt pool bootstraps other offset = instructionAt pool bootstraps code offset) ∧
        ∀ cause, instructionAt pool bootstraps code offset = .error cause → cause.isOverrun = false) := by
  refine ⟨fun _ => decode_eq_ok_iff, ?_, ?_⟩
  · intro instructions accepted position before
    exact (decode_eq_ok_iff.1 accepted).1.existsUnique_covers (Nat.zero_le _) before
  · intro offset count measured
    refine ⟨length_pos measured, fun fits => ?_⟩
    have decoding := instructionAt_readsWithin pool bootstraps measured fits
    refine ⟨fun other agree => ⟨?_, decoding.same other agree⟩, decoding.avoids⟩
    exact ((length_readsWithin measured fits).same other agree).trans measured

/-- A load, a table switch with two bytes of padding and two entries, and a return. -/
def switching : Bytes :=
  #[0x1a, 0xaa, 7, 7, 0, 0, 0, 23, 0, 0, 0, 5, 0, 0, 0, 6, 0, 0, 0, 23, 0, 0, 0, 23, 0xac]

theorem decode_sweeps_switching :
    let instructions : List Instruction := [⟨0, 0x1a, .slot 0⟩, ⟨1, 0xaa, .switch 24 [24, 24]⟩, ⟨24, 0xac, .none⟩]
    let other := (switching.set! 0 0x57).set! 24 0xb1
    decode #[] [] switching = .ok instructions ∧ Tiles switching 0 instructions ∧
      (∃! index : Nat, ∃ instruction, instructions[index]? = some instruction ∧ instruction.Covers switching 23) ∧
      length switching 1 = .ok 23 ∧ instructionAt #[] [] other 1 = instructionAt #[] [] switching 1 := by
  intro instructions other
  obtain ⟨accepts, covered, windows⟩ := decode_sweeps #[] [] switching
  have accepted : decode #[] [] switching = .ok instructions := by decide +kernel
  have measured : length switching 1 = .ok 23 := by decide +kernel
  have agree : switching.AgreeOn other 1 (1 + 23) := by
    intro position after before
    have all : ∀ k < 24, 1 ≤ k → other[k]? = switching[k]? := by decide +kernel
    exact all position before after
  refine ⟨accepted, ((accepts instructions).1 accepted).1, covered instructions accepted 23 (by decide), measured, ?_⟩
  exact (((windows 1 23 measured).2 (by decide)).1 other agree).2

end Bytecode
end CallProvenance
