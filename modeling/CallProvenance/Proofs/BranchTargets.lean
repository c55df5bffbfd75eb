import CallProvenance.Proofs.InstructionWindow

/-! Branches and switches, from their written form back to their targets. A written branch states distances
from its own offset; decoding adds them to the offset as exact integers and accepts the branch if no sum
leaves the range of a 32-bit offset. -/
namespace CallProvenance

namespace Bytes

variable {code : Bytes} {position count n : Nat} {first second : List UInt8}

/-- The lowest `count` bytes of a number, the highest of them first. -/
def bigEndian : Nat → Nat → List UInt8
  | 0, _ => []
  | count + 1, n => bigEndian count (n / 256) ++ [UInt8.ofNat n]

@[simp] theorem length_bigEndian (count n : Nat) : (bigEndian count n).length = count := by
  induction count generalizing n with
  | zero => rfl
  | succ count ih => simp [bigEndian, ih]

def ofShort (value : Int16) : List UInt8 := bigEndian 2 value.toBitVec.toNat

def ofWord (value : Int32) : List UInt8 := bigEndian 4 value.toBitVec.toNat

@[simp] theorem length_ofShort (value : Int16) : (ofShort value).length = 2 := length_bigEndian _ _

@[simp] theorem length_ofWord (value : Int32) : (ofWord value).length = 4 := length_bigEndian _ _

/-- The given bytes stand in the code from a position on. -/
def HoldsAt (code : Bytes) (position : Nat) (bytes : List UInt8) : Prop :=
  ∀ (k : Nat) (byte : UInt8), bytes[k]? = some byte → code[position + k]? = some byte

theorem holdsAt_between (before bytes after : List UInt8) :
    HoldsAt (before ++ bytes ++ after).toArray before.length bytes := by
  intro k byte found
  have inside : k < bytes.length := (List.getElem?_eq_some_iff.1 found).1
  rw [List.getElem?_toArray, List.append_assoc, List.getElem?_append_right (Nat.le_add_right _ _),
    Nat.add_sub_cancel_left, List.getElem?_append_left inside, found]

theorem holdsAt_append : code.HoldsAt position (first ++ second) ↔
    code.HoldsAt position first ∧ code.HoldsAt (position + first.length) second := by
  constructor
  · intro held
    refine ⟨fun k byte found => held k byte ?_, fun k byte found => ?_⟩
    · have inside : k < first.length := (List.getElem?_eq_some_iff.1 found).1
      rw [List.getElem?_append_left inside, found]
    · rw [Nat.add_assoc]
      refine held _ byte ?_
      rw [List.getElem?_append_right (Nat.le_add_right _ _), Nat.add_sub_cancel_left, found]
  · rintro ⟨held, held'⟩ k byte found
    rw [List.getElem?_append] at found
    split at found
    · exact held k byte found
    · have there := held' _ byte found
      rwa [Nat.add_assoc, Nat.add_sub_cancel' (by omega)] at there

theorem holdsAt_cons {byte : UInt8} : code.HoldsAt position (byte :: first) ↔
    code[position]? = some byte ∧ code.HoldsAt (position + 1) first := by
  have one : code.HoldsAt position [byte] ↔ code[position]? = some byte := by
    constructor
    · intro held
      exact held 0 byte rfl
    · rintro found k other same
      cases k with
      | zero => exact found.trans same
      | succ k => simp at same
  rw [← one, ← List.singleton_append, holdsAt_append]
  rfl

theorem HoldsAt.item {α : Type} {write : α → List UInt8} {size k : Nat} {xs : List α} {x : α}
    (sized : ∀ x, (write x).length = size) (held : code.HoldsAt position (xs.flatMap write))
    (found : xs[k]? = some x) : code.HoldsAt (position + size * k) (write x) := by
  induction xs generalizing position k with
  | nil => simp at found
  | cons y xs ih =>
    rw [List.flatMap_cons, holdsAt_append, sized] at held
    cases k with
    | zero =>
      cases found
      exact held.1
    | succ k =>
      have next := ih held.2 found
      rwa [Nat.add_assoc, Nat.add_comm size, ← Nat.mul_succ] at next

theorem HoldsAt.number? (held : code.HoldsAt position (bigEndian count n)) :
    code.number? position count = some (n % Nat.pow 256 count) := by
  induction count generalizing n with
  | zero => simp [Bytes.number?, Nat.mod_one]
  | succ count ih =>
    rw [bigEndian, holdsAt_append, length_bigEndian, holdsAt_cons] at held
    have split : n % Nat.pow 256 (count + 1) = n % 256 + 256 * (n / 256 % Nat.pow 256 count) := by
      rw [← Nat.mod_mul, Nat.mul_comm]
      rfl
    rw [number?_succ, ih held.1, held.2.1, split]
    simp [UInt8.toNat_ofNat', Nat.add_comm]

theorem signed_toNat {bits : Nat} (positive : 0 < bits) (value : BitVec bits) :
    signed bits value.toNat = value.toInt := by
  have double : 1 <<< bits = 2 * 1 <<< (bits - 1) := by
    rw [Nat.one_shiftLeft, Nat.one_shiftLeft, ← Nat.pow_succ', Nat.succ_eq_add_one, Nat.sub_add_cancel positive]
  rw [signed, BitVec.toInt_eq_toNat_cond, ← Nat.one_shiftLeft, double]
  split <;> split <;> omega

end Bytes

/-- The branches of a method's code as they are written. A switch starts with padding. -/
inductive Branch where
  | near (opcode : UInt8) (delta : Int16)
  | far (opcode : UInt8) (delta : Int32)
  | table (padding : List UInt8) (fallback low high : Int32) (deltas : List Int32)
  | lookup (padding : List UInt8) (fallback count : Int32) (pairs : List (Int32 × Int32))

namespace Branch

def opcode : Branch → UInt8
  | near opcode _ | far opcode _ => opcode
  | table .. => 0xaa
  | lookup .. => 0xab

def bytes (branch : Branch) : List UInt8 :=
  branch.opcode :: match branch with
  | near _ delta => Bytes.ofShort delta
  | far _ delta => Bytes.ofWord delta
  | table padding fallback low high deltas =>
    padding ++ (Bytes.ofWord fallback ++ (Bytes.ofWord low ++ (Bytes.ofWord high ++ deltas.flatMap Bytes.ofWord)))
  | lookup padding fallback count pairs =>
    padding ++ (Bytes.ofWord fallback ++ (Bytes.ofWord count ++
      pairs.flatMap fun pair => Bytes.ofWord pair.1 ++ Bytes.ofWord pair.2))

def size : Branch → Nat
  | near .. => 3
  | far .. => 5
  | table padding _ _ _ deltas => 1 + padding.length + 12 + 4 * deltas.length
  | lookup padding _ _ pairs => 1 + padding.length + 8 + 8 * pairs.length

/-- At most three bytes that bring the operands of a switch to a multiple of four. -/
def Aligns (offset : Nat) (padding : List UInt8) : Prop :=
  padding.length < 4 ∧ (offset + 1 + padding.length) % 4 = 0

/-- The opcode takes such an operand, the padding fits the offset, and the counts are those of the entries. -/
def WellFormed (offset : Nat) : Branch → Prop
  | near opcode _ => 0x99 ≤ opcode ∧ opcode ≤ 0xa8 ∨ opcode = 0xc6 ∨ opcode = 0xc7
  | far opcode _ => opcode = 0xc8 ∨ opcode = 0xc9
  | table padding _ low high deltas =>
    Aligns offset padding ∧ high.toInt = low.toInt + deltas.length - 1 ∧ deltas.length < 2147483648
  | lookup padding _ count pairs => Aligns offset padding ∧ count.toInt = pairs.length

/-- The sums of the offset and each distance that the branch states, a switch's default first. -/
def sums (offset : Nat) : Branch → List Int
  | near _ delta => [offset + delta.toInt]
  | far _ delta => [offset + delta.toInt]
  | table _ fallback _ _ deltas => (offset + fallback.toInt) :: deltas.map fun delta => offset + delta.toInt
  | lookup _ fallback _ pairs => (offset + fallback.toInt) :: pairs.map fun pair => offset + pair.2.toInt

def operand (offset : Nat) : Branch → Operand
  | near _ delta => .jump (offset + delta.toInt).toNat
  | far _ delta => .jump (offset + delta.toInt).toNat
  | table _ fallback _ _ deltas =>
    .switch (offset + fallback.toInt).toNat (deltas.map fun delta => ((offset : Int) + delta.toInt).toNat)
  | lookup _ fallback _ pairs =>
    .switch (offset + fallback.toInt).toNat (pairs.map fun pair => ((offset : Int) + pair.2.toInt).toNat)

theorem length_bytes (branch : Branch) : branch.bytes.length = branch.size := by
  cases branch <;> simp [bytes, size, List.length_flatMap] <;> omega

end Branch

namespace Bytecode

open Bytes (ofShort ofWord)

def IsOffset (target : Int) : Prop := 0 ≤ target ∧ target < 4294967296

instance (target : Int) : Decidable (IsOffset target) := inferInstanceAs (Decidable (_ ∧ _))

/-- The answer of a branch, unless one of its targets is no offset. -/
def reaching {α : Type} (offset : Nat) (targets : List Int) (answer : α) : Except DecodeError α :=
  if ∀ target ∈ targets, IsOffset target then .ok answer else .error (.branchOutside offset)

/-- Targets may be looked at one after the other, since the complaint is the same for all of them. -/
theorem reaching_bind {α β : Type} (offset : Nat) (targets others : List Int) (answer : α) (next : α → β) :
    (reaching offset targets answer >>= fun found => reaching offset others (next found)) =
      reaching offset (targets ++ others) (next answer) := by
  simp only [reaching, List.forall_mem_append]
  by_cases all : ∀ target ∈ targets, IsOffset target
  · simp only [if_pos all, ok_bind, and_iff_right all]
  · rw [if_neg all, if_neg fun both => all both.1]
    rfl

theorem reaching_map {α β : Type} (offset : Nat) (targets : List Int) (answer : α) (next : α → β) :
    (reaching offset targets answer >>= fun found => (.ok (next found) : Except DecodeError β)) =
      reaching offset targets (next answer) := by
  simp only [reaching]
  split <;> rfl

variable {code : Bytes} {offset position count : Nat} {opcode : UInt8} {padding : List UInt8}

theorem byte_found (found : code[position]? = some opcode) : byte code position = .ok opcode.toNat := by
  rw [byte, found]

theorem short_bigEndian {n : Nat} (fits : n < 65536) (held : code.HoldsAt position (Bytes.bigEndian 2 n)) :
    short code position = .ok n := by
  have small : n < Nat.pow 256 2 := fits
  rw [short, held.number?, Nat.mod_eq_of_lt small]

theorem short_held {value : Int16} (held : code.HoldsAt position (ofShort value)) :
    short code position = .ok value.toBitVec.toNat :=
  short_bigEndian value.toBitVec.isLt held

theorem word_held {value : Int32} (held : code.HoldsAt position (ofWord value)) :
    word code position = .ok value.toInt := by
  have small : value.toBitVec.toNat < Nat.pow 256 4 := value.toBitVec.isLt
  rw [word, held.number?, Nat.mod_eq_of_lt small]
  exact congrArg Except.ok (Bytes.signed_toNat (by decide) value.toBitVec)

theorem branchTarget_eq (offset : Nat) (delta : Int) :
    branchTarget offset delta = reaching offset [offset + delta] (offset + delta).toNat := by
  simp [reaching, branchTarget, IsOffset]

theorem switchTargets_succ (code : Bytes) (offset first stride count : Nat) :
    switchTargets code offset first stride (count + 1) = (do
      let target ← branchTarget offset (← word code first)
      return target :: (← switchTargets code offset (first + stride) stride count)) := by
  have shift : (fun k => word code (first + stride * k) >>= branchTarget offset) ∘ Nat.succ =
      fun k => word code (first + stride + stride * k) >>= branchTarget offset := by
    funext k
    simp only [Function.comp, Nat.mul_succ, Nat.add_assoc, Nat.add_comm stride]
  rw [switchTargets, List.range_succ_eq_map, List.mapM_cons, List.mapM_map, shift]
  simp [switchTargets]

theorem switchTargets_eq {first stride : Nat} {deltas : List Int}
    (words : ∀ (k : Nat) (delta : Int), deltas[k]? = some delta → word code (first + stride * k) = .ok delta) :
    switchTargets code offset first stride deltas.length =
      reaching offset (deltas.map fun delta => offset + delta)
        (deltas.map fun delta => ((offset : Int) + delta).toNat) := by
  induction deltas generalizing first with
  | nil => simp [switchTargets, reaching, pure, Except.pure]
  | cons delta deltas ih =>
    have later : ∀ (k : Nat) (delta : Int), deltas[k]? = some delta →
        word code (first + stride + stride * k) = .ok delta := by
      intro k delta found
      rw [Nat.add_assoc, Nat.add_comm stride, ← Nat.mul_succ]
      exact words (k + 1) delta found
    have here : word code first = .ok delta := words 0 delta rfl
    rw [List.length_cons, switchTargets_succ, here, ih later, ok_bind, branchTarget_eq]
    simp only [pure, Except.pure, reaching_map, reaching_bind, List.map_cons, List.singleton_append]

theorem format_near (near : 0x99 ≤ opcode ∧ opcode ≤ 0xa8 ∨ opcode = 0xc6 ∨ opcode = 0xc7) :
    Opcode.format? opcode = some .branch := by
  have all : ∀ opcode : UInt8, (0x99 ≤ opcode ∧ opcode ≤ 0xa8 ∨ opcode = 0xc6 ∨ opcode = 0xc7) →
      Opcode.format? opcode = some .branch := Opcode.forall_of_numbers (by decide +kernel)
  exact all opcode near

theorem extent_near (near : 0x99 ≤ opcode ∧ opcode ≤ 0xa8 ∨ opcode = 0xc6 ∨ opcode = 0xc7) :
    Opcode.extent? opcode = some (.fixed 3) := by
  have all : ∀ opcode : UInt8, (0x99 ≤ opcode ∧ opcode ≤ 0xa8 ∨ opcode = 0xc6 ∨ opcode = 0xc7) →
      Opcode.extent? opcode = some (.fixed 3) := Opcode.forall_of_numbers (by decide +kernel)
  exact all opcode near

theorem format_far (far : opcode = 0xc8 ∨ opcode = 0xc9) : Opcode.format? opcode = some .farBranch := by
  rcases far with rfl | rfl <;> decide +kernel

theorem extent_far (far : opcode = 0xc8 ∨ opcode = 0xc9) : Opcode.extent? opcode = some (.fixed 5) := by
  rcases far with rfl | rfl <;> decide +kernel

theorem padding_eq (aligned : Branch.Aligns offset padding) : Bytecode.padding offset = padding.length := by
  obtain ⟨short, aligned⟩ := aligned
  rw [Bytecode.padding]
  omega

/-- A switch as the decoder finds it, with its default, the outcomes of counting its entries for its length and for its
targets, and the bytes that stand before the entries and make up each of them. -/
structure IsSwitch (code : Bytes) (offset : Nat) (opcode : UInt8) (fallback : Int)
    (measured counted : Except DecodeError Nat) (fixed stride : Nat) : Prop where
  length : length code offset = measured >>= fun count => .ok (1 + Bytecode.padding offset + fixed + stride * count)
  instruction (pool : Pool) (bootstraps : List Nat) : instructionAt pool bootstraps code offset =
    branchTarget offset fallback >>= fun fallback => counted >>= fun count =>
      switchTargets code offset (switchBase offset + 12) stride count >>= fun targets =>
        .ok (opcode, .switch fallback targets)

section Switches

variable {fallback low high size : Int32} {rest : List UInt8}

theorem isSwitch_table (aligned : Branch.Aligns offset padding)
    (held : code.HoldsAt offset (0xaa :: (padding ++ (ofWord fallback ++ (ofWord low ++ (ofWord high ++ rest)))))) :
    IsSwitch code offset 0xaa fallback.toInt (wordTableCount low.toInt high.toInt)
      (tableCount low.toInt high.toInt) 12 4 ∧
      code.HoldsAt (switchBase offset + 12) rest := by
  simp only [Bytes.holdsAt_cons, Bytes.holdsAt_append, Bytes.length_ofWord, ← padding_eq aligned] at held
  obtain ⟨found, -, fallback, low, high, rest⟩ := held
  have extent : Opcode.extent? 0xaa = some .tableSwitch := by decide +kernel
  have known : Opcode.format? 0xaa = some .tableSwitch := by decide +kernel
  refine ⟨⟨?_, fun pool bootstraps => ?_⟩, rest⟩
  · rw [length, byte_found found, ok_bind, UInt8.ofNat_toNat]
    simp only [extent, switchBase, word_held low, word_held high, ok_bind]
    rfl
  · rw [instructionAt, byte_found found, ok_bind, UInt8.ofNat_toNat]
    simp only [known, switchBase, word_held fallback, word_held low, word_held high, ok_bind]
    rfl

theorem isSwitch_lookup (aligned : Branch.Aligns offset padding)
    (held : code.HoldsAt offset (0xab :: (padding ++ (ofWord fallback ++ (ofWord size ++ rest))))) :
    IsSwitch code offset 0xab fallback.toInt (pairCount size.toInt) (pairCount size.toInt) 8 8 ∧
      code.HoldsAt (switchBase offset + 8) rest := by
  simp only [Bytes.holdsAt_cons, Bytes.holdsAt_append, Bytes.length_ofWord, ← padding_eq aligned] at held
  obtain ⟨found, -, fallback, size, rest⟩ := held
  have extent : Opcode.extent? 0xab = some .lookupSwitch := by decide +kernel
  have known : Opcode.format? 0xab = some .lookupSwitch := by decide +kernel
  refine ⟨⟨?_, fun pool bootstraps => ?_⟩, rest⟩
  · rw [length, byte_found found, ok_bind, UInt8.ofNat_toNat]
    simp only [extent, switchBase, word_held size, ok_bind]
    rfl
  · rw [instructionAt, byte_found found, ok_bind, UInt8.ofNat_toNat]
    simp only [known, switchBase, word_held fallback, word_held size, ok_bind]
    rfl

end Switches

section Decoding

variable {pool : Pool} {bootstraps : List Nat} {targets : List Int} {operand : Operand} {cause : DecodeError}
  {fallback : Int} {fixed stride : Nat} {measured counted : Except DecodeError Nat}

theorem IsSwitch.counted_ok {deltas : List Int}
    (switch : IsSwitch code offset opcode fallback measured (.ok deltas.length) fixed stride)
    (words : ∀ (k : Nat) (delta : Int), deltas[k]? = some delta →
      word code (switchBase offset + 12 + stride * k) = .ok delta) :
    instructionAt pool bootstraps code offset =
      reaching offset ((offset + fallback) :: deltas.map fun delta => offset + delta)
        (opcode, .switch (offset + fallback).toNat (deltas.map fun delta => ((offset : Int) + delta).toNat)) := by
  rw [switch.instruction, branchTarget_eq]
  simp only [ok_bind, switchTargets_eq words, reaching_map, reaching_bind, List.singleton_append]

theorem IsSwitch.counted_error (switch : IsSwitch code offset opcode fallback measured (.error cause) fixed stride) :
    instructionAt pool bootstraps code offset =
      .error (if IsOffset (offset + fallback) then cause else .branchOutside offset) := by
  rw [switch.instruction, branchTarget_eq]
  simp only [reaching, List.forall_mem_singleton]
  split <;> rfl

theorem IsSwitch.measured_error (switch : IsSwitch code offset opcode fallback (.error cause) counted fixed stride) :
    Bytecode.length code offset = .error cause := switch.length

theorem decodeFrom_reaching (inside : offset + count ≤ code.size) (measured : length code offset = .ok count)
    (decoded : instructionAt pool bootstraps code offset = reaching offset targets (opcode, operand))
    (reversed : List Instruction) : decodeFrom pool bootstraps code offset reversed =
      if ∀ target ∈ targets, IsOffset target then
        decodeFrom pool bootstraps code (offset + count) (⟨offset, opcode, operand⟩ :: reversed)
      else .error (.within (.instruction offset) (.branchOutside offset)) := by
  have positive := length_pos measured
  rw [decodeFrom, if_pos (by omega), measured, decoded]
  simp only [if_neg (show ¬(count = 0 ∨ code.size < offset + count) by omega), reaching]
  by_cases all : ∀ target ∈ targets, IsOffset target
  · rw [if_pos all, if_pos all]
    rfl
  · rw [if_neg all, if_neg all]
    rfl

theorem decodeFrom_unmeasured (inside : offset < code.size) (failed : length code offset = .error cause)
    (reversed : List Instruction) : decodeFrom pool bootstraps code offset reversed = .error cause := by
  rw [decodeFrom, if_pos inside, failed]

theorem decodes_table {fallback low high : Int32} {deltas : List Int32}
    (formed : (Branch.table padding fallback low high deltas).WellFormed offset)
    (held : code.HoldsAt offset (Branch.table padding fallback low high deltas).bytes) :
    length code offset = .ok (Branch.table padding fallback low high deltas).size ∧
      instructionAt pool bootstraps code offset =
        reaching offset ((Branch.table padding fallback low high deltas).sums offset)
          (0xaa, (Branch.table padding fallback low high deltas).operand offset) := by
  obtain ⟨aligned, range, few⟩ := formed
  obtain ⟨switch, entries⟩ := isSwitch_table aligned held
  have size : (deltas.map Int32.toInt).length = deltas.length := List.length_map _
  have measured : wordTableCount low.toInt high.toInt = .ok (deltas.map Int32.toInt).length :=
    wordTableCount_eq_ok.2 ⟨by omega, by omega⟩
  have counted : tableCount low.toInt high.toInt = .ok (deltas.map Int32.toInt).length :=
    tableCount_eq_ok.2 (by omega)
  have words : ∀ (k : Nat) (delta : Int), (deltas.map Int32.toInt)[k]? = some delta →
      word code (switchBase offset + 12 + 4 * k) = .ok delta := by
    intro k delta found
    rw [List.getElem?_map] at found
    obtain ⟨delta, listed, rfl⟩ := Option.map_eq_some_iff.1 found
    exact word_held (entries.item Bytes.length_ofWord listed)
  rw [measured, counted] at switch
  constructor
  · rw [switch.length, ok_bind, List.length_map, padding_eq aligned]
    rfl
  · rw [switch.counted_ok words, List.map_map, List.map_map]
    rfl

theorem decodes_lookup {fallback size : Int32} {pairs : List (Int32 × Int32)}
    (formed : (Branch.lookup padding fallback size pairs).WellFormed offset)
    (held : code.HoldsAt offset (Branch.lookup padding fallback size pairs).bytes) :
    length code offset = .ok (Branch.lookup padding fallback size pairs).size ∧
      instructionAt pool bootstraps code offset =
        reaching offset ((Branch.lookup padding fallback size pairs).sums offset)
          (0xab, (Branch.lookup padding fallback size pairs).operand offset) := by
  obtain ⟨aligned, listed⟩ := formed
  obtain ⟨switch, entries⟩ := isSwitch_lookup aligned held
  have counted : pairCount size.toInt = .ok (pairs.map (·.2.toInt)).length :=
    pairCount_eq_ok.2 (by rw [listed, List.length_map])
  have words : ∀ (k : Nat) (delta : Int), (pairs.map (·.2.toInt))[k]? = some delta →
      word code (switchBase offset + 12 + 8 * k) = .ok delta := by
    intro k delta found
    rw [List.getElem?_map] at found
    obtain ⟨pair, listed, rfl⟩ := Option.map_eq_some_iff.1 found
    have sized : ∀ pair : Int32 × Int32, (ofWord pair.1 ++ ofWord pair.2).length = 8 := by simp
    -- The distance of a pair stands behind its key.
    have stands := entries.item sized listed
    rw [Bytes.holdsAt_append, Bytes.length_ofWord] at stands
    rw [show switchBase offset + 12 + 8 * k = switchBase offset + 8 + 8 * k + 4 by omega]
    exact word_held stands.2
  rw [counted] at switch
  constructor
  · rw [switch.length, ok_bind, List.length_map, padding_eq aligned]
    rfl
  · rw [switch.counted_ok words, List.map_map, List.map_map]
    rfl

/-- A written branch is measured and decoded as it is meant. -/
theorem decodes_branch {branch : Branch} (formed : branch.WellFormed offset)
    (held : code.HoldsAt offset branch.bytes) :
    length code offset = .ok branch.size ∧ instructionAt pool bootstraps code offset =
      reaching offset (branch.sums offset) (branch.opcode, branch.operand offset) := by
  cases branch with
  | near opcode delta =>
    obtain ⟨found, held⟩ := Bytes.holdsAt_cons.1 held
    have extent : Opcode.extent? opcode = some (.fixed 3) := extent_near formed
    have known : Opcode.format? opcode = some .branch := format_near formed
    have signed : Bytes.signed 16 delta.toBitVec.toNat = delta.toInt := Bytes.signed_toNat (by decide) _
    constructor
    · rw [length, byte_found found, ok_bind, UInt8.ofNat_toNat]
      simp only [Branch.opcode, extent]
      rfl
    · rw [instructionAt, byte_found found, ok_bind, UInt8.ofNat_toNat]
      simp only [Branch.opcode, known, short_held held, ok_bind, branchTarget_eq, signed]
      exact reaching_map ..
  | far opcode delta =>
    obtain ⟨found, held⟩ := Bytes.holdsAt_cons.1 held
    have extent : Opcode.extent? opcode = some (.fixed 5) := extent_far formed
    have known : Opcode.format? opcode = some .farBranch := format_far formed
    constructor
    · rw [length, byte_found found, ok_bind, UInt8.ofNat_toNat]
      simp only [Branch.opcode, extent]
      rfl
    · rw [instructionAt, byte_found found, ok_bind, UInt8.ofNat_toNat]
      simp only [Branch.opcode, known, word_held held, ok_bind, branchTarget_eq]
      exact reaching_map ..
  | table => exact decodes_table formed held
  | lookup => exact decodes_lookup formed held

end Decoding

/-- Branches and switches are decoded to the sums of their offset and the distances that they state, and they
are decoded exactly if all of these are 32-bit offsets. Tables and lists whose size makes no sense are
refused when they are measured, and those of negative size could not be decoded either. -/
theorem branches_decode_to_sums (pool : Pool) (bootstraps : List Nat) (before after : List UInt8)
    (reversed : List Instruction) :
    (∀ branch : Branch, branch.WellFormed before.length →
      let code : Bytes := (before ++ branch.bytes ++ after).toArray
      let allOffsets := ∀ sum ∈ branch.sums before.length, IsOffset sum
      length code before.length = .ok branch.size ∧
      instructionAt pool bootstraps code before.length =
        (if allOffsets then .ok (branch.opcode, branch.operand before.length)
        else .error (.branchOutside before.length)) ∧
      decodeFrom pool bootstraps code before.length reversed =
        if allOffsets then
          decodeFrom pool bootstraps code (before.length + branch.size)
            (⟨before.length, branch.opcode, branch.operand before.length⟩ :: reversed)
        else .error (.within (.instruction before.length) (.branchOutside before.length))) ∧
    (∀ (padding : List UInt8) (fallback low high : Int32) (deltas : List Int32),
      Branch.Aligns before.length padding →
      let count := high.toInt - low.toInt + 1
      let code : Bytes := (before ++ (Branch.table padding fallback low high deltas).bytes ++ after).toArray
      (¬(0 ≤ count ∧ count < 2147483648) →
        length code before.length = .error .tableRange ∧
        decodeFrom pool bootstraps code before.length reversed = .error .tableRange) ∧
      (count < 0 → instructionAt pool bootstraps code before.length =
        .error (if IsOffset (before.length + fallback.toInt) then .tableRange else .branchOutside before.length))) ∧
    ∀ (padding : List UInt8) (fallback count : Int32) (pairs : List (Int32 × Int32)),
      Branch.Aligns before.length padding → count.toInt < 0 →
      let code : Bytes := (before ++ (Branch.lookup padding fallback count pairs).bytes ++ after).toArray
      length code before.length = .error .lookupPairs ∧
      instructionAt pool bootstraps code before.length =
        .error (if IsOffset (before.length + fallback.toInt) then .lookupPairs else .branchOutside before.length) ∧
      decodeFrom pool bootstraps code before.length reversed = .error .lookupPairs := by
  refine ⟨fun branch formed => ?_, fun padding fallback low high deltas aligned => ?_,
    fun padding fallback count pairs aligned negative => ?_⟩
  · have held := Bytes.holdsAt_between before branch.bytes after
    obtain ⟨measured, decoded⟩ := decodes_branch formed held
    refine ⟨measured, decoded, decodeFrom_reaching ?_ measured decoded reversed⟩
    simp only [List.size_toArray, List.length_append, branch.length_bytes]
    omega
  · have held := Bytes.holdsAt_between before (Branch.table padding fallback low high deltas).bytes after
    have switch := (isSwitch_table aligned held).1
    refine ⟨fun range => ?_, fun negative => ?_⟩
    · rw [wordTableCount_refuses range] at switch
      refine ⟨switch.measured_error, decodeFrom_unmeasured ?_ switch.measured_error reversed⟩
      simp [Branch.bytes]
    · have refused : tableCount low.toInt high.toInt = .error .tableRange := if_neg (by omega)
      rw [refused] at switch
      exact switch.counted_error
  · have held := Bytes.holdsAt_between before (Branch.lookup padding fallback count pairs).bytes after
    have switch := (isSwitch_lookup aligned held).1
    have refused : pairCount count.toInt = .error .lookupPairs := if_neg (by omega)
    rw [refused] at switch
    refine ⟨switch.measured_error, switch.counted_error, decodeFrom_unmeasured ?_ switch.measured_error reversed⟩
    simp [Branch.bytes]

theorem branches_decode_to_sums_after_load :
    let switch := Branch.table [7, 7] 24 0 1 [23, 24]
    (switch.WellFormed 1 ∧
      instructionAt #[] [] ([0x1a] ++ switch.bytes ++ [0xac]).toArray 1 = .ok (0xaa, .switch 25 [24, 25])) ∧
    (Branch.Aligns 1 [7, 7] ∧
      length ([0x1a] ++ (Branch.table [7, 7] 24 0 2147483647 []).bytes ++ []).toArray 1 = .error .tableRange ∧
      instructionAt #[] [] ([0x1a] ++ (Branch.table [7, 7] 24 1 (-1) []).bytes ++ []).toArray 1 =
        .error .tableRange) ∧
    length ([0x1a] ++ (Branch.lookup [7, 7] 24 (-1) []).bytes ++ []).toArray 1 = .error .lookupPairs := by
  have aligned : Branch.Aligns 1 [7, 7] := by simp [Branch.Aligns]
  have formed : (Branch.table [7, 7] 24 0 1 [23, 24]).WellFormed 1 := ⟨aligned, by decide, by decide⟩
  have decoded := ((branches_decode_to_sums #[] [] [0x1a] [0xac] []).1 _ formed).2.1
  have refused := (branches_decode_to_sums #[] [] [0x1a] [] []).2
  refine ⟨⟨formed, decoded.trans ?_⟩, ⟨aligned, ?_, ?_⟩, ?_⟩
  · decide
  · exact ((refused.1 [7, 7] 24 0 2147483647 [] aligned).1 (by decide)).1
  · exact ((refused.1 [7, 7] 24 1 (-1) [] aligned).2 (by decide)).trans (by decide)
  · exact (refused.2 [7, 7] 24 (-1) [] aligned (by decide)).1

end Bytecode

end CallProvenance
