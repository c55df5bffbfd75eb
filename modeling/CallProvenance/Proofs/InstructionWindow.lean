import CallProvenance.Bytecode
import CallProvenance.Proofs.Action
import CallProvenance.Proofs.Failures

/-! The bytes that the decoding of an instruction looks at. The length of an instruction and its
operands are read by two functions with tables of their own, which count the entries of a switch each in its
own way. The tables agree on every opcode and the counts on every switch, so both functions read only from the
window that the length spans: an instruction whose window lies in the code is decoded from nothing else
and misses none of its bytes. -/
namespace CallProvenance

/-- Both codes have the same bytes from `start` up to `stop`. -/
def Bytes.AgreeOn (code other : Bytes) (start stop : Nat) : Prop :=
  ∀ position, start ≤ position → position < stop → other[position]? = code[position]?

/-- Something was to be read from past the end of the code. -/
def DecodeError.isOverrun : DecodeError → Bool
  | .byteOutOfBounds | .shortOutOfBounds | .wordOutOfBounds | .missingWideOpcode => true
  | .within _ cause => cause.isOverrun
  | _ => false

/-- A computation on code that depends on no byte outside a window, and finds all that it reads there. -/
structure ReadsWithin {α : Type} (code : Bytes) (start stop : Nat) (run : Bytes → Except DecodeError α) :
    Prop where
  same : ∀ other, code.AgreeOn other start stop → run other = run code
  avoids : Avoids DecodeError.isOverrun (run code)

namespace ReadsWithin

variable {α β : Type} {code : Bytes} {start stop position : Nat} {run : Bytes → Except DecodeError α}

theorem const {result : Except DecodeError α} (avoids : Avoids DecodeError.isOverrun result) :
    ReadsWithin code start stop fun _ => result :=
  ⟨fun _ _ => rfl, avoids⟩

theorem pure (value : α) : ReadsWithin code start stop fun _ => .ok value := const (.ok value)

theorem bind {rest : Bytes → α → Except DecodeError β} (first : ReadsWithin code start stop run)
    (next : ∀ value, run code = .ok value → ReadsWithin code start stop fun code => rest code value) :
    ReadsWithin code start stop fun code => run code >>= rest code where
  same other agree := by
    rw [first.same other agree]
    cases found : run code with
    | error cause => rfl
    | ok value => exact (next value found).same other agree
  avoids := first.avoids.bind fun value found => (next value found).avoids

theorem mapM {f : Bytes → α → Except DecodeError β} {xs : List α}
    (each : ∀ x ∈ xs, ReadsWithin code start stop fun code => f code x) :
    ReadsWithin code start stop fun code => xs.mapM (f code) := by
  induction xs with
  | nil => exact pure []
  | cons x xs ih =>
    simp only [List.mapM_cons]
    refine bind (each x List.mem_cons_self) fun y _ => bind (ih ?_) fun ys _ => pure _
    intro other member
    exact each other (List.mem_cons_of_mem _ member)

end ReadsWithin

namespace Bytes

variable {code other : Bytes} {start stop position count : Nat}

theorem number?_succ (code : Bytes) (position count : Nat) :
    code.number? position (count + 1) =
      (code.number? position count).bind fun n => (code[position + count]?).map fun byte => 256 * n + byte.toNat := by
  simp [number?, List.range_succ, List.foldlM_append]

theorem number?_inside (inside : position + count ≤ code.size) : ∃ n, code.number? position count = some n := by
  induction count with
  | zero => exact ⟨0, rfl⟩
  | succ count ih =>
    obtain ⟨n, found⟩ := ih (by omega)
    have last : position + count < code.size := by omega
    exact ⟨256 * n + code[position + count].toNat, by simp [number?_succ, found, last]⟩

theorem number?_agree (agree : code.AgreeOn other start stop) (after : start ≤ position)
    (before : position + count ≤ stop) : other.number? position count = code.number? position count := by
  induction count with
  | zero => rfl
  | succ count ih =>
    have last := agree (position + count) (by omega) (by omega)
    rw [number?_succ, number?_succ, ih (by omega), last]

end Bytes

namespace DecodeStep

theorem avoids_run {α : Type} (step : DecodeStep) {result : Except DecodeError α}
    (avoids : Avoids DecodeError.isOverrun result) : Avoids DecodeError.isOverrun (step.run result) := by
  cases result with
  | error cause => exact .error (avoids cause rfl)
  | ok value => exact .ok value

end DecodeStep

namespace Pool

variable {pool : Pool} {index : Nat}

theorem avoids_entry (pool : Pool) (index : Nat) : Avoids DecodeError.isOverrun (pool.entry index) := by
  unfold entry
  split
  · exact .ok _
  · exact .error rfl

theorem avoids_text (pool : Pool) (index : Nat) : Avoids DecodeError.isOverrun (pool.text index) := by
  refine (avoids_entry pool index).bind fun found _ => ?_
  split
  · exact .ok _
  · exact .error rfl

theorem avoids_className (pool : Pool) (index : Nat) : Avoids DecodeError.isOverrun (pool.className index) := by
  refine (avoids_entry pool index).bind fun found _ => ?_
  split
  · exact avoids_text pool _
  · exact .error rfl

theorem avoids_nameAndType (pool : Pool) (index : Nat) : Avoids DecodeError.isOverrun (pool.nameAndType index) := by
  refine (avoids_entry pool index).bind fun found _ => ?_
  split
  · exact (avoids_text pool _).bind fun _ _ => (avoids_text pool _).bind fun _ _ => .ok _
  · exact .error rfl

theorem avoids_member (pool : Pool) (index : Nat) : Avoids DecodeError.isOverrun (pool.member index) := by
  refine (avoids_entry pool index).bind fun found _ => ?_
  have named (owner signature : Nat) : Avoids DecodeError.isOverrun (do
      let owner ← DecodeStep.owner.run (pool.className owner)
      return (owner, ← pool.nameAndType signature)) :=
    (DecodeStep.owner.avoids_run (avoids_className pool owner)).bind fun _ _ =>
      (avoids_nameAndType pool signature).bind fun _ _ => .ok _
  split
  · exact named _ _
  · exact named _ _
  · exact named _ _
  · exact .error rfl

theorem avoids_methodHandle (pool : Pool) (index : Nat) : Avoids DecodeError.isOverrun (pool.methodHandle index) := by
  refine (avoids_entry pool index).bind fun found _ => ?_
  split
  · exact (avoids_member pool _).bind fun _ _ => .ok _
  · exact .error rfl

theorem avoids_constant (pool : Pool) (index : Nat) : Avoids DecodeError.isOverrun (pool.constant index) := by
  refine (avoids_entry pool index).bind fun found _ => ?_
  cases found with
  | integer | float | long | double => exact .ok _
  | string | classRef | methodType => exact (avoids_text pool _).bind fun _ _ => .ok _
  | methodHandle => exact (avoids_methodHandle pool _).bind fun _ _ => .ok _
  | _ => exact .error rfl

theorem avoids_dynamicSite (pool : Pool) (bootstraps : List Nat) (index : Nat) :
    Avoids DecodeError.isOverrun (pool.dynamicSite bootstraps index) := by
  refine (avoids_entry pool index).bind fun found _ => ?_
  split
  · rename_i bootstrap signature _
    refine (avoids_nameAndType pool signature).bind fun found _ => ?_
    cases bootstraps[bootstrap]? with
    | some handle => exact (avoids_methodHandle pool handle).bind fun _ _ => .ok _
    | none => exact .error rfl
  · exact .error rfl

end Pool

/-- How far the operands of a format reach, counted from the opcode, unless the code itself says so. -/
def Format.reach? : Format → Option Nat
  | .bare | .literal _ | .fixedSlot _ => some 1
  | .signedByte | .poolByte | .slotByte | .increment => some 2
  | .signedShort | .poolShort | .branch | .field _ | .invoke _ | .invokeDynamic => some 3
  | .dimensions => some 4
  | .farBranch => some 5
  | .tableSwitch | .lookupSwitch | .wide => none

/-- There is room for the operands of the format. -/
def Extent.holds : Extent → Format → Bool
  | .fixed count, format => format.reach?.any (· ≤ count)
  | .tableSwitch, format => format = .tableSwitch
  | .lookupSwitch, format => format = .lookupSwitch
  | .wide, format => format = .wide

def Extent.agrees : Option Extent → Option Format → Bool
  | some extent, some format => extent.holds format
  | none, none => true
  | _, _ => false

theorem Format.reach_pos {format : Format} {reach : Nat} (reaches : format.reach? = some reach) : 0 < reach := by
  cases format <;> cases reaches <;> omega

namespace Opcode

/-- What holds of all numbers of one byte holds of every opcode. -/
theorem forall_of_numbers {holds : UInt8 → Prop} (each : ∀ k : Fin 256, holds (UInt8.ofNat k))
    (opcode : UInt8) : holds opcode := by
  have known := each ⟨opcode.toNat, opcode.toNat_lt⟩
  rwa [UInt8.ofNat_toNat] at known

/-- The two tables know the same opcodes, and give each of them a length that holds its operands. -/
theorem extent?_agrees : ∀ opcode : UInt8, Extent.agrees (extent? opcode) (format? opcode) = true :=
  forall_of_numbers (by decide +kernel)

theorem format?_of_extent? {opcode : UInt8} {extent : Extent} (known : extent? opcode = some extent) :
    ∃ format, format? opcode = some format ∧ extent.holds format = true := by
  have agrees := extent?_agrees opcode
  rw [known] at agrees
  cases format : format? opcode with
  | none =>
    rw [format] at agrees
    cases agrees
  | some found =>
    rw [format] at agrees
    exact ⟨found, rfl, agrees⟩

end Opcode

namespace Bytecode

variable {code : Bytes} {start stop position offset count : Nat} {pool : Pool} {bootstraps : List Nat}

section Counting

variable {low high : Int}

theorem word?_eq_some {value result : Int} :
    word? value = some result ↔ value = result ∧ -2147483648 ≤ result ∧ result < 2147483648 := by
  unfold word?
  split
  · rename_i fits
    constructor
    · rintro ⟨⟩
      exact ⟨rfl, fits⟩
    · rintro ⟨rfl, -⟩
      rfl
  · rename_i overflows
    constructor
    · rintro ⟨⟩
    · rintro ⟨rfl, fits⟩
      exact absurd fits overflows

/-- Counting in words gives the number of entries, unless that is no word itself: a difference that overflows
belongs to a count that is negative or too large. -/
theorem wordTableCount_eq_ok :
    wordTableCount low high = .ok count ↔ high - low + 1 = count ∧ count < 2147483648 := by
  unfold wordTableCount
  constructor
  · intro counted
    split at counted
    · cases counted
    · rename_i result steps
      obtain ⟨difference, fits, fits'⟩ := Option.bind_eq_some_iff.1 steps
      obtain ⟨rfl, -⟩ := word?_eq_some.1 fits
      obtain ⟨rfl, -, bounded⟩ := word?_eq_some.1 fits'
      split at counted
      · cases counted
      · cases counted
        omega
  · rintro ⟨exact_count, bounded⟩
    have fits : word? (high - low) = some (high - low) := word?_eq_some.2 ⟨rfl, by omega, by omega⟩
    have fits' : word? (high - low + 1) = some (count : Int) := word?_eq_some.2 ⟨exact_count, by omega, by omega⟩
    simp only [fits, Option.bind_some, fits', if_neg (show ¬(count : Int) < 0 by omega), Int.toNat_natCast]

theorem wordTableCount_refuses (range : ¬(0 ≤ high - low + 1 ∧ high - low + 1 < 2147483648)) :
    wordTableCount low high = .error .tableRange := by
  cases counted : wordTableCount low high with
  | ok count =>
    obtain ⟨exact_count, bounded⟩ := wordTableCount_eq_ok.1 counted
    omega
  | error cause =>
    unfold wordTableCount at counted
    split at counted
    · exact counted.symm
    · split at counted
      · exact counted.symm
      · cases counted

theorem tableCount_eq_ok : tableCount low high = .ok count ↔ high - low + 1 = count := by
  unfold tableCount
  constructor
  · intro counted
    dsimp only at counted
    split at counted
    · cases counted
      omega
    · cases counted
  · intro exact_count
    simp only [exact_count, if_pos (Int.natCast_nonneg count), Int.toNat_natCast]

theorem pairCount_eq_ok {pairs : Int} : pairCount pairs = .ok count ↔ pairs = count := by
  unfold pairCount
  constructor
  · intro counted
    split at counted
    · cases counted
      omega
    · cases counted
  · rintro rfl
    rw [if_pos (Int.natCast_nonneg count), Int.toNat_natCast]

end Counting

section Reading

theorem byte_readsWithin (after : start ≤ position) (before : position < stop) (inside : stop ≤ code.size) :
    ReadsWithin code start stop fun code => byte code position where
  same other agree := by rw [byte, byte, agree position after before]
  avoids := by
    have bound : position < code.size := by omega
    simp only [byte, Array.getElem?_eq_getElem bound]
    exact .ok _

theorem short_readsWithin (after : start ≤ position) (before : position + 2 ≤ stop) (inside : stop ≤ code.size) :
    ReadsWithin code start stop fun code => short code position where
  same other agree := by rw [short, short, Bytes.number?_agree agree after before]
  avoids := by
    obtain ⟨n, found⟩ := Bytes.number?_inside (Nat.le_trans before inside)
    simp only [short, found]
    exact .ok n

theorem word_readsWithin (after : start ≤ position) (before : position + 4 ≤ stop) (inside : stop ≤ code.size) :
    ReadsWithin code start stop fun code => word code position where
  same other agree := by rw [word, word, Bytes.number?_agree agree after before]
  avoids := by
    obtain ⟨n, found⟩ := Bytes.number?_inside (Nat.le_trans before inside)
    simp only [word, found]
    exact .ok _

theorem avoids_branchTarget (offset : Nat) (delta : Int) : Avoids DecodeError.isOverrun (branchTarget offset delta) :=
  .ite (.ok _) (.error rfl)

theorem avoids_wordTableCount (low high : Int) : Avoids DecodeError.isOverrun (wordTableCount low high) := by
  unfold wordTableCount
  split
  · exact .error rfl
  · exact .ite (.error rfl) (.ok _)

theorem avoids_tableCount (low high : Int) : Avoids DecodeError.isOverrun (tableCount low high) := .ite (.ok _) (.error rfl)

theorem avoids_pairCount (pairs : Int) : Avoids DecodeError.isOverrun (pairCount pairs) := .ite (.ok _) (.error rfl)

theorem target_readsWithin (after : start ≤ position) (before : position + 4 ≤ stop) (inside : stop ≤ code.size) :
    ReadsWithin code start stop fun code => (do branchTarget offset (← word code position)) :=
  (word_readsWithin after before inside).bind fun delta _ => .const (avoids_branchTarget offset delta)

theorem switchTargets_readsWithin {first stride : Nat} (after : start ≤ first)
    (before : ∀ k < count, first + stride * k + 4 ≤ stop) (inside : stop ≤ code.size) :
    ReadsWithin code start stop fun code => switchTargets code offset first stride count := by
  refine .mapM fun k member => ?_
  have bound := before k (List.mem_range.1 member)
  exact target_readsWithin (Nat.le_trans after (Nat.le_add_right _ _)) bound inside

end Reading

/-- What the length of an instruction says about its format. -/
inductive Measured (code : Bytes) (offset count : Nat) : Format → Prop where
  | fixed {format : Format} {reach : Nat} (reaches : format.reach? = some reach) (room : reach ≤ count) :
      Measured code offset count format
  | wide (room : 4 ≤ count) : Measured code offset count .wide
  | table {low high : Int} {entries : Nat} (low_read : word code (switchBase offset + 4) = .ok low)
      (high_read : word code (switchBase offset + 8) = .ok high) (counted : high - low + 1 = entries)
      (size : count = 1 + padding offset + 12 + 4 * entries) : Measured code offset count .tableSwitch
  | lookup {pairs : Nat} (read : word code (switchBase offset + 4) = .ok pairs)
      (size : count = 1 + padding offset + 8 + 8 * pairs) : Measured code offset count .lookupSwitch

theorem measured_of_length (measured : length code offset = .ok count) :
    ∃ first format, byte code offset = .ok first ∧ Opcode.format? (UInt8.ofNat first) = some format ∧
      Measured code offset count format := by
  obtain ⟨first, read, measured⟩ := except_bind_eq_ok.1 measured
  cases known : Opcode.extent? (UInt8.ofNat first) with
  | none =>
    simp only [known] at measured
    cases measured
  | some extent =>
    obtain ⟨format, listed, holds⟩ := Opcode.format?_of_extent? known
    refine ⟨first, format, read, listed, ?_⟩
    simp only [known] at measured
    cases extent with
    | fixed size =>
      cases measured
      cases reaches : format.reach? with
      | none => simp [Extent.holds, reaches] at holds
      | some reach => exact .fixed reaches (by simpa [Extent.holds, reaches] using holds)
    | wide =>
      obtain rfl : format = .wide := of_decide_eq_true holds
      refine .wide ?_
      cases inner : code[offset + 1]? with
      | none =>
        simp only [inner] at measured
        cases measured
      | some widened =>
        simp only [inner] at measured
        rw [← Except.ok.inj measured]
        split <;> omega
    | tableSwitch =>
      obtain rfl : format = .tableSwitch := of_decide_eq_true holds
      obtain ⟨low, low_read, measured⟩ := except_bind_eq_ok.1 measured
      obtain ⟨high, high_read, measured⟩ := except_bind_eq_ok.1 measured
      obtain ⟨entries, counted, ⟨⟩⟩ := except_bind_eq_ok.1 measured
      exact .table low_read high_read (wordTableCount_eq_ok.1 counted).1 rfl
    | lookupSwitch =>
      obtain rfl : format = .lookupSwitch := of_decide_eq_true holds
      obtain ⟨size, size_read, measured⟩ := except_bind_eq_ok.1 measured
      obtain ⟨pairs, counted, ⟨⟩⟩ := except_bind_eq_ok.1 measured
      obtain rfl := pairCount_eq_ok.1 counted
      exact .lookup size_read rfl

theorem length_pos (measured : length code offset = .ok count) : 0 < count := by
  obtain ⟨first, format, -, -, shape⟩ := measured_of_length measured
  cases shape with
  | fixed reaches room => exact Nat.lt_of_lt_of_le (Format.reach_pos reaches) room
  | wide | table | lookup => omega

/-- The length of an instruction that fits into the code is read from the instruction itself. -/
theorem length_readsWithin (measured : length code offset = .ok count) (inside : offset + count ≤ code.size) :
    ReadsWithin code offset (offset + count) fun code => length code offset := by
  have positive := length_pos measured
  have base : switchBase offset = offset + 1 + padding offset := rfl
  obtain ⟨first, format, read, listed, shape⟩ := measured_of_length measured
  refine (byte_readsWithin (Nat.le_refl offset) (by omega) inside).bind fun first' read' => ?_
  obtain rfl : first = first' := Except.ok.inj (read.symm.trans read')
  cases known : Opcode.extent? (UInt8.ofNat first) with
  | none =>
    simp only [known]
    exact .const (.error rfl)
  | some extent =>
    obtain ⟨format', listed', holds⟩ := Opcode.format?_of_extent? known
    obtain rfl : format = format' := Option.some.inj (listed.symm.trans listed')
    simp only [known]
    cases extent with
    | fixed size => exact .pure _
    | wide =>
      obtain rfl : format = .wide := of_decide_eq_true holds
      have room : 4 ≤ count := by
        cases shape with
        | wide room => exact room
        | fixed reaches => cases reaches
      have next : offset + 1 < code.size := by omega
      refine ⟨fun other agree => ?_, ?_⟩
      · rw [agree (offset + 1) (by omega) (by omega)]
      · simp only [Array.getElem?_eq_getElem next]
        exact .ok _
    | tableSwitch =>
      obtain rfl : format = .tableSwitch := of_decide_eq_true holds
      cases shape with
      | table =>
        refine (word_readsWithin (by omega) (by omega) inside).bind fun low _ => ?_
        refine (word_readsWithin (by omega) (by omega) inside).bind fun high _ => ?_
        exact .const ((avoids_wordTableCount low high).bind fun _ _ => .ok _)
      | fixed reaches => cases reaches
    | lookupSwitch =>
      obtain rfl : format = .lookupSwitch := of_decide_eq_true holds
      cases shape with
      | lookup =>
        refine (word_readsWithin (by omega) (by omega) inside).bind fun size _ => ?_
        exact .const ((avoids_pairCount size).bind fun _ _ => .ok _)
      | fixed reaches => cases reaches

/-- An instruction that fits into the code is decoded from its own bytes, and none of them is missing. -/
theorem instructionAt_readsWithin (pool : Pool) (bootstraps : List Nat) (measured : length code offset = .ok count)
    (inside : offset + count ≤ code.size) :
    ReadsWithin code offset (offset + count) fun code => instructionAt pool bootstraps code offset := by
  have positive := length_pos measured
  have base : switchBase offset = offset + 1 + padding offset := rfl
  obtain ⟨first, format, read, listed, shape⟩ := measured_of_length measured
  refine (byte_readsWithin (Nat.le_refl offset) (by omega) inside).bind fun first' read' => ?_
  obtain rfl : first = first' := Except.ok.inj (read.symm.trans read')
  simp only [listed]
  cases shape with
  | wide room =>
    refine (byte_readsWithin (by omega) (by omega) inside).bind fun inner _ => ?_
    exact (short_readsWithin (by omega) (by omega) inside).bind fun slot _ => .pure _
  | table low_read high_read counted size =>
    refine (word_readsWithin (by omega) (by omega) inside).bind fun delta _ => ?_
    refine (ReadsWithin.const (avoids_branchTarget offset delta)).bind fun fallback _ => ?_
    refine (word_readsWithin (by omega) (by omega) inside).bind fun low low_read' => ?_
    refine (word_readsWithin (by omega) (by omega) inside).bind fun high high_read' => ?_
    refine (ReadsWithin.const (avoids_tableCount low high)).bind fun entries counted' => ?_
    -- Both functions have read the same bounds, and both counts are exact.
    obtain rfl := Except.ok.inj (low_read.symm.trans low_read')
    obtain rfl := Except.ok.inj (high_read.symm.trans high_read')
    have same := tableCount_eq_ok.1 counted'
    exact (switchTargets_readsWithin (by omega) (by omega) inside).bind fun _ _ => .pure _
  | lookup pairs_read size =>
    refine (word_readsWithin (by omega) (by omega) inside).bind fun delta _ => ?_
    refine (ReadsWithin.const (avoids_branchTarget offset delta)).bind fun fallback _ => ?_
    refine (word_readsWithin (by omega) (by omega) inside).bind fun pairs pairs_read' => ?_
    refine (ReadsWithin.const (avoids_pairCount pairs)).bind fun entries counted => ?_
    obtain rfl := Except.ok.inj (pairs_read.symm.trans pairs_read')
    have same := pairCount_eq_ok.1 counted
    exact (switchTargets_readsWithin (by omega) (by omega) inside).bind fun _ _ => .pure _
  | fixed reaches room =>
    cases format with
    | tableSwitch | lookupSwitch | wide => cases reaches
    | bare | literal | fixedSlot => exact .pure _
    | signedByte | slotByte | increment =>
      cases reaches
      exact (byte_readsWithin (by omega) (by omega) inside).bind fun _ _ => .pure _
    | signedShort =>
      cases reaches
      exact (short_readsWithin (by omega) (by omega) inside).bind fun _ _ => .pure _
    | poolByte =>
      cases reaches
      refine (byte_readsWithin (by omega) (by omega) inside).bind fun index _ => ?_
      exact .const ((pool.avoids_constant index).bind fun _ _ => .ok _)
    | poolShort =>
      cases reaches
      refine (short_readsWithin (by omega) (by omega) inside).bind fun index _ => ?_
      exact .const ((pool.avoids_constant index).bind fun _ _ => .ok _)
    | branch =>
      cases reaches
      refine (short_readsWithin (by omega) (by omega) inside).bind fun delta _ => ?_
      exact .const ((avoids_branchTarget offset _).bind fun _ _ => .ok _)
    | farBranch =>
      cases reaches
      refine (word_readsWithin (by omega) (by omega) inside).bind fun delta _ => ?_
      exact .const ((avoids_branchTarget offset delta).bind fun _ _ => .ok _)
    | field access =>
      cases reaches
      refine (short_readsWithin (by omega) (by omega) inside).bind fun index _ => ?_
      exact .const ((pool.avoids_member index).bind fun _ _ => .ok _)
    | invoke kind =>
      cases reaches
      refine (short_readsWithin (by omega) (by omega) inside).bind fun index _ => ?_
      exact .const ((DecodeStep.methodRef.avoids_run (pool.avoids_member index)).bind fun _ _ => .ok _)
    | invokeDynamic =>
      cases reaches
      refine (short_readsWithin (by omega) (by omega) inside).bind fun index _ => ?_
      exact .const ((DecodeStep.dynamicSite.avoids_run (pool.avoids_dynamicSite bootstraps index)).bind fun _ _ => .ok _)
    | dimensions =>
      cases reaches
      exact (byte_readsWithin (by omega) (by omega) inside).bind fun _ _ => .pure _

end Bytecode
end CallProvenance
