import CallProvenance.Proofs.BranchTargets
import CallProvenance.Proofs.OpcodeNumbers
import CallProvenance.Proofs.OperandShapes

/-! The written forms of an access to a local slot. A load or store of one of the first four slots takes a single
byte; every access can be written with its slot in one byte or, behind the wide opcode, in two. Decoding reads the
slot of a single byte off its opcode and the simulation reads the kind off it; both come out as in the longer
forms. -/
namespace CallProvenance

inductive SlotKind where
  | int
  | long
  | float
  | double
  | reference
  deriving DecidableEq, Repr

namespace SlotKind

def kind : SlotKind → Kind
  | int => .int
  | long => .long
  | float => .float
  | double => .double
  | reference => .reference

def number : SlotKind → UInt8
  | int => 0
  | long => 1
  | float => 2
  | double => 3
  | reference => 4

/-- The opcode that names a kind and one of four slots, given the first opcode of its family. -/
def fixedOpcode (first : UInt8) (kind : SlotKind) (slot : Nat) : UInt8 := first + 4 * kind.number + UInt8.ofNat slot

theorem info?_fixedLoad (kind : SlotKind) (slot : Fin 4) : Opcode.info? (kind.fixedOpcode 0x1a slot) =
    some (Opcode.encoded (.fixedSlot slot) (.load kind.kind)) := by
  cases kind <;> revert slot <;> decide +kernel

theorem info?_fixedStore (kind : SlotKind) (slot : Fin 4) : Opcode.info? (kind.fixedOpcode 0x3b slot) =
    some (Opcode.encoded (.fixedSlot slot) (.store kind.kind)) := by
  cases kind <;> revert slot <;> decide +kernel

end SlotKind

inductive LocalAccess where
  | load (kind : SlotKind)
  | store (kind : SlotKind)
  | increment
  | subroutineReturn
  deriving DecidableEq, Repr

namespace LocalAccess

/-- The opcode that leaves the slot to the operand. -/
def opcode : LocalAccess → UInt8
  | load kind => 0x15 + kind.number
  | store kind => 0x36 + kind.number
  | increment => Opcode.increment
  | subroutineReturn => 0xa9

def info : LocalAccess → OpcodeInfo
  | load kind => Opcode.encoded .slotByte (.load kind.kind)
  | store kind => Opcode.encoded .slotByte (.store kind.kind)
  | increment => Opcode.encoded .increment .increment
  | subroutineReturn => Opcode.encoded .slotByte .subroutineReturn .subroutineReturn

def operand (slot : Nat) : LocalAccess → Operand
  | increment => .increment slot
  | _ => .slot slot

def action (slot : Nat) : LocalAccess → Action
  | load kind => .load slot kind.kind
  | store kind => .store slot kind.kind
  | increment => .increment slot
  | subroutineReturn => .subroutineReturn slot

theorem info?_opcode (access : LocalAccess) : Opcode.info? access.opcode = some access.info := by
  cases access with
  | load kind | store kind => cases kind <;> decide +kernel
  | increment | subroutineReturn => decide +kernel

variable {access : LocalAccess}

theorem format_plain (plain : access ≠ .increment) : access.info.format = .slotByte := by
  cases access with
  | increment => exact absurd rfl plain
  | _ => rfl

theorem opcode_eq_increment : access.opcode = Opcode.increment ↔ access = .increment := by
  cases access with
  | load kind | store kind => cases kind <;> decide
  | increment | subroutineReturn => decide

theorem operand_plain (plain : access ≠ .increment) (slot : Nat) : access.operand slot = .slot slot := by
  cases access with
  | increment => exact absurd rfl plain
  | _ => rfl

end LocalAccess

/-- The ways to write an access to a slot. What an increment adds is written behind the slot. -/
inductive LocalForm (slot : Nat) : LocalAccess → Type where
  | fixedLoad (kind : SlotKind) (few : slot < 4) : LocalForm slot (.load kind)
  | fixedStore (kind : SlotKind) (few : slot < 4) : LocalForm slot (.store kind)
  | near (access : LocalAccess) (plain : access ≠ .increment) (fits : slot < 256) : LocalForm slot access
  | nearIncrement (delta : Int8) (fits : slot < 256) : LocalForm slot .increment
  | wide (access : LocalAccess) (plain : access ≠ .increment) (fits : slot < 65536) : LocalForm slot access
  | wideIncrement (delta : Int16) (fits : slot < 65536) : LocalForm slot .increment

namespace LocalForm

variable {slot : Nat} {access : LocalAccess}

/-- The slot is named by the opcode. -/
def isFixed : LocalForm slot access → Bool
  | fixedLoad _ _ | fixedStore _ _ => true
  | _ => false

/-- The opcode of the instruction that is meant; a wide form means the instruction that it widens. -/
def opcode : LocalForm slot access → UInt8
  | fixedLoad kind _ => kind.fixedOpcode 0x1a slot
  | fixedStore kind _ => kind.fixedOpcode 0x3b slot
  | _ => access.opcode

def bytes (form : LocalForm slot access) : List UInt8 :=
  match form with
  | fixedLoad _ _ | fixedStore _ _ => [form.opcode]
  | near _ _ _ => [access.opcode, UInt8.ofNat slot]
  | nearIncrement delta _ => [access.opcode, UInt8.ofNat slot, delta.toUInt8]
  | wide _ _ _ => Opcode.wide :: access.opcode :: Bytes.bigEndian 2 slot
  | wideIncrement delta _ => Opcode.wide :: access.opcode :: (Bytes.bigEndian 2 slot ++ Bytes.ofShort delta)

def instruction (form : LocalForm slot access) (offset : Nat) : Instruction :=
  ⟨offset, form.opcode, access.operand slot⟩

def info (form : LocalForm slot access) : OpcodeInfo :=
  match form with
  | fixedLoad _ _ | fixedStore _ _ => { access.info with format := .fixedSlot slot }
  | _ => access.info

theorem info?_opcode (form : LocalForm slot access) : Opcode.info? form.opcode = some form.info := by
  cases form with
  | fixedLoad kind few => exact kind.info?_fixedLoad ⟨slot, few⟩
  | fixedStore kind few => exact kind.info?_fixedStore ⟨slot, few⟩
  | _ => exact LocalAccess.info?_opcode _

theorem effect?_instruction (form : LocalForm slot access) (offset : Nat) :
    (form.instruction offset).effect? = access.info.effect := by
  have known : (form.instruction offset).effect? = form.info.effect := by
    rw [Instruction.effect?, instruction, Opcode.effect?, form.info?_opcode, Option.bind_some]
  rw [known]
  cases form <;> rfl

theorem action_instruction (form : LocalForm slot access) (offset : Nat) :
    (form.instruction offset).action = .ok (access.action slot) := by
  have known := form.effect?_instruction offset
  unfold Instruction.action
  rw [known]
  cases access <;> rfl

theorem note_instruction (form : LocalForm slot access) (offset : Nat) (recorded : DynamicArguments) (index : Nat)
    (frame : Frame) : recorded.note (form.instruction offset) index frame = recorded := by
  have none : (form.instruction offset).dynamicArguments frame = none := by
    have known := form.effect?_instruction offset
    unfold Instruction.dynamicArguments
    rw [known]
    cases access <;> rfl
  unfold DynamicArguments.note
  rw [none]

theorem opcode_unfixed {form : LocalForm slot access} (unfixed : form.isFixed = false) : form.opcode = access.opcode := by
  cases form with
  | fixedLoad | fixedStore => cases unfixed
  | _ => rfl

theorem opcode_eq {form other : LocalForm slot access} (same : form.isFixed = other.isFixed) :
    form.opcode = other.opcode := by
  cases form with
  | fixedLoad kind few =>
    cases other with
    | fixedLoad => rfl
    | _ => cases same
  | fixedStore kind few =>
    cases other with
    | fixedStore => rfl
    | _ => cases same
  | _ => exact (opcode_unfixed same.symm).symm

end LocalForm

theorem Opcode.format?_of_info? {opcode : UInt8} {info : OpcodeInfo} (listed : info? opcode = some info) :
    format? opcode = some info.format := by
  rw [format?, listed, Option.map_some]

/-- How long the instructions are whose operand is a slot. -/
def Format.localSize? : Format → Option Nat
  | .fixedSlot _ => some 1
  | .slotByte => some 2
  | .increment => some 3
  | _ => none

theorem Opcode.extent?_of_localSize? {opcode : UInt8} {format : Format} {size : Nat}
    (known : format? opcode = some format) (sized : format.localSize? = some size) :
    extent? opcode = some (.fixed size) := by
  have all : ∀ opcode : UInt8, ∀ size ∈ (format? opcode).bind Format.localSize?, extent? opcode = some (.fixed size) :=
    forall_of_numbers (by decide +kernel)
  refine all opcode size ?_
  rw [known]
  exact sized

namespace Bytecode

variable {code : Bytes} {offset slot : Nat} {access : LocalAccess} (pool : Pool) (bootstraps : List Nat)

theorem byte_slot {position : Nat} (fits : slot < 256) (found : code[position]? = some (UInt8.ofNat slot)) :
    byte code position = .ok slot := by
  rw [byte_found found, UInt8.toNat_ofNat', Nat.mod_eq_of_lt fits]

theorem decodes_fixed (form : LocalForm slot access) (named : form.info.format = .fixedSlot slot)
    (found : code[offset]? = some form.opcode) :
    length code offset = .ok 1 ∧ instructionAt pool bootstraps code offset = .ok (form.opcode, .slot slot) := by
  have known := Opcode.format?_of_info? form.info?_opcode
  rw [named] at known
  have extent := Opcode.extent?_of_localSize? known rfl
  rw [length, instructionAt, byte_found found]
  simp only [ok_bind, UInt8.ofNat_toNat, known, extent]
  exact ⟨rfl, rfl⟩

theorem decodes_near (fits : slot < 256) {rest : List UInt8}
    (held : code.HoldsAt offset (access.opcode :: UInt8.ofNat slot :: rest)) :
    length code offset = .ok (if access = .increment then 3 else 2) ∧
      instructionAt pool bootstraps code offset = .ok (access.opcode, access.operand slot) := by
  obtain ⟨found, held⟩ := Bytes.holdsAt_cons.1 held
  have slot_read := byte_slot fits (Bytes.holdsAt_cons.1 held).1
  have known := Opcode.format?_of_info? access.info?_opcode
  rw [length, instructionAt, byte_found found]
  simp only [ok_bind, UInt8.ofNat_toNat]
  by_cases plain : access = .increment
  · subst plain
    have extent := Opcode.extent?_of_localSize? known rfl
    simp only [known, extent, LocalAccess.info, Opcode.encoded, slot_read, ok_bind]
    exact ⟨rfl, rfl⟩
  · rw [LocalAccess.format_plain plain] at known
    have extent := Opcode.extent?_of_localSize? known rfl
    simp only [known, extent, slot_read, ok_bind, LocalAccess.operand_plain plain, if_neg plain]
    exact ⟨rfl, rfl⟩

theorem decodes_wide (fits : slot < 65536) {rest : List UInt8}
    (held : code.HoldsAt offset (Opcode.wide :: access.opcode :: (Bytes.bigEndian 2 slot ++ rest))) :
    length code offset = .ok (if access = .increment then 6 else 4) ∧
      instructionAt pool bootstraps code offset = .ok (access.opcode, access.operand slot) := by
  obtain ⟨found, held⟩ := Bytes.holdsAt_cons.1 held
  obtain ⟨inner, held⟩ := Bytes.holdsAt_cons.1 held
  have slot_read := short_bigEndian fits (Bytes.holdsAt_append.1 held).1
  have extent : Opcode.extent? Opcode.wide = some .wide := by decide +kernel
  have widens : Opcode.format? Opcode.wide = some .wide := by decide +kernel
  -- The wide form asks only whether the opcode behind it is an increment: by its number, and by its format.
  have known := Opcode.format?_of_info? access.info?_opcode
  rw [length, instructionAt, byte_found found, byte_found inner]
  simp only [ok_bind, UInt8.ofNat_toNat, extent, widens, inner, slot_read, LocalAccess.opcode_eq_increment]
  by_cases plain : access = .increment
  · subst plain
    simp only [known, LocalAccess.info, Opcode.encoded]
    exact ⟨rfl, rfl⟩
  · rw [LocalAccess.format_plain plain] at known
    simp only [known, LocalAccess.operand_plain plain, if_neg plain]
    exact ⟨rfl, rfl⟩

/-- A form that stands in the code is measured by its bytes and decoded to the instruction that is meant. -/
theorem decodes_form (form : LocalForm slot access) (held : code.HoldsAt offset form.bytes) :
    length code offset = .ok form.bytes.length ∧
      instructionAt pool bootstraps code offset = .ok (form.opcode, access.operand slot) := by
  cases form with
  | fixedLoad kind few => exact decodes_fixed pool bootstraps (.fixedLoad kind few) rfl (Bytes.holdsAt_cons.1 held).1
  | fixedStore kind few => exact decodes_fixed pool bootstraps (.fixedStore kind few) rfl (Bytes.holdsAt_cons.1 held).1
  | near access plain fits =>
    have decoded := decodes_near pool bootstraps fits held
    rwa [if_neg plain] at decoded
  | nearIncrement delta fits => exact decodes_near pool bootstraps fits held
  | wide access plain fits =>
    rw [LocalForm.bytes, ← List.append_nil (Bytes.bigEndian 2 slot)] at held
    have decoded := decodes_wide pool bootstraps fits held
    rwa [if_neg plain] at decoded
  | wideIncrement delta fits => exact decodes_wide pool bootstraps fits held

theorem decodeFrom_form (form : LocalForm slot access) (held : code.HoldsAt offset form.bytes)
    (inside : offset + form.bytes.length ≤ code.size) (reversed : List Instruction) :
    decodeFrom pool bootstraps code offset reversed =
      decodeFrom pool bootstraps code (offset + form.bytes.length) (form.instruction offset :: reversed) := by
  obtain ⟨measured, decoded⟩ := decodes_form pool bootstraps form held
  -- An access leads nowhere, so it is a branch without targets.
  have targetless : instructionAt pool bootstraps code offset = reaching offset [] (form.opcode, access.operand slot) := by
    rw [decoded, reaching, if_pos (by simp)]
  rw [decodeFrom_reaching inside measured targetless, if_pos (by simp)]
  rfl

end Bytecode

namespace Opcode

/-- The opcode that does the same and leaves the slot to the operand. -/
def general (opcode : UInt8) : UInt8 :=
  if 0x1a ≤ opcode ∧ opcode ≤ 0x2d then 0x15 + (opcode - 0x1a) / 4
  else if 0x3b ≤ opcode ∧ opcode ≤ 0x4e then 0x36 + (opcode - 0x3b) / 4
  else opcode

theorem general_same (opcode : UInt8) :
    effect? (general opcode) = effect? opcode ∧ control (general opcode) = control opcode := by
  have changed : ∀ opcode : UInt8, general opcode ≠ opcode →
      effect? (general opcode) = effect? opcode ∧ control (general opcode) = control opcode :=
    forall_of_numbers (by decide +kernel)
  by_cases kept : general opcode = opcode
  · rw [kept]
    exact ⟨rfl, rfl⟩
  · exact changed opcode kept

end Opcode

def Renumbering.general : Renumbering where
  opcode := Opcode.general
  effect_eq opcode := (Opcode.general_same opcode).1
  control_eq opcode := (Opcode.general_same opcode).2

namespace LocalForm

variable {slot : Nat} {access : LocalAccess}

theorem general_opcode (form : LocalForm slot access) : Opcode.general form.opcode = access.opcode := by
  have loads (kind : SlotKind) : ∀ slot : Fin 4,
      Opcode.general (kind.fixedOpcode 0x1a slot) = (LocalAccess.load kind).opcode := by cases kind <;> decide
  have stores (kind : SlotKind) : ∀ slot : Fin 4,
      Opcode.general (kind.fixedOpcode 0x3b slot) = (LocalAccess.store kind).opcode := by cases kind <;> decide
  have own (access : LocalAccess) : Opcode.general access.opcode = access.opcode := by
    cases access with
    | load kind | store kind => cases kind <;> decide
    | increment | subroutineReturn => decide
  cases form with
  | fixedLoad kind few => exact loads kind ⟨slot, few⟩
  | fixedStore kind few => exact stores kind ⟨slot, few⟩
  | _ => exact own _

/-- The method with the access written between other instructions. -/
def inMethod (form : LocalForm slot access) (method : Method) (earlier later : List Instruction) (offset : Nat) :
    Method :=
  { method with code := earlier ++ form.instruction offset :: later }

/-- In general opcodes, all forms are one instruction. -/
theorem renumber_inMethod (form other : LocalForm slot access) (method : Method) (earlier later : List Instruction)
    (offset : Nat) : (form.inMethod method earlier later offset).renumber .general =
      (other.inMethod method earlier later offset).renumber .general := by
  have one (form : LocalForm slot access) :
      (form.instruction offset).renumber .general = ⟨offset, access.opcode, access.operand slot⟩ :=
    congrArg (Instruction.mk offset · (access.operand slot)) form.general_opcode
  simp only [inMethod, Method.renumber, List.map_append, List.map_cons, one]

/-- All forms of an access to a slot are equivalent. Wherever a form stands in a code, it is decoded to an
instruction with the operand of the access. Two forms mean the same instruction, up to the opcode if one of them
names the slot by it. Executed in any place on any frame they give the same frame or the same failure, and leave
no note. A method with the one has the same locals at entry and the same simulation as with the other; where it
fails, only the opcode that is reported tells the forms apart. -/
theorem forms_interchange (form other : LocalForm slot access) :
    (∀ (pool : Pool) (bootstraps : List Nat) (before after : List UInt8) (reversed : List Instruction),
      let code : Bytes := (before ++ form.bytes ++ after).toArray
      Bytecode.length code before.length = .ok form.bytes.length ∧
      Bytecode.instructionAt pool bootstraps code before.length = .ok (form.opcode, access.operand slot) ∧
      Bytecode.decodeFrom pool bootstraps code before.length reversed =
        Bytecode.decodeFrom pool bootstraps code (before.length + form.bytes.length)
          (form.instruction before.length :: reversed)) ∧
    (form.isFixed = other.isFixed → ∀ offset, form.instruction offset = other.instruction offset) ∧
    (∀ (offset index : Nat) (frame : Frame) (recorded : DynamicArguments),
      (form.instruction offset).execute index frame = (other.instruction offset).execute index frame ∧
      recorded.note (form.instruction offset) index frame = recorded) ∧
    ∀ (method : Method) (earlier later : List Instruction) (offset : Nat),
      (form.inMethod method earlier later offset).entryLocals =
        (other.inMethod method earlier later offset).entryLocals ∧
      (form.inMethod method earlier later offset).simulate.mapError (·.renumber .general) =
        (other.inMethod method earlier later offset).simulate.mapError (·.renumber .general) := by
  refine ⟨fun pool bootstraps before after reversed => ?_, fun same offset => ?_,
    fun offset index frame recorded => ⟨?_, form.note_instruction offset recorded index frame⟩,
    fun method earlier later offset => ?_⟩
  · have held := Bytes.holdsAt_between before form.bytes after
    obtain ⟨measured, decoded⟩ := Bytecode.decodes_form pool bootstraps form held
    exact ⟨measured, decoded, Bytecode.decodeFrom_form pool bootstraps form held (by simp) reversed⟩
  · rw [instruction, instruction, opcode_eq same]
  · simp only [Instruction.execute_eq, action_instruction]
  · have same := form.renumber_inMethod other method earlier later offset
    constructor
    · rw [← Method.entryLocals_renumber .general, same, Method.entryLocals_renumber]
    · rw [← Method.simulate_renumber, same, Method.simulate_renumber]

end LocalForm

/-- A long value in slot 3. -/
def Frame.holdingLong : Frame where
  locals := [.unset, .unset, .unset, .producedBy .long 7, .unset]

theorem LocalForm.forms_interchange_holdingLong :
    let fixed : LocalForm 3 (.load .long) := .fixedLoad .long (by decide)
    let near : LocalForm 3 (.load .long) := .near _ (by decide) (by decide)
    let wide : LocalForm 3 (.load .long) := .wide _ (by decide) (by decide)
    (fixed.bytes = [0x21] ∧ near.bytes = [0x16, 3] ∧ wide.bytes = [0xc4, 0x16, 0, 3]) ∧
    Bytecode.instructionAt #[] [] #[0x00, 0xc4, 0x16, 0, 3, 0xad] 1 = .ok (0x16, .slot 3) ∧
    (near.isFixed = wide.isFixed ∧ near.instruction 1 = wide.instruction 1) ∧
    (fixed.instruction 1).execute 1 .holdingLong = (wide.instruction 1).execute 1 .holdingLong ∧
    ((wide.instruction 1).execute 1 .holdingLong).map (fun after => after.stack.map (·.kind)) = .ok [.long] := by
  intro fixed near wide
  obtain ⟨decodes, -⟩ := forms_interchange wide near
  obtain ⟨-, agree, -⟩ := forms_interchange near wide
  obtain ⟨-, -, executes, -⟩ := forms_interchange fixed wide
  refine ⟨by decide, ?_, ⟨rfl, agree rfl 1⟩, (executes 1 1 .holdingLong {}).1, by decide +kernel⟩
  exact (decodes #[] [] [0x00] [0xad] []).2.1

end CallProvenance
