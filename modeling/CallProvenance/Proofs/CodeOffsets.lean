import CallProvenance.ClassFile.Decode
import CallProvenance.Proofs.LinearSweep

/-! Offsets in the code of a class file. The length of a code is read as a number of four bytes, so an offset of 32 bits
names every instruction that was decoded. -/
namespace CallProvenance

theorem Bytes.number?_lt {bytes : Bytes} {position count n : Nat} (found : bytes.number? position count = some n) :
    n < Nat.pow 256 count := by
  induction count generalizing n with
  | zero =>
    cases found
    exact Nat.one_pos
  | succ count ih =>
    rw [number?_succ] at found
    obtain ⟨front, before, found⟩ := Option.bind_eq_some_iff.1 found
    obtain ⟨last, -, rfl⟩ := Option.map_eq_some_iff.1 found
    have bound := ih before
    have small := last.toNat_lt
    have power : Nat.pow 256 (count + 1) = Nat.pow 256 count * 256 := rfl
    omega

theorem DecodeStep.run_eq_ok {α : Type} {step : DecodeStep} {result : Except DecodeError α} {value : α} :
    step.run result = .ok value ↔ result = .ok value := by
  cases result with
  | error cause =>
    constructor
    · rintro ⟨⟩
    · rintro ⟨⟩
  | ok found => exact Iff.rfl

/-- What each step keeps is kept by all of them. -/
theorem foldlM_keeps {ε α β : Type} {f : β → α → Except ε β} {xs : List α} {start final : β} (holds : β → Prop)
    (begun : holds start) (each : ∀ b, ∀ x ∈ xs, ∀ b', holds b → f b x = .ok b' → holds b')
    (done : xs.foldlM f start = .ok final) : holds final := by
  induction xs generalizing start with
  | nil =>
    cases done
    exact begun
  | cons x xs ih =>
    rw [List.foldlM_cons] at done
    obtain ⟨next, first, rest⟩ := except_bind_eq_ok.1 done
    refine ih (each start x List.mem_cons_self next begun first) (fun b y member => ?_) rest
    exact each b y (List.mem_cons_of_mem _ member)

namespace Reader

variable {α β : Type} {reader : Reader α} {holds : α → Prop}

/-- Whatever is read has a property. -/
def Gives (reader : Reader α) (holds : α → Prop) : Prop :=
  ∀ (bytes : Bytes) (position : Nat) (value : α) (after : Nat),
    reader bytes position = .ok (value, after) → holds value

theorem gives_pure {value : α} (here : holds value) : Gives (pure value) holds := by
  rintro bytes position _ _ ⟨⟩
  exact here

theorem gives_throw (cause : FormatError) : Gives (throw cause : Reader α) holds := by
  rintro bytes position _ _ ⟨⟩

theorem Gives.bind {rest : α → Reader β} {holds' : β → Prop} (first : reader.Gives holds)
    (next : ∀ value, holds value → (rest value).Gives holds') : Gives (reader >>= rest) holds' := by
  intro bytes position value after done
  cases begun : reader bytes position with
  | error cause =>
    simp only [Bind.bind, ReaderT.bind, StateT.bind, begun, Except.bind] at done
    cases done
  | ok found =>
    simp only [Bind.bind, ReaderT.bind, StateT.bind, begun, Except.bind] at done
    exact next found.1 (first bytes position found.1 found.2 begun) bytes found.2 value after done

theorem gives_bind {rest : α → Reader β} {holds' : β → Prop} (next : ∀ value, (rest value).Gives holds') :
    Gives (reader >>= rest) holds' := by
  have anything : reader.Gives fun _ => True := fun _ _ _ _ _ => trivial
  exact anything.bind fun value _ => next value

theorem gives_number (count : Nat) : (number count).Gives (· < Nat.pow 256 count) := by
  refine gives_bind fun bytes => gives_bind fun position => ?_
  split
  · rename_i found
    exact gives_bind fun _ => gives_pure (Bytes.number?_lt found)
  · exact gives_throw _

theorem gives_block (count : Nat) : (block count).Gives (·.size ≤ count) := by
  refine gives_bind fun _ => gives_bind fun position => gives_bind fun _ => gives_bind fun bytes => gives_pure ?_
  rw [Bytes.slice, Array.size_extract]
  omega

theorem Gives.collect (each : reader.Gives holds) (count : Nat) {reversed : List α} (earlier : ∀ x ∈ reversed, holds x) :
    (collect reader count reversed).Gives fun found => ∀ x ∈ found, holds x := by
  induction count generalizing reversed with
  | zero => exact gives_pure (by simpa using earlier)
  | succ count ih =>
    refine each.bind fun value here => ih ?_
    rintro x (_ | ⟨_, member⟩)
    · exact here
    · exact earlier x member

theorem Gives.table (each : reader.Gives holds) : (Reader.table reader).Gives fun found => ∀ x ∈ found, holds x :=
  gives_bind fun count => each.collect count (by simp)

end Reader

/-- Code whose offsets fit into 32 bits. -/
def Attribute.Short : Attribute → Prop
  | .code _ bytes _ _ => bytes.size < 4294967296
  | _ => True

namespace Attribute

open Reader

theorem gives_one (pool : Pool) (depth : Nat) : (one pool depth).Gives Short := by
  cases depth with
  | zero => exact gives_throw _
  | succ depth =>
    refine gives_bind fun index => gives_bind fun name => gives_bind fun length => ?_
    split
    · exact gives_bind fun _ => gives_pure trivial
    · refine gives_bind fun _ => gives_bind fun maxLocals => (gives_number 4).bind fun size few => ?_
      refine (gives_block size).bind fun code fits => gives_bind fun handlers => gives_bind fun attributes => ?_
      exact gives_pure (Nat.lt_of_le_of_lt fits few)
    · exact gives_bind fun _ => gives_pure trivial
    · exact gives_bind fun _ => gives_pure trivial
    · exact gives_bind fun _ => gives_pure trivial
    · exact gives_bind fun _ => gives_bind fun _ => gives_pure trivial
    · exact gives_bind fun _ => gives_pure trivial
    · exact gives_bind fun _ => gives_pure trivial

theorem gives_all (pool : Pool) : (all pool).Gives fun attributes => ∀ item ∈ attributes, item.Short :=
  gives_bind fun _ => (gives_one pool _).table

end Attribute

namespace ClassFile

open Reader

theorem gives_classFile :
    classFile.Gives fun file => ∀ member ∈ file.methods, ∀ item ∈ member.attributes, item.Short := by
  have members (pool : Pool) : (memberInfo pool).Gives fun member => ∀ item ∈ member.attributes, item.Short :=
    gives_bind fun _ => gives_bind fun _ => gives_bind fun _ =>
      (Attribute.gives_all pool).bind fun _ short => gives_pure short
  refine gives_bind fun magic => ?_
  split
  · have stopped : Gives (throw .badMagic : Reader PUnit) fun _ => False := gives_throw _
    exact stopped.bind fun _ never => never.elim
  · refine gives_bind fun _ => gives_bind fun pool => gives_bind fun _ => gives_bind fun _ => gives_bind fun _ => ?_
    refine gives_bind fun _ => gives_bind fun _ => (members pool).table.bind fun _ short => gives_bind fun _ => ?_
    exact gives_pure short

theorem parse_short {bytes : Bytes} {file : ClassFile} (parsed : parse bytes = .ok file) :
    ∀ member ∈ file.methods, ∀ item ∈ member.attributes, item.Short := by
  obtain ⟨⟨found, position⟩, begun, ended⟩ := except_bind_eq_ok.1 parsed
  dsimp only at ended
  split at ended
  · cases ended
    exact gives_classFile bytes 0 _ _ begun
  · cases ended

variable {pool : Pool} {bootstraps : List Nat} {item : Attribute} {method after : Method}

/-- Every instruction can be named by 32 bits. -/
def Near (method : Method) : Prop := ∀ instruction ∈ method.code, instruction.offset < 4294967296

theorem addDebugTables_code {attributes : List Attribute} (added : addDebugTables pool method attributes = .ok after) :
    after.code = method.code := by
  obtain ⟨filled, folded, ⟨⟩⟩ := except_bind_eq_ok.1 added
  refine foldlM_keeps (·.code = method.code) rfl (fun before item _ next same step => ?_) folded
  cases item with
  | localVariables rows =>
    obtain ⟨found, -, ⟨⟩⟩ := except_bind_eq_ok.1 step
    exact same
  | _ =>
    cases step
    exact same

theorem Near.addAttribute (near : Near method) (short : item.Short)
    (added : addAttribute pool bootstraps method item = .ok after) : Near after := by
  cases item with
  | code maxLocals bytes handlers attributes =>
    obtain ⟨code, decoded, added⟩ := except_bind_eq_ok.1 added
    obtain ⟨tiles, -⟩ := Bytecode.decode_eq_ok_iff.1 (DecodeStep.run_eq_ok.1 decoded)
    intro instruction member
    rw [addDebugTables_code (DecodeStep.run_eq_ok.1 added)] at member
    exact Nat.lt_trans (tiles.offset_lt member) short
  | methodParameters names =>
    obtain ⟨parameterNames, -, ⟨⟩⟩ := except_bind_eq_ok.1 added
    exact near
  | _ =>
    cases added
    exact near

theorem method_near {info : MemberInfo} (short : ∀ item ∈ info.attributes, item.Short)
    (decoded : ClassFile.method pool bootstraps info = .ok method) : Near method := by
  obtain ⟨name, -, decoded⟩ := except_bind_eq_ok.1 decoded
  obtain ⟨descriptor, -, decoded⟩ := except_bind_eq_ok.1 decoded
  refine foldlM_keeps Near (fun _ member => by cases member) (fun before item inside next near added => ?_) decoded
  exact Near.addAttribute near (short item inside) added

end ClassFile

namespace ClassDef

variable {bytes : Bytes} {source : String} {definition : ClassDef}

theorem decode_eq_ok (decoded : decode bytes source = .ok definition) :
    ∃ file, ClassFile.parse bytes = .ok file ∧ definition.source = source ∧
      file.methods.mapM (ClassFile.method file.pool file.bootstraps) = .ok definition.methods := by
  rw [decode] at decoded
  cases parsed : ClassFile.parse bytes with
  | error cause =>
    rw [parsed] at decoded
    cases decoded
  | ok file =>
    rw [parsed] at decoded
    obtain ⟨name, -, decoded⟩ := except_bind_eq_ok.1 decoded
    dsimp only at decoded
    split at decoded <;>
    · obtain ⟨superName, -, decoded⟩ := except_bind_eq_ok.1 decoded
      obtain ⟨fields, -, decoded⟩ := except_bind_eq_ok.1 decoded
      obtain ⟨methods, found, ⟨⟩⟩ := except_bind_eq_ok.1 decoded
      exact ⟨file, rfl, rfl, DecodeStep.run_eq_ok.1 found⟩

/-- An instruction of a class file lies at an offset of 32 bits. -/
theorem decode_offset_lt {method : Method} {instruction : Instruction} (decoded : decode bytes source = .ok definition)
    (inside : method ∈ definition.methods) (member : instruction ∈ method.code) : instruction.offset < 4294967296 := by
  obtain ⟨file, parsed, -, found⟩ := decode_eq_ok decoded
  obtain ⟨info, listed, decoded⟩ := mem_of_mapM_ok found inside
  exact ClassFile.method_near (ClassFile.parse_short parsed info listed) decoded instruction member

end ClassDef
end CallProvenance
