import CallProvenance.Json
import CallProvenance.Method

/-! The fields known while a class is analysed: its own declarations first, then every other
field in the order of first access. An index gives the position of each field by its class and name.
A type that is known never changes. -/
namespace CallProvenance

def MethodHandle.toJson (handle : MethodHandle) : Json :=
  .object [("kind", .nat handle.kind.toNat), ("owner", .string handle.owner),
    ("name", .string handle.name), ("descriptor", .string handle.descriptor)]

def Constant.toJson (constant : Constant) : Json :=
  let tagged (type : String) (value : Json) := Json.object [("type", .string type), ("value", value)]
  match constant with
  | .int value => tagged "int" (.int value)
  | .long value => tagged "long" (.int value)
  | .float bits => tagged "float" (.float bits)
  | .double bits => tagged "double" (.double bits)
  | .string text => tagged "string" (.string text)
  | .classRef name => tagged "class" (.string name)
  | .methodType descriptor => tagged "methodType" (.string descriptor)
  | .methodHandle handle => tagged "methodHandle" handle.toJson

structure FieldTrace where
  className : String
  name : String
  /-- The field's descriptor, once an access or a declaration has shown it. -/
  type : Option String := none
  initial : Option Constant := none
  deriving DecidableEq, Repr

/-- A field that is known with one type was accessed with another. -/
structure FieldConflict where
  className : String
  fieldName : String
  existing : String
  requested : String
  deriving DecidableEq, Repr

def FieldConflict.message (conflict : FieldConflict) : String :=
  s!"field {conflict.className}.{conflict.fieldName} has type {conflict.existing} but was accessed as {conflict.requested}"

namespace FieldTrace

def key (field : FieldTrace) : String × String := (field.className, field.name)

def withType (field : FieldTrace) (type : String) : Except FieldConflict FieldTrace :=
  match field.type with
  | none => .ok { field with type := some type }
  | some existing =>
    if existing = type then .ok field
    else .error ⟨field.className, field.name, existing, type⟩

theorem key_withType {field later : FieldTrace} {type : String} (typed : field.withType type = .ok later) :
    later.key = field.key := by
  unfold withType at typed
  split at typed
  · cases typed
    rfl
  · split at typed <;> cases typed
    rfl

def toJson (field : FieldTrace) : Json :=
  .object <|
    [("className", .string field.className), ("name", .string field.name),
      ("type", .ofOption .string field.type)] ++
    (field.initial.toList.map fun value => ("defaultValue", value.toJson))

end FieldTrace

/-- Fields and the position of each under its key. The index is searched from its latest entry on. -/
structure FieldTable.Raw where
  fields : List FieldTrace := []
  index : List ((String × String) × Nat) := []
  deriving DecidableEq, Repr

namespace FieldTable.Raw

variable {table : Raw}

def find? (table : Raw) (key : String × String) : Option (Nat × FieldTrace) := do
  let position ← table.index.lookup key
  return (position, ← table.fields[position]?)

/-- The field of the given name with its position, entered at the end if it is new. -/
def resolve (table : Raw) (className name : String) : Nat × FieldTrace × Raw :=
  match table.find? (className, name) with
  | some (position, field) => (position, field, table)
  | none =>
    let field : FieldTrace := { className, name }
    let position := table.fields.length
    (position, field, ⟨table.fields ++ [field], ((className, name), position) :: table.index⟩)

def write (table : Raw) (position : Nat) (field : FieldTrace) : Raw :=
  { table with fields := table.fields.set position field }

/-- Notes an access with the given type. A field that is new has been entered also if this fails. -/
def update (table : Raw) (className name type : String) : Except FieldConflict Unit × Raw :=
  let (position, field, table) := table.resolve className name
  match field.withType type with
  | .ok field => (.ok (), table.write position field)
  | .error conflict => (.error conflict, table)

/-- Enters a declaration; a repeated one replaces type and initial value. -/
def declare (className : String) (table : Raw) (declaration : Field) : Raw :=
  let (position, field, table) := table.resolve className declaration.name
  table.write position
    { field with type := some declaration.descriptor, initial := declaration.initial }

def declaredBy (definition : ClassDef) : Raw := definition.fields.foldl (declare definition.name) {}

/-- The index gives the position of every field under its key, and nothing else. -/
def Indexed (table : Raw) : Prop :=
  ∀ key position, table.index.lookup key = some position ↔
    (table.fields[position]?).map (·.key) = some key

theorem indexed_empty : Indexed {} := by
  intro key position
  simp

namespace Indexed

variable {key : String × String} {position : Nat} {field old : FieldTrace}

theorem find?_eq_some (indexed : table.Indexed) :
    table.find? key = some (position, field) ↔ table.fields[position]? = some field ∧ field.key = key := by
  simp only [find?, bind, Option.bind_eq_some_iff, pure, Option.some.injEq, Prod.mk.injEq]
  constructor
  · rintro ⟨place, listed, entry, found, rfl, rfl⟩
    have here := (indexed key place).1 listed
    rw [found] at here
    exact ⟨found, Option.some.inj here⟩
  · rintro ⟨found, rfl⟩
    exact ⟨position, (indexed _ position).2 (by rw [found]; rfl), field, found, rfl, rfl⟩

theorem find?_eq_none (indexed : table.Indexed) : table.find? key = none ↔ ∀ field ∈ table.fields, field.key ≠ key := by
  constructor
  · intro unknown field member same
    obtain ⟨position, found⟩ := List.mem_iff_getElem?.1 member
    rw [indexed.find?_eq_some.2 ⟨found, same⟩] at unknown
    cases unknown
  · intro apart
    cases known : table.find? key with
    | none => rfl
    | some entry =>
      obtain ⟨found, same⟩ := indexed.find?_eq_some.1 known
      exact absurd same (apart entry.2 (List.mem_of_getElem? found))

theorem write (indexed : table.Indexed) (found : table.fields[position]? = some old) (same : field.key = old.key) :
    (table.write position field).Indexed := by
  intro key other
  have kept : ((table.fields.set position field)[other]?).map (·.key) = (table.fields[other]?).map (·.key) := by
    by_cases here : position = other
    · subst here
      have inside := (List.getElem?_eq_some_iff.1 found).1
      rw [List.getElem?_set_self inside, found]
      exact congrArg some same
    · rw [List.getElem?_set_ne here]
  rw [Raw.write, kept]
  exact indexed key other

/-- A field that is new gets the position behind all others, which no key had. -/
theorem enter (indexed : table.Indexed) (fresh : ∀ old ∈ table.fields, old.key ≠ field.key) :
    Indexed ⟨table.fields ++ [field], (field.key, table.fields.length) :: table.index⟩ := by
  intro key position
  dsimp only
  rw [List.lookup_cons]
  by_cases same : key = field.key
  · subst same
    have here : (field.key == field.key) = true := beq_self_eq_true _
    simp only [here]
    constructor
    · rintro ⟨⟩
      simp
    · intro found
      obtain ⟨other, there, same⟩ := Option.map_eq_some_iff.1 found
      rw [List.getElem?_append] at there
      split at there
      · exact absurd same (fresh other (List.mem_of_getElem? there))
      · have last := (List.getElem?_eq_some_iff.1 there).1
        rw [List.length_singleton] at last
        exact congrArg some (by omega)
  · have apart : (key == field.key) = false := beq_false_of_ne same
    simp only [apart, indexed key position]
    constructor
    · intro found
      obtain ⟨other, there, named⟩ := Option.map_eq_some_iff.1 found
      rw [List.getElem?_append_left (List.getElem?_eq_some_iff.1 there).1, there]
      exact congrArg some named
    · intro found
      obtain ⟨other, there, named⟩ := Option.map_eq_some_iff.1 found
      rw [List.getElem?_append] at there
      split at there
      · rw [there]
        exact congrArg some named
      · have last := List.mem_singleton.1 (List.mem_of_getElem? there)
        rw [last] at named
        exact absurd named.symm same

theorem resolve (indexed : table.Indexed) (className name : String) :
    let (position, field, next) := table.resolve className name
    next.Indexed ∧ next.fields[position]? = some field ∧ field.key = (className, name) := by
  unfold Raw.resolve
  cases known : table.find? (className, name) with
  | some entry =>
    obtain ⟨found, same⟩ := indexed.find?_eq_some.1 known
    exact ⟨indexed, found, same⟩
  | none =>
    refine ⟨indexed.enter (indexed.find?_eq_none.1 known), ?_, rfl⟩
    simp

theorem update (indexed : table.Indexed) (className name type : String) :
    (table.update className name type).2.Indexed := by
  obtain ⟨next, found, -⟩ := indexed.resolve className name
  unfold Raw.update
  dsimp only
  split
  · rename_i typed
    exact next.write found (FieldTrace.key_withType typed)
  · exact next

theorem declare (indexed : table.Indexed) (className : String) (declaration : Field) :
    (Raw.declare className table declaration).Indexed := by
  obtain ⟨next, found, -⟩ := indexed.resolve className declaration.name
  exact next.write found rfl

end Indexed

theorem indexed_declaredBy (definition : ClassDef) : (declaredBy definition).Indexed := by
  unfold declaredBy
  have start := indexed_empty
  generalize ({} : Raw) = table at start
  induction definition.fields generalizing table with
  | nil => exact start
  | cons declaration rest ih => exact ih _ (start.declare definition.name declaration)

end FieldTable.Raw

/-- A table whose index is right. -/
structure FieldTable extends FieldTable.Raw where
  indexed : toRaw.Indexed
  deriving DecidableEq, Repr

namespace FieldTable

def empty : FieldTable := ⟨{}, Raw.indexed_empty⟩

def size (table : FieldTable) : Nat := table.fields.length

def get? (table : FieldTable) (className name : String) : Option FieldTrace :=
  (table.find? (className, name)).map (·.2)

def resolve (table : FieldTable) (className name : String) : FieldTrace × FieldTable :=
  let resolved := table.toRaw.resolve className name
  (resolved.2.1, ⟨resolved.2.2, (table.indexed.resolve className name).1⟩)

def access (table : FieldTable) (className name type : String) : Except FieldConflict FieldTable :=
  let updated := table.update className name type
  updated.1.map fun _ => ⟨updated.2, table.indexed.update className name type⟩

def declaredBy (definition : ClassDef) : FieldTable :=
  ⟨Raw.declaredBy definition, Raw.indexed_declaredBy definition⟩

def toJson (table : FieldTable) : Json := .array (table.fields.map FieldTrace.toJson)

end FieldTable
end CallProvenance
