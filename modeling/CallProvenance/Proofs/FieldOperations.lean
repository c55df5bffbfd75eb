import CallProvenance.Proofs.FieldTypes

/-! The table of fields under any sequence of operations. A field is entered when it is first named, at the end of the
list and in the index, and stays in that place under its name and with its initial value. Its type is set at
most once; an update that asks for another type fails, and by then has entered nothing. -/
namespace CallProvenance

inductive FieldOp where
  | resolve (className name : String)
  | update (className name type : String)
  deriving DecidableEq, Repr

def FieldOp.key : FieldOp → String × String
  | .resolve className name => (className, name)
  | .update className name _ => (className, name)

namespace FieldOp

variable {known : List (String × String)} {op : FieldOp} {ops : List FieldOp}

/-- The keys that operations name for the first time, in the order in which they do. -/
def newKeys (known : List (String × String)) (ops : List FieldOp) : List (String × String) :=
  ((ops.map (·.key)).filter (!known.contains ·)).eraseDups

theorem newKeys_nil (known : List (String × String)) : newKeys known [] = [] := rfl

theorem newKeys_known (old : op.key ∈ known) (ops : List FieldOp) : newKeys known (op :: ops) = newKeys known ops := by
  unfold newKeys
  rw [List.map_cons, List.filter_cons_of_neg (by simpa using old)]

theorem newKeys_fresh (fresh : op.key ∉ known) (ops : List FieldOp) :
    newKeys known (op :: ops) = op.key :: newKeys (known ++ [op.key]) ops := by
  have unknown : ∀ known : List (String × String), (fun key => !known.contains key) = fun key => decide (key ∉ known) :=
    fun known => funext fun key => by simp
  unfold newKeys
  rw [List.map_cons, unknown, unknown, eraseDups_filter_cons fresh]

end FieldOp

namespace FieldTable.Raw

variable {table later : Raw} {className name type : String} {field : FieldTrace} {op : FieldOp} {ops : List FieldOp}
  {position : Nat}

/-- The table after an operation. An update that fails leaves it as it stands by then. -/
def perform (table : Raw) : FieldOp → Raw
  | .resolve className name => (table.resolve className name).2.2
  | .update className name type => (table.update className name type).2

def performAll (table : Raw) (ops : List FieldOp) : Raw := ops.foldl perform table

/-- What operations leave as it was, and what they add. -/
structure Grows (table : Raw) (ops : List FieldOp) (later : Raw) : Prop where
  old : ∀ (position : Nat) (field : FieldTrace), table.fields[position]? = some field →
    ∃ field', later.fields[position]? = some field' ∧ field'.key = field.key ∧ field'.initial = field.initial ∧
      ∀ type, field.type = some type → field'.type = some type
  keys : later.keys = table.keys ++ FieldOp.newKeys table.keys ops
  new : ∀ (position : Nat) (field : FieldTrace), later.fields[position]? = some field →
    table.fields.length ≤ position → field.initial = none

/-- What an update of a type does: it stores the type, or it fails because another type is known, with the table as
it was. Once made it can be made again at any time, and changes nothing. -/
structure UpdatesOnce (table : Raw) (className name type : String) : Prop where
  stores : ∀ next, table.update className name type = (.ok (), next) →
    ∃ field ∈ next.fields, field.key = (className, name) ∧ field.type = some type
  fails : ∀ conflict, (table.update className name type).1 = .error conflict ↔
    ∃ field ∈ table.fields, field.key = (className, name) ∧
      ∃ existing, field.type = some existing ∧ existing ≠ type ∧ conflict = ⟨className, name, existing, type⟩
  unchanged : ∀ conflict next, table.update className name type = (.error conflict, next) → next = table
  repeated : ∀ next, table.update className name type = (.ok (), next) → ∀ ops,
    (next.performAll ops).update className name type = (.ok (), next.performAll ops)

inductive Updates (table : Raw) (className name type : String) : Except FieldConflict Unit × Raw → Prop where
  | entered (fresh : (className, name) ∉ table.keys) :
      Updates table className name type (.ok (), table.put ⟨className, name, some type, none⟩)
  | typed {field : FieldTrace} (member : field ∈ table.fields) (key : field.key = (className, name))
      (untyped : field.type = none) :
      Updates table className name type (.ok (), table.put { field with type := some type })
  | agreed {field : FieldTrace} (member : field ∈ table.fields) (key : field.key = (className, name))
      (known : field.type = some type) : Updates table className name type (.ok (), table)
  | refused {field : FieldTrace} {existing : String} (member : field ∈ table.fields)
      (key : field.key = (className, name)) (known : field.type = some existing) (apart : existing ≠ type) :
      Updates table className name type (.error ⟨className, name, existing, type⟩, table)

namespace Indexed

theorem updates (indexed : table.Indexed) (className name type : String) :
    table.Updates className name type (table.update className name type) := by
  rw [indexed.update_eq]
  by_cases known : (className, name) ∈ table.keys
  · obtain ⟨field, member, key⟩ := List.mem_map.1 known
    obtain ⟨sameClass, sameName⟩ := Prod.mk.inj key
    obtain ⟨position, resolved⟩ := indexed.resolve_known member key
    simp only [resolved, FieldTrace.withType]
    cases typed : field.type with
    | none => exact .typed member key typed
    | some existing =>
      by_cases same : existing = type
      · simp only [if_pos same, indexed.put_same member]
        exact .agreed member key (same ▸ typed)
      · simp only [if_neg same, sameClass, sameName]
        exact .refused member key typed same
  · have fresh : ∀ old ∈ table.fields, old.key ≠ (className, name) :=
      fun old member same => known (same ▸ List.mem_map_of_mem member)
    simp only [indexed.resolve_new fresh, FieldTrace.withType]
    exact .entered known

theorem perform (indexed : table.Indexed) (op : FieldOp) : (table.perform op).Indexed := by
  cases op with
  | resolve className name => exact (indexed.resolve className name).1
  | update className name type => exact indexed.update className name type

theorem performAll (indexed : table.Indexed) (ops : List FieldOp) : (table.performAll ops).Indexed := by
  induction ops generalizing table with
  | nil => exact indexed
  | cons op ops ih => exact ih (indexed.perform op)

theorem resolve_fresh (indexed : table.Indexed) (fresh : ∀ old ∈ table.fields, old.key ≠ (className, name)) :
    (table.resolve className name).2.2 = table.put { className, name } := by
  have unknown : table.find? (className, name) = none := indexed.find?_eq_none.2 fresh
  simp [Raw.put, Raw.resolve, unknown, Raw.write]

/-- An operation enters its field, sets a type that was not known, or changes nothing. -/
theorem perform_cases (indexed : table.Indexed) (op : FieldOp) :
    (op.key ∉ table.keys ∧ ∃ field : FieldTrace, field.key = op.key ∧ field.initial = none ∧
      table.perform op = table.put field) ∨
    (op.key ∈ table.keys ∧ ∃ field ∈ table.fields, field.key = op.key ∧ field.type = none ∧
      ∃ type, table.perform op = table.put { field with type := some type }) ∨
    op.key ∈ table.keys ∧ table.perform op = table := by
  cases op with
  | resolve className name =>
    by_cases known : (className, name) ∈ table.keys
    · obtain ⟨field, member, key⟩ := List.mem_map.1 known
      obtain ⟨position, resolved⟩ := indexed.resolve_known member key
      exact .inr (.inr ⟨known, by rw [Raw.perform, resolved]⟩)
    · refine .inl ⟨known, { className, name }, rfl, rfl, indexed.resolve_fresh fun old member same => known ?_⟩
      exact same ▸ List.mem_map_of_mem member
  | update className name type =>
    have outcome := indexed.updates className name type
    rw [Raw.perform]
    generalize table.update className name type = updated at outcome ⊢
    cases outcome with
    | entered fresh => exact .inl ⟨fresh, ⟨className, name, some type, none⟩, rfl, rfl, rfl⟩
    | typed member key untyped =>
      exact .inr (.inl ⟨List.mem_map.2 ⟨_, member, key⟩, _, member, key, untyped, type, rfl⟩)
    | agreed member key | refused member key => exact .inr (.inr ⟨List.mem_map.2 ⟨_, member, key⟩, rfl⟩)

end Indexed

theorem Grows.refl (table : Raw) : table.Grows [] table where
  old _ field found := ⟨field, found, rfl, rfl, fun _ typed => typed⟩
  keys := by rw [FieldOp.newKeys_nil, List.append_nil]
  new position field found outside := by
    rw [List.getElem?_eq_none outside] at found
    cases found

theorem Grows.cons {next : Raw} (first : table.Grows [op] next) (rest : next.Grows ops later) :
    table.Grows (op :: ops) later where
  old := by
    intro position field found
    obtain ⟨middle, found, sameKey, sameInitial, typed⟩ := first.old position field found
    obtain ⟨last, found, sameKey', sameInitial', typed'⟩ := rest.old position middle found
    exact ⟨last, found, sameKey'.trans sameKey, sameInitial'.trans sameInitial,
      fun type known => typed' type (typed type known)⟩
  keys := by
    rw [rest.keys, first.keys]
    by_cases known : op.key ∈ table.keys
    · simp [FieldOp.newKeys_known known, FieldOp.newKeys_nil]
    · simp [FieldOp.newKeys_fresh known, FieldOp.newKeys_nil]
  new := by
    intro position field found outside
    by_cases inside : position < next.fields.length
    · obtain ⟨middle, there⟩ : ∃ middle, next.fields[position]? = some middle :=
        ⟨_, List.getElem?_eq_getElem inside⟩
      obtain ⟨last, found', -, sameInitial, -⟩ := rest.old position middle there
      rw [found] at found'
      cases found'
      rw [sameInitial, first.new position middle there outside]
    · exact rest.new position field found (Nat.le_of_not_lt inside)

namespace Indexed

theorem grows_fresh (indexed : table.Indexed) (fresh : op.key ∉ table.keys) (key : field.key = op.key)
    (plain : field.initial = none) : table.Grows [op] (table.put field) := by
  have entered : (table.put field).fields = table.fields ++ [field] :=
    indexed.put_fresh fun old member same => fresh (key ▸ same ▸ List.mem_map_of_mem member)
  constructor
  · intro position old found
    refine ⟨old, ?_, rfl, rfl, fun _ typed => typed⟩
    rw [entered, List.getElem?_append_left (List.getElem?_eq_some_iff.1 found).1, found]
  · rw [Raw.keys, entered, List.map_append, FieldOp.newKeys_fresh fresh, FieldOp.newKeys_nil, ← key]
    rfl
  · intro position new found outside
    rw [entered, List.getElem?_append_right outside] at found
    rw [List.mem_singleton.1 (List.mem_of_getElem? found), plain]

/-- Setting a type that was not known touches no other field and nothing else of this one. -/
theorem grows_known (indexed : table.Indexed) (member : field ∈ table.fields) (known : op.key ∈ table.keys)
    (untyped : field.type = none) : table.Grows [op] (table.put { field with type := some type }) := by
  obtain ⟨position, found⟩ := List.mem_iff_getElem?.1 member
  have same : field.key = ({ field with type := some type } : FieldTrace).key := rfl
  have written : (table.put { field with type := some type }).fields =
      table.fields.set position { field with type := some type } :=
    congrArg Raw.fields (indexed.put_known found same)
  have kept : ∀ (other : Nat) (old : FieldTrace), table.fields[other]? = some old →
      ∃ field', (table.put { field with type := some type }).fields[other]? = some field' ∧
        field'.key = old.key ∧ field'.initial = old.initial ∧ ∀ type, old.type = some type → field'.type = some type := by
    intro other old there
    rw [written]
    by_cases here : position = other
    · subst here
      rw [found] at there
      cases there
      refine ⟨_, List.getElem?_set_self (List.getElem?_eq_some_iff.1 found).1, rfl, rfl, fun type typed => ?_⟩
      rw [untyped] at typed
      cases typed
    · exact ⟨old, by rw [List.getElem?_set_ne here, there], rfl, rfl, fun _ typed => typed⟩
  refine ⟨kept, ?_, ?_⟩
  · rw [FieldOp.newKeys_known known, FieldOp.newKeys_nil, List.append_nil]
    refine List.ext_getElem? fun other => ?_
    rw [Raw.keys, Raw.keys, List.getElem?_map, List.getElem?_map]
    cases there : table.fields[other]? with
    | none =>
      have outside := List.getElem?_eq_none_iff.1 there
      rw [written, List.getElem?_eq_none (by rwa [List.length_set])]
    | some old =>
      obtain ⟨field', there', key, -⟩ := kept other old there
      rw [there', Option.map_some, Option.map_some, key]
  · intro other new there outside
    have inside := (List.getElem?_eq_some_iff.1 there).1
    rw [written, List.length_set] at inside
    exact absurd inside (Nat.not_lt_of_le outside)

theorem grows_perform (indexed : table.Indexed) (op : FieldOp) : table.Grows [op] (table.perform op) := by
  rcases indexed.perform_cases op with ⟨fresh, field, key, plain, entered⟩ |
    ⟨known, field, member, -, untyped, type, replaced⟩ | ⟨known, same⟩
  · exact entered ▸ indexed.grows_fresh fresh key plain
  · exact replaced ▸ indexed.grows_known member known untyped
  · rw [same]
    exact ⟨(Grows.refl table).old, by simp [FieldOp.newKeys_known known, FieldOp.newKeys_nil], (Grows.refl table).new⟩

/-- Every run of operations only adds to the table. -/
theorem grows_performAll (indexed : table.Indexed) (ops : List FieldOp) : table.Grows ops (table.performAll ops) := by
  induction ops generalizing table with
  | nil => exact .refl table
  | cons op ops ih => exact (indexed.grows_perform op).cons (ih (indexed.perform op))

theorem mem_put (indexed : table.Indexed) (field : FieldTrace) : field ∈ (table.put field).fields := by
  by_cases known : field.key ∈ table.keys
  · obtain ⟨old, member, same⟩ := List.mem_map.1 known
    obtain ⟨position, found⟩ := List.mem_iff_getElem?.1 member
    rw [indexed.put_known found same]
    exact List.mem_set (List.getElem?_eq_some_iff.1 found).1 _
  · rw [indexed.put_fresh fun old member same => known (same ▸ List.mem_map_of_mem member)]
    simp

theorem stores (indexed : table.Indexed) (updated : table.update className name type = (.ok (), later)) :
    ∃ field ∈ later.fields, field.key = (className, name) ∧ field.type = some type := by
  have outcome := indexed.updates className name type
  rw [updated] at outcome
  cases outcome with
  | entered => exact ⟨_, indexed.mem_put _, rfl, rfl⟩
  | typed member key untyped => exact ⟨_, indexed.mem_put _, key, rfl⟩
  | agreed member key known => exact ⟨_, member, key, known⟩

theorem update_agreed (indexed : table.Indexed) (member : field ∈ table.fields) (key : field.key = (className, name))
    (known : field.type = some type) : table.update className name type = (.ok (), table) := by
  obtain ⟨position, resolved⟩ := indexed.resolve_known member key
  rw [indexed.update_eq, resolved]
  simp only [FieldTrace.withType, known, if_true, indexed.put_same member]

theorem update_eq_error {conflict : FieldConflict} (indexed : table.Indexed) :
    (table.update className name type).1 = .error conflict ↔
      ∃ field ∈ table.fields, field.key = (className, name) ∧
        ∃ existing, field.type = some existing ∧ existing ≠ type ∧ conflict = ⟨className, name, existing, type⟩ := by
  constructor
  · intro failed
    have outcome := indexed.updates className name type
    generalize table.update className name type = updated at outcome failed
    cases outcome with
    | refused member key known apart =>
      cases failed
      exact ⟨_, member, key, _, known, apart, rfl⟩
    | entered | typed | agreed => cases failed
  · rintro ⟨field, member, key, existing, known, apart, rfl⟩
    obtain ⟨sameClass, sameName⟩ := Prod.mk.inj key
    obtain ⟨position, resolved⟩ := indexed.resolve_known member key
    rw [indexed.update_eq, resolved]
    simp only [FieldTrace.withType, known, if_neg apart, sameClass, sameName]

theorem updatesOnce (indexed : table.Indexed) (className name type : String) :
    table.UpdatesOnce className name type where
  stores _ := indexed.stores
  fails _ := indexed.update_eq_error
  unchanged := by
    intro conflict next failed
    have outcome := indexed.updates className name type
    rw [failed] at outcome
    cases outcome
    rfl
  repeated := by
    intro next updated ops
    have indexed' : next.Indexed := by
      have kept := indexed.update className name type
      rwa [updated] at kept
    obtain ⟨field, member, key, typed⟩ := indexed.stores updated
    obtain ⟨position, there⟩ := List.mem_iff_getElem?.1 member
    -- The field is still where it was, and has its type.
    obtain ⟨field', there', key', -, typed'⟩ := (indexed'.grows_performAll ops).old position field there
    exact (indexed'.performAll ops).update_agreed (List.mem_of_getElem? there') (key'.trans key) (typed' type typed)

end Indexed

/-- Whatever is resolved and updated after the declarations of a class, the index leads to every field, and every field
keeps its one place in the table, its name, its initial value and its type, once that is known. -/
theorem operations_keep_fields (definition : ClassDef) (ops : List FieldOp) :
    let table := (declaredBy definition).performAll ops
    table.keys.Nodup ∧ table.Indexed ∧ (∀ more, table.Grows more (table.performAll more)) ∧
      ∀ className name type, table.UpdatesOnce className name type := by
  intro table
  have indexed : table.Indexed := (indexed_declaredBy definition).performAll ops
  exact ⟨indexed.distinct, indexed, indexed.grows_performAll, indexed.updatesOnce⟩

/-- A class that declares one name twice. -/
def redeclaring : ClassDef where
  name := "Tally"
  fields := [{ name := "count", descriptor := "I" }, { name := "count", descriptor := "J", initial := some (.long 3) }]
  source := "Tally.class"

/-- The second declaration has taken the place of the first, and a field of another class is entered behind it. -/
theorem operations_keep_fields_redeclaring :
    let table := (declaredBy redeclaring).performAll [.resolve "Store" "size", .update "Store" "size" "J"]
    table.fields = [⟨"Tally", "count", some "J", some (.long 3)⟩, ⟨"Store", "size", some "J", none⟩] ∧
      table.index.lookup ("Store", "size") = some 1 ∧
      table.update "Tally" "count" "I" = (.error ⟨"Tally", "count", "J", "I"⟩, table) ∧
      ∀ ops, (table.performAll ops).update "Store" "size" "J" = (.ok (), table.performAll ops) := by
  intro table
  have entered : table.fields = [⟨"Tally", "count", some "J", some (.long 3)⟩, ⟨"Store", "size", some "J", none⟩] := by
    decide +kernel
  obtain ⟨-, indexed, -, updates⟩ :=
    operations_keep_fields redeclaring [.resolve "Store" "size", .update "Store" "size" "J"]
  have refused : (table.update "Tally" "count" "I").1 = .error ⟨"Tally", "count", "J", "I"⟩ := by
    refine ((updates _ _ _).fails _).2 ⟨⟨"Tally", "count", some "J", some (.long 3)⟩, ?_, rfl, "J", rfl, by decide, rfl⟩
    rw [entered]
    exact List.mem_cons_self
  refine ⟨entered, (indexed _ 1).2 (by rw [entered]; rfl), ?_, ?_⟩
  · exact Prod.ext refused ((updates _ _ _).unchanged _ _ (Prod.ext refused rfl))
  · exact (updates "Store" "size" "J").repeated table (by decide +kernel)

end FieldTable.Raw
end CallProvenance
