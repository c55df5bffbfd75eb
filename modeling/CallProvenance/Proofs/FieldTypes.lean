import CallProvenance.Proofs.FieldAccesses
import Mathlib.Data.List.Induction
import Mathlib.Data.List.Nodup

/-! Which fields a table knows, in which order and with which types. Once every type is known a table
only grows: an access to a field that it has changes nothing, be it a conflict or not, and an
access to any other field enters it at the end with the type of that access. -/
namespace CallProvenance

def FieldRef.key (ref : FieldRef) : String × String := (ref.owner, ref.name)

def FieldRef.entry (ref : FieldRef) : FieldTrace := ⟨ref.owner, ref.name, some ref.descriptor, none⟩

def Field.entry (declaration : Field) (className : String) : FieldTrace :=
  ⟨className, declaration.name, some declaration.descriptor, declaration.initial⟩

/-- The conflict of an access with the type that the fields give to what it accesses. -/
def FieldRef.disagreement (ref : FieldRef) (fields : List FieldTrace) : Option FieldConflict :=
  match (fields.find? (·.isAt ref.owner ref.name)).bind (·.type) with
  | some known =>
    if known = ref.descriptor then none else some ⟨ref.owner, ref.name, known, ref.descriptor⟩
  | none => none

/-- Of the elements that are new to a list, the first comes first and is new no longer. -/
theorem eraseDups_filter_cons {α : Type} [BEq α] [LawfulBEq α] {known : List α} {a : α} (fresh : a ∉ known)
    (rest : List α) :
    ((a :: rest).filter (· ∉ known)).eraseDups = a :: (rest.filter (· ∉ known ++ [a])).eraseDups := by
  have both : (rest.filter (· ∉ known)).filter (fun b => !b == a) = rest.filter (· ∉ known ++ [a]) := by
    rw [List.filter_filter]
    refine List.filter_congr fun b _ => ?_
    by_cases here : b = a <;> simp [here]
  rw [List.filter_cons_of_pos (by simpa using fresh), List.eraseDups_cons, both]

namespace FieldTable

def Raw.keys (table : Raw) : List (String × String) := table.fields.map (·.key)

/-- One key has one position, so no field occurs twice. -/
theorem Raw.Indexed.distinct {table : Raw} (indexed : table.Indexed) : table.keys.Nodup := by
  refine List.pairwise_iff_getElem.2 fun i j before inside less same => ?_
  have listed : ∀ k (inside : k < table.keys.length), table.index.lookup table.keys[k] = some k := by
    intro k inside
    refine (indexed _ k).2 ?_
    rw [← List.getElem?_map]
    exact List.getElem?_eq_getElem inside
  have once := listed j inside
  rw [← same, listed i before] at once
  exact Nat.ne_of_lt less (Option.some.inj once)

variable {table : FieldTable} {className name type : String} {field : FieldTrace} {ref : FieldRef}

theorem get?_eq_none : table.get? className name = none ↔ (className, name) ∉ table.keys := by
  simp [get?_eq_find?, Raw.keys, FieldTrace.isAt, FieldTrace.key]

theorem fields_put_fresh (fresh : field.key ∉ table.keys) : (table.put field).fields = table.fields ++ [field] := by
  refine table.indexed.put_fresh fun old member same => fresh ?_
  exact same ▸ List.mem_map_of_mem member

theorem fields_put_known (known : field.key ∈ table.keys) : (table.put field).fields =
    table.fields.map fun old => if old.isAt field.className field.name then field else old := by
  obtain ⟨old, member, same⟩ := List.mem_map.1 known
  obtain ⟨position, found⟩ := List.mem_iff_getElem?.1 member
  have written : (table.put field).fields = table.fields.set position field :=
    congrArg Raw.fields (table.indexed.put_known found same)
  rw [written]
  refine List.ext_getElem? fun other => ?_
  rw [List.getElem?_map]
  by_cases here : position = other
  · subst here
    have isAt : old.isAt field.className field.name = true := FieldTrace.isAt_iff.2 same
    rw [List.getElem?_set_self (List.getElem?_eq_some_iff.1 found).1, found, Option.map_some, if_pos isAt]
  · rw [List.getElem?_set_ne here]
    cases there : table.fields[other]? with
    | none => rfl
    | some entry =>
      -- No other position has the key.
      have apart : ¬entry.isAt field.className field.name = true := by
        intro isAt
        have key : entry.key = old.key := (FieldTrace.isAt_iff.1 isAt).trans same.symm
        have twice := (table.indexed old.key other).2 (by rw [there]; exact congrArg some key)
        rw [(table.indexed old.key position).2 (by rw [found]; rfl)] at twice
        exact here (Option.some.inj twice)
      rw [Option.map_some, if_neg apart]

theorem keys_put_fresh (fresh : field.key ∉ table.keys) : (table.put field).keys = table.keys ++ [field.key] := by
  rw [Raw.keys, fields_put_fresh fresh, List.map_append]
  rfl

theorem access_fresh (fresh : (className, name) ∉ table.keys) :
    table.access className name type = .ok (table.put ⟨className, name, some type, none⟩) := by
  rw [access_eq, get?_eq_none.2 fresh]
  rfl

theorem access_same (found : table.get? className name = some field) (known : field.type = some type) :
    table.access className name type = .ok table := by
  rw [access_eq, found, Option.getD_some, FieldTrace.withType, known]
  simp only [if_true, Except.map, put_same (mem_of_get? found)]

/-- All types are known. -/
def Settled (table : FieldTable) : Prop := ∀ field ∈ table.fields, field.type.isSome = true

theorem Settled.put (settled : table.Settled) (typed : field.type.isSome = true) : (table.put field).Settled := by
  intro other member
  by_cases known : field.key ∈ table.keys
  · rw [fields_put_known known] at member
    obtain ⟨old, inside, rfl⟩ := List.mem_map.1 member
    split
    · exact typed
    · exact settled old inside
  · rw [fields_put_fresh known] at member
    rcases List.mem_append.1 member with before | new
    · exact settled other before
    · rw [List.mem_singleton.1 new, typed]

theorem Settled.put_access (settled : table.Settled) (ref : FieldRef) : (table.put ref.entry).Settled :=
  settled.put rfl

theorem get?_put_access (fresh : ref.key ∉ table.keys) :
    (table.put ref.entry).get? ref.owner ref.name = some ref.entry := by
  refine get?_eq_some_iff.2 ⟨?_, rfl⟩
  rw [fields_put_fresh (show ref.entry.key ∉ table.keys from fresh)]
  simp

theorem Settled.get?_known (settled : table.Settled) (known : (className, name) ∈ table.keys) :
    ∃ field existing, table.get? className name = some field ∧ field.type = some existing := by
  cases found : table.get? className name with
  | none => exact absurd known (get?_eq_none.1 found)
  | some field =>
    obtain ⟨existing, typed⟩ := Option.isSome_iff_exists.1 (settled field (mem_of_get? found))
    exact ⟨field, existing, rfl, typed⟩

section Sequences

variable {rest refs : List FieldRef}

theorem accessAll_fresh (fresh : ref.key ∉ table.keys) :
    table.accessAll (ref :: rest) = (table.put ref.entry).accessAll rest := by
  rw [accessAll, access_fresh fresh]
  rfl

theorem accessAll_known (settled : table.Settled) (known : ref.key ∈ table.keys) :
    table.accessAll (ref :: rest) = table.accessAll rest := by
  obtain ⟨field, existing, found, typed⟩ := settled.get?_known known
  rw [accessAll]
  by_cases same : existing = ref.descriptor
  · rw [access_same found (typed.trans (congrArg some same))]
  · rw [access_eq_error.2 ⟨field, existing, found, typed, same, rfl⟩]

theorem accessAll_append (table : FieldTable) (first second : List FieldRef) :
    table.accessAll (first ++ second) = (table.accessAll first).accessAll second := by
  induction first generalizing table with
  | nil => rfl
  | cons ref rest ih =>
    rw [List.cons_append, accessAll, accessAll]
    split
    · exact ih _
    · exact ih _

theorem conflicts_append (table : FieldTable) (first second : List FieldRef) :
    table.conflicts (first ++ second) = table.conflicts first ++ (table.accessAll first).conflicts second := by
  induction first generalizing table with
  | nil => rfl
  | cons ref rest ih =>
    rw [List.cons_append, conflicts, conflicts, accessAll]
    split
    · exact ih _
    · rw [ih, List.cons_append]

theorem Settled.accessAll (settled : table.Settled) (refs : List FieldRef) : (table.accessAll refs).Settled := by
  induction refs generalizing table with
  | nil => exact settled
  | cons ref rest ih =>
    by_cases known : ref.key ∈ table.keys
    · rw [accessAll_known settled known]
      exact ih settled
    · rw [accessAll_fresh known]
      exact ih (settled.put_access ref)

/-- The field of a key as the first of several accesses to it enters it. -/
def firstAccessed (refs : List FieldRef) (key : String × String) : FieldTrace :=
  ⟨key.1, key.2, (refs.find? (·.key = key)).map (·.descriptor), none⟩

theorem firstAccessed_cons_self (ref : FieldRef) (rest : List FieldRef) :
    firstAccessed (ref :: rest) ref.key = ref.entry := by
  simp [firstAccessed, FieldRef.entry, FieldRef.key]

theorem firstAccessed_cons_of_ne {key : String × String} (apart : key ≠ ref.key) :
    firstAccessed (ref :: rest) key = firstAccessed rest key := by
  have skipped : ref.key ≠ key := apart.symm
  simp [firstAccessed, skipped]

/-- The fields that a table learns from accesses: the keys that are new to it, in the order of their
first accesses. -/
def discovered (table : FieldTable) (refs : List FieldRef) : List FieldTrace :=
  ((refs.map (·.key)).filter (· ∉ table.keys)).eraseDups.map (firstAccessed refs)

theorem discovered_known (known : ref.key ∈ table.keys) :
    table.discovered (ref :: rest) = table.discovered rest := by
  have dropped : ((ref :: rest).map (·.key)).filter (· ∉ table.keys) = (rest.map (·.key)).filter (· ∉ table.keys) := by
    rw [List.map_cons, List.filter_cons_of_neg (by simpa using known)]
  unfold discovered
  rw [dropped]
  refine List.map_congr_left fun key member => firstAccessed_cons_of_ne ?_
  rintro rfl
  have unknown := List.of_mem_filter (List.mem_eraseDups.1 member)
  exact absurd known (by simpa using unknown)

theorem discovered_fresh (fresh : ref.key ∉ table.keys) :
    table.discovered (ref :: rest) = ref.entry :: (table.put ref.entry).discovered rest := by
  unfold discovered
  rw [List.map_cons, eraseDups_filter_cons fresh, List.map_cons, firstAccessed_cons_self,
    keys_put_fresh (show ref.entry.key ∉ table.keys from fresh)]
  congr 1
  refine List.map_congr_left fun key member => firstAccessed_cons_of_ne ?_
  rintro rfl
  have unknown := List.of_mem_filter (List.mem_eraseDups.1 member)
  simp at unknown

/-- A settled table keeps its fields and adds those that it learns. -/
theorem accessAll_fields (settled : table.Settled) (refs : List FieldRef) :
    (table.accessAll refs).fields = table.fields ++ table.discovered refs := by
  induction refs generalizing table with
  | nil => simp [accessAll, discovered]
  | cons ref rest ih =>
    by_cases known : ref.key ∈ table.keys
    · rw [accessAll_known settled known, discovered_known known, ih settled]
    · rw [accessAll_fresh known, discovered_fresh known, ih (settled.put_access ref),
        fields_put_fresh (show ref.entry.key ∉ table.keys from known), List.append_assoc, List.singleton_append]

theorem get?_accessAll (settled : table.Settled) (found : table.get? className name = some field)
    (refs : List FieldRef) : (table.accessAll refs).get? className name = some field := by
  rw [get?_eq_find?] at found ⊢
  rw [accessAll_fields settled, List.find?_append, found, Option.some_or]

theorem key_mem_accessAll (settled : table.Settled) (accessed : ref ∈ refs) :
    ref.key ∈ (table.accessAll refs).keys := by
  rw [Raw.keys, accessAll_fields settled, List.map_append, List.mem_append]
  by_cases known : ref.key ∈ table.keys
  · exact .inl known
  · refine .inr (List.mem_map.2 ⟨firstAccessed refs ref.key, ?_, rfl⟩)
    refine List.mem_map_of_mem (List.mem_eraseDups.2 (List.mem_filter.2 ⟨?_, by simpa using known⟩))
    exact List.mem_map_of_mem accessed

end Sequences

section Disagreement

variable {rest refs : List FieldRef} {existing : String}

theorem disagreement_of_get? (found : table.get? ref.owner ref.name = some field) (typed : field.type = some existing) :
    ref.disagreement table.fields =
      if existing = ref.descriptor then none else some ⟨ref.owner, ref.name, existing, ref.descriptor⟩ := by
  rw [get?_eq_find?] at found
  simp [FieldRef.disagreement, found, typed]

/-- The conflicts that accesses meet one by one are their disagreements with the table at the end, and with
every table that goes on from there. -/
theorem conflicts_eq_disagreements (settled : table.Settled) (refs more : List FieldRef) :
    table.conflicts refs = refs.filterMap (·.disagreement ((table.accessAll refs).accessAll more).fields) := by
  induction refs generalizing table with
  | nil => rfl
  | cons ref rest ih =>
    by_cases known : ref.key ∈ table.keys
    · obtain ⟨field, existing, found, typed⟩ := settled.get?_known known
      have later := get?_accessAll (settled.accessAll rest) (get?_accessAll settled found rest) more
      rw [accessAll_known settled known, conflicts, List.filterMap_cons, disagreement_of_get? later typed]
      by_cases same : existing = ref.descriptor
      · rw [access_same found (typed.trans (congrArg some same)), if_pos same]
        exact ih settled
      · rw [access_eq_error.2 ⟨field, existing, found, typed, same, rfl⟩, if_neg same]
        exact congrArg _ (ih settled)
    · have settled' := settled.put_access ref
      have found := get?_accessAll settled' (get?_put_access known) rest
      have later := get?_accessAll (settled'.accessAll rest) found more
      rw [accessAll_fresh known, conflicts, access_fresh known, List.filterMap_cons,
        disagreement_of_get? later rfl, if_pos rfl]
      exact ih settled'

end Disagreement

section Declarations

variable {declaration : Field} {declarations : List Field}

/-- The field of a name as the last of its declarations gives it. -/
def lastDeclared (className : String) (declarations : List Field) (name : String) : FieldTrace :=
  let last := declarations.reverse.find? (·.name = name)
  ⟨className, name, last.map (·.descriptor), last.bind (·.initial)⟩

/-- The declared fields: one for each name, in the order in which the names come first. -/
def declared (className : String) (declarations : List Field) : List FieldTrace :=
  (declarations.map (·.name)).eraseDups.map (lastDeclared className declarations)

theorem lastDeclared_concat_self (className : String) (declarations : List Field) (declaration : Field) :
    lastDeclared className (declarations ++ [declaration]) declaration.name = declaration.entry className := by
  simp [lastDeclared, Field.entry]

theorem lastDeclared_concat_of_ne (apart : name ≠ declaration.name) :
    lastDeclared className (declarations ++ [declaration]) name = lastDeclared className declarations name := by
  have skipped : declaration.name ≠ name := apart.symm
  simp [lastDeclared, skipped]

theorem key_mem_declared :
    (className, name) ∈ (declared className declarations).map (·.key) ↔ name ∈ declarations.map (·.name) := by
  simp [declared, lastDeclared, FieldTrace.key]

/-- A name that is declared for the first time enters its field at the end. -/
theorem declared_concat_fresh (fresh : declaration.name ∉ declarations.map (·.name)) :
    declared className (declarations ++ [declaration]) =
      declared className declarations ++ [declaration.entry className] := by
  have last : ([declaration.name].removeAll (declarations.map (·.name))).eraseDups = [declaration.name] := by
    rw [List.removeAll, List.filter_cons_of_pos (by simpa using fresh), List.filter_nil, List.eraseDups_cons]
    simp
  unfold declared
  rw [List.map_append, List.map_singleton, List.eraseDups_append, last, List.map_append, List.map_singleton,
    lastDeclared_concat_self]
  congr 1
  refine List.map_congr_left fun name member => lastDeclared_concat_of_ne ?_
  rintro rfl
  exact fresh (List.mem_eraseDups.1 member)

/-- A name that is declared again gives its field a new type and initial value in the old place. -/
theorem declared_concat_again (again : declaration.name ∈ declarations.map (·.name)) :
    declared className (declarations ++ [declaration]) =
      (declared className declarations).map fun old =>
        if old.isAt className declaration.name then declaration.entry className else old := by
  have none : [declaration.name].removeAll (declarations.map (·.name)) = [] := by
    simpa [List.removeAll] using again
  unfold declared
  rw [List.map_append, List.map_singleton, List.eraseDups_append, none, List.eraseDups_nil, List.append_nil,
    List.map_map]
  refine List.map_congr_left fun name _ => ?_
  by_cases same : name = declaration.name
  · subst same
    have here : (lastDeclared className declarations declaration.name).isAt className declaration.name = true :=
      FieldTrace.isAt_iff.2 rfl
    simp [lastDeclared_concat_self, here]
  · have apart : (lastDeclared className declarations name).isAt className declaration.name = false := by
      simp [FieldTrace.isAt, lastDeclared, same]
    simp [lastDeclared_concat_of_ne same, apart]

/-- A declaration puts its field, old or new. -/
theorem Raw.Indexed.declare_eq {table : Raw} (indexed : table.Indexed) (className : String) (declaration : Field) :
    Raw.declare className table declaration = table.put (declaration.entry className) := by
  have key : (table.resolve className declaration.name).2.1.key = (className, declaration.name) :=
    (indexed.resolve className declaration.name).2.2
  obtain ⟨sameClass, sameName⟩ := Prod.mk.inj key
  simp only [Raw.declare, Raw.put, Field.entry, sameClass, sameName]

/-- The table of a class puts its declarations one after the other. -/
theorem declaredBy_eq (definition : ClassDef) : declaredBy definition =
    definition.fields.foldl (fun table declaration => table.put (declaration.entry definition.name)) .empty := by
  have folds : ∀ (declarations : List Field) (table : FieldTable),
      declarations.foldl (Raw.declare definition.name) table.toRaw =
        (declarations.foldl (fun table declaration => table.put (declaration.entry definition.name)) table).toRaw := by
    intro declarations
    induction declarations with
    | nil => exact fun _ => rfl
    | cons declaration rest ih =>
      intro table
      rw [List.foldl_cons, List.foldl_cons, table.indexed.declare_eq]
      exact ih (table.put (declaration.entry definition.name))
  exact ext_raw (folds definition.fields .empty)

theorem declaredBy_settled (definition : ClassDef) : (declaredBy definition).Settled := by
  have empty : FieldTable.empty.Settled := fun _ member => by cases member
  rw [declaredBy_eq]
  generalize FieldTable.empty = table at empty
  induction definition.fields generalizing table with
  | nil => exact empty
  | cons declaration rest ih => exact ih _ (empty.put rfl)

theorem declaredBy_fields (definition : ClassDef) :
    (declaredBy definition).fields = declared definition.name definition.fields := by
  rw [declaredBy_eq]
  -- Declarations are entered from the left, so the induction adds the last one.
  induction definition.fields using List.reverseRecOn with
  | nil => rfl
  | append_singleton declarations declaration ih =>
    rw [List.foldl_append, List.foldl_cons, List.foldl_nil]
    generalize declarations.foldl _ FieldTable.empty = table at ih ⊢
    have keys : (declaration.entry definition.name).key ∈ table.keys ↔
        declaration.name ∈ declarations.map (·.name) := by
      rw [Raw.keys, ih]
      exact key_mem_declared
    by_cases again : declaration.name ∈ declarations.map (·.name)
    · rw [fields_put_known (keys.2 again), declared_concat_again again, ← ih]
      rfl
    · rw [fields_put_fresh fun known => again (keys.1 known), declared_concat_fresh again, ← ih]

end Declarations
end FieldTable
end CallProvenance
