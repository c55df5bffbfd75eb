import CallProvenance.Scan
import CallProvenance.Proofs.CodeOffsets
import Mathlib.Data.List.Forall2

/-! What a scan finds, file by file. A scan comes across the files of its inputs in an order that depends on
their paths alone. Each of them contributes its own classes and problems, whatever the others hold and whether or
not they can be read, and the result is what they contribute, one after the other. Only a directory that cannot
be listed keeps the scan from what is in it. -/
namespace CallProvenance

namespace FileTree

theorem sizeOf_entry {entries : List (String × FileTree)} {fault : Option ListingFault} {entry : String × FileTree}
    (member : entry ∈ entries) : sizeOf entry.2 < sizeOf (directory entries fault) := by
  have smaller := List.sizeOf_lt_of_mem member
  cases entry
  simp only [Prod.mk.sizeOf_spec, directory.sizeOf_spec] at *
  omega

@[elab_as_elim]
theorem induction {motive : FileTree → Prop} (file : ∀ content, motive (.file content))
    (directory : ∀ entries fault, (∀ entry ∈ entries, motive entry.2) → motive (.directory entries fault))
    (lost : ∀ fault, motive (.lost fault)) : ∀ tree, motive tree
  | .file content => file content
  | .directory entries fault => directory entries fault fun entry _ => induction file directory lost entry.2
  | .lost fault => lost fault
  termination_by tree => sizeOf tree
  decreasing_by exact sizeOf_entry ‹_›

/-- New content for files, given the paths that lead to them. It may also take away what can be read, or restore
what cannot. -/
abbrev Change := String → Except PathFault Bytes → Except PathFault Bytes

def edit (change : Change) (path : String) : FileTree → FileTree
  | .file content => .file (change path content)
  | .directory entries fault => .directory (entries.attach.map fun entry =>
      (entry.1.1, edit change (Path.child path entry.1.1) entry.1.2)) fault
  | .lost fault =>
    match change path (.error fault) with
    | .ok bytes => .file (.ok bytes)
    | .error fault => .lost fault
  termination_by tree => sizeOf tree
  decreasing_by exact sizeOf_entry entry.2

theorem edit_directory (change : Change) (path : String)
    (entries : List (String × FileTree)) (fault : Option ListingFault) :
    (directory entries fault).edit change path =
      .directory (entries.map fun entry => (entry.1, entry.2.edit change (Path.child path entry.1))) fault := by
  rw [edit]
  conv_rhs => rw [← List.attach_map_subtype_val entries, List.map_map]
  rfl

end FileTree

/-- Entries of one directory compare as their paths do. -/
theorem Path.child_le_child (path a b : String) : child path a ≤ child path b ↔ a ≤ b := by
  obtain ⟨front, same⟩ : ∃ front, ∀ name, child path name = front ++ name := by
    by_cases closed : path.endsWith "/"
    · exact ⟨path, fun name => if_pos closed⟩
    · exact ⟨path ++ "/", fun name => if_neg closed⟩
  have mono : ∀ a b : String, a < b → front ++ a < front ++ b := by
    intro a b less
    rw [String.lt_iff, String.toList_append, String.toList_append]
    exact List.append_left_lt less
  rw [same, same]
  constructor
  · intro below less
    exact below (mono b a less)
  · intro below
    rcases String.le_total (front ++ a) (front ++ b) with done | back
    · exact done
    · have equal : a = b := by
        refine String.le_antisymm below ?_
        intro less
        exact back (mono a b less)
      subst equal
      exact String.le_refl _

theorem pairwise_mergeSort_key {α : Type} (key : α → String) (xs : List α) :
    (xs.mergeSort fun a b => key a ≤ key b).Pairwise fun a b => key a ≤ key b := by
  refine (List.pairwise_mergeSort (fun a b c => ?_) (fun a b => ?_) xs).imp fun {a b} => of_decide_eq_true
  · simpa only [decide_eq_true_eq] using String.le_trans
  · simpa only [Bool.or_eq_true, decide_eq_true_eq] using String.le_total (key a) (key b)

namespace Scan

theorem concat_eq (scans : List Scan) :
    concat scans = ⟨scans.flatMap (·.classes), ⟨scans.flatMap (·.problems.found)⟩⟩ := by
  have fold : ∀ (scans : List Scan) (found : Scan), scans.foldl append found =
      ⟨found.classes ++ scans.flatMap (·.classes), ⟨found.problems.found ++ scans.flatMap (·.problems.found)⟩⟩ := by
    intro scans
    induction scans with
    | nil => simp
    | cons scan scans ih => simp [ih, append, Problems.append]
  exact fold scans {}

theorem concat_flatMap {α : Type} (xs : List α) (f : α → List Scan) :
    concat (xs.map fun x => concat (f x)) = concat (xs.flatMap f) := by
  simp only [concat_eq, List.flatMap_map, List.flatMap_assoc]

/-- What a scan comes across: a file, whether or not it can be read, an entry whose path is too long to be followed,
or a directory that cannot be listed. -/
inductive Visit where
  | file (named : Bool) (path : String) (content : Except PathFault Bytes)
  | overlong (path : String)
  | directory (path : String) (fault : ListingFault)

namespace Visit

def path : Visit → String
  | file _ path _ | overlong path | directory path _ => path

/-- What reading the file gives. -/
def content? : Visit → Option (Except PathFault Bytes)
  | file _ _ content => some content
  | overlong _ | directory _ _ => none

def scan : Visit → Scan
  | file named path content => ofFile named path content
  | overlong path => ofFile false path (.error .nameTooLong)
  | directory path fault => ofProblem .file path (fault.message path)

def edit (change : FileTree.Change) : Visit → Visit
  | file named path content => file named path (change path content)
  | visit => visit

/-- Only content that changes makes a difference. -/
theorem edit_eq_self {change : FileTree.Change} {visit : Visit}
    (same : ∀ content, visit.content? = some content → change visit.path content = content) :
    visit.edit change = visit := by
  cases visit with
  | file named path content => exact congrArg (file named path) (same content rfl)
  | overlong path | directory path fault => rfl

end Visit

def inOrder (path : String) (entries : List (String × FileTree)) : List (String × FileTree) :=
  entries.mergeSort fun a b => Path.child path a.1 ≤ Path.child path b.1

/-- The files of a tree, from the first entry of a directory to the last. -/
def visits (named : Bool) (path : String) : FileTree → List Visit
  | .file content => [.file named path content]
  | .lost fault => [.file named path (.error fault)]
  | .directory _ (some fault) => [.directory path fault]
  | .directory entries none => (inOrder path entries).attach.flatMap fun entry =>
      let inner := Path.child path entry.1.1
      if FileTree.pathLimit < inner.utf8ByteSize then [.overlong inner] else visits false inner entry.1.2
  termination_by tree => sizeOf tree
  decreasing_by exact FileTree.sizeOf_entry (List.mem_mergeSort.1 entry.2)

/-- The files that an entry of a directory leads to. -/
def arrivals (path : String) (entry : String × FileTree) : List Visit :=
  let inner := Path.child path entry.1
  if FileTree.pathLimit < inner.utf8ByteSize then [.overlong inner] else visits false inner entry.2

/-- The files of all inputs in the given order. -/
def visited (find? : String → Option FileTree) (paths : List String) : List Visit :=
  paths.flatMap fun path => ((find? path).map (visits true path)).getD []

theorem inOrder_sorted (path : String) (entries : List (String × FileTree)) :
    (inOrder path entries).Perm entries ∧
      (inOrder path entries).Pairwise fun a b => Path.child path a.1 ≤ Path.child path b.1 :=
  ⟨List.mergeSort_perm _ _, pairwise_mergeSort_key _ entries⟩

theorem visits_file (named : Bool) (path : String) (content : Except PathFault Bytes) :
    visits named path (.file content) = [.file named path content] := by
  rw [visits]

theorem visits_lost (named : Bool) (path : String) (fault : PathFault) :
    visits named path (.lost fault) = [.file named path (.error fault)] := by
  rw [visits]

theorem visits_unlisted (named : Bool) (path : String) (entries : List (String × FileTree)) (fault : ListingFault) :
    visits named path (.directory entries (some fault)) = [.directory path fault] := by
  rw [visits]

theorem visits_directory (named : Bool) (path : String) (entries : List (String × FileTree)) :
    visits named path (.directory entries none) = (inOrder path entries).flatMap (arrivals path) := by
  rw [visits]
  conv_rhs => rw [← List.attach_map_subtype_val (inOrder path entries), List.flatMap_map]
  rfl

def ofChild (path : String) (entry : String × FileTree) : Scan :=
  let inner := Path.child path entry.1
  if FileTree.pathLimit < inner.utf8ByteSize then ofFile false inner (.error .nameTooLong)
  else ofTree false inner entry.2

theorem ofEntries_eq (path : String) (entries : List (String × FileTree)) :
    ofEntries path entries = entries.map fun entry => (entry.1, ofChild path entry) := by
  induction entries with
  | nil => rw [ofEntries, List.map_nil]
  | cons entry entries ih => rw [ofEntries, ih, List.map_cons, ofChild]

theorem ofTree_directory (named : Bool) (path : String) (entries : List (String × FileTree)) :
    ofTree named path (.directory entries none) = concat ((inOrder path entries).map (ofChild path)) := by
  have sorted : (entries.map fun entry => (entry.1, ofChild path entry)).mergeSort (fun a b => a.1 ≤ b.1) =
      (inOrder path entries).map fun entry => (entry.1, ofChild path entry) := by
    refine (List.map_mergeSort fun a _ b _ => ?_).symm
    simp only [Path.child_le_child]
  rw [ofTree, ofEntries_eq, sorted, List.map_map]
  rfl

theorem concat_singleton (scan : Scan) : concat [scan] = scan := by
  simp [concat_eq]

theorem ofTree_eq (named : Bool) (path : String) (tree : FileTree) :
    ofTree named path tree = concat ((visits named path tree).map Visit.scan) := by
  induction tree using FileTree.induction generalizing named path with
  | file content =>
    rw [ofTree, visits_file]
    exact (concat_singleton _).symm
  | lost fault =>
    rw [ofTree, visits_lost]
    exact (concat_singleton _).symm
  | directory entries fault ih =>
    cases fault with
    | some fault =>
      rw [ofTree, visits_unlisted]
      exact (concat_singleton _).symm
    | none =>
      have each : ∀ entry ∈ inOrder path entries,
          ofChild path entry = concat ((arrivals path entry).map Visit.scan) := by
        intro entry member
        simp only [ofChild, arrivals]
        split
        · exact (concat_singleton _).symm
        · exact ih entry (List.mem_mergeSort.1 member) false _
      rw [ofTree_directory, visits_directory, List.map_flatMap, ← concat_flatMap, List.map_congr_left each]

/-- Rewriting files moves none of them. -/
theorem visits_edit (change : FileTree.Change) (named : Bool) (path : String) (tree : FileTree) :
    visits named path (tree.edit change path) = (visits named path tree).map (Visit.edit change) := by
  induction tree using FileTree.induction generalizing named path with
  | file content =>
    rw [FileTree.edit, visits_file, visits_file]
    rfl
  | lost fault =>
    rw [FileTree.edit, visits_lost, List.map_singleton, Visit.edit]
    cases change path (.error fault) with
    | ok bytes => exact visits_file named path (.ok bytes)
    | error fault => exact visits_lost named path fault
  | directory entries fault ih =>
    rw [FileTree.edit_directory]
    cases fault with
    | some fault =>
      rw [visits_unlisted, visits_unlisted]
      rfl
    | none =>
      let edited (entry : String × FileTree) := (entry.1, entry.2.edit change (Path.child path entry.1))
      have sorted : inOrder path (entries.map edited) = (inOrder path entries).map edited := by
        refine (List.map_mergeSort fun a _ b _ => ?_).symm
        rfl
      have each : ∀ entry ∈ inOrder path entries,
          arrivals path (edited entry) = (arrivals path entry).map (Visit.edit change) := by
        intro entry member
        simp only [arrivals, edited]
        split
        · rfl
        · exact ih entry (List.mem_mergeSort.1 member) false _
      rw [visits_directory, visits_directory, sorted, List.flatMap_map, List.map_flatMap]
      exact List.flatMap_congr each

section Inputs

variable {find? : String → Option FileTree} {paths : List String} {path : String}

def located (find? : String → Option FileTree) (path : String) : Except String (String × FileTree) :=
  match find? path with
  | some tree => .ok (path, tree)
  | none => .error path

theorem located_present (present : ∀ path ∈ paths, (find? path).isSome) :
    ∃ found, paths.mapM (located find?) = .ok found ∧
      found.flatMap (fun input => visits true input.1 input.2) = visited find? paths := by
  induction paths with
  | nil => exact ⟨[], rfl, rfl⟩
  | cons path paths ih =>
    obtain ⟨found, rest, reached⟩ := ih fun other member => present other (List.mem_cons_of_mem _ member)
    obtain ⟨tree, here⟩ := Option.isSome_iff_exists.1 (present path List.mem_cons_self)
    refine ⟨(path, tree) :: found, ?_, ?_⟩
    · rw [List.mapM_cons, located, here, rest]
      rfl
    · rw [List.flatMap_cons, reached]
      simp [visited, here]

theorem inputs_eq_ok (present : ∀ path ∈ paths, (find? path).isSome) :
    inputs find? paths = .ok (concat ((visited find? paths).map Visit.scan)) := by
  obtain ⟨found, reached, same⟩ := located_present present
  change (paths.mapM (located find?) >>= _) = _
  rw [reached, ok_bind, ← same, List.map_flatMap, ← concat_flatMap]
  simp only [ofTree_eq]
  rfl

theorem inputs_eq_error {before after : List String} (present : ∀ path ∈ before, (find? path).isSome)
    (missing : find? path = none) : inputs find? (before ++ path :: after) = .error path := by
  obtain ⟨found, reached, -⟩ := located_present present
  change ((before ++ path :: after).mapM (located find?) >>= _) = _
  rw [List.mapM_append, reached, ok_bind, List.mapM_cons, located, missing]
  rfl

theorem visited_edit (change : FileTree.Change) (find? : String → Option FileTree) (paths : List String) :
    visited (fun path => (find? path).map (·.edit change path)) paths =
      (visited find? paths).map (Visit.edit change) := by
  rw [visited, visited, List.map_flatMap]
  refine List.flatMap_congr fun path _ => ?_
  cases find? path with
  | none => rfl
  | some tree => exact visits_edit change true path tree

end Inputs

/-- A name under which a class is expected, with its bytes or the reason why there are none. -/
structure Item where
  source : String
  content : Except String Bytes

namespace Item

def scan (item : Item) : Scan :=
  match item.content with
  | .ok bytes => ofClass item.source bytes
  | .error message => ofProblem .file item.source message

/-- One class if the bytes are there and can be decoded, one problem otherwise; either names the item. -/
inductive Yields (item : Item) : Scan → Prop where
  | loaded {bytes : Bytes} {definition : ClassDef} (read : item.content = .ok bytes)
      (decoded : ClassDef.decode bytes item.source = .ok definition) (named : definition.source = item.source) :
      Yields item { classes := [definition] }
  | failed {problem : Problem}
      (failed : ∀ bytes, item.content = .ok bytes → ∃ cause, ClassDef.decode bytes item.source = .error cause)
      (named : problem.source = item.source) : Yields item { problems := ⟨[problem]⟩ }

end Item

theorem Item.yields_scan (item : Item) : item.Yields item.scan := by
  obtain ⟨source, content⟩ := item
  cases content with
  | error message => exact .failed (fun bytes read => by cases read) rfl
  | ok bytes =>
    cases decoded : ClassDef.decode bytes source with
    | ok definition =>
      obtain ⟨-, -, named, -⟩ := ClassDef.decode_eq_ok decoded
      simp only [scan, ofClass, decoded]
      exact .loaded rfl decoded named
    | error cause =>
      simp only [scan, ofClass, decoded]
      refine .failed (fun other read => ?_) rfl
      cases read
      exact ⟨cause, decoded⟩

/-- The items of a file. A class file is one, and an archive that opens has one for each class in it, after the
entries that do not open. A directory that cannot be listed is one as a whole. -/
inductive Lists : Visit → List Item → Prop where
  | overlong {path : String} {items : List Item} (closed : Lists (.file false path (.error .nameTooLong)) items) :
      Lists (.overlong path) items
  | unlisted {path : String} {fault : ListingFault} :
      Lists (.directory path fault) [⟨path, .error (fault.message path)⟩]
  | classFile {named : Bool} {path : String} {content : Except PathFault Bytes} {item : Item}
      (kind : Path.extension path = "class") (source : item.source = path)
      (same : item.content.toOption = content.toOption) : Lists (.file named path content) [item]
  | closed {named : Bool} {path : String} {content : Except PathFault Bytes} {item : Item}
      (kind : Path.extension path = "jar")
      (closed : ∀ bytes, content = .ok bytes → ∃ cause, Archive.read bytes = .error cause)
      (source : item.source = path) (empty : item.content.toOption = none) : Lists (.file named path content) [item]
  | opened {named : Bool} {path : String} {bytes : Bytes} {archive : Archive} {refusals members : List Item}
      {names : List String} (kind : Path.extension path = "jar") (opened : Archive.read bytes = .ok archive)
      (refused : List.Forall₂ (fun _ item => item.source = path ∧ item.content.toOption = none)
        (archive.entries.filter fun entry => !(archive.openEntry entry).isOk) refusals)
      (listed : names.Perm ((archive.entries.filter fun entry => (archive.openEntry entry).isOk &&
        (!entry.isDirectory && entry.name.endsWith ".class" && !entry.name.endsWith "module-info.class" &&
          !entry.name.startsWith "META-INF/versions/")).map (·.name)))
      (sorted : names.Pairwise (· ≤ ·))
      (each : List.Forall₂ (fun name item => item.source = s!"{path}!{name}" ∧
        item.content.toOption = (archive.contentOf name).toOption) names members) :
      Lists (.file named path (.ok bytes)) (refusals ++ members)
  | unsupported {path : String} {content : Except PathFault Bytes} {item : Item}
      (notClass : Path.extension path ≠ "class") (notJar : Path.extension path ≠ "jar")
      (source : item.source = path) (empty : item.content.toOption = none) : Lists (.file true path content) [item]
  | skipped {path : String} {content : Except PathFault Bytes} (notClass : Path.extension path ≠ "class")
      (notJar : Path.extension path ≠ "jar") : Lists (.file false path content) []

/-- The items that a scan is made of. -/
def Itemized (visit : Visit) (scan : Scan) : Prop :=
  ∃ items, Lists visit items ∧ scan = concat (items.map Item.scan)

theorem unopened_items (path : String) (archive : Archive) : ∃ refusals : List Item,
    List.Forall₂ (fun _ item => item.source = path ∧ item.content.toOption = none)
      (archive.entries.filter fun entry => !(archive.openEntry entry).isOk) refusals ∧
    unopened path archive = refusals.map Item.scan := by
  rw [unopened]
  generalize archive.entries = entries
  generalize 0 = start
  induction entries generalizing start with
  | nil => exact ⟨[], .nil, rfl⟩
  | cons entry entries ih =>
    obtain ⟨refusals, refused, same⟩ := ih (start + 1)
    rw [List.zipIdx_cons, List.filterMap_cons, List.filter_cons]
    cases opened : archive.openEntry entry with
    | ok packed => exact ⟨refusals, refused, by simp only [opened, same]⟩
    | error cause =>
      let item : Item := ⟨path, .error s!"failed to read entry {start} of {path}: {cause.message}"⟩
      refine ⟨item :: refusals, .cons ⟨rfl, rfl⟩ refused, ?_⟩
      simp only [opened, same]
      rfl

theorem exists_member (path : String) (archive : Archive) (name : String) : ∃ item : Item,
    (item.source = s!"{path}!{name}" ∧ item.content.toOption = (archive.contentOf name).toOption) ∧
    ofEntry path archive name = item.scan := by
  rw [ofEntry]
  cases archive.contentOf name with
  | ok bytes => exact ⟨⟨_, .ok bytes⟩, ⟨rfl, rfl⟩, rfl⟩
  | error cause => exact ⟨⟨_, .error _⟩, ⟨rfl, rfl⟩, rfl⟩

theorem member_items (path : String) (archive : Archive) (names : List String) : ∃ members : List Item,
    List.Forall₂ (fun name item => item.source = s!"{path}!{name}" ∧
      item.content.toOption = (archive.contentOf name).toOption) names members ∧
    names.map (ofEntry path archive) = members.map Item.scan := by
  induction names with
  | nil => exact ⟨[], .nil, rfl⟩
  | cons name names ih =>
    obtain ⟨members, each, same⟩ := ih
    obtain ⟨item, member, scanned⟩ := exists_member path archive name
    exact ⟨item :: members, .cons member each, by rw [List.map_cons, List.map_cons, same, scanned]⟩

theorem itemized_archive {named : Bool} {path : String} {bytes : Bytes} (kind : Path.extension path = "jar") :
    Itemized (.file named path (.ok bytes)) (ofArchive path bytes) := by
  rw [ofArchive]
  cases opened : Archive.read bytes with
  | error cause =>
    refine ⟨[⟨path, .error _⟩], .closed kind (fun other read => ?_) rfl rfl, (concat_singleton _).symm⟩
    cases read
    exact ⟨cause, opened⟩
  | ok archive =>
    obtain ⟨refusals, refused, same⟩ := unopened_items path archive
    obtain ⟨members, each, same'⟩ := member_items path archive (classNames archive)
    refine ⟨refusals ++ members, .opened kind opened refused (List.mergeSort_perm _ _)
      (pairwise_mergeSort_key id _) each, ?_⟩
    simp only [same, same', List.map_append]

theorem itemized_file (named : Bool) (path : String) (content : Except PathFault Bytes) :
    Itemized (.file named path content) (ofFile named path content) := by
  unfold ofFile
  split
  · rename_i kind
    cases content with
    | ok bytes => exact ⟨[⟨path, .ok bytes⟩], .classFile kind rfl rfl, (concat_singleton _).symm⟩
    | error fault => exact ⟨[⟨path, .error _⟩], .classFile kind rfl rfl, (concat_singleton _).symm⟩
  · rename_i kind
    cases content with
    | ok bytes => exact itemized_archive kind
    | error fault =>
      exact ⟨[⟨path, .error _⟩], .closed kind (fun bytes read => by cases read) rfl rfl, (concat_singleton _).symm⟩
  · rename_i notClass notJar
    cases named with
    | true => exact ⟨[⟨path, .error _⟩], .unsupported notClass notJar rfl rfl, (concat_singleton _).symm⟩
    | false => exact ⟨[], .skipped notClass notJar, rfl⟩

theorem Visit.itemized (visit : Visit) : Itemized visit visit.scan := by
  cases visit with
  | file named path content => exact itemized_file named path content
  | overlong path =>
    obtain ⟨items, listed, same⟩ := itemized_file false path (.error .nameTooLong)
    exact ⟨items, .overlong listed, same⟩
  | directory path fault => exact ⟨_, .unlisted, (concat_singleton _).symm⟩

/-- A scan of existing inputs is what their files contribute, one after the other in the order of the inputs and
of the paths. A file contributes one class or one problem for each of its items, and content that changes in
some files changes nothing of what the others contribute. A missing input is named instead. -/
theorem scan_accounts_for_items (find? : String → Option FileTree) (paths : List String) :
    ((∀ path ∈ paths, (find? path).isSome) →
      inputs find? paths =
        .ok ⟨(visited find? paths).flatMap (·.scan.classes), ⟨(visited find? paths).flatMap (·.scan.problems.found)⟩⟩ ∧
      ∀ change : FileTree.Change,
        (inputs (fun path => (find? path).map (·.edit change path)) paths =
          .ok ⟨(visited find? paths).flatMap fun visit => (visit.edit change).scan.classes,
            ⟨(visited find? paths).flatMap fun visit => (visit.edit change).scan.problems.found⟩⟩) ∧
        ∀ visit : Visit, (∀ content, visit.content? = some content → change visit.path content = content) →
          (visit.edit change).scan = visit.scan) ∧
    (∀ before path after, paths = before ++ path :: after → (∀ earlier ∈ before, (find? earlier).isSome) →
      find? path = none → inputs find? paths = .error path) ∧
    (∀ named path content, visits named path (.file content) = [.file named path content]) ∧
    (∀ named path fault, visits named path (.lost fault) = [.file named path (.error fault)]) ∧
    (∀ named path entries fault, visits named path (.directory entries (some fault)) = [.directory path fault]) ∧
    (∀ named path entries, ∃ sorted : List (String × FileTree), sorted.Perm entries ∧
      sorted.Pairwise (fun a b => Path.child path a.1 ≤ Path.child path b.1) ∧
      visits named path (.directory entries none) = sorted.flatMap (arrivals path)) ∧
    (∀ visit : Visit, ∃ items, Lists visit items ∧
      visit.scan = ⟨items.flatMap (·.scan.classes), ⟨items.flatMap (·.scan.problems.found)⟩⟩) ∧
    ∀ item : Item, item.Yields item.scan := by
  refine ⟨fun present => ⟨?_, fun change => ⟨?_, fun visit same => ?_⟩⟩, ?_, visits_file, visits_lost, visits_unlisted,
    fun named path entries => ?_, fun visit => ?_, Item.yields_scan⟩
  · rw [inputs_eq_ok present, concat_eq, List.flatMap_map, List.flatMap_map]
  · have present' : ∀ path ∈ paths, ((find? path).map (·.edit change path)).isSome := by
      simpa only [Option.isSome_map] using present
    rw [inputs_eq_ok present', visited_edit, concat_eq]
    simp only [List.flatMap_map]
  · rw [Visit.edit_eq_self same]
  · rintro before path after rfl present missing
    exact inputs_eq_error present missing
  · exact ⟨inOrder path entries, (inOrder_sorted path entries).1, (inOrder_sorted path entries).2,
      visits_directory named path entries⟩
  · obtain ⟨items, listed, same⟩ := visit.itemized
    refine ⟨items, listed, ?_⟩
    rw [same, concat_eq, List.flatMap_map, List.flatMap_map]

/-- A class without members, named by one letter. -/
def bareClass (letter : UInt8) : Bytes :=
  #[0xca, 0xfe, 0xba, 0xbe, 0, 0, 0, 52, 0, 3, 7, 0, 2, 1, 0, 1, letter, 0, 33, 0, 1, 0, 0, 0, 0, 0, 0, 0, 0, 0, 0]

/-- An archive with one entry, `B.class`, that is stored as it is. -/
def bareArchive : Bytes :=
  let name : Bytes := #[66, 46, 99, 108, 97, 115, 115]
  let sizes : Bytes := #[0xb1, 0x6b, 0xb6, 0x71, 31, 0, 0, 0, 31, 0, 0, 0, 7, 0, 0, 0]
  #[0x50, 0x4b, 3, 4, 10, 0, 0, 0, 0, 0, 0, 0, 0, 0] ++ sizes ++ name ++ bareClass 66 ++
    #[0x50, 0x4b, 1, 2, 20, 0, 10, 0, 0, 0, 0, 0, 0, 0, 0, 0] ++ sizes ++
    #[0, 0, 0, 0, 0, 0, 0, 0, 0, 0, 0, 0, 0, 0] ++ name ++
    #[0x50, 0x4b, 5, 6, 0, 0, 0, 0, 1, 0, 1, 0, 53, 0, 0, 0, 68, 0, 0, 0, 0, 0]

/-- A directory with something of each kind, listed in no particular order. -/
def library : List (String × FileTree) := [
  ("c.jar", .file (.ok #[])),
  ("a.class", .file (.ok (bareClass 65))),
  ("f", .directory [("g.class", .file (.ok (bareClass 71)))] (some (.broken .denied))),
  ("b.jar", .file (.ok bareArchive)),
  ("e.class", .lost .missing),
  ("d.class", .file (.error .denied))]

theorem scan_accounts_for_items_library :
    let find? := fun path => if path = "lib" then some (FileTree.directory library none) else none
    (∀ path ∈ ["lib"], (find? path).isSome) ∧
    (∃ scan, inputs find? ["lib"] = .ok scan ∧
      scan.classes.map (fun definition => (definition.name, definition.source)) =
        [("A", "lib/a.class"), ("B", "lib/b.jar!B.class")] ∧
      scan.problems.found = [
        ⟨.file, "lib/c.jar", "failed to read lib/c.jar: invalid Zip archive: Could not find EOCD"⟩,
        ⟨.file, "lib/d.class", "failed to read lib/d.class: Permission denied (os error 13)"⟩,
        ⟨.file, "lib/e.class", "failed to read lib/e.class: No such file or directory (os error 2)"⟩,
        ⟨.file, "lib/f", "failed to read entry under lib/f: Permission denied (os error 13)"⟩]) ∧
    inputs find? ["lib", "gone.jar"] = .error "gone.jar" := by
  intro find?
  have present : ∀ path ∈ ["lib"], (find? path).isSome := by simp [find?]
  have arrived : ∀ name path tree, Path.child "lib" name = path ∧ ¬FileTree.pathLimit < path.utf8ByteSize →
      arrivals "lib" (name, tree) = visits false path tree := by
    rintro name path tree ⟨rfl, short⟩
    exact if_neg short
  have sorted : inOrder "lib" library = [
      ("a.class", .file (.ok (bareClass 65))), ("b.jar", .file (.ok bareArchive)), ("c.jar", .file (.ok #[])),
      ("d.class", .file (.error .denied)), ("e.class", .lost .missing),
      ("f", .directory [("g.class", .file (.ok (bareClass 71)))] (some (.broken .denied)))] := by
    simp [library, inOrder, List.mergeSort, Path.child_le_child]
  have reached : visited find? ["lib"] = [
      .file false "lib/a.class" (.ok (bareClass 65)), .file false "lib/b.jar" (.ok bareArchive),
      .file false "lib/c.jar" (.ok #[]), .file false "lib/d.class" (.error .denied),
      .file false "lib/e.class" (.error .missing), .directory "lib/f" (.broken .denied)] := by
    simp only [visited, find?, if_pos, Option.map_some, Option.getD_some, visits_directory, sorted, List.flatMap_cons]
    rw [arrived _ "lib/a.class" _ (by decide +kernel), arrived _ "lib/b.jar" _ (by decide +kernel),
      arrived _ "lib/c.jar" _ (by decide +kernel), arrived _ "lib/d.class" _ (by decide +kernel),
      arrived _ "lib/e.class" _ (by decide +kernel), arrived _ "lib/f" _ (by decide +kernel)]
    simp only [visits_file, visits_lost, visits_unlisted]
    rfl
  have scanned := ((scan_accounts_for_items find? ["lib"]).1 present).1
  rw [reached] at scanned
  refine ⟨present, ⟨_, scanned, ?_⟩, (scan_accounts_for_items find? _).2.1 ["lib"] "gone.jar" [] rfl present rfl⟩
  decide +kernel

end Scan

end CallProvenance
