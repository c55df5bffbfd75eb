import CallProvenance.Archive
import CallProvenance.ClassFile.Decode
import CallProvenance.FileTree
import CallProvenance.Problem

/-! Classes found in files, archives and directories. What a file contributes depends on nothing
but its path and its content, and what a directory contributes is what its entries contribute, in
the order of their names. A file that cannot be read is one problem. So is a directory that cannot be
listed to its end, and then none of its entries is looked at. Going down, a path can become too long to
be followed. -/
namespace CallProvenance

/-- Classes and problems in the order in which they were found. -/
structure Scan where
  classes : List ClassDef := []
  problems : Problems := {}

namespace Scan

def append (scan later : Scan) : Scan where
  classes := scan.classes ++ later.classes
  problems := scan.problems.append later.problems

def concat (scans : List Scan) : Scan := scans.foldl append {}

def ofProblem (kind : ProblemKind) (source message : String) : Scan :=
  { problems := ⟨[⟨kind, source, message⟩]⟩ }

def ofClass (source : String) (bytes : Bytes) : Scan :=
  let report (cause : DecodeError) : Problem := ⟨.classFormat, source, cause.message⟩
  let (definition, problems) := ({} : Problems).keep (ClassDef.decode bytes source) report
  { classes := definition.toList, problems }

/-- Entries that hold classes of the archive itself: neither module descriptions nor classes for
particular releases. -/
def holdsClass (entry : ArchiveEntry) : Bool :=
  !entry.isDirectory && entry.name.endsWith ".class" &&
    !entry.name.endsWith "module-info.class" && !entry.name.startsWith "META-INF/versions/"

/-- The problems with entries that cannot be opened, numbered as they stand in the archive. -/
def unopened (path : String) (archive : Archive) : List Scan :=
  archive.entries.zipIdx.filterMap fun (entry, index) =>
    match archive.openEntry entry with
    | .ok _ => none
    | .error cause =>
      some (ofProblem .file path s!"failed to read entry {index} of {path}: {cause.message}")

def classNames (archive : Archive) : List String :=
  ((archive.entries.filter fun entry => (archive.openEntry entry).isOk && holdsClass entry).map
    (·.name)).mergeSort (· ≤ ·)

def ofEntry (path : String) (archive : Archive) (name : String) : Scan :=
  let source := s!"{path}!{name}"
  match archive.contentOf name with
  | .ok bytes => ofClass source bytes
  | .error cause => ofProblem .file source s!"failed to read {source}: {cause.message}"

def ofArchive (path : String) (bytes : Bytes) : Scan :=
  match Archive.read bytes with
  | .error cause => ofProblem .file path s!"failed to read {path}: {cause.message}"
  | .ok archive => concat (unopened path archive ++ (classNames archive).map (ofEntry path archive))

/-- A file of another kind is not read, and a problem only if it was asked for by name. -/
def ofFile (named : Bool) (path : String) (content : Except PathFault Bytes) : Scan :=
  match Path.extension path with
  | "class" =>
    match content with
    | .ok bytes => ofClass path bytes
    | .error fault => ofProblem .file path s!"failed to read {path}: {fault.message}"
  | "jar" =>
    match content with
    | .ok bytes => ofArchive path bytes
    | .error fault => ofProblem .file path s!"failed to open {path}: {fault.message}"
  | _ => if named then ofProblem .file path "unsupported input file" else {}

mutual

def ofTree (named : Bool) (path : String) : FileTree → Scan
  | .file content => ofFile named path content
  | .lost fault => ofFile named path (.error fault)
  | .directory _ (some fault) => ofProblem .file path (fault.message path)
  | .directory entries none =>
    concat (((ofEntries path entries).mergeSort fun a b => a.1 ≤ b.1).map (·.2))

/-- What each entry of a directory contributes, under its name. An entry whose path is too long is not known
to be a directory. -/
def ofEntries (path : String) : List (String × FileTree) → List (String × Scan)
  | [] => []
  | (name, tree) :: rest =>
    let inner := Path.child path name
    let scan :=
      if FileTree.pathLimit < inner.utf8ByteSize then ofFile false inner (.error .nameTooLong)
      else ofTree false inner tree
    (name, scan) :: ofEntries path rest

end

/-- Scans the inputs in the given order. Each of them has to exist; otherwise the first that does
not is returned. -/
def inputs (find? : String → Option FileTree) (paths : List String) : Except String Scan := do
  let found ← paths.mapM fun path =>
    match find? path with
    | some tree => .ok (path, tree)
    | none => .error path
  return concat (found.map fun (path, tree) => ofTree true path tree)

end Scan
end CallProvenance
