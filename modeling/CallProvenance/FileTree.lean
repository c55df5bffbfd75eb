import CallProvenance.Bytes
import CallProvenance.Path

/-! Files and directories, and what a path leads to. What cannot be read is there all the same, with the
reason why. -/
namespace CallProvenance

inductive PathFault where
  | missing
  | denied
  | notDirectory
  | isDirectory
  | nameTooLong
  | holdsNul
  | other (message : String)
  deriving DecidableEq, Repr

def PathFault.message : PathFault → String
  | .missing => "No such file or directory (os error 2)"
  | .denied => "Permission denied (os error 13)"
  | .notDirectory => "Not a directory (os error 20)"
  | .isDirectory => "Is a directory (os error 21)"
  | .nameTooLong => "File name too long (os error 36)"
  | .holdsNul => "file name contained an unexpected NUL byte"
  | .other message => message

/-- Why the entries of a directory are not known: it cannot be opened, or it breaks off at an entry. -/
inductive ListingFault where
  | closed (cause : PathFault)
  | broken (cause : PathFault)
  deriving DecidableEq, Repr

def ListingFault.message (path : String) : ListingFault → String
  | .closed cause => s!"failed to read directory {path}: {cause.message}"
  | .broken cause => s!"failed to read entry under {path}: {cause.message}"

inductive FileTree where
  | file (content : Except PathFault Bytes)
  /-- The entries can be reached by their names also if they cannot be listed. -/
  | directory (entries : List (String × FileTree)) (fault : Option ListingFault)
  /-- A name that leads to nothing, as that of a link whose target is gone. -/
  | lost (fault : PathFault)
  deriving Repr

namespace FileTree

def nameLimit : Nat := 255

def pathLimit : Nat := 4095

/-- A path is text without NUL that is neither empty nor too long; sizes count bytes. Only relative paths lead into a
tree. -/
def checkPath (path : String) : Except PathFault Unit := do
  if path.contains '\x00' then throw .holdsNul
  if path = "" then throw .missing
  if pathLimit < path.utf8ByteSize then throw .nameTooLong
  if path.startsWith "/" then throw .missing

def entry? (entries : List (String × FileTree)) (name : String) :
    Except PathFault (Option FileTree) :=
  if nameLimit < name.utf8ByteSize then .error .nameTooLong else .ok (entries.lookup name)

/-- A place in a tree: what is there, and the directories above it, the nearest first. -/
structure Place where
  here : FileTree
  above : List FileTree := []
  deriving Repr

/-- Only a directory can be left, upwards or downwards. -/
def Place.step (place : Place) (part : String) : Except PathFault Place :=
  match place.here with
  | .file _ => .error .notDirectory
  | .lost fault => .error fault
  | .directory entries _ =>
    if Path.isIdle part then .ok place
    else if part = ".." then
      match place.above with
      | [] => .error .missing
      | parent :: above => .ok ⟨parent, above⟩
    else
      match entry? entries part with
      | .ok (some here) => .ok ⟨here, place.here :: place.above⟩
      | .ok none => .error .missing
      | .error cause => .error cause

def walk (tree : FileTree) (parts : List String) : Except PathFault Place :=
  parts.foldlM Place.step ⟨tree, []⟩

/-- What a relative path leads to, if it exists. -/
def find? (tree : FileTree) (path : String) : Option FileTree := do
  let _ ← (checkPath path).toOption
  match (← (tree.walk (Path.parts path)).toOption).here with
  | .lost _ => none
  | found => some found

/-- Checks that a file can be written at a path: the parts before the last name lead to a directory,
no slash follows, and the name is that of a file or of nothing yet. -/
def checkWritable (tree : FileTree) (path : String) : Except PathFault Unit := do
  checkPath path
  let parts := Path.parts path
  let upToName := (parts.reverse.dropWhile (· = "")).reverse
  let name := upToName.getLast?.getD ""
  match (← tree.walk upToName.dropLast).here with
  | .file _ => throw .notDirectory
  | .lost fault => throw fault
  | .directory entries _ =>
    if upToName.length < parts.length || Path.isIdle name || name = ".." then throw .isDirectory
    match ← entry? entries name with
    | some (.directory _ _) => throw .isDirectory
    | _ => return

def empty : FileTree := .directory [] none

def entries : FileTree → List (String × FileTree)
  | .directory entries _ => entries
  | .file _ | .lost _ => []

def setEntry (name : String) (tree : FileTree) : List (String × FileTree) → List (String × FileTree)
  | [] => [(name, tree)]
  | (other, old) :: rest =>
    if other = name then (name, tree) :: rest else (other, old) :: setEntry name tree rest

/-- Puts a file where the parts lead, or makes sure of a directory there if no content is given.
Directories on the way are made. -/
def put (content : Option Bytes) : List String → FileTree → FileTree
  | [], old =>
    match content with
    | some bytes => .file (.ok bytes)
    | none => .directory old.entries none
  | part :: rest, old =>
    let inner := (old.entries.lookup part).getD empty
    .directory (setEntry part (put content rest inner) old.entries) none

/-- The tree with the given files, and directories where no content is given. -/
def ofFiles (files : List (String × Option Bytes)) : FileTree :=
  files.foldl
    (fun tree (path, content) => put content ((Path.parts path).filter (!Path.isIdle ·)) tree) empty

end FileTree
end CallProvenance
