/-! Paths as text: parts with slashes between them. -/
namespace CallProvenance
namespace Path

/-- The parts in the rest of a path, after the characters of the current part in reverse. -/
def partsFrom (reversed : List Char) : List Char → List String
  | [] => [String.ofList reversed.reverse]
  | c :: rest =>
    if c = '/' then String.ofList reversed.reverse :: partsFrom [] rest
    else partsFrom (c :: reversed) rest

/-- All parts, empty ones included. -/
def parts (path : String) : List String := partsFrom [] path.toList

/-- A part that stays where it is. -/
def isIdle (part : String) : Bool := part = "" || part = "."

/-- The parts that matter when paths are compared. A dot counts only in front. -/
def significant (path : String) : List String :=
  match parts path with
  | [] => []
  | first :: rest => (if first = "" then [] else [first]) ++ rest.filter (!isIdle ·)

def child (path name : String) : String :=
  if path.endsWith "/" then path ++ name else path ++ "/" ++ name

/-- What follows the last dot of the file name, if something stands before that dot. -/
def extension (path : String) : String :=
  let name := ((parts path).filter (!isIdle ·)).getLast?.getD ""
  let reversed := name.toList.reverse
  match reversed.dropWhile (· ≠ '.') with
  | '.' :: _ :: _ => String.ofList (reversed.takeWhile (· ≠ '.')).reverse
  | _ => ""

end Path
end CallProvenance
