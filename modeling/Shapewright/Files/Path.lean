import Shapewright.Text.Pieces

/-!
# Paths

A path is text: names with slashes between them. Empty names and points in it
lead nowhere, except that a point at its head names the directory it starts
from. A leading slash makes it absolute.

Main definitions:

* `Path.join` — a name inside a directory.
* `Path.parent?` — the path of the directory around the last name.
* `Path.lineage` — a path and the directories around it.
* `Path.stem?` — the last name without its extension.
-/

namespace Shapewright.Files

namespace Path

def isAbsolute (path : String) : Bool := path.toList.head? == some '/'

/-- The names of a path, those that lead nowhere included. -/
def names (path : String) : List String := Text.piecesOf '/' path

/-- The names in front of the last one; slashes at the end count for nothing. -/
def outerNames (path : String) : List String :=
  ((names path).reverse.dropWhile String.isEmpty).reverse.dropLast

/-- `name` inside the directory `path`. -/
def join (path name : String) : String :=
  if isAbsolute name then name
  else if path.isEmpty || path.toList.getLast? == some '/' then path ++ name
  else path ++ "/" ++ name

/-- Without the names at the end that lead nowhere. A point at the head of a
path that is not absolute stays. -/
def trimNames (absolute : Bool) : List String → List String
  | [] => []
  | name :: rest =>
    match trimNames true rest with
    | [] => if name.isEmpty || (absolute && name == ".") then [] else [name]
    | kept => name :: kept

/-- The slash at the head of an absolute path, and the names behind it. -/
def split (path : String) : String × List String :=
  match path.toList with
  | '/' :: rest => ("/", trimNames true (Text.piecesOf '/' (String.ofList rest)))
  | _ => ("", trimNames false (names path))

/-- The path of the directory around the last name. -/
def parent? (path : String) : Option String :=
  let (root, names) := split path
  if names.isEmpty then none
  else some (root ++ "/".intercalate (trimNames (root == "/") names.dropLast))

/-- A path and, one after the other, the directories around it. -/
def lineageUpTo : Nat → String → List String
  | 0, _ => []
  | n + 1, path =>
    match parent? path with
    | none => [path]
    | some outer => path :: lineageUpTo n outer

/-- A path and the directories around it; there are fewer of them than
characters in the path. -/
def lineage (path : String) : List String := lineageUpTo (path.length + 1) path

/-- The last name of a path, unless it is one that names no entry of its own. -/
def lastName? (path : String) : Option String :=
  match (split path).2.getLast? with
  | none => none
  | some name => if name == "." || name == ".." then none else some name

/-- A name without what follows its last point, if something precedes the point. -/
def withoutExtension (name : String) : String :=
  let cs := name.toList
  match (cs.reverse.dropWhile (· != '.')).drop 1 with
  | [] => name
  | kept => String.ofList kept.reverse

/-- The last name of a path without its extension. -/
def stem? (path : String) : Option String := (lastName? path).map withoutExtension

/-- Whether a path names the directory it starts from, and nothing else. -/
def isHere (path : String) : Bool := split path == ("", ["."])

end Path
end Shapewright.Files
