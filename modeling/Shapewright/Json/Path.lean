/-!
# Places in a document

The way from the whole document to one of its values, as it is named in
messages about that value.
-/

namespace Shapewright.Json

inductive Step where
  | key (name : String)
  | index (position : Nat)
  /-- A member whose name could not be read. -/
  | unknown
  deriving Repr, DecidableEq, Inhabited

abbrev Path := List Step

namespace Path

/-- Names and the mark of an unknown name are set off by a point from what
precedes them; an index is not. -/
def stepText : Step → Bool → String
  | .key name, first => if first then name else "." ++ name
  | .unknown, first => if first then "?" else ".?"
  | .index i, _ => "[" ++ toString i ++ "]"

/-- The text of a path; the whole document is a single point. -/
def toText : Path → String
  | [] => "."
  | step :: rest => stepText step true ++ String.join (rest.map (stepText · false))

/-- `message` with the path of the value it is about. -/
def annotate (path : Path) (message : String) : String :=
  "at JSON path " ++ path.toText ++ " → " ++ message

end Path
end Shapewright.Json
