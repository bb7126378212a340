/-!
# Commands

What can be asked for on a command line: declarations for documents, the schemas
of documents, the list of targets, or a check of a name.

Main definitions:

* `Selection` — the documents that are meant.
* `Destination` — where declarations go.
* `Command`.
-/

namespace Shapewright

/-- The documents that are meant: the inputs they are read from, and the part of
each that a pointer and then a filter lead to. An input is a path, a pattern of
paths, or a hyphen for standard input. -/
structure Selection where
  inputs : List String
  pointer? : Option String
  filter? : Option String
  deriving Repr, DecidableEq, Inhabited

/-- Where declarations go. -/
inductive Destination where
  | console
  | file (path : String)
  | directory (path : String)
  deriving Repr, DecidableEq, Inhabited

/-- What declarations are asked for. -/
structure Generation where
  selection : Selection
  target : String
  rootName : String
  /-- Options, each as a key and a value with an equals sign between them. -/
  pairs : List String
  optionsFile? : Option String
  multipleFiles : Bool
  destination : Destination
  deriving Repr, DecidableEq, Inhabited

inductive Command where
  | generate (what : Generation)
  | schema (selection : Selection) (out? : Option String)
  | targets
  | checkName (name : String)
  deriving Repr, DecidableEq, Inhabited

end Shapewright
