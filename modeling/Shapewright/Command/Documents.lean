import Shapewright.Command.Basic
import Shapewright.Command.Failure
import Shapewright.Json.Pointer

/-!
# Documents of a command

From the inputs of a selection to documents: patterns are replaced by the paths
they stand for, each source is read, and the part that is meant is taken. All
inputs are resolved before any is read, and the first thing that is wrong is
reported. Nothing is written here. Filters are run by an engine that is given.

Main definitions:

* `Source`, `Source.resolve` — what documents are read from.
* `Selection.pick` — the part of a document that is meant.
* `Selection.documents` — the documents.
-/

namespace Shapewright

/-- What a document is read from. -/
inductive Source where
  | standardInput
  | file (path : String)
  deriving Repr, DecidableEq, Inhabited

/-- A document, with what it is called in messages and in names of files. -/
structure Document where
  label : String
  stem : String
  value : Json.Value
  deriving Repr, Inhabited

namespace Source

/-- Whether an input is a pattern. A brace makes it one, though it stands for
itself there. -/
def isPattern (input : String) : Bool := input.toList.any "*?[\x7b".toList.contains

/-- The sources that an input stands for. -/
def resolve (files : Files) (input : String) : Except RunFailure (List Source) :=
  if input == "-" then .ok [.standardInput]
  else if isPattern input then
    match Files.Pattern.parse input with
    | .error e => .error (.badPattern e)
    | .ok pattern =>
      match files.matching pattern with
      | [] => .error (.noMatch input)
      | paths => .ok (paths.map .file)
  else .ok [.file input]

/-- The sources that inputs stand for, in order. -/
def resolveAll (files : Files) : List String → Except RunFailure (List Source)
  | [] => .ok []
  | input :: rest => do
    let sources ← resolve files input
    let more ← resolveAll files rest
    pure (sources ++ more)

def label : Source → String
  | .standardInput => "<stdin>"
  | .file path => path

/-- What the source is called in names of files. -/
def stem : Source → String
  | .standardInput => "stdin"
  | .file path => (Files.Path.stem? path).getD "output"

end Source

namespace Selection

/-- Take the part that the pointer leads to. -/
def follow (selection : Selection) (v : Json.Value) : Except SelectionFailure Json.Value :=
  match selection.pointer? with
  | none => .ok v
  | some pointer =>
    match v.pointed? pointer with
    | some part => .ok part
    | none => .error (.unresolved pointer)

/-- Take the part of a document that is meant. -/
def pick (selection : Selection) (engine : Query.Engine) (v : Json.Value) :
    Except SelectionFailure Json.Value :=
  match selection.follow v with
  | .error e => .error e
  | .ok v =>
    match selection.filter? with
    | none => .ok v
    | some filter => (engine.single filter v).mapError .query

/-- The document in a text. -/
def document (selection : Selection) (engine : Query.Engine) (source : Source) (text : String) :
    Except RunFailure Document := do
  let v ← (Json.Value.parse text).mapError (.invalidDocument source.label)
  let value ← (selection.pick engine v).mapError (.unselected source.label)
  pure { label := source.label, stem := source.stem, value }

/-- The text of a source, where `input` is left on standard input. -/
def text (files : Files) (input : Except Files.Fault String) :
    Source → Except RunFailure String
  | .standardInput => input.mapError (.unreadable "stdin")
  | .file path => (files.read path).mapError (.unreadable path)

/-- What is left on standard input behind a source. -/
def left (input : Except Files.Fault String) : Source → Except Files.Fault String
  | .standardInput => .ok ""
  | .file _ => input

/-- The documents in sources, in order. -/
def load (selection : Selection) (engine : Query.Engine) (files : Files)
    (input : Except Files.Fault String) : List Source → Except RunFailure (List Document)
  | [] => .ok []
  | source :: rest => do
    let text ← text files input source
    let document ← selection.document engine source text
    let more ← selection.load engine files (left input source) rest
    pure (document :: more)

/-- The documents that are meant. -/
def documents (selection : Selection) (engine : Query.Engine) (files : Files)
    (input : Except Files.Fault String) : Except RunFailure (List Document) := do
  let sources ← Source.resolveAll files selection.inputs
  selection.load engine files input sources

end Selection
end Shapewright
