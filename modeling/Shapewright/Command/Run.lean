import Shapewright.Command.Bag
import Shapewright.Command.Documents
import Shapewright.Query.Run

/-!
# Running commands

A command first reads all it needs, which changes nothing, and then writes. What
was written before a failure stays. Whatever engine runs the filters that pick the
documents, a command goes on with what it answers; on the command line it is that of the
core language.

Main definitions:

* `Session`, `Work` — what a command leaves behind, and steps that write.
* `Generation.prepare` — everything that is read for declarations.
* `Job.deliver` — the declarations of one document after the other.
* `Command.runWith` — a command with an engine, and `Command.run` with that of the core
  language.
-/

namespace Shapewright

/-- What a command leaves behind: the files, the text it printed, and the notes
about files it wrote. -/
structure Session where
  files : Files
  printed : String
  notes : String
  deriving Repr, DecidableEq, Inhabited

/-- Steps that write, each of which may be the last. -/
abbrev Work := EStateM RunFailure Session

namespace Work

def print (text : String) : Work Unit :=
  modify fun s => { s with printed := s.printed ++ text }

/-- Make the directory that a file goes to. -/
def makeDirectoryFor (path : String) : Work Unit := do
  match Files.Path.parent? path with
  | none => pure ()
  | some directory =>
    let s ← get
    let (files, fault?) := s.files.makeDirectories directory
    set { s with files }
    match fault? with
    | none => pure ()
    | some e => throw (.noDirectory e)

/-- Write a file and note it. -/
def writeFile (path content : String) : Work Unit := do
  makeDirectoryFor path
  let s ← get
  match s.files.write path content with
  | .error e => throw (.unwritable path e)
  | .ok files => set { s with files, notes := s.notes ++ "wrote " ++ path ++ "\n" }

/-- Steps that read only. -/
def ofExcept {α : Type} : Except RunFailure α → Work α
  | .ok a => pure a
  | .error e => throw e

end Work

/-! ## Declarations -/

/-- All that is needed to write declarations. -/
structure Job where
  target : Target
  rootName : String
  bag : Json.Value
  documents : List Document
  destination : Destination
  deriving Repr, Inhabited

/-- Check the root name and the target, and read the options and the documents. -/
def Generation.prepare (what : Generation) (engine : Query.Engine) (files : Files)
    (input : Except Files.Fault String) : Except RunFailure Job := do
  let rootName ← (Name.validate what.rootName).mapError fun r => .generation (.refusedName r)
  let target ← (findTarget what.target).mapError .generation
  let bag ← what.bag files
  let documents ← what.selection.documents engine files input
  match what.destination with
  | .file _ =>
    if 1 < documents.length then .error (.severalInputs documents.length)
    else pure { target, rootName, bag, documents, destination := what.destination }
  | _ => pure { target, rootName, bag, documents, destination := what.destination }

/-- Output as it is printed: files follow each other, each behind its name. -/
def Rendered.printed : Rendered → String
  | .single content _ => content
  | .files list =>
    String.join (list.map fun f => "// ==> " ++ f.filename ++ "\n" ++ f.content)

namespace Job

/-- The declarations of a document. -/
def declarations (job : Job) (document : Document) : Except RunFailure Rendered :=
  ((inferShape document.value).bind fun s => emit job.target s job.rootName job.bag).mapError
    .generation

/-- The directory for the files of a document. Of several documents that have
separate files, each has a directory of its own. -/
def directoryFor (job : Job) (directory : String) (document : Document) : Rendered → String
  | .single _ _ => directory
  | .files _ =>
    if 1 < job.documents.length then Files.Path.join directory document.stem else directory

/-- The files of a document in a directory, as paths and contents. -/
def filesIn (job : Job) (directory : String) (document : Document) (output : Rendered) :
    List (String × String) :=
  let directory := job.directoryFor directory document output
  match output with
  | .single content _ =>
    [(Files.Path.join directory (document.stem ++ "." ++ job.target.extension), content)]
  | .files list => list.map fun f => (Files.Path.join directory f.filename, f.content)

/-- Put the declarations of a document where they go. -/
def put (job : Job) (document : Document) (output : Rendered) : Work Unit :=
  match job.destination, output with
  | .console, output => Work.print output.printed
  | .file path, .single content _ => Work.writeFile path content
  | .file _, .files _ => throw .severalFiles
  | .directory directory, output =>
    (job.filesIn directory document output).forM fun (path, content) =>
      Work.writeFile path content

/-- Write the declarations of a document. -/
def deliverOne (job : Job) (document : Document) : Work Unit := do
  let output ← Work.ofExcept (job.declarations document)
  job.put document output

/-- Write the declarations of all documents. -/
def deliver (job : Job) : Work Unit := job.documents.forM job.deliverOne

end Job

/-- Write the declarations that are asked for. -/
def Generation.run (what : Generation) (engine : Query.Engine)
    (input : Except Files.Fault String) : Work Unit := do
  let job ← Work.ofExcept (what.prepare engine (← get).files input)
  job.deliver

/-! ## Schemas -/

/-- The schema of one document, or the list of those of several. -/
def schemaOf (documents : List Document) : Except RunFailure Json.Value := do
  let shapes ← documents.mapM fun d => (inferShape d.value).mapError RunFailure.generation
  match shapes.map Shape.toSchema with
  | [view] => pure view
  | views => pure (.array views)

/-- Write the schema of the documents that are meant. -/
def writeSchema (selection : Selection) (out? : Option String) (engine : Query.Engine)
    (input : Except Files.Fault String) : Work Unit := do
  let documents ← Work.ofExcept (selection.documents engine (← get).files input)
  let view ← Work.ofExcept (schemaOf documents)
  match out? with
  | none => Work.print (view.indented ++ "\n")
  | some path => Work.writeFile path view.indented

/-! ## Commands -/

/-- `text` followed by blanks up to the given width. -/
def padTo (width : Nat) (text : String) : String :=
  text ++ String.ofList (List.replicate (width - text.length) ' ')

/-- What the list of targets says of one. -/
def Target.line (t : Target) : String :=
  padTo 12 t.id ++ " " ++ padTo 12 t.label ++ " ." ++ t.extension ++ "\n"

/-- Run a command, with what runs filters and the text on standard input. -/
def Command.runWith (engine : Query.Engine) (command : Command)
    (input : Except Files.Fault String) : Work Unit :=
  match command with
  | .generate what => what.run engine input
  | .schema selection out? => writeSchema selection out? engine input
  | .targets => Work.print (String.join (Target.all.map Target.line))
  | .checkName name =>
    match Name.validate name with
    | .ok name => Work.print ("OK `" ++ name ++ "` is a valid type name\n")
    | .error r => throw (.generation (.refusedName r))

/-- Run a command of the command line. -/
def Command.run (command : Command) (input : Except Files.Fault String) : Work Unit :=
  command.runWith Query.core input

end Shapewright
