import Shapewright.Command.Line
import Shapewright.Command.Run

/-!
# The program

Looks at the files that a command may need, runs the command on them, and makes
the changes that it leaves behind. Only what is looked at here reaches the
command, and only what it changed is written.
-/

namespace Shapewright.Program

/-- The path of a location. -/
def pathOf (place : Files.Location) : String := "/" ++ "/".intercalate place

/-- What a file holds. -/
def nodeOf (bytes : ByteArray) : Files.Node :=
  match String.fromUTF8? bytes with
  | some content => .text content
  | none => .binary

/-- Take in what is at a path, the content of a file only if it is wanted. -/
def lookAt (files : Files) (path : String) (wanted : Bool) : IO Files := do
  match files.locate path with
  | .error _ => pure files
  | .ok place =>
    let real := (← IO.currentDir) / path
    if ← real.isDir then pure (files.set place .directory)
    else if ← real.pathExists then
      if wanted then
        pure (files.set place (nodeOf (← IO.FS.readBinFile real)))
      else pure (files.set place .binary)
    else pure files

/-- Take in a path and the directories around it. -/
def lookAround (files : Files) (path : String) : IO Files :=
  (Files.Path.lineage path).reverse.foldlM (fun files path => lookAt files path true) files

/-- Take in everything in a directory, without the content of files. -/
partial def survey (files : Files) (path : String) : IO Files := do
  let real := (← IO.currentDir) / path
  if ← real.isDir then
    let mut files := files
    for entry in ← real.readDir do
      let inner := Files.Path.join path entry.fileName
      files ← lookAt files inner false
      files ← survey files inner
    pure files
  else pure files

/-- The directory in which a pattern is searched. -/
def baseOf (pattern : String) : String :=
  let literal := (Files.Path.names pattern).takeWhile fun name => !Source.isPattern name
  if literal.isEmpty then "." else "/".intercalate literal ++ "/"

/-- Take in what the inputs of a command need. -/
def lookForInputs (files : Files) (inputs : List String) : IO Files := do
  let mut files := files
  for input in inputs do
    if Source.isPattern input then
      files ← lookAround files (baseOf input)
      files ← survey files (baseOf input)
  match Source.resolveAll files inputs with
  | .error _ => pure files
  | .ok sources =>
    for source in sources do
      match source with
      | .standardInput => pure ()
      | .file path => files ← lookAround files path
    pure files

/-- Take in what a command may need. -/
def lookFor (files : Files) : Command → IO Files
  | .generate what => do
    let mut files ← lookForInputs files what.selection.inputs
    if let some path := what.optionsFile? then files ← lookAround files path
    match what.destination with
    | .console => pure files
    | .file path => lookAround files path
    | .directory path => survey (← lookAround files path) path
  | .schema selection out? => do
    let files ← lookForInputs files selection.inputs
    match out? with
    | some path => lookAround files path
    | none => pure files
  | _ => pure files

/-- Whether standard input is one of the sources of a command. -/
def readsInput : Command → Bool
  | .generate what => what.selection.inputs.contains "-"
  | .schema selection _ => selection.inputs.contains "-"
  | _ => false

/-- Everything on standard input. -/
def readInput : IO (Except Files.Fault String) := do
  match nodeOf (← (← IO.getStdin).readBinToEnd) with
  | .text content => pure (.ok content)
  | _ => pure (.error .notText)

/-- Make the changes between two states of the files. -/
def apply (before after : Files) : IO Unit := do
  for (place, node) in after.entries do
    if before.node? place ≠ some node then
      match node with
      | .directory => IO.FS.createDirAll (pathOf place)
      | .text content => IO.FS.writeFile (pathOf place) content
      | .binary => pure ()

/-- The files around the directory that the program runs in. -/
def start : IO Files := do
  let names := (Files.Path.names (← IO.currentDir).toString).filter (· ≠ "")
  let outer := (List.range names.length).map fun n => (names.take (n + 1), Files.Node.directory)
  pure { entries := outer, here := names }

def name : String := "shapewright"

def help : String :=
  "Usage: " ++ name ++ " <COMMAND>\n\nCommands:\n" ++
    "  generate    declarations for JSON documents\n" ++
    "  schema      schemas of JSON documents\n" ++
    "  targets     the supported languages\n" ++
    "  check-name  check a name against the rules for root types\n" ++
    "  help        this text\n"

/-- What is wrong with a command line. -/
def complaint : CommandLine.Usage → String
  | .unknownArgument => "unexpected argument"
  | .unknownVerb => "unrecognized subcommand"
  | .missingArgument => "a required argument was not provided"
  | .invalidValue => "an option lacks its value"
  | .tooManyValues => "a flag was given a value"
  | .conflict => "an argument cannot be used with another one or more than once"
  | .help => ""
  | .version => ""
  | .helpOnNothing => ""

/-- Answer a command line that is no command. -/
def answerUsage : CommandLine.Usage → IO UInt32
  | .help => do
    IO.print help
    pure 0
  | .version => do
    IO.println (name ++ " 0.1.0")
    pure 0
  | .helpOnNothing => do
    IO.eprint help
    pure 2
  | u => do
    IO.eprintln ("error: " ++ complaint u)
    pure 2

/-- Run a command on the real files. -/
def runCommand (command : Command) : IO UInt32 := do
  let before ← lookFor (← start) command
  let input ← if readsInput command then readInput else pure (.ok "")
  let finish (s : Session) : IO Unit := do
    apply before s.files
    IO.print s.printed
    IO.eprint s.notes
  match command.run input { files := before, printed := "", notes := "" } with
  | .ok _ s => do
    finish s
    pure 0
  | .error f s => do
    finish s
    IO.eprintln ("error: " ++ f.message)
    pure 1

end Shapewright.Program

def main (args : List String) : IO UInt32 :=
  match Shapewright.Command.ofWords args with
  | .ok command => Shapewright.Program.runCommand command
  | .error u => Shapewright.Program.answerUsage u
