import Shapewright.Files.Path

/-!
# Files

What is stored: files and directories by their location, which is the list of
names from the root. A file is kept as its text, if it is one. Paths that are
not absolute start from the directory that the store is seen from.

Main definitions:

* `Files`, `Files.node?`, `Files.set` — the store, with the law of `set`.
* `Files.locate` — the location that a path leads to.
* `Files.read`, `Files.write` — the content of a file.
* `Files.makeDirectories` — a directory with all those around it.
-/

namespace Shapewright

namespace Files

/-- Why something cannot be done with a file. -/
inductive Fault where
  | notFound
  | notADirectory
  | isADirectory
  | alreadyExists
  | nameTooLong
  | badCharacter
  | notText
  deriving Repr, DecidableEq, Inhabited

def Fault.message : Fault → String
  | .notFound => "No such file or directory (os error 2)"
  | .notADirectory => "Not a directory (os error 20)"
  | .isADirectory => "Is a directory (os error 21)"
  | .alreadyExists => "File exists (os error 17)"
  | .nameTooLong => "File name too long (os error 36)"
  | .badCharacter => "file name contained an unexpected NUL byte"
  | .notText => "stream did not contain valid UTF-8"

/-- The names on the way from the root. -/
abbrev Location := List String

inductive Node where
  | directory
  | text (content : String)
  /-- A file that is not a text. -/
  | binary
  deriving Repr, DecidableEq, Inhabited

end Files

/-- Files and directories, and the directory that paths start from. Every
location but the root is listed at most once. -/
structure Files where
  entries : List (Files.Location × Files.Node)
  here : Files.Location
  deriving Repr, DecidableEq, Inhabited

namespace Files

/-! ## Locations -/

/-- The node listed for a location. -/
def listed? (place : Location) : List (Location × Node) → Option Node
  | [] => none
  | (other, node) :: rest => if other = place then some node else listed? place rest

/-- List a node for a location, in place of the one listed before. -/
def relist (place : Location) (node : Node) : List (Location × Node) → List (Location × Node)
  | [] => [(place, node)]
  | (other, old) :: rest =>
    if other = place then (other, node) :: rest else (other, old) :: relist place node rest

theorem listed?_relist (place other : Location) (node : Node) (entries : List (Location × Node)) :
    listed? other (relist place node entries) =
      if other = place then some node else listed? other entries := by
  induction entries with
  | nil => simp [relist, listed?, eq_comm]
  | cons e rest ih =>
    obtain ⟨key, old⟩ := e
    by_cases h : key = place
    · subst h
      by_cases ho : key = other
      · simp [relist, listed?, ho]
      · have hk : ¬other = key := fun e => ho e.symm
        simp [relist, listed?, ho, hk]
    · by_cases ho : key = other
      · subst ho
        simp [relist, listed?, h]
      · simp [relist, listed?, h, ho, ih]

/-- What is at a location; the root is always there. -/
def node? (files : Files) (place : Location) : Option Node :=
  if place = [] then some .directory else listed? place files.entries

/-- Put a node at a location. -/
def set (files : Files) (place : Location) (node : Node) : Files :=
  { files with entries := relist place node files.entries }

theorem node?_set (files : Files) {place : Location} (other : Location) (node : Node)
    (h : place ≠ []) :
    (files.set place node).node? other = if other = place then some node else files.node? other := by
  by_cases ho : other = []
  · subst ho
    have h' : ¬[] = place := fun e => h e.symm
    simp [node?, h']
  · simp [node?, set, ho, listed?_relist]

/-! ## Paths -/

/-- The location that a name leads to. -/
def next (place : Location) (name : String) : Location :=
  if name = "" ∨ name = "." then place
  else if name = ".." then place.dropLast
  else place ++ [name]

/-- The most bytes that a name may have. -/
def maxName : Nat := 255

/-- The most bytes that a path may have. -/
def maxPath : Nat := 4095

/-- The location that names lead to. What is on the way must be a directory;
nothing need be at the end. A name counts only where it is looked up. -/
def walk (files : Files) (place : Location) : List String → Except Fault Location
  | [] => .ok place
  | name :: rest =>
    match files.node? place with
    | none => .error .notFound
    | some .directory =>
      if maxName < name.utf8ByteSize then .error .nameTooLong
      else files.walk (next place name) rest
    | some _ => .error .notADirectory

/-- What is wrong with a path as a text. -/
def pathFault? (path : String) : Option Fault :=
  if path.toList.contains '\x00' then some .badCharacter
  else if path.isEmpty then some .notFound
  else if maxPath < path.utf8ByteSize then some .nameTooLong
  else none

/-- The location that a path starts from. -/
def start (files : Files) (path : String) : Location :=
  if Path.isAbsolute path then [] else files.here

/-- The location that a path leads to. -/
def locate (files : Files) (path : String) : Except Fault Location :=
  match pathFault? path with
  | some e => .error e
  | none => files.walk (files.start path) (Path.names path)

/-- What a path leads to. -/
def find (files : Files) (path : String) : Except Fault Node :=
  match files.locate path with
  | .error e => .error e
  | .ok place =>
    match files.node? place with
    | some node => .ok node
    | none => .error .notFound

def isPresent (files : Files) (path : String) : Bool := (files.find path).isOk

def isDirectory (files : Files) (path : String) : Bool :=
  match files.find path with
  | .ok .directory => true
  | _ => false

/-! ## Content -/

/-- The text in a file. -/
def read (files : Files) (path : String) : Except Fault String :=
  match files.find path with
  | .error e => .error e
  | .ok .directory => .error .isADirectory
  | .ok .binary => .error .notText
  | .ok (.text content) => .ok content

/-- Why a path that ends in a slash names no file: what is in front of its last
name is no directory, or else the path is that of a directory. The last name
itself is not looked up. -/
def slashFault (files : Files) (path : String) : Fault :=
  match files.walk (files.start path) (Path.outerNames path ++ ["."]) with
  | .error e => e
  | .ok _ => .isADirectory

/-- Make a file with the given text, or give it to the file that is there. -/
def write (files : Files) (path content : String) : Except Fault Files :=
  match pathFault? path with
  | some e => .error e
  | none =>
    if path.toList.getLast? = some '/' then .error (files.slashFault path)
    else
      match files.locate path with
      | .error e => .error e
      | .ok place =>
        match files.node? place with
        | some .directory => .error .isADirectory
        | _ => .ok (files.set place (.text content))

/-! ## Directories -/

/-- Make one directory. -/
def makeDirectory (files : Files) (path : String) : Except Fault Files :=
  match files.locate path with
  | .error e => .error e
  | .ok place =>
    match files.node? place with
    | some _ => .error .alreadyExists
    | none => .ok (files.set place .directory)

/-- What it means that making a directory failed: nothing, if there is one. -/
def tolerate (files : Files) (path : String) (e : Fault) : Option Fault :=
  if files.isDirectory path then none else some e

/-- Make the first directory of a lineage, and those around it where they are
missing. Those made before a fault stay. -/
def makeLineage (files : Files) : List String → Files × Option Fault
  | [] => (files, some .notFound)
  | path :: outer =>
    -- the empty path is the directory one is in
    if path.isEmpty then (files, none)
    else
      match files.makeDirectory path with
      | .ok files => (files, none)
      -- only what is missing around it sends the search outwards
      | .error .notFound =>
        match files.makeLineage outer with
        | (files, some e) => (files, some e)
        | (files, none) =>
          match files.makeDirectory path with
          | .ok files => (files, none)
          | .error e => (files, files.tolerate path e)
      | .error e => (files, files.tolerate path e)

/-- Make a directory and those around it where they are missing. -/
def makeDirectories (files : Files) (path : String) : Files × Option Fault :=
  files.makeLineage (Path.lineage path)

/-! ## Listing -/

/-- `some` of what follows `outer` in a location inside it. -/
def inside? (outer : Location) (place : Location) : Option Location :=
  if outer.isPrefixOf place then some (place.drop outer.length) else none

/-- The names on the way from a directory to everything in it, in the order of
the names, so that each directory comes before what is in it. -/
def contents (files : Files) (outer : Location) : List Location :=
  (files.entries.filterMap fun (place, _) => (inside? outer place).filter (· ≠ [])).mergeSort
    fun a b => !b.lex a fun x y => decide (x < y)

end Files
end Shapewright
