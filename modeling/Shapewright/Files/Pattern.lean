import Shapewright.Files.Basic

/-!
# Patterns of paths

A pattern is a path whose names may hold wildcards: `?` stands for a character,
`*` for any number of them, and a class in brackets for one of its characters
or, behind an exclamation mark, for one that is not among them. The name `**`
stands for any number of directories.

Main definitions:

* `Pattern.parse` — the pattern that a text is.
* `Wildcard.accepts` — which names a list of wildcards stands for.
* `Files.matching` — the paths that a pattern stands for, in order.
-/

namespace Shapewright.Files

/-- What stands for characters in a name. -/
inductive Wildcard where
  | exactly (c : Char)
  | one
  | several
  /-- One character of the given ranges, or one of none of them. -/
  | among (ranges : List (Char × Char)) (inverted : Bool)
  deriving Repr, DecidableEq, Inhabited

/-- What stands for names in a path. -/
inductive Component where
  /-- Any number of directories. -/
  | deep
  | named (wildcards : List Wildcard)
  deriving Repr, DecidableEq, Inhabited

structure Pattern where
  isAbsolute : Bool
  components : List Component
  onlyDirectories : Bool
  deriving Repr, DecidableEq, Inhabited

/-- What can be wrong with a pattern. -/
inductive PatternCause where
  | tooManyStars
  | starsInName
  | invalidRange
  deriving Repr, DecidableEq, Inhabited

def PatternCause.message : PatternCause → String
  | .tooManyStars => "wildcards are either regular `*` or recursive `**`"
  | .starsInName => "recursive wildcards must form a single path component"
  | .invalidRange => "invalid range pattern"

/-- A cause and how many characters precede its place. -/
structure PatternFault where
  cause : PatternCause
  position : Nat
  deriving Repr, DecidableEq, Inhabited

def PatternFault.message (f : PatternFault) : String :=
  "Pattern syntax error near position " ++ toString f.position ++ ": " ++ f.cause.message

/-! ## Reading -/

namespace Pattern

/-- What a text consists of. -/
inductive Item where
  | wildcard (w : Wildcard)
  /-- Two stars that are a name of their own, with the slash behind them. -/
  | stars
  deriving Repr, DecidableEq, Inhabited

/-- The ranges of a class: two characters with a hyphen between them, or one. -/
def ranges : List Char → List (Char × Char)
  | low :: '-' :: high :: rest => (low, high) :: ranges rest
  | c :: rest => (c, c) :: ranges rest
  | [] => []

/-- The characters of a class that ends with a bracket, and what follows it. A
bracket that comes first belongs to the class. -/
def classBody? : List Char → Option (List Char × List Char)
  | [] => none
  | c :: rest =>
    match rest.dropWhile (· != ']') with
    | [] => none
    | _ :: behind => some (c :: rest.takeWhile (· != ']'), behind)

/-- The class that follows an opening bracket, and what follows it. -/
def class? : List Char → Option (Wildcard × List Char)
  | '!' :: rest => (classBody? rest).map fun (cs, behind) => (.among (ranges cs) true, behind)
  | rest => (classBody? rest).map fun (cs, behind) => (.among (ranges cs) false, behind)

/-- Where in a text a reader is. -/
structure Spot where
  position : Nat
  /-- Whether a name begins here. -/
  atStart : Bool
  deriving Repr, DecidableEq, Inhabited

/-- Read what stars mean, of which there are `count` in front of `behind`. -/
def readStars (spot : Spot) (count : Nat) (behind : List Char) :
    Except PatternFault (Item × List Char) :=
  if 2 < count then .error ⟨.tooManyStars, spot.position + 2⟩
  else if count = 2 then
    -- two stars stand for directories only as a whole component
    if spot.atStart then
      match behind with
      | [] => .ok (.stars, [])
      | '/' :: behind => .ok (.stars, behind)
      | _ => .error ⟨.starsInName, spot.position + 2⟩
    else .error ⟨.starsInName, spot.position - 1⟩
  else .ok (.wildcard .several, behind)

/-- Read the item at the head of `c :: rest`. -/
def readItem (spot : Spot) (c : Char) (rest : List Char) :
    Except PatternFault (Item × List Char) :=
  if c = '?' then .ok (.wildcard .one, rest)
  else if c = '*' then
    readStars spot (1 + (rest.takeWhile (· == '*')).length) (rest.dropWhile (· == '*'))
  else if c = '[' then
    match class? rest with
    | some (w, behind) => .ok (.wildcard w, behind)
    | none => .error ⟨.invalidRange, spot.position⟩
  else .ok (.wildcard (.exactly c), rest)

/-- Read the items of a text. Every one takes at least one character of `fuel`. -/
def readItems : Nat → Spot → List Char → Except PatternFault (List Item)
  | _, _, [] => .ok []
  | 0, _, _ :: _ => .ok []
  | fuel + 1, spot, c :: rest =>
    match readItem spot c rest with
    | .error e => .error e
    | .ok (item, behind) =>
      let taken := rest.length + 1 - behind.length
      -- a slash that has been taken is what the next component begins behind
      let spot := ⟨spot.position + taken, ((c :: rest).drop (taken - 1)).head? == some '/'⟩
      (readItems fuel spot behind).map (item :: ·)

def itemsOf (cs : List Char) : Except PatternFault (List Item) :=
  readItems cs.length ⟨0, true⟩ cs

/-- The wildcards among items. -/
def wildcards (items : List Item) : List Wildcard :=
  items.filterMap fun
    | .wildcard w => some w
    | .stars => none

/-- What a name in a pattern stands for. -/
def readComponent (name : List Char) : Except PatternFault Component :=
  (itemsOf name).map fun items =>
    if items.contains .stars then .deep else .named (wildcards items)

/-- The names of a pattern, without an empty one at the end. -/
def namesOf (cs : List Char) : List (List Char) :=
  let names := Text.pieces '/' cs
  if names.getLast? = some [] then names.dropLast else names

/-- The pattern that a text is. The text is checked as a whole before the names
in it are. -/
def parse (text : String) : Except PatternFault Pattern := do
  let cs := text.toList
  let _ ← itemsOf cs
  let isAbsolute := cs.head? == some '/'
  let components ← (namesOf (if isAbsolute then cs.drop 1 else cs)).mapM readComponent
  pure { isAbsolute, components, onlyDirectories := cs.getLast? == some '/' }

end Pattern

/-! ## Matching -/

/-- Whether a wildcard stands for a character. -/
def Wildcard.standsFor : Wildcard → Char → Bool
  | .exactly d, c => c == d
  | .one, _ => true
  | .several, _ => true
  | .among ranges inverted, c =>
    (ranges.any fun (low, high) => low ≤ c && c ≤ high) != inverted

/-- Whether a list or one of what remains of it behind some of its characters
has a property. -/
def anySuffix (p : List Char → Bool) : List Char → Bool
  | [] => p []
  | c :: rest => p (c :: rest) || anySuffix p rest

/-- Whether wildcards stand for the whole of a name. -/
def Wildcard.accepts : List Wildcard → List Char → Bool
  | [], cs => cs.isEmpty
  | .several :: ws, cs => anySuffix (Wildcard.accepts ws) cs
  | _ :: _, [] => false
  | w :: ws, c :: cs => w.standsFor c && Wildcard.accepts ws cs

/-- The only name that wildcards stand for, if they are plain characters. -/
def Wildcard.plain? : List Wildcard → Option (List Char)
  | [] => some []
  | .exactly c :: ws => (Wildcard.plain? ws).map (c :: ·)
  | _ => none

/-- Whether a component stands for a name. -/
def Component.accepts : Component → String → Bool
  | .deep, _ => false
  | .named ws, name => Wildcard.accepts ws name.toList

/-! ## Searching -/

/-- A name inside a directory. The directory that paths start from is not
written. -/
def entryPath (path name : String) : String :=
  if Path.isHere path then name else Path.join path name

/-- A way from a directory. -/
def wayPath (path : String) (way : Location) : String := way.foldl entryPath path

/-- The ways from a directory to everything in it, in order. -/
def waysFrom (files : Files) (path : String) : List Location :=
  match files.find path, files.locate path with
  | .ok .directory, .ok place => files.contents place
  | _, _ => []

/-- The names in a directory, in order. -/
def entryNames (files : Files) (path : String) : List String :=
  (waysFrom files path).filterMap fun
    | [name] => some name
    | _ => none

/-- The names for the directory itself and the one around it that wildcards
stand for, which they do only if they begin with a point. -/
def dotNames : List Wildcard → List String
  | .exactly '.' :: ws =>
    ["..", "."].filter fun name => Wildcard.accepts (.exactly '.' :: ws) name.toList
  | _ => []

/-- The paths inside a directory that wildcards stand for. Plain characters are
looked up without a search. -/
def step (files : Files) (ws : List Wildcard) (path : String) : List String :=
  match Wildcard.plain? ws with
  | some cs =>
    let name := String.ofList cs
    let found := entryPath path name
    -- a point leads nowhere new, so it needs no entry but a directory to stand in
    let isThere :=
      if name == "." || name == ".." then files.isDirectory path else files.isPresent found
    if isThere then [found] else []
  | none =>
    if files.isDirectory path then
      (dotNames ws).map (Path.join path) ++
        ((entryNames files path).filter fun name => Wildcard.accepts ws name.toList).map
          (entryPath path)
    else []

/-- Whether the last name of a path is accepted. -/
def acceptsLast (c : Component) (path : String) : Bool :=
  match Path.lastName? path with
  | some name => c.accepts name
  | none => false

/-- The paths that components stand for inside a directory. Any number of
directories stands for everything in the directory, however deep: the component
behind it must accept the last name, and if there is none, directories alone
are meant. -/
def search (files : Files) : List Component → String → List String
  | [], path => [path]
  | .named ws :: rest, path => (step files ws path).flatMap (search files rest)
  | .deep :: rest, path =>
    let found := (waysFrom files path).map (wayPath path)
    match rest with
    | [] => found.filter files.isDirectory
    -- `search` of several in a row is that of the last one
    | .deep :: rest => search files (.deep :: rest) path
    | .named ws :: rest =>
      (found.filter (acceptsLast (.named ws))).flatMap (search files rest)

/-- The paths that a pattern stands for, in order. -/
def matching (files : Files) (pattern : Pattern) : List String :=
  let found := search files pattern.components (if pattern.isAbsolute then "/" else ".")
  if pattern.onlyDirectories then found.filter files.isDirectory else found

end Shapewright.Files
