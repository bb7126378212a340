/-!
# Casing

The three spellings of a name. Any text is a name here: it is split into words
at every character that is not an ASCII letter or digit, so whatever the text,
each spelling is an identifier of ASCII letters, digits and underscores that
does not begin with a digit.

Main definitions:

* `words` — the maximal runs of letters and digits.
* `humps` — the parts of a word, cut where its case says that a new one begins.
* `pascalCase`, `camelCase`, `snakeCase`.
-/

namespace Shapewright.Name

/-- Split at every character outside words. -/
def splitWords : List Char → List (List Char)
  | [] => [[]]
  | c :: rest =>
    if c.isAlphanum then
      match splitWords rest with
      | [] => [[c]]
      | word :: others => (c :: word) :: others
    else [] :: splitWords rest

/-- The maximal runs of ASCII letters and digits. -/
def words (cs : List Char) : List (List Char) := (splitWords cs).filter (!·.isEmpty)

/-- An identifier is neither empty nor begins with a digit: an underscore mends both. -/
def finish : List Char → List Char
  | [] => ['_']
  | c :: rest => if c.isDigit then '_' :: c :: rest else c :: rest

def upperFirst : List Char → List Char
  | [] => []
  | c :: rest => c.toUpper :: rest

def lowerFirst : List Char → List Char
  | [] => []
  | c :: rest => c.toLower :: rest

/-- Every word with an upper-case first letter, without anything between them. -/
def pascal (cs : List Char) : List Char := finish ((words cs).flatMap upperFirst)

/-- As `pascal`, with a lower-case first letter. -/
def camel (cs : List Char) : List Char := lowerFirst (pascal cs)

/-- Whether a new part begins at `c`, after `previous` and before `following`: an
upper-case letter after a lower-case one or a digit, or the last upper-case
letter of a run that a lower-case one follows. -/
def isBoundary (previous c : Char) (following : List Char) : Bool :=
  c.isUpper &&
    (previous.isLower || previous.isDigit ||
      (previous.isUpper && (following.head?.any Char.isLower)))

/-- The parts of what follows `previous` in a word, lower-cased; the first of
them continues the part that `previous` belongs to. -/
def humpsAfter (previous : Char) : List Char → List (List Char)
  | [] => [[]]
  | c :: rest =>
    match humpsAfter c rest with
    | [] => [[c.toLower]]
    | hump :: others =>
      if isBoundary previous c rest then [] :: (c.toLower :: hump) :: others
      else (c.toLower :: hump) :: others

/-- The parts of a word, lower-cased. -/
def humps : List Char → List (List Char)
  | [] => []
  | c :: rest =>
    match humpsAfter c rest with
    | [] => [[c.toLower]]
    | hump :: others => (c.toLower :: hump) :: others

/-- All parts of all words, lower-cased and joined by underscores. -/
def snake (cs : List Char) : List Char :=
  finish (List.intercalate ['_'] ((words cs).flatMap humps))

def pascalCase (s : String) : String := String.ofList (pascal s.toList)

def camelCase (s : String) : String := String.ofList (camel s.toList)

def snakeCase (s : String) : String := String.ofList (snake s.toList)

end Shapewright.Name
