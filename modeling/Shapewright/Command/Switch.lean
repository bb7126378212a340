/-!
# Verbs and switches

The words that a command line is made of: a verb, and behind it the switches
that the verb knows.

Main definitions:

* `Verb` — the commands by name, with the switches they know.
* `Switch` — the switches by name, with the values they take.
-/

namespace Shapewright.CommandLine

inductive Switch where
  | jsonPointer
  | jqExpr
  | input
  | target
  | rootType
  | option
  | optionsFile
  | multipleFiles
  | out
  | outDir
  deriving Repr, DecidableEq, Inhabited

namespace Switch

/-- The name behind two hyphens. -/
def name : Switch → String
  | .jsonPointer => "json-pointer"
  | .jqExpr => "jq-expr"
  | .input => "input"
  | .target => "target"
  | .rootType => "root-type"
  | .option => "option"
  | .optionsFile => "options-file"
  | .multipleFiles => "multiple-files"
  | .out => "out"
  | .outDir => "out-dir"

/-- The letter behind one hyphen. -/
def letter? : Switch → Option Char
  | .input => some 'i'
  | .target => some 't'
  | .out => some 'o'
  | _ => none

/-- Whether the switch stands alone. -/
def isFlag (s : Switch) : Bool := s == .multipleFiles

/-- Whether the switch takes any number of values at once. -/
def takesMany (s : Switch) : Bool := s == .input

/-- Whether the switch may be given again. -/
def repeats : Switch → Bool
  | .input => true
  | .option => true
  | _ => false

/-- Whether the value is a path, which is not empty. -/
def takesPath : Switch → Bool
  | .optionsFile => true
  | .out => true
  | .outDir => true
  | _ => false

end Switch

/-- The words for the commands. -/
inductive Verb where
  | generate
  | schema
  | targets
  | checkName
  deriving Repr, DecidableEq, Inhabited

namespace Verb

def all : List Verb := [.generate, .schema, .targets, .checkName]

def word : Verb → String
  | .generate => "generate"
  | .schema => "schema"
  | .targets => "targets"
  | .checkName => "check-name"

/-- The switches that the command knows. -/
def switches : Verb → List Switch
  | .generate =>
    [.jsonPointer, .jqExpr, .input, .target, .rootType, .option, .optionsFile, .multipleFiles,
      .out, .outDir]
  | .schema => [.jsonPointer, .jqExpr, .input, .out]
  | .targets => []
  | .checkName => []

/-- Whether the command takes a name. -/
def takesName (v : Verb) : Bool := v == .checkName

def parse? (word : String) : Option Verb := all.find? (·.word == word)

end Verb
end Shapewright.CommandLine
