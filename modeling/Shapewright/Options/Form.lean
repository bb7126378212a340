import Shapewright.Options.Basic
import Shapewright.Json.Path
import Shapewright.Json.Value
import Shapewright.Text.Shown

/-!
# Forms of options

A form says which options there are, of which kind each one is, and how a value
is entered. Filling in a form goes wrong in the few ways of `Mismatch`.

Main definitions:

* `Form` — the options of one structure in their order.
* `Mismatch` — what can be wrong with a value given for options.
* `PlainOptions.form`, `GoOptions.form`, `KotlinOptions.form`, `JavaOptions.form`.
-/

namespace Shapewright.Options

open Json (Value Path)

/-- The kind of an option: yes or no, or a text that may be left out. -/
inductive Kind where
  | flag
  | text
  deriving Repr, DecidableEq, Inhabited

/-- What a value of a kind is called in messages. -/
def Kind.expected : Kind → String
  | .flag => "a boolean"
  | .text => "a string"

/-- A value entered for an option. -/
inductive Entry where
  | flag (value : Bool)
  | text (value : Option String)
  deriving Repr, DecidableEq, Inhabited

/-- The options that fill in a structure of type `α`. -/
structure Form (α : Type) where
  /-- What the whole is called in messages. -/
  expected : String
  fields : List (String × Kind)
  /-- All options at their defaults. -/
  empty : α
  enter : α → String → Entry → α

namespace Form

variable {α : Type}

def kind? (form : Form α) (name : String) : Option Kind := Json.Member.get? name form.fields

def names (form : Form α) : List String := form.fields.map Prod.fst

end Form

/-- What can be wrong with a value given for options. -/
inductive Mismatch where
  | wrongType (got expected : String)
  | unknownField (name : String) (known : List String)
  | duplicateField (name : String)
  | tooLong (length : Nat)
  deriving Repr, DecidableEq, Inhabited

/-- The known names in a message. -/
def alternatives : List String → String
  | [] => "there are no fields"
  | [a] => "expected `" ++ a ++ "`"
  | [a, b] => "expected `" ++ a ++ "` or `" ++ b ++ "`"
  | names => "expected one of " ++ ", ".intercalate (names.map fun n => "`" ++ n ++ "`")

def Mismatch.message : Mismatch → String
  | .wrongType got expected => "invalid type: " ++ got ++ ", expected " ++ expected
  | .unknownField name known => "unknown field `" ++ name ++ "`, " ++ alternatives known
  | .duplicateField name => "duplicate field `" ++ name ++ "`"
  | .tooLong length =>
    "invalid length " ++ toString length ++ ", expected fewer elements in array"

/-- What a value is called in messages. -/
def describe : Value → String
  | .null => "null"
  | .boolean b => "boolean `" ++ (if b then "true" else "false") ++ "`"
  | .number (.integer n) => "integer `" ++ toString n ++ "`"
  | .number (.real x) => "floating point `" ++ x.toText ++ "`"
  | .string s => "string " ++ Text.shown s
  | .array _ => "sequence"
  | .object _ => "map"

/-- The entry that a value makes for an option of the given kind. -/
def Kind.entry? : Kind → Value → Option Entry
  | .flag, .boolean b => some (.flag b)
  | .text, .null => some (.text none)
  | .text, .string s => some (.text (some s))
  | _, _ => none

end Options

open Options

/-! ## The forms -/

def PlainOptions.enter (o : PlainOptions) : String → Entry → PlainOptions
  | "multipleFiles", .flag b => { o with multipleFiles := b }
  | _, _ => o

def PlainOptions.form : Form PlainOptions where
  expected := "struct PlainOptions"
  fields := [("multipleFiles", .flag)]
  empty := {}
  enter := PlainOptions.enter

def GoOptions.enter (o : GoOptions) : String → Entry → GoOptions
  | "multipleFiles", .flag b => { o with multipleFiles := b }
  | "packageName", .text name => { o with packageName := name }
  | _, _ => o

def GoOptions.form : Form GoOptions where
  expected := "struct GoOptions"
  fields := [("multipleFiles", .flag), ("packageName", .text)]
  empty := {}
  enter := GoOptions.enter

def KotlinOptions.enter (o : KotlinOptions) : String → Entry → KotlinOptions
  | "multipleFiles", .flag b => { o with multipleFiles := b }
  | "useJsonProperty", .flag b => { o with useJsonProperty := b }
  | _, _ => o

def KotlinOptions.form : Form KotlinOptions where
  expected := "struct KotlinOptions"
  fields := [("multipleFiles", .flag), ("useJsonProperty", .flag)]
  empty := {}
  enter := KotlinOptions.enter

def JavaOptions.enter (o : JavaOptions) : String → Entry → JavaOptions
  | "multipleFiles", .flag b => { o with multipleFiles := b }
  | "useJsonProperty", .flag b => { o with useJsonProperty := b }
  | "useLombok", .flag b => { o with useLombok := b }
  | "includeConstructor", .flag b => { o with includeConstructor := b }
  | "includeGetterSetter", .flag b => { o with includeGetterSetter := b }
  | "useInnerClass", .flag b => { o with useInnerClass := b }
  | _, _ => o

def JavaOptions.form : Form JavaOptions where
  expected := "struct JavaOptions"
  fields := [("multipleFiles", .flag), ("useJsonProperty", .flag), ("useLombok", .flag),
    ("includeConstructor", .flag), ("includeGetterSetter", .flag), ("useInnerClass", .flag)]
  empty := {}
  enter := JavaOptions.enter

end Shapewright
