import Shapewright.Text.Blank

/-!
# Identifiers

Which names may be used as they stand: as a type name that a user chose, and as
the bare name of a property in the languages that otherwise quote it.

Main definitions:

* `validate` — the trimmed type name, or the first rule that it breaks.
* `isPropertyName` — whether a key needs no quotes as a property name.
* `suffixIfReserved` — step out of the way of a keyword.
-/

namespace Shapewright.Name

/-- Words with a meaning of their own in at least one supported language. -/
def reservedWords : List String :=
  -- TypeScript and JavaScript
  ["break", "case", "catch", "class", "const", "continue", "debugger", "default",
    "delete", "do", "else", "export", "extends", "false", "finally", "for",
    "function", "if", "import", "in", "instanceof", "let", "new", "null",
    "return", "static", "super", "switch", "this", "throw", "true", "try",
    "typeof", "var", "void", "while", "with", "yield", "enum", "await",
    "interface", "type", "public", "private", "protected", "implements",
    -- Python
    "def", "lambda", "pass", "raise", "global", "nonlocal", "assert", "from", "as",
    "and", "or", "not", "is", "None", "True", "False", "async", "elif", "except",
    -- Java and Kotlin
    "abstract", "boolean", "byte", "char", "double", "final", "float", "int",
    "long", "native", "package", "short", "synchronized", "throws", "transient",
    "volatile", "goto", "strictfp", "sealed", "permits", "record", "val",
    "fun", "object", "when", "companion", "data", "inline", "lateinit", "override",
    -- Go
    "chan", "defer", "fallthrough", "go", "map", "range", "select", "struct",
    -- Rust
    "crate", "dyn", "extern", "fn", "impl", "loop", "match", "mod", "move",
    "mut", "pub", "ref", "self", "Self", "trait", "unsafe", "use", "where",
    -- C and C++
    "auto", "register", "signed", "sizeof", "typedef", "union", "unsigned",
    "asm", "template", "typename", "virtual", "namespace", "using", "operator",
    "friend", "explicit", "mutable", "constexpr", "decltype", "nullptr"]

/-- Why a type name is refused. -/
inductive Refusal where
  | empty
  | leadingDigit
  | invalidCharacters
  | reserved (name : String)
  deriving Repr, DecidableEq, Inhabited

def Refusal.message : Refusal → String
  | .empty => "Type name cannot be empty"
  | .leadingDigit => "Type name cannot start with a number"
  | .invalidCharacters => "Type name can only contain letters, numbers, and underscores"
  | .reserved name => "\"" ++ name ++ "\" is a reserved word in some languages"

/-- Letters, digits and the underscore, of ASCII alone. -/
def isNameChar (c : Char) : Bool := c.isAlphanum || c == '_'

def isNameStart (c : Char) : Bool := c.isAlpha || c == '_'

/-- Whether the characters form a type name. -/
def isTypeName : List Char → Bool
  | [] => false
  | c :: rest => isNameStart c && rest.all isNameChar

/-- Whether a name or its lower-case form is a reserved word. Only names of
ASCII characters get here, so lower case is that of ASCII. -/
def isReserved (name : String) : Bool :=
  reservedWords.contains name || reservedWords.contains name.toLower

/-- The trimmed name, if it may name a type. Otherwise the first broken rule, in
the order: empty, leading digit, characters, reserved words. -/
def validate (name : String) : Except Refusal String :=
  let cs := Text.trim name.toList
  let trimmed := String.ofList cs
  match cs with
  | [] => .error .empty
  | c :: _ =>
    if c.isDigit then .error .leadingDigit
    else if !isTypeName cs then .error .invalidCharacters
    else if isReserved trimmed then .error (.reserved trimmed)
    else .ok trimmed

/-- Whether a key can stand unquoted as a property name. -/
def isPropertyName (key : String) : Bool :=
  match key.toList with
  | [] => false
  | c :: rest => (isNameStart c || c == '$') && rest.all fun c => isNameChar c || c == '$'

/-- Append an underscore to a keyword. -/
def suffixIfReserved (name : String) (keywords : List String) : String :=
  if keywords.contains name then name ++ "_" else name

end Shapewright.Name
