import Shapewright.Plan.Basic
import Shapewright.Rendered
import Shapewright.Text.Quoted
import Shapewright.Options.Basic

/-!
# Kotlin data classes

Properties in camel case. Hard keywords stand between backticks; soft ones are
names like any other.
-/

namespace Shapewright.Kotlin

/-- The hard keywords. -/
def keywords : List String :=
  ["as", "break", "class", "continue", "do", "else", "false", "for", "fun", "if", "in",
    "interface", "is", "null", "object", "package", "return", "super", "this", "throw", "true",
    "try", "typealias", "typeof", "val", "var", "when", "while"]

/-- Types that declarations refer to by their plain names. -/
def reserved : Reserved :=
  .ofList ["_", "Any", "String", "Int", "Double", "Boolean", "List", "JsonProperty"]

def typeExpr : Slot → String
  | .null => "Any?"
  | .string => "String"
  | .integer => "Int"
  | .number => "Double"
  | .boolean => "Boolean"
  | .any => "Any"
  | .list item => "List<" ++ typeExpr item ++ ">"
  | .named name => name

/-- The name of the property under a key. A name of underscores alone is
reserved even between backticks. -/
def propertyName (key : String) : String :=
  let name := Name.camelCase key
  if name = "_" then "_0" else name

/-- The name of the property as it is written. -/
def propertyText (key : String) : String :=
  let name := propertyName key
  if keywords.contains name then "`" ++ name ++ "`" else name

/-- A key between quotes: the dollar sign would begin a template. -/
def escapeKey (key : String) : String :=
  String.ofList (Text.escapeWith ['\\', '"', '$'] key.toList)

def renderProperty (options : KotlinOptions) (member : String × Slot) : String :=
  (if options.useJsonProperty && propertyName member.1 != member.1 then
      "    @JsonProperty(\"" ++ escapeKey member.1 ++ "\")\n"
    else "") ++
    "    val " ++ propertyText member.1 ++ ": " ++ typeExpr member.2

/-- A data class needs a property, so an object without members is a plain class. -/
def renderClass (options : KotlinOptions) (d : Declaration) : String :=
  if d.isEmpty then "class " ++ d.name ++ " \x7b\n    // no fields observed\n\x7d"
  else
    "data class " ++ d.name ++ "(\n" ++
      ",\n".intercalate (d.slots.map (renderProperty options)) ++ "\n)"

def header (options : KotlinOptions) : String :=
  if options.useJsonProperty then "import com.fasterxml.jackson.annotation.JsonProperty\n\n" else ""

def render (p : Plan) (options : KotlinOptions) : Rendered :=
  if options.multipleFiles then
    .files <| perTypeFiles (p.types.map fun d => (d.name, renderClass options d)) (header options)
      Target.kotlin.extension .kotlin
  else .single (stack (header options) (p.types.map (renderClass options)) "\n\n") .kotlin

end Shapewright.Kotlin
