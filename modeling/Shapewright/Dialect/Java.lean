import Shapewright.Plan.Basic
import Shapewright.Rendered
import Shapewright.Name.Identifier
import Shapewright.Text.Quoted
import Shapewright.Options.Basic

/-!
# Java classes

Classes come in three layouts: nested in the root class, ahead of it in the same
text, or one in each file. Constructors and accessors are written out or left to
annotations.

Main definitions:

* `Field` — the parts of a field that its declaration and its accessors share.
* `renderClass` — one class with the given modifier.
* `render` — the layouts.
-/

namespace Shapewright.Java

def keywords : List String :=
  ["abstract", "assert", "boolean", "break", "byte", "case", "catch", "char", "class", "const",
    "continue", "default", "do", "double", "else", "enum", "extends", "false", "final", "finally",
    "float", "for", "goto", "if", "implements", "import", "instanceof", "int", "interface", "long",
    "native", "new", "null", "package", "private", "protected", "public", "return", "short",
    "static", "strictfp", "super", "switch", "synchronized", "this", "throw", "throws",
    "transient", "true", "try", "void", "volatile", "while", "var", "record", "yield", "_"]

/-- Types that declarations refer to by their plain names. -/
def reserved : Reserved :=
  .ofList ["_", "List", "String", "Object", "Integer", "Double", "Boolean", "JsonProperty", "Data",
    "NoArgsConstructor", "AllArgsConstructor"]

def header (options : JavaOptions) : String :=
  "import java.util.List;\n" ++
    (if options.useJsonProperty then "import com.fasterxml.jackson.annotation.JsonProperty;\n"
      else "") ++
    (if options.useLombok then
      "import lombok.Data;\nimport lombok.NoArgsConstructor;\nimport lombok.AllArgsConstructor;\n"
      else "") ++
    "\n"

def typeExpr : Slot → String
  | .null => "Object"
  | .string => "String"
  | .integer => "Integer"
  | .number => "Double"
  | .boolean => "Boolean"
  | .any => "Object"
  | .list item => "List<" ++ typeExpr item ++ ">"
  | .named name => name

def fieldName (key : String) : String := Name.suffixIfReserved (Name.camelCase key) keywords

/-- A field of a class. -/
structure Field where
  key : String
  name : String
  type : String
  deriving Repr, DecidableEq, Inhabited

namespace Field

def ofMember (member : String × Slot) : Field :=
  ⟨member.1, fieldName member.1, typeExpr member.2⟩

/-- What follows `get` and `set` in the names of the accessors. -/
def accessorSuffix (f : Field) : String := String.ofList (Name.upperFirst f.name.toList)

def getterName (f : Field) : String := "get" ++ f.accessorSuffix

def setterName (f : Field) : String := "set" ++ f.accessorSuffix

def declaration (options : JavaOptions) (f : Field) : String :=
  (if options.useJsonProperty && f.name != f.key then
      "    @JsonProperty(\"" ++ Text.escapeQuotes f.key ++ "\")\n"
    else "") ++
    "    private " ++ f.type ++ " " ++ f.name ++ ";\n"

def parameter (f : Field) : String := f.type ++ " " ++ f.name

/-- The statement that stores the parameter in the field. -/
def assignment (f : Field) : String := "        this." ++ f.name ++ " = " ++ f.name ++ ";\n"

def getter (f : Field) : String :=
  "    public " ++ f.type ++ " " ++ f.getterName ++ "() \x7b\n        return " ++ f.name ++
    ";\n    \x7d\n"

def setter (f : Field) : String :=
  "    public void " ++ f.setterName ++ "(" ++ f.parameter ++ ") \x7b\n" ++ f.assignment ++
    "    \x7d\n"

end Field

def constructors (className : String) (fields : List Field) : List String :=
  ["    public " ++ className ++ "() \x7b\n    \x7d\n",
    "    public " ++ className ++ "(" ++ ", ".intercalate (fields.map Field.parameter) ++
      ") \x7b\n" ++ String.join (fields.map Field.assignment) ++ "    \x7d\n"]

/-- The members of a class, which are set off by blank lines. -/
def members (options : JavaOptions) (className : String) (fields : List Field) : List String :=
  let declarations :=
    (if fields.isEmpty then "    // Empty class\n" else "") ++
      String.join (fields.map (Field.declaration options))
  let constructors :=
    if !options.useLombok && options.includeConstructor && !fields.isEmpty then
      constructors className fields
    else []
  let accessors :=
    if !options.useLombok && options.includeGetterSetter then
      fields.flatMap fun f => [f.getter, f.setter]
    else []
  declarations :: (constructors ++ accessors)

/-- Annotations that stand in for constructors and accessors. A constructor for
no arguments must not be asked for twice. -/
def annotations (options : JavaOptions) (fields : List Field) : String :=
  if options.useLombok then
    "@Data\n@NoArgsConstructor\n" ++ (if fields.isEmpty then "" else "@AllArgsConstructor\n")
  else ""

/-- A class at the left margin. -/
def renderClass (options : JavaOptions) (modifier : String) (d : Declaration) : String :=
  let fields := d.slots.map Field.ofMember
  annotations options fields ++ modifier ++ "class " ++ d.name ++ " \x7b\n" ++
    "\n".intercalate (members options d.name fields) ++ "\x7d"

/-- The lines of a text; a line feed, with or without a carriage return before
it, ends a line, and what follows the last one is a line unless it is empty. -/
def lines : List Char → List (List Char)
  | [] => []
  | '\n' :: rest => [] :: lines rest
  | '\r' :: '\n' :: rest => [] :: lines rest
  | c :: rest =>
    match lines rest with
    | [] => [[c]]
    | line :: others => (c :: line) :: others

/-- Four blanks before every line that is not empty. -/
def indent (block : String) : String :=
  "\n".intercalate <| (lines block.toList).map fun line =>
    if line.isEmpty then "" else "    " ++ String.ofList line

/-- The text with all classes, nested in the root class or ahead of it. -/
def renderText (p : Plan) (options : JavaOptions) : String :=
  let root := renderClass options "public " p.root
  if options.useInnerClass then
    let inner := p.nested.map fun d => indent (renderClass options "public static " d)
    stack (header options) [nestInside root inner] ""
  else
    stack (header options) (p.nested.map (renderClass options "") ++ [root]) "\n\n"

def renderFiles (p : Plan) (options : JavaOptions) : List SourceFile :=
  perTypeFiles (p.types.map fun d => (d.name, renderClass options "public " d)) (header options)
    Target.java.extension .java

def render (p : Plan) (options : JavaOptions) : Rendered :=
  if options.multipleFiles then .files (renderFiles p options)
  else .single (renderText p options) .java

end Shapewright.Java
