import Shapewright.Plan.Basic
import Shapewright.Rendered
import Shapewright.Text.Quoted
import Shapewright.Options.Basic

/-!
# Go structs

Exported fields in Pascal case, with the key in a tag where it differs.
-/

namespace Shapewright.Go

/-- The blank identifier declares nothing. -/
def reserved : Reserved := .ofList ["_"]

/-- The package of a file for which none is chosen. -/
def defaultPackage : String := "main"

def typeExpr : Slot → String
  | .null => "interface\x7b\x7d"
  | .string => "string"
  | .integer => "int64"
  | .number => "float64"
  | .boolean => "bool"
  | .any => "interface\x7b\x7d"
  | .list item => "[]" ++ typeExpr item
  | .named name => name

/-- A leading underscore would leave a field unexported. -/
def exported : List Char → List Char
  | '_' :: rest => 'X' :: rest
  | cs => cs

/-- The keywords are in lower case throughout, so no field name is one. -/
def fieldName (key : String) : String := String.ofList (exported (Name.pascal key.toList))

/-- The tag that carries a key, with the blank before it. -/
def tag (key : String) : String := " `json:\"" ++ Text.escapeQuotes key ++ "\"`"

def renderField (member : String × Slot) : String :=
  let name := fieldName member.1
  "\t" ++ name ++ " " ++ typeExpr member.2 ++ (if name = member.1 then "" else tag member.1) ++ "\n"

def renderStruct (d : Declaration) : String :=
  "type " ++ d.name ++ " struct \x7b\n" ++
    (if d.isEmpty then "\t// no fields observed\n" else "") ++
    String.join (d.slots.map renderField) ++ "\x7d"

def header (options : GoOptions) : String :=
  "package " ++ options.packageName.getD defaultPackage ++ "\n\n"

def render (p : Plan) (options : GoOptions) : Rendered :=
  .single (stack (header options) (p.types.map renderStruct) "\n\n") .go

end Shapewright.Go
