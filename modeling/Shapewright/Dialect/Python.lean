import Shapewright.Plan.Basic
import Shapewright.Rendered
import Shapewright.Name.Identifier

/-!
# Python dataclasses

Attributes in snake case, with keywords suffixed.
-/

namespace Shapewright.Python

def keywords : List String :=
  ["and", "as", "assert", "async", "await", "break", "class", "continue", "def", "del", "elif",
    "else", "except", "finally", "for", "from", "global", "if", "import", "in", "is", "lambda",
    "nonlocal", "not", "or", "pass", "raise", "return", "try", "while", "with", "yield"]

/-- The capitalised keywords and the imported type. -/
def reserved : Reserved := .ofList ["None", "True", "False", "Any"]

def header : String := "from dataclasses import dataclass\nfrom typing import Any\n\n\n"

def typeExpr : Slot → String
  | .null => "None"
  | .string => "str"
  | .integer => "int"
  | .number => "float"
  | .boolean => "bool"
  | .any => "Any"
  | .list item => "list[" ++ typeExpr item ++ "]"
  | .named name => name

def fieldName (key : String) : String := Name.suffixIfReserved (Name.snakeCase key) keywords

def renderField (member : String × Slot) : String :=
  "    " ++ fieldName member.1 ++ ": " ++ typeExpr member.2 ++ "\n"

def renderClass (d : Declaration) : String :=
  "@dataclass\nclass " ++ d.name ++ ":\n" ++ (if d.isEmpty then "    pass\n" else "") ++
    String.join (d.slots.map renderField)

def render (p : Plan) : Rendered :=
  .single (stack header (p.types.map renderClass) "\n\n") .python

end Shapewright.Python
