import Shapewright.Plan.Basic
import Shapewright.Rendered
import Shapewright.Name.Identifier

/-!
# C structs

Types in snake case with the suffix `_t`. A list is a pointer, and a companion
field holds the number of its items.
-/

namespace Shapewright.C

def keywords : List String :=
  ["auto", "bool", "break", "case", "char", "const", "continue", "default", "do", "double", "else",
    "enum", "extern", "float", "for", "goto", "if", "inline", "int", "long", "register", "restrict",
    "return", "short", "signed", "sizeof", "static", "struct", "switch", "typedef", "union",
    "unsigned", "void", "volatile", "while"]

/-- Types of the included headers. -/
def headerTypes : List String :=
  ["size_t", "ptrdiff_t", "wchar_t", "max_align_t", "int8_t", "int16_t", "int32_t", "int64_t",
    "uint8_t", "uint16_t", "uint32_t", "uint64_t", "intptr_t", "uintptr_t", "intmax_t",
    "uintmax_t"]

def header : String := "#include <stdbool.h>\n#include <stddef.h>\n#include <stdint.h>\n\n"

/-- A declared name as it is written. -/
def typeName (name : String) : String := Name.snakeCase name ++ "_t"

/-- Names that would be written like a type of the headers. -/
def reserved : Reserved := ⟨headerTypes, typeName⟩

def typeExpr : Slot → String
  | .null => "void*"
  | .string => "char*"
  | .integer => "int64_t"
  | .number => "double"
  | .boolean => "bool"
  | .any => "void*"
  | .list item => typeExpr item ++ "*"
  | .named name => typeName name

def fieldName (key : String) : String := Name.suffixIfReserved (Name.snakeCase key) keywords

/-- The companion of a list field. -/
def countName (field : String) : String := field ++ "_count"

/-- The names of the fields that stand for one key. -/
def memberNames (member : String × Slot) : List String :=
  let field := fieldName member.1
  if member.2.isList then [field, countName field] else [field]

def renderField (member : String × Slot) : String :=
  let field := fieldName member.1
  "    " ++ typeExpr member.2 ++ " " ++ field ++ ";\n" ++
    (if member.2.isList then "    size_t " ++ countName field ++ ";\n" else "")

def renderStruct (d : Declaration) : String :=
  "typedef struct \x7b\n" ++
    (if d.isEmpty then "    int dummy; /* empty struct placeholder */\n" else "") ++
    String.join (d.slots.map renderField) ++ "\x7d " ++ typeName d.name ++ ";"

def render (p : Plan) : Rendered :=
  .single (stack header (p.types.map renderStruct) "\n\n") .c

end Shapewright.C
