import Shapewright.Plan.Basic
import Shapewright.Rendered
import Shapewright.Name.Identifier

/-!
# C++ structs

Fields in snake case, types of the standard library always qualified, so that no
type name has to be avoided.
-/

namespace Shapewright.CPlusPlus

def keywords : List String :=
  ["alignas", "alignof", "and", "asm", "auto", "bool", "break", "case", "catch", "char", "class",
    "const", "constexpr", "continue", "decltype", "default", "delete", "do", "double", "else",
    "enum", "explicit", "export", "extern", "false", "float", "for", "friend", "goto", "if",
    "inline", "int", "long", "mutable", "namespace", "new", "noexcept", "not", "nullptr",
    "operator", "or", "private", "protected", "public", "register", "return", "short", "signed",
    "sizeof", "static", "struct", "switch", "template", "this", "throw", "true", "try", "typedef",
    "typename", "union", "unsigned", "using", "virtual", "void", "volatile", "while", "xor"]

def reserved : Reserved := .ofList []

def header : String :=
  "#include <any>\n#include <cstddef>\n#include <cstdint>\n#include <string>\n" ++
    "#include <vector>\n\n"

def typeExpr : Slot → String
  | .null => "std::nullptr_t"
  | .string => "std::string"
  | .integer => "std::int64_t"
  | .number => "double"
  | .boolean => "bool"
  | .any => "std::any"
  | .list item => "std::vector<" ++ typeExpr item ++ ">"
  | .named name => name

def fieldName (key : String) : String := Name.suffixIfReserved (Name.snakeCase key) keywords

def renderField (member : String × Slot) : String :=
  "    " ++ typeExpr member.2 ++ " " ++ fieldName member.1 ++ ";\n"

def renderStruct (d : Declaration) : String :=
  "struct " ++ d.name ++ " \x7b\n" ++
    (if d.isEmpty then "    // no fields observed\n" else "") ++
    String.join (d.slots.map renderField) ++ "\n" ++
    "    " ++ d.name ++ "() = default;\n\x7d;"

def render (p : Plan) : Rendered :=
  .single (stack header (p.types.map renderStruct) "\n\n") .cPlusPlus

end Shapewright.CPlusPlus
