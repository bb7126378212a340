import Shapewright.Plan.Basic
import Shapewright.Rendered
import Shapewright.Text.Quoted

/-!
# Rust structs

Fields in snake case. A field whose name differs from its key says so in an
attribute, and a keyword becomes a raw identifier where the language has one.

Main definitions:

* `FieldName` — how the name of a field is derived from its key.
-/

namespace Shapewright.Rust

/-- Keywords with a raw form. -/
def keywords : List String :=
  ["abstract", "as", "async", "await", "become", "box", "break", "const", "continue", "do", "dyn",
    "else", "enum", "extern", "false", "final", "fn", "for", "gen", "if", "impl", "in", "let",
    "loop", "macro", "match", "mod", "move", "mut", "override", "priv", "pub", "ref", "return",
    "static", "struct", "trait", "true", "try", "type", "typeof", "unsafe", "unsized", "use",
    "virtual", "where", "while", "yield"]

/-- Names without a raw form that are no identifiers either. -/
def notRaw : List String := ["crate", "self", "super", "Self", "_"]

/-- Names that are no type names, and the types that declarations refer to. -/
def reserved : Reserved :=
  .ofList ["Self", "_", "String", "Vec", "Option", "Result", "Box", "Some", "None", "Ok", "Err",
    "Serialize", "Deserialize"]

def header : String := "use serde::\x7bDeserialize, Serialize\x7d;\n\n"

def typeExpr : Slot → String
  | .null => "Option<()>"
  | .string => "String"
  | .integer => "i64"
  | .number => "f64"
  | .boolean => "bool"
  | .any => "serde_json::Value"
  | .list item => "Vec<" ++ typeExpr item ++ ">"
  | .named name => name

/-- The identifier of a field, whether it is written raw, and whether the key
has to be given beside it. -/
structure FieldName where
  identifier : String
  raw : Bool
  renamed : Bool
  deriving Repr, DecidableEq, Inhabited

def fieldName (key : String) : FieldName :=
  let snake := Name.snakeCase key
  if notRaw.contains snake then ⟨snake ++ "_", false, true⟩
  else ⟨snake, keywords.contains snake, snake != key⟩

def FieldName.text (f : FieldName) : String :=
  if f.raw then "r#" ++ f.identifier else f.identifier

def renameAttribute (key : String) : String :=
  "    #[serde(rename = \"" ++ Text.escapeAscii key ++ "\")]\n"

def renderField (member : String × Slot) : String :=
  let name := fieldName member.1
  (if name.renamed then renameAttribute member.1 else "") ++
    "    pub " ++ name.text ++ ": " ++ typeExpr member.2 ++ ",\n"

def renderStruct (d : Declaration) : String :=
  "#[derive(Debug, Clone, Serialize, Deserialize)]\n" ++
    "pub struct " ++ d.name ++ " \x7b\n" ++
    (if d.isEmpty then "    // no fields observed\n" else "") ++
    String.join (d.slots.map renderField) ++ "\x7d"

def render (p : Plan) : Rendered :=
  .single (stack header (p.types.map renderStruct) "\n\n") .rust

end Shapewright.Rust
