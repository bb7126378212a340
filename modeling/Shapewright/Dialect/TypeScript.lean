import Shapewright.Plan.Basic
import Shapewright.Rendered
import Shapewright.Name.Identifier
import Shapewright.Text.Quoted

/-!
# TypeScript interfaces

Keys are property names as they are, quoted where they are not identifiers. A
root in lists gets an alias for the list type.
-/

namespace Shapewright.TypeScript

/-- Global names that a declaration would merge with or hide. -/
def globalTypes : List String :=
  ["Array", "Boolean", "Date", "Error", "Function", "JSON", "Map", "Math", "Number", "Object",
    "Promise", "Record", "RegExp", "Set", "String", "Symbol"]

def reserved : Reserved := .ofList globalTypes

def typeExpr : Slot → String
  | .null => "null"
  | .string => "string"
  | .integer => "number"
  | .number => "number"
  | .boolean => "boolean"
  | .any => "any"
  | .list item => typeExpr item ++ "[]"
  | .named name => name

/-- A key as a property name. -/
def propertyKey (key : String) : String :=
  if Name.isPropertyName key then key else "\"" ++ Text.escapeQuotes key ++ "\""

def renderMember (member : String × Slot) : String :=
  "  " ++ propertyKey member.1 ++ ": " ++ typeExpr member.2 ++ ";\n"

def renderInterface (d : Declaration) : String :=
  "interface " ++ d.name ++ " \x7b\n" ++
    (if d.isEmpty then "  [key: string]: unknown;\n" else "") ++
    String.join (d.slots.map renderMember) ++ "\x7d"

/-- The name of the alias for the list type of a root in lists. -/
def aliasName (root : String) : String := root ++ "Array"

def renderAlias (root : String) (layers : Nat) : String :=
  "type " ++ aliasName root ++ " = " ++ root ++ String.join (List.replicate layers "[]") ++ ";"

/-- The alias block, if there are lists around the root. -/
def aliasBlocks (p : Plan) : List String :=
  if p.rootLayers = 0 then [] else [renderAlias p.root.name p.rootLayers]

/-- All names declared at the top level. -/
def declaredNames (p : Plan) : List String :=
  p.types.map Declaration.name ++ if p.rootLayers = 0 then [] else [aliasName p.root.name]

def render (p : Plan) : Rendered :=
  .single (stack "" (p.types.map renderInterface ++ aliasBlocks p) "\n\n") .typeScript

end Shapewright.TypeScript
