import Shapewright.Dialect.TypeScript

/-!
# JavaScript classes

Classes with documented fields whose constructor takes a plain object over,
turning what is inside into instances of the other classes.

Main definitions:

* `Expr` — the expressions that constructors are made of, with `Expr.text`.
* `construct?` — the instances inside the value of an expression.
* `initializer` — what a constructor assigns to a field.
-/

namespace Shapewright.JavaScript

def reserved : Reserved := .ofList TypeScript.globalTypes

def typeExpr : Slot → String
  | .null => "null"
  | .string => "string"
  | .integer => "number"
  | .number => "number"
  | .boolean => "boolean"
  | .any => "*"
  | .list item => "Array<" ++ typeExpr item ++ ">"
  | .named name => name

/-- An expression over the object given to a constructor. -/
inductive Expr where
  | variable (name : String)
  /-- The property of a named object under a key. -/
  | property (object key : String)
  | instantiate (className : String) (argument : Expr)
  /-- Apply a function of one parameter to every item. -/
  | mapItems (list : Expr) (parameter : String) (body : Expr)
  /-- An expression where it is null or undefined, and another one where it is not. -/
  | unlessNull (tested built : Expr)
  deriving Repr, DecidableEq, Inhabited

/-- The property of an object under a key. -/
def accessText (object key : String) : String :=
  if Name.isPropertyName key then object ++ "." ++ key
  else object ++ "[\"" ++ Text.escapeQuotes key ++ "\"]"

def Expr.text : Expr → String
  | .variable name => name
  | .property object key => accessText object key
  | .instantiate className argument => "new " ++ className ++ "(" ++ argument.text ++ ")"
  | .mapItems list parameter body =>
    list.text ++ ".map((" ++ parameter ++ ") => " ++ body.text ++ ")"
  | .unlessNull tested built =>
    tested.text ++ " == null ? " ++ tested.text ++ " : " ++ built.text

/-- The parameter of the function applied in the list layer `depth`. -/
def itemVariable (depth : Nat) : String :=
  if depth = 0 then "item" else "item" ++ toString depth

/-- `source` with instances in place of the plain objects inside it, where
`depth` list layers are outside already; `none` when there are no objects. -/
def construct? (source : Expr) (depth : Nat) : Slot → Option Expr
  | .named name => some (.instantiate name source)
  | .list item =>
    let parameter := itemVariable depth
    (construct? (.variable parameter) (depth + 1) item).map (.mapItems source parameter)
  | _ => none

/-- The name of the constructor's parameter. -/
def parameterName : String := "data"

/-- The value assigned to the field under `key`. -/
def initializer (key : String) (slot : Slot) : Expr :=
  let source := Expr.property parameterName key
  match construct? source 0 slot with
  | some built => .unlessNull source built
  | none => source

def renderField (member : String × Slot) : String :=
  "    /** @type \x7b" ++ typeExpr member.2 ++ "\x7d */\n" ++
    "    " ++ accessText "this" member.1 ++ " = " ++ (initializer member.1 member.2).text ++ ";\n"

def renderClass (d : Declaration) : String :=
  "class " ++ d.name ++ " \x7b\n" ++
    "  /**\n   * @param \x7bObject\x7d " ++ parameterName ++ "\n   */\n" ++
    "  constructor(" ++ parameterName ++ ") \x7b\n" ++
    (if d.isEmpty then "    // no fields\n" else "") ++
    String.join (d.slots.map renderField) ++ "  \x7d\n\x7d"

/-- `name` inside list types. -/
def listType (name : String) : Nat → String
  | 0 => name
  | layers + 1 => "Array<" ++ listType name layers ++ ">"

def renderAlias (root : String) (layers : Nat) : String :=
  "/**\n * @typedef \x7b" ++ listType root layers ++ "\x7d " ++ TypeScript.aliasName root ++ "\n */"

/-- The alias block, if there are lists around the root. -/
def aliasBlocks (p : Plan) : List String :=
  if p.rootLayers = 0 then [] else [renderAlias p.root.name p.rootLayers]

/-- All names declared at the top level. -/
def declaredNames (p : Plan) : List String := TypeScript.declaredNames p

def render (p : Plan) : Rendered :=
  .single (stack "" (p.types.map renderClass ++ aliasBlocks p) "\n\n") .javaScript

end Shapewright.JavaScript
