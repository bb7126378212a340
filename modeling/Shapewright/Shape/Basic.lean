import Shapewright.Json.Value

/-!
# Shapes

What a sample tells about the documents it stands for: the kind of every value,
the members of every object in source order, and for a list the shape of its
items.

Main definitions:

* `Shape`.
* `Shape.innermost`, `Shape.layers` — a shape without the lists around it, and
  how many there are.
* `Shape.toSchema` — the shape as a schema document.
-/

namespace Shapewright

open Json (Value)

inductive Shape where
  | null
  | string
  /-- A number without fractional part. -/
  | integer
  | number
  | boolean
  /-- Nothing is known, as of the items of an empty list. -/
  | any
  | array (item : Shape)
  | object (fields : List (String × Shape))
  deriving Repr, BEq, Inhabited

/-- The members of an object with their shapes, in source order. -/
abbrev Fields := List (String × Shape)

namespace Shape

/-- The shape inside all lists. -/
def innermost : Shape → Shape
  | .array item => innermost item
  | s => s

/-- How many lists are around the innermost shape. -/
def layers : Shape → Nat
  | .array item => layers item + 1
  | _ => 0

def isObject : Shape → Bool
  | .object _ => true
  | _ => false

/-- A word for the kind of a shape. -/
def kind : Shape → String
  | .null => "null"
  | .string => "string"
  | .integer => "integer"
  | .number => "number"
  | .boolean => "boolean"
  | .any => "any"
  | .array _ => "array"
  | .object _ => "object"

/-! ## Schemas -/

/-- A schema that only names a type. -/
def typeSchema (name : String) : Value := .object [("type", .string name)]

/-- The names that must be present; left out where there are none. -/
def requiredMember (fields : Fields) : List (String × Value) :=
  if fields.isEmpty then []
  else [("required", .array (fields.map fun field => .string field.1))]

mutual

/-- The shape as a schema document. -/
def toSchema : Shape → Value
  | .null => typeSchema "null"
  | .string => typeSchema "string"
  | .integer => typeSchema "integer"
  | .number => typeSchema "number"
  | .boolean => typeSchema "boolean"
  | .any => .object []
  | .array item => .object [("type", .string "array"), ("items", toSchema item)]
  | .object fields =>
    .object ([("type", .string "object"), ("properties", .object (fieldSchemas fields))] ++
      requiredMember fields)

def fieldSchemas : Fields → List (String × Value)
  | [] => []
  | (name, s) :: rest => (name, toSchema s) :: fieldSchemas rest

end

end Shape
end Shapewright
