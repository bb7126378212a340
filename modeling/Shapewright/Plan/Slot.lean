import Shapewright.Shape.Basic
import Shapewright.Name.Casing

/-!
# Slots

What a member of a declared type refers to, once every object has a name. A
declared type keeps the names of the types behind its members by key, and a
member that stands for an object is looked up there.

Main definitions:

* `Slot`.
* `plainName` — the name of an object after the key that it stands under.
* `Declaration`, with `Declaration.slots` — what each member refers to.
-/

namespace Shapewright

inductive Slot where
  | null
  | string
  | integer
  | number
  | boolean
  | any
  | list (item : Slot)
  | named (name : String)
  deriving Repr, DecidableEq, Inhabited

namespace Slot

def isList : Slot → Bool
  | .list _ => true
  | _ => false

end Slot

/-- The plain name of an object under `key`, in a list or not. -/
def plainName (key : String) (inList : Bool) : String :=
  if inList then Name.pascalCase key ++ "Item" else Name.pascalCase key

/-- A type to declare: its name, the object that it stands for, and the names of
the types of those members that are objects, in lists or not. -/
structure Declaration where
  name : String
  fields : Fields
  children : List (String × String)
  deriving Repr, Inhabited

namespace Declaration

/-- Whether the object has no members. -/
def isEmpty (d : Declaration) : Bool := d.fields.isEmpty

/-- The name of the type of the member `key`; the plain name if none is kept. -/
def childName (d : Declaration) (key : String) (inList : Bool) : String :=
  (d.children.lookup key).getD (plainName key inList)

/-- What a value of the member `key` refers to. -/
def resolve (d : Declaration) (key : String) (inList : Bool) : Shape → Slot
  | .null => .null
  | .string => .string
  | .integer => .integer
  | .number => .number
  | .boolean => .boolean
  | .any => .any
  | .array item => .list (d.resolve key true item)
  | .object _ => .named (d.childName key inList)

/-- What each member refers to, in source order. -/
def slots (d : Declaration) : List (String × Slot) :=
  d.fields.map fun (key, s) => (key, d.resolve key false s)

end Declaration
end Shapewright
