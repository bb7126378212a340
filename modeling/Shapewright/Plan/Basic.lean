import Shapewright.Plan.Slot
import Shapewright.Plan.Names
import Shapewright.Name.Casing

/-!
# Plans

A plan flattens a shape into types to declare: every object becomes a type of
its own, and types come after those that their members refer to, the root last.
Objects of one shape are not merged. A type is called after the key it stands
under, with the suffix `Item` when there are lists in between; containers are
named before their members, so that they keep the plain name.

Main definitions:

* `Plan.ofShape` — the plan of a shape.
* `Plan.types` — all its types in order of declaration.
-/

namespace Shapewright

open Naming

/-- The types of a shape, and how many lists were around its root object. -/
structure Plan where
  nested : List Declaration
  root : Declaration
  rootLayers : Nat
  deriving Repr, Inhabited

namespace Plan

/-- Nested types first, the root last. -/
def types (p : Plan) : List Declaration := p.nested ++ [p.root]

/-- What collecting a value yields: the names in use afterwards, the types
found, and the names of the types of the containing type's members. -/
structure Collected where
  taken : List String
  found : List Declaration
  children : List (String × String)

mutual

/-- Collect the types of the value under `key` in the type `parent`. An object
is named before its members are looked at, and found after them. -/
def collectShape (r : Reserved) (taken : List String) (parent key : String) (inList : Bool) :
    Shape → Collected
  | .array item => collectShape r taken parent key true item
  | .object fields =>
    let name := claim r taken (plainName key inList) parent
    let inner := collectFields r (name :: taken) name fields
    ⟨inner.taken, inner.found ++ [⟨name, fields, inner.children⟩], [(key, name)]⟩
  | _ => ⟨taken, [], []⟩

/-- Collect the types of the members of the type `parent`. -/
def collectFields (r : Reserved) (taken : List String) (parent : String) : Fields → Collected
  | [] => ⟨taken, [], []⟩
  | (key, s) :: rest =>
    let first := collectShape r taken parent key false s
    let others := collectFields r first.taken parent rest
    ⟨others.taken, first.found ++ others.found, first.children ++ others.children⟩

end

/-- The members of the root type: those of the object inside all lists, and
none if there is no object. -/
def rootFields (s : Shape) : Fields :=
  match s.innermost with
  | .object fields => fields
  | _ => []

/-- The lists around the root object. -/
def rootLayersOf (s : Shape) : Nat := if s.innermost.isObject then s.layers else 0

/-- The plan of a shape whose root type is called after `rootName`. -/
def ofShape (r : Reserved) (rootName : String) (s : Shape) : Plan :=
  let name := claim r [] (Name.pascalCase rootName) ""
  let fields := rootFields s
  let collected := collectFields r [name] name fields
  { nested := collected.found
    root := ⟨name, fields, collected.children⟩
    rootLayers := rootLayersOf s }

end Plan
end Shapewright
