import Mathlib.Data.List.Nodup
import Shapewright.Plan.Basic

/-!
# The structure of a shape

What statements about shapes are made of: the lists around a shape, the objects
in it, and that no object has two members of one name, as in any document.

Main definitions:

* `Shape.inLists` — a shape with lists around it; every shape is its innermost
  one in as many lists as it has layers (`inLists_innermost`).
* `Shape.objects` — the objects in a shape, each after those that it contains.
* `Shape.KeysDistinct` — the members of every object have different names.

Main result: `Plan.ofShape_inLists` — what lists around a shape change in its plan.
-/

namespace Shapewright.Shape

/-! ## Lists around a shape -/

/-- `n` lists around a shape. -/
def inLists : Nat → Shape → Shape
  | 0, s => s
  | n + 1, s => .array (inLists n s)

/-- A shape is the lists around it put back around what they hold. -/
theorem inLists_innermost (s : Shape) : inLists s.layers s.innermost = s := by
  induction s using innermost.induct with
  | case1 item ih => rw [layers, innermost, inLists, ih]
  | case2 s hs =>
    cases s with
    | array item => exact absurd rfl (hs item)
    | _ => rfl

/-- Lists may be put around a shape in two portions. -/
theorem inLists_add (m n : Nat) (s : Shape) : inLists (m + n) s = inLists m (inLists n s) := by
  induction m with
  | zero => rw [Nat.zero_add, inLists]
  | succ m ih => rw [Nat.add_right_comm, inLists, ih, inLists]

/-- Lists that are put around a shape are not what is inside them. -/
theorem innermost_inLists (n : Nat) (s : Shape) : (inLists n s).innermost = s.innermost := by
  induction n with
  | zero => rfl
  | succ n ih => rw [inLists, innermost, ih]

/-- They are counted, together with those that the shape had before. -/
theorem layers_inLists (n : Nat) (s : Shape) : (inLists n s).layers = n + s.layers := by
  induction n with
  | zero => rw [inLists, Nat.zero_add]
  | succ n ih => rw [inLists, layers, ih, Nat.add_right_comm]

/-- An object is not looked into: it is what is inside the lists around it. -/
theorem innermost_inLists_object (n : Nat) (fields : Fields) :
    (inLists n (.object fields)).innermost = .object fields :=
  innermost_inLists n (.object fields)

/-- And the lists around it are all the layers that there are. -/
theorem layers_inLists_object (n : Nat) (fields : Fields) :
    (inLists n (.object fields)).layers = n :=
  layers_inLists n (.object fields)

/-! ## The objects in a shape -/

mutual

/-- The members of every object in a shape, an object after those inside it. -/
def objects : Shape → List Fields
  | .array item => objects item
  | .object fields => objectsBelow fields ++ [fields]
  | _ => []

/-- The members of every object inside an object with the given members. -/
def objectsBelow : Fields → List Fields
  | [] => []
  | (_, s) :: rest => objects s ++ objectsBelow rest

end

/-- Lists around a shape hold no objects of their own. -/
theorem objects_innermost (s : Shape) : s.innermost.objects = s.objects := by
  induction s using innermost.induct with
  | case1 item ih =>
    rw [innermost, objects]
    exact ih
  | case2 s hs =>
    cases s with
    | array item => exact absurd rfl (hs item)
    | _ => rfl

/-! ## Distinct names -/

mutual

/-- In no object of the shape do two members have the same name. -/
def KeysDistinct : Shape → Prop
  | .array item => KeysDistinct item
  | .object fields => (fields.map Prod.fst).Nodup ∧ MembersDistinct fields
  | _ => True

/-- The same in the shapes of all members. -/
def MembersDistinct : Fields → Prop
  | [] => True
  | (_, s) :: rest => KeysDistinct s ∧ MembersDistinct rest

end

mutual

/-- Whether names are distinct can be computed. -/
def decideKeysDistinct : (s : Shape) → Decidable s.KeysDistinct
  | .null | .string | .integer | .number | .boolean | .any => isTrue trivial
  | .array item => decideKeysDistinct item
  | .object fields =>
    have := decideMembersDistinct fields
    inferInstanceAs (Decidable ((fields.map Prod.fst).Nodup ∧ MembersDistinct fields))

def decideMembersDistinct : (fields : Fields) → Decidable (MembersDistinct fields)
  | [] => isTrue trivial
  | (_, s) :: rest =>
    have := decideKeysDistinct s
    have := decideMembersDistinct rest
    inferInstanceAs (Decidable (KeysDistinct s ∧ MembersDistinct rest))

end

instance (s : Shape) : Decidable s.KeysDistinct := decideKeysDistinct s

/-- What is inside the lists repeats no key if the whole does not. -/
theorem KeysDistinct.innermost {s : Shape} (h : s.KeysDistinct) : s.innermost.KeysDistinct := by
  induction s using innermost.induct with
  | case1 item ih =>
    rw [Shape.innermost]
    exact ih h
  | case2 s hs =>
    cases s with
    | array item => exact absurd rfl (hs item)
    | _ => exact h

/-- The fields of the root are those of the object inside the lists, or none. -/
theorem KeysDistinct.rootFields {s : Shape} (h : s.KeysDistinct) :
    KeysDistinct (.object (Plan.rootFields s)) := by
  have hinner := h.innermost
  rw [Plan.rootFields]
  split
  · next fields heq =>
    rw [heq] at hinner
    exact hinner
  · exact ⟨List.nodup_nil, trivial⟩

mutual

/-- No object anywhere in a shape repeats a key. The shape is gone through with its objects,
each container below the one before it. -/
theorem nodup_of_mem_objects : ∀ s : Shape, s.KeysDistinct →
    ∀ fields ∈ s.objects, (fields.map Prod.fst).Nodup
  | .null, _, _, hmem | .string, _, _, hmem | .integer, _, _, hmem | .number, _, _, hmem
  | .boolean, _, _, hmem | .any, _, _, hmem => absurd hmem List.not_mem_nil
  | .array item, h, fields, hmem => nodup_of_mem_objects item h fields hmem
  | .object members, h, fields, hmem => by
    rcases List.mem_append.mp hmem with hbelow | hself
    · exact nodup_of_mem_objectsBelow members h.2 fields hbelow
    · rw [List.mem_singleton] at hself
      rw [hself]
      exact h.1

/-- The objects below the members of an object are those of one member after the other. -/
theorem nodup_of_mem_objectsBelow : ∀ members : Fields, MembersDistinct members →
    ∀ fields ∈ objectsBelow members, (fields.map Prod.fst).Nodup
  | [], _, _, hmem => absurd hmem List.not_mem_nil
  | (_, s) :: rest, h, fields, hmem => by
    rcases List.mem_append.mp hmem with hfirst | hrest
    · exact nodup_of_mem_objects s h.1 fields hfirst
    · exact nodup_of_mem_objectsBelow rest h.2 fields hrest

end

end Shapewright.Shape

namespace Shapewright.Plan

/-! ## Plans of lists -/

/-- Lists around a shape are counted, if there is an object inside. -/
theorem rootLayersOf_inLists (n : Nat) (s : Shape) :
    rootLayersOf (s.inLists n) = if s.innermost.isObject then n + s.layers else 0 := by
  rw [rootLayersOf, Shape.innermost_inLists, Shape.layers_inLists]

/-- **Lists around a shape change nothing in its plan but the count of layers**, which is kept
at nought where there is no object for them to hold. -/
theorem ofShape_inLists (r : Reserved) (rootName : String) (n : Nat) (s : Shape) :
    ofShape r rootName (s.inLists n) =
      { ofShape r rootName s with
        rootLayers := if s.innermost.isObject then n + s.layers else 0 } := by
  have hfields : rootFields (s.inLists n) = rootFields s := by
    rw [rootFields, rootFields, Shape.innermost_inLists]
  rw [ofShape, ofShape, hfields, rootLayersOf_inLists]

end Shapewright.Plan
