import Shapewright.Proofs.Plan.Expansion

/-!
# Integers as numbers

A target that has one type for all numbers does not say which of them are whole.
What its output says about a shape is said about the shape with integers widened to
numbers: the types of a plan, widened, can be read back like the types themselves,
and what comes out is the widened object.

Main definitions:

* `Shape.widen`, `Slot.widen`, `Plan.Table.widen` — integers taken for numbers.

Main results:

* `Plan.ExpandsMembers.widen` — reading back commutes with widening.
* `Plan.widenFields_rootFields_eq` — plans with the same types up to widening stand
  for the same object up to widening.
-/

namespace Shapewright

namespace Shape

mutual

/-- The shape with integers taken for numbers. -/
def widen : Shape → Shape
  | .null => .null
  | .string => .string
  | .integer => .number
  | .number => .number
  | .boolean => .boolean
  | .any => .any
  | .array item => .array (widen item)
  | .object fields => .object (widenFields fields)

/-- The same in the shapes of all members. -/
def widenFields : Fields → Fields
  | [] => []
  | (key, s) :: rest => (key, widen s) :: widenFields rest

end

end Shape

namespace Slot

/-- The slot with integers taken for numbers. -/
def widen : Slot → Slot
  | .integer => .number
  | .list item => .list item.widen
  | slot => slot

end Slot

namespace Plan

/-- The members of a type with their slots widened. -/
def widenMembers (members : List (String × Slot)) : List (String × Slot) :=
  members.map fun member => (member.1, member.2.widen)

namespace Table

def widen (types : Table) : Table := types.map fun entry => (entry.1, widenMembers entry.2)

/-- Types keep their names when integers are taken for numbers. -/
theorem names_widen (types : Table) : types.widen.map Prod.fst = types.map Prod.fst := by
  rw [widen, List.map_map]
  rfl

/-- And each name leads to the members that it led to, widened. -/
theorem lookup_widen (types : Table) (name : String) :
    types.widen.lookup name = (types.lookup name).map widenMembers := by
  induction types with
  | nil => rfl
  | cons entry rest ih =>
    rw [widen, List.map_cons, List.lookup_cons, List.lookup_cons, ← widen, ih]
    split <;> rfl

/-- The last type stays the last. -/
theorem getLast?_widen (types : Table) :
    types.widen.getLast? = types.getLast?.map fun entry => (entry.1, widenMembers entry.2) :=
  List.getLast?_map

end Table

/-! ## Reading back -/

variable {types : Table}

mutual

/-- A slot still stands for its shape once integers are numbers in the table, in the slot and
in the shape. -/
theorem Expands.widen {slot : Slot} {s : Shape} (h : Expands types slot s) :
    Expands types.widen slot.widen s.widen := by
  cases h with
  | list hitem => exact .list hitem.widen
  | named hname hmembers =>
    refine .named ?_ hmembers.widen
    rw [Table.lookup_widen, hname, Option.map_some]
  | _ => constructor

/-- What widened types are read back as is what the types are read back as, widened. -/
theorem ExpandsMembers.widen {members : List (String × Slot)} {fields : Fields}
    (h : ExpandsMembers types members fields) :
    ExpandsMembers types.widen (widenMembers members) (Shape.widenFields fields) := by
  cases h with
  | nil => exact .nil
  | cons hslot hrest => exact .cons hslot.widen hrest.widen

end

/-! ## Plans -/

/-- Up to widening, the types of a plan determine the object inside the lists of the
shape. -/
theorem widenFields_rootFields_eq {r : Reserved} (hr : r.Escapable) {s₁ s₂ : Shape}
    (h₁ : s₁.KeysDistinct) (h₂ : s₂.KeysDistinct) {rootName₁ rootName₂ : String}
    (h : (ofShape r rootName₁ s₁).table.widen = (ofShape r rootName₂ s₂).table.widen) :
    Shape.widenFields (rootFields s₁) = Shape.widenFields (rootFields s₂) := by
  have hlast := (ofShape r rootName₁ s₁).table.getLast?_widen
  rw [h, Table.getLast?_widen, getLast?_table, getLast?_table] at hlast
  have hslots : widenMembers (ofShape r rootName₂ s₂).root.slots =
      widenMembers (ofShape r rootName₁ s₁).root.slots :=
    congrArg Prod.snd (Option.some.inj hlast)
  -- the widened root expands to both objects, widened
  have hroot := ((expandsMembers_root_iff hr h₁ rootName₁).mpr rfl).widen
  have hother := ((expandsMembers_root_iff hr h₂ rootName₂).mpr rfl).widen
  rw [h, ← hslots] at hroot
  exact hroot.unique hother

end Plan
end Shapewright
