import Shapewright.Shape.Basic

/-!
# The shape of a sample

One document is taken as the sample. A list is judged by its first item and a
number by whether it has a fractional part; nothing else of a value matters
beside its kind. Documents that nest too deeply along the values looked at have
no shape.

Main definitions:

* `Shape.sample?` — the shape of a document.
-/

namespace Shapewright

open Json (Value)

namespace Shape

/-- How many lists and objects may be nested in one another. -/
def maxDepth : Nat := 64

mutual

/-- The shape of a value in which `room` more containers may be nested. -/
def sampleWithin? (room : Nat) : Value → Option Shape
  | .null => some .null
  | .boolean _ => some .boolean
  | .number n => some (if n.isIntegral then .integer else .number)
  | .string _ => some .string
  | .array items =>
    match room with
    | 0 => none
    | room + 1 => (sampleFirst? room items).map .array
  | .object members =>
    match room with
    | 0 => none
    | room + 1 => (sampleMembers? room members).map .object

/-- The shape of the first item of a list. -/
def sampleFirst? (room : Nat) : List Value → Option Shape
  | [] => some .any
  | v :: _ => sampleWithin? room v

/-- The shapes of all members of an object. -/
def sampleMembers? (room : Nat) : List (String × Value) → Option Fields
  | [] => some []
  | (name, v) :: rest =>
    match sampleWithin? room v with
    | none => none
    | some s => (sampleMembers? room rest).map ((name, s) :: ·)

end

/-- The shape of a document, if it does not nest more than `maxDepth` containers. -/
def sample? (v : Value) : Option Shape := sampleWithin? maxDepth v

end Shape
end Shapewright
