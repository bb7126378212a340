import Shapewright.Json.Value
import Shapewright.Json.Path

/-!
# What a schema demands

A schema is an object whose keywords each demand something of a value: `type` that
it is of the type named, `required` that it has certain members, `properties` that
the members have what their schemas demand, and `items` the same of the items. A
keyword that is missing demands nothing, one with a value of the wrong form cannot
be met, and neither can a schema that is no object.

Main definitions:

* `Schema.validates` — whether a value is such as a schema demands.
* `Json.Value.part?`, `Schema.at?` — the value at a place in a document, and the
  schema for what is there.
-/

namespace Shapewright

namespace Schema

open Json

/-- The value of a keyword. -/
def keyword? (name : String) : Value → Option Value
  | .object keywords => Member.get? name keywords
  | _ => none

/-- Whether a value is of the type with the given name. A number is an integer if it
has no fractional part, however it is written. -/
def isOfType (name : String) : Value → Bool
  | .null => name == "null"
  | .boolean _ => name == "boolean"
  | .number n => name == "number" || (name == "integer" && n.isIntegral)
  | .string _ => name == "string"
  | .array _ => name == "array"
  | .object _ => name == "object"

/-- Whether a value is of the type that a schema names, if it names one. -/
def hasType (schema v : Value) : Bool :=
  match schema, keyword? "type" schema with
  | .object _, none => true
  | .object _, some (.string name) => isOfType name v
  | _, _ => false

/-- Whether a value is the name of one of some members. -/
def namesMember (members : List (String × Value)) : Value → Bool
  | .string name => (Member.names members).contains name
  | _ => false

/-- Whether all members are there that a schema requires. -/
def hasRequired (schema : Value) (members : List (String × Value)) : Bool :=
  match keyword? "required" schema with
  | none => true
  | some (.array names) => names.all (namesMember members)
  | some _ => false

/-- The schemas that are given for members by name. -/
def properties? (schema : Value) : Option (List (String × Value)) :=
  match keyword? "properties" schema with
  | none => some []
  | some (.object properties) => some properties
  | some _ => none

/-- The schema that demands nothing. -/
def anything : Value := .object []

mutual

/-- Whether a value is such as a schema demands. -/
def validates (schema : Value) : Value → Bool
  | .array items =>
    hasType schema (.array items) &&
      itemsValidate ((keyword? "items" schema).getD anything) items
  | .object members =>
    hasType schema (.object members) && hasRequired schema members &&
      match properties? schema with
      | none => false
      | some properties => membersValidate properties members
  | v => hasType schema v

def itemsValidate (schema : Value) : List Value → Bool
  | [] => true
  | v :: rest => validates schema v && itemsValidate schema rest

/-- Of members without a schema of their own nothing is demanded. -/
def membersValidate (properties : List (String × Value)) : List (String × Value) → Bool
  | [] => true
  | (name, v) :: rest =>
    validates ((Member.get? name properties).getD anything) v && membersValidate properties rest

end

mutual

/-- What the schema without keywords demands is met by everything. -/
theorem validates_anything : ∀ v : Value, validates anything v = true
  | .null | .boolean _ | .number _ | .string _ => rfl
  | .array items => itemsValidate_anything items
  | .object members => membersValidate_nil members

/-- Where items may be anything, all of them are valid. -/
theorem itemsValidate_anything : ∀ items : List Value, itemsValidate anything items = true
  | [] => rfl
  | v :: rest => by rw [itemsValidate, validates_anything v, itemsValidate_anything rest]; rfl

/-- Where no member is spoken of, all of them are valid. -/
theorem membersValidate_nil : ∀ members : List (String × Value), membersValidate [] members = true
  | [] => rfl
  | (_, v) :: rest => by
    rw [membersValidate, Member.get?, Option.getD_none, validates_anything v,
      membersValidate_nil rest]
    rfl

end

/-! ## Places -/

/-- The schema for the values at a place. -/
def at? : Path → Value → Option Value
  | [], schema => some schema
  | .key name :: rest, schema =>
    ((properties? schema).bind (Member.get? name)).bind (at? rest)
  | .index _ :: rest, schema => (keyword? "items" schema).bind (at? rest)
  | .unknown :: _, _ => none

end Schema

/-- The value at a place. -/
def Json.Value.part? : Path → Value → Option Value
  | [], v => some v
  | .key name :: rest, .object members => (Member.get? name members).bind (part? rest)
  | .index i :: rest, .array items => items[i]?.bind (part? rest)
  | _, _ => none

end Shapewright
