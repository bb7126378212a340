import Mathlib.Logic.Function.Basic
import Shapewright.Shape.Basic

/-!
# Shapes recovered from their schemas

The schema of a shape is an object of one of four forms, told apart by its keywords and
by the type it names. The names of members stand one level below the keywords, so a
member may be called like one. A schema is read back form by form, and nothing is read
that is not the schema of a shape to the last member.

Main definitions:

* `Shape.ofSchema?` — the shape that a document is the schema of.

Main results:

* `Shape.ofSchema?_toSchema` — no shape is lost.
* `Shape.eq_toSchema_and_eq_fieldSchemas` — what is read is a schema, in every part.
* `Shape.schema_determines_shape` — hence no two shapes have one schema.
-/

namespace Shapewright.Shape

open Json (Value)

/-! ## Reading schemas -/

/-- The shape of the type with the given name, if the name says all about it. -/
def scalarNamed? : String → Option Shape
  | "null" => some .null
  | "string" => some .string
  | "integer" => some .integer
  | "number" => some .number
  | "boolean" => some .boolean
  | _ => none

/-- Whether values are the names of some members, in their order. -/
def areNames : List Value → Fields → Bool
  | [], [] => true
  | .string name :: names, (key, _) :: fields => name == key && areNames names fields
  | _, _ => false

/-- Whether what follows the schemas of some members requires just these members. -/
def requires : List (String × Value) → Fields → Bool
  | [], fields => fields.isEmpty
  | [("required", .array names)], fields => !fields.isEmpty && areNames names fields
  | _, _ => false

mutual

/-- The shape that a document is the schema of. -/
def ofSchema? : Value → Option Shape
  | .object [] => some .any
  | .object [("type", .string name)] => scalarNamed? name
  | .object [("type", .string "array"), ("items", item)] => (ofSchema? item).map .array
  | .object (("type", .string "object") :: ("properties", .object properties) :: rest) =>
    ((ofProperties? properties).filter (requires rest)).map .object
  | _ => none

/-- The members whose shapes some schemas are given for. -/
def ofProperties? : List (String × Value) → Option Fields
  | [] => some []
  | (name, schema) :: rest =>
    match ofSchema? schema, ofProperties? rest with
    | some s, some fields => some ((name, s) :: fields)
    | _, _ => none

end

/-- The check of the required names goes through both lists at once, and holds for the names
of all fields in their order alone. -/
theorem areNames_iff {names : List Value} {fields : Fields} :
    areNames names fields = true ↔ names = fields.map fun field => .string field.1 := by
  fun_induction areNames names fields with
  | case1 => simp
  | case2 name names key s fields ih => simp [ih]
  | case3 names fields hnil hcons =>
    refine iff_of_false Bool.false_ne_true fun h => ?_
    cases fields with
    | nil => exact hnil h rfl
    | cons field fields => exact hcons _ _ _ _ _ h rfl

/-- What must follow the properties is determined by the fields: the names of all, or nothing
at all if there are none. -/
theorem requires_iff {rest : List (String × Value)} {fields : Fields} :
    requires rest fields = true ↔ rest = requiredMember fields := by
  rw [requiredMember]
  fun_cases requires rest fields with
  | case1 fields => cases fields <;> simp
  | case2 names fields => cases fields <;> simp [areNames_iff]
  | case3 rest fields hnil hrequired =>
    refine iff_of_false Bool.false_ne_true fun h => ?_
    split at h
    · exact hnil h
    · exact hrequired _ h

/-! ## Nothing is lost -/

mutual

/-- **The schema of a shape is read as that shape.** The recursion goes along the shape, and a
schema is read by the keyword that its form begins with. -/
theorem ofSchema?_toSchema : ∀ s : Shape, ofSchema? s.toSchema = some s
  | .null | .string | .integer | .number | .boolean | .any => rfl
  | .array item => by
    rw [toSchema, ofSchema?, ofSchema?_toSchema item, Option.map_some]
  | .object fields => by
    have hrequires : requires (requiredMember fields) fields = true := requires_iff.mpr rfl
    rw [toSchema, List.cons_append, List.cons_append, List.nil_append, ofSchema?,
      ofProperties?_fieldSchemas fields, Option.filter_some, if_pos hrequires, Option.map_some]

/-- Each property is read as the field it was written for. -/
theorem ofProperties?_fieldSchemas : ∀ fields : Fields,
    ofProperties? (fieldSchemas fields) = some fields
  | [] => rfl
  | (name, s) :: rest => by
    rw [fieldSchemas, ofProperties?, ofSchema?_toSchema s, ofProperties?_fieldSchemas rest]

end

/-! ## Nothing else is read -/

/-- A name that is read as a scalar is the one that this scalar is written by. -/
theorem eq_of_scalarNamed? {name : String} {s : Shape} (h : scalarNamed? name = some s) :
    typeSchema name = s.toSchema := by
  unfold scalarNamed? at h
  split at h <;> cases h <;> rfl

/-- What is read has the document for its schema. The induction is the recursion of the
reader, with one statement for schemas and one for properties. -/
theorem eq_toSchema_and_eq_fieldSchemas :
    (∀ (v : Value) (s : Shape), ofSchema? v = some s → v = s.toSchema) ∧
      ∀ (properties : List (String × Value)) (fields : Fields),
        ofProperties? properties = some fields → properties = fieldSchemas fields := by
  apply ofSchema?.mutual_induct
  case case1 =>
    intro s h
    cases h
    rfl
  case case2 =>
    intro name s h
    exact eq_of_scalarNamed? h
  case case3 =>
    intro item ih s h
    rw [ofSchema?, Option.map_eq_some_iff] at h
    obtain ⟨t, ht, rfl⟩ := h
    rw [toSchema, ← ih t ht]
  -- an object is read only if its required names are those of its properties
  case case4 =>
    intro properties rest ih s h
    rw [ofSchema?, Option.map_eq_some_iff] at h
    obtain ⟨fields, hfields, rfl⟩ := h
    rw [Option.filter_eq_some_iff] at hfields
    rw [toSchema, ← ih fields hfields.1, ← requires_iff.mp hfields.2]
    rfl
  -- no other document is a schema at all
  case case5 =>
    intro v hany hscalar harray hobject s h
    rw [ofSchema?] at h
    · cases h
    all_goals assumption
  case case6 =>
    intro fields h
    cases h
    rfl
  case case7 =>
    intro name schema rest s fields hfields hs ihschema ihrest found h
    rw [ofProperties?, hs, hfields] at h
    cases h
    rw [fieldSchemas, ← ihschema s hs, ← ihrest fields hfields]
  -- a property that cannot be read makes the rest unreadable
  case case8 =>
    intro name schema rest hnone ihschema ihrest found h
    rw [ofProperties?] at h
    split at h
    · next s fields hs hfields => exact (hnone s fields hs hfields).elim
    · cases h

/-- **The schema of a shape tells everything about it.** A document is read as a shape
exactly if it is the schema of that shape, with its members in the order of their fields;
so no two shapes have the same schema, whatever their members are called. -/
theorem schema_determines_shape :
    (∀ (v : Value) (s : Shape), ofSchema? v = some s ↔ v = s.toSchema) ∧
      Function.Injective toSchema := by
  have hread : ∀ (v : Value) (s : Shape), ofSchema? v = some s ↔ v = s.toSchema := by
    intro v s
    constructor
    · exact eq_toSchema_and_eq_fieldSchemas.1 v s
    · rintro rfl
      exact ofSchema?_toSchema s
  refine ⟨hread, fun s t h => ?_⟩
  have hs : ofSchema? s.toSchema = some t := (hread _ t).mpr h
  exact Option.some_inj.mp ((ofSchema?_toSchema s).symm.trans hs)

/-- A member that is described but not required is in no schema of a shape. -/
example : ofSchema? (.object [("type", .string "object"),
    ("properties", .object [("type", .object [])])]) = none := rfl

end Shapewright.Shape
