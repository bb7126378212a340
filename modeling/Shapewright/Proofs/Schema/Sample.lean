import Shapewright.Proofs.Json.DistinctNames
import Shapewright.Proofs.Schema.Reading
import Shapewright.Proofs.Shape.Pruning

/-!
# The schema of a sample

The schema of a shape that was found for a document demands nothing that the part
of the document that was looked at does not have, and it lists the members of
every object there.

Main results:

* `validates_pruned` — the document is such as the schema of its shape demands.
* `exists_properties_of_part?` — the schema lists the members of the object at
  every place.
* `inferred_schema_describes_sample` — both, of a document that has a shape.
-/

namespace Shapewright.Schema

open Json
open Json.Value

/-! ## The members of an object schema -/

/-- Each field has a schema of its own under its key. -/
theorem fieldSchemas_eq_map (fields : Fields) :
    Shape.fieldSchemas fields = fields.map fun f => (f.1, f.2.toSchema) := by
  induction fields with
  | nil => rfl
  | cons f rest ih => rw [Shape.fieldSchemas, ih, List.map_cons]

/-- The schemas for members are those of their shapes, under their names. -/
theorem fieldSchemas_memberShapes (members : List (String × Value)) :
    Shape.fieldSchemas (memberShapes members) =
      members.map fun m => (m.1, m.2.shape.toSchema) := by
  rw [fieldSchemas_eq_map, memberShapes_eq_map, List.map_map]
  rfl

/-- The properties of an object are where its schema says. -/
theorem properties?_toSchema (fields : Fields) :
    properties? (Shape.toSchema (.object fields)) = some (Shape.fieldSchemas fields) := rfl

/-- A schema requires exactly the members that it was made for, so that an object with these
names has all that are required. -/
theorem hasRequired_toSchema {fields : Fields} {members : List (String × Value)}
    (h : Member.names members = fields.map Prod.fst) :
    hasRequired (Shape.toSchema (.object fields)) members = true := by
  have hkeyword : keyword? "required" (Shape.toSchema (.object fields)) =
      Member.get? "required" (Shape.requiredMember fields) := rfl
  rw [hasRequired, hkeyword, Shape.requiredMember]
  cases fields with
  | nil => rfl
  | cons f rest =>
    show ((f :: rest).map fun field => Value.string field.1).all (namesMember members) = true
    rw [List.all_map, List.all_eq_true]
    intro field hfield
    show (Member.names members).contains field.1 = true
    rw [h, List.contains_eq_mem, decide_eq_true_eq]
    exact List.mem_map_of_mem hfield

/-! ## What is demanded -/

mutual

/-- The schema of a value's shape demands nothing that the value, its lists cut to
their first items, does not have. Names have to be distinct, for otherwise two
members share one schema. -/
theorem validates_pruned : ∀ v : Value, v.NamesDistinct →
    validates v.shape.toSchema v.pruned = true
  | .null, _ | .boolean _, _ | .string _, _ => rfl
  | .number n, _ => by
    show validates (Shape.toSchema (if n.isIntegral then .integer else .number)) (.number n) = true
    -- the one keyword of a number says whether it is an integer
    by_cases hn : n.isIntegral = true
    · rw [if_pos hn]
      show isOfType "integer" (.number n) = true
      rw [isOfType, hn]
      rfl
    · rw [if_neg hn]
      rfl
  | .array items, h => itemsValidate_pruned items h
  | .object members, h => by
    -- the required names are the names of the members that are left
    have hnames : Member.names (prunedMembers members) =
        (memberShapes members).map Prod.fst := by
      rw [prunedMembers_eq_map, memberShapes_eq_map, Member.names_map, List.map_map]
      rfl
    -- and each member finds the schema that was made from it
    have hfound : ∀ m ∈ members,
        Member.get? m.1 (Shape.fieldSchemas (memberShapes members)) =
          some m.2.shape.toSchema := by
      intro m hm
      rw [fieldSchemas_memberShapes, Member.get?_map (fun v : Value => v.shape.toSchema),
        Member.get?_of_mem h.1 m hm, Option.map_some]
    rw [pruned, shape, validates, hasRequired_toSchema hnames, properties?_toSchema]
    exact membersValidate_pruned _ members h.2 hfound

/-- A list is left with one item at most, and that is what the schema of its items was made
from. -/
theorem itemsValidate_pruned : ∀ items : List Value, ItemsDistinct items →
    itemsValidate (firstShape items).toSchema (prunedFirst items) = true
  | [], _ => rfl
  | v :: _, h => by
    rw [prunedFirst, itemsValidate, firstShape, validates_pruned v h.1]
    rfl

/-- Members are valid if each finds under its name the schema that was made from its value.
The properties stay the same while the members are gone through. -/
theorem membersValidate_pruned (properties : List (String × Value)) :
    ∀ members : List (String × Value), MembersDistinct members →
    (∀ m ∈ members, Member.get? m.1 properties = some m.2.shape.toSchema) →
    membersValidate properties (prunedMembers members) = true
  | [], _, _ => rfl
  | (name, v) :: rest, h, hfound => by
    have hv : Member.get? name properties = some v.shape.toSchema :=
      hfound (name, v) List.mem_cons_self
    have hrest := membersValidate_pruned properties rest h.2 fun m hm =>
      hfound m (List.mem_cons_of_mem _ hm)
    rw [prunedMembers, membersValidate, hv, Option.getD_some, validates_pruned v h.1, hrest]
    rfl

end

/-! ## What is listed -/

/-- The schema has a place for every object, and lists its members there. The place is
followed on both sides, through the items of lists and the members of objects. -/
theorem exists_properties_of_part? (place : Path) : ∀ (v : Value) (members : List (String × Value)),
    v.pruned.part? place = some (.object members) →
    ∃ schema properties, at? place v.shape.toSchema = some schema ∧
      keyword? "properties" schema = some (.object properties) ∧
      Member.names members = Member.names properties := by
  induction place with
  | nil =>
    intro v members h
    cases v with
    | object ms =>
      have hmembers : prunedMembers ms = members := by
        simpa [pruned, part?] using h
      refine ⟨_, Shape.fieldSchemas (memberShapes ms), rfl, rfl, ?_⟩
      rw [← hmembers, prunedMembers_eq_map, fieldSchemas_memberShapes, Member.names_map,
        Member.names_map (fun v : Value => v.shape.toSchema)]
    | _ => cases h
  | cons step place ih =>
    intro v members h
    cases step with
    | key name =>
      cases v with
      | object ms =>
        -- the member and its schema are found under one name
        rw [pruned, part?, prunedMembers_eq_map, Member.get?_map Value.pruned] at h
        rw [shape, at?, properties?_toSchema, fieldSchemas_memberShapes, Option.bind_some,
          Member.get?_map (fun v : Value => v.shape.toSchema)]
        cases hget : Member.get? name ms with
        | none =>
          rw [hget] at h
          cases h
        | some w =>
          rw [hget] at h
          exact ih w members h
      | _ => cases h
    | index i =>
      cases v with
      | array items =>
        rw [pruned, part?] at h
        cases items with
        | nil => cases h
        | cons w rest =>
          cases i with
          | zero => exact ih w members h
          | succ i => cases h
      | _ => cases h
    | unknown =>
      cases v <;> cases h

/-- **The inferred schema describes its sample.** A document that has a shape is,
with its lists cut to their first items, such as the schema of the shape demands;
and every object in it has exactly the members that the schema lists under
`properties` for its place, in their order. -/
theorem inferred_schema_describes_sample {v : Value} (hv : v.NamesDistinct) {s : Shape}
    (h : inferShape v = .ok s) :
    validates s.toSchema v.pruned = true ∧
      ∀ (place : Path) (members : List (String × Value)),
        v.pruned.part? place = some (.object members) →
        ∃ schema properties, at? place s.toSchema = some schema ∧
          keyword? "properties" schema = some (.object properties) ∧
          Member.names members = Member.names properties := by
  have hs : s = v.shape := by
    rw [inferShape_eq] at h
    split at h
    · exact (Except.ok.inj h).symm
    · cases h
  rw [hs]
  exact ⟨validates_pruned v hv, fun place => exists_properties_of_part? place v⟩

/-- A document whose members are called like keywords, with empty containers and a
number that is whole but has a fraction. -/
def keywordsInside : Value :=
  .object [("type", .array [.object [("items", .number (.real ⟨false, 2, 0⟩)),
    ("required", .object [])], .null]), ("properties", .array [])]

/-- Members that are called like keywords are told from keywords by their place. -/
theorem inferred_schema_describes_sample_keywordsInside :
    keywordsInside.NamesDistinct ∧
      inferShape keywordsInside = .ok keywordsInside.shape ∧
      validates keywordsInside.shape.toSchema keywordsInside.pruned = true ∧
      ∃ schema properties,
        at? [.key "type", .index 0] keywordsInside.shape.toSchema = some schema ∧
        keyword? "properties" schema = some (.object properties) ∧
        ["items", "required"] = Member.names properties := by
  have hnames : keywordsInside.NamesDistinct := by
    simp [keywordsInside, NamesDistinct, ItemsDistinct, MembersDistinct, Member.names]
  have hshape : inferShape keywordsInside = .ok keywordsInside.shape := rfl
  obtain ⟨hvalid, hlisted⟩ := inferred_schema_describes_sample hnames hshape
  exact ⟨hnames, hshape, hvalid, hlisted [.key "type", .index 0] _ rfl⟩

end Shapewright.Schema
