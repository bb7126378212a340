import Shapewright.Proofs.Plan.References
import Shapewright.Proofs.Plan.UniqueNames

/-!
# From a plan back to the shape

The types of a plan say all there is to say about its shape. To read them back,
every name is replaced by the object that the type declared under it stands for,
and so on inside that object. Nothing in a table of types keeps such a reading
from missing a name or from going round in circles; there is no derivation of it
then. For the types of a plan there is one, and it leads to the object inside the
lists of the shape.

Main definitions:

* `Table` — what the declared types look like from outside: their names, and
  what their members refer to.
* `Expands`, `ExpandsMembers` — the shape that a slot stands for, and the members
  that those of a type stand for.

Main results:

* `Expands.unique` — a slot stands for one shape at most.
* `collectFields_expands` — a type found expands to the object that it stands for.
* `expand_root_and_layers` — the root of a plan expands to the root object, and
  the number of lists around it is kept.
-/

namespace Shapewright.Plan

open Naming Collected

/-- Names of types, with what their members refer to. -/
abbrev Table := List (String × List (String × Slot))

/-- The types as a table, in order of declaration. -/
def table (p : Plan) : Table := p.types.map fun d => (d.name, d.slots)

mutual

/-- A slot stands for a shape when that is what remains once all names in it have
been replaced. -/
inductive Expands (types : Table) : Slot → Shape → Prop where
  | null : Expands types .null .null
  | string : Expands types .string .string
  | integer : Expands types .integer .integer
  | number : Expands types .number .number
  | boolean : Expands types .boolean .boolean
  | any : Expands types .any .any
  | list {item : Slot} {s : Shape} (hitem : Expands types item s) :
      Expands types (.list item) (.array s)
  | named {name : String} {members : List (String × Slot)} {fields : Fields}
      (hname : types.lookup name = some members) (hmembers : ExpandsMembers types members fields) :
      Expands types (.named name) (.object fields)

/-- The members with the shapes that their slots stand for. -/
inductive ExpandsMembers (types : Table) : List (String × Slot) → Fields → Prop where
  | nil : ExpandsMembers types [] []
  | cons {key : String} {slot : Slot} {rest : List (String × Slot)} {s : Shape} {others : Fields}
      (hslot : Expands types slot s) (hrest : ExpandsMembers types rest others) :
      ExpandsMembers types ((key, slot) :: rest) ((key, s) :: others)

end

variable {types : Table}

/-! ## One result at most -/

mutual

/-- **A slot stands for one shape at most.** A name leads to one entry of the table, whatever
else is listed under it further on, so that no derivation has a choice. -/
theorem Expands.unique {slot : Slot} {s t : Shape} (hs : Expands types slot s)
    (ht : Expands types slot t) : s = t := by
  cases hs with
  | list hs =>
    cases ht with
    | list ht => rw [hs.unique ht]
  | named hname hs =>
    cases ht with
    | named hother ht =>
      obtain rfl := Option.some.inj (hname.symm.trans hother)
      rw [hs.unique ht]
  | _ =>
    cases ht
    rfl

/-- The same for the members of a type, one after the other. -/
theorem ExpandsMembers.unique {members : List (String × Slot)} {fields others : Fields}
    (hfields : ExpandsMembers types members fields)
    (hothers : ExpandsMembers types members others) : fields = others := by
  cases hfields with
  | nil =>
    cases hothers
    rfl
  | cons hslot hrest =>
    cases hothers with
    | cons hslot' hrest' => rw [hslot.unique hslot', hrest.unique hrest']

end

/-! ## What a run finds expands to what it was found for -/

/-- The table knows the types of a list of declarations by their names. -/
def Knows (types : Table) (found : List Declaration) : Prop :=
  ∀ d ∈ found, types.lookup d.name = some d.slots

/-- A table knows two lists of types if it knows each of them. -/
theorem knows_append {xs ys : List Declaration} :
    Knows types (xs ++ ys) ↔ Knows types xs ∧ Knows types ys := List.forall_mem_append

/-- A declaration that keeps the names that a run yields for some fields has
members that expand to these fields, in a table that knows the types of the run.
The keys have to be distinct, for otherwise one name is looked up for two members. -/
theorem collectFields_expands (r : Reserved) (taken : List String) (parent : String)
    (fields : Fields) : ∀ d : Declaration, Shape.MembersDistinct fields →
    Knows types (collectFields r taken parent fields).found →
    d.Keeps (collectFields r taken parent fields).children →
    ExpandsMembers types (d.resolveFields fields) fields := by
  apply (collectShape.mutual_induct r
    (fun taken parent key inList s => ∀ (d : Declaration) (resolvedInList : Bool),
      s.KeysDistinct → Knows types (collectShape r taken parent key inList s).found →
      d.Keeps (collectShape r taken parent key inList s).children →
      Expands types (d.resolve key resolvedInList s) s)
    (fun taken parent fields => ∀ d : Declaration, Shape.MembersDistinct fields →
      Knows types (collectFields r taken parent fields).found →
      d.Keeps (collectFields r taken parent fields).children →
      ExpandsMembers types (d.resolveFields fields) fields) ?_ ?_ ?_ ?_ ?_).2
    taken parent fields
  · intro taken parent key inList item ih d resolvedInList hdistinct hknows hkeeps
    rw [collectShape_array] at hknows hkeeps
    exact .list (ih d true hdistinct hknows hkeeps)
  · intro taken parent key inList fields name ih d resolvedInList hdistinct hknows hkeeps
    rw [collectShape_object, declare] at hknows hkeeps
    obtain ⟨hinner, hself⟩ := knows_append.mp hknows
    -- the slot names the type that was declared last
    have hname : d.childName key resolvedInList = name :=
      Declaration.childName_of_lookup (hkeeps (key, name) (List.mem_singleton_self _)) _
    show Expands types (.named (d.childName key resolvedInList)) _
    rw [hname]
    refine .named (hself _ (List.mem_singleton_self _)) (ih _ hdistinct.2 hinner ?_)
    exact Declaration.IsComplete.keeps (r := r) (d := ⟨name, fields, _⟩)
      ⟨⟨name :: taken, rfl⟩, hdistinct.1⟩
  · intro s taken parent key inList harray hobject d resolvedInList _ _ _
    cases s with
    | array item => exact absurd rfl (harray item)
    | object fields => exact absurd rfl (hobject fields)
    | _ => constructor
  · intro taken parent d _ _ _
    exact .nil
  · intro taken parent key s rest first hfirst hothers d hdistinct hknows hkeeps
    rw [collectFields_cons, followedBy, knows_append] at hknows
    rw [collectFields_cons, followedBy, Declaration.keeps_append] at hkeeps
    exact .cons (hfirst d false hdistinct.1 hknows.1 hkeeps.1)
      (hothers d hdistinct.2 hknows.2 hkeeps.2)

/-! ## Plans -/

/-- A table ends with the root. -/
theorem getLast?_table (p : Plan) : p.table.getLast? = some (p.root.name, p.root.slots) := by
  rw [table, types, List.map_append]
  exact List.getLast?_concat

/-- As the names are distinct, every type is found in the table by its own. -/
theorem knows_types {r : Reserved} (hr : r.Escapable) (rootName : String) (s : Shape) :
    Knows (ofShape r rootName s).table (ofShape r rootName s).types := by
  intro d hd
  have hkeys : (ofShape r rootName s).table.map Prod.fst =
      (ofShape r rootName s).declaredNames := by
    rw [table, List.map_map]
    rfl
  have hnodup := (isSupply_declaredNames hr rootName s).nodup
  rw [← hkeys] at hnodup
  exact lookup_of_mem hnodup (d.name, d.slots) (List.mem_map_of_mem hd)

/-- The root expands to the object inside all lists, and to nothing else: every name in the
table leads to one type. -/
theorem expandsMembers_root_iff {r : Reserved} (hr : r.Escapable) {s : Shape}
    (hs : s.KeysDistinct) (rootName : String) {fields : Fields} :
    ExpandsMembers (ofShape r rootName s).table (ofShape r rootName s).root.slots fields ↔
      fields = rootFields s := by
  have hroot : (ofShape r rootName s).root ∈ (ofShape r rootName s).types :=
    List.mem_append_right _ (List.mem_singleton_self _)
  have hnested := (knows_append.mp (knows_types hr rootName s)).1
  have hkeeps := (isComplete_of_mem_types hs r rootName _ hroot).keeps
  have hexpands : ExpandsMembers (ofShape r rootName s).table (ofShape r rootName s).root.slots
      (rootFields s) :=
    collectFields_expands r _ _ (rootFields s) _ hs.rootFields.2 hnested hkeeps
  constructor
  · exact fun h => h.unique hexpands
  · rintro rfl
    exact hexpands

/-- **The flattening loses nothing.** Replacing names by declared types from the
members of the root on ends, with the object that the lists of the shape are
around, and the plan says how many lists there are; of a shape without such an
object it ends with the empty object, and no lists are counted. -/
theorem expand_root_and_layers {r : Reserved} (hr : r.Admitted) {s : Shape}
    (hs : s.KeysDistinct) (rootName : String) :
    (∀ (n : Nat) (fields : Fields), s = Shape.inLists n (.object fields) →
      (∀ found, ExpandsMembers (ofShape r rootName s).table (ofShape r rootName s).root.slots
          found ↔ found = fields) ∧
        (ofShape r rootName s).rootLayers = n) ∧
    ((∀ (n : Nat) (fields : Fields), s ≠ Shape.inLists n (.object fields)) →
      (∀ found, ExpandsMembers (ofShape r rootName s).table (ofShape r rootName s).root.slots
          found ↔ found = []) ∧
        (ofShape r rootName s).rootLayers = 0) := by
  have hlayers : (ofShape r rootName s).rootLayers = rootLayersOf s := rfl
  simp only [expandsMembers_root_iff hr.escapable hs rootName, hlayers]
  constructor
  · intro n fields hshape
    rw [rootFields, rootLayersOf, hshape, Shape.innermost_inLists_object,
      Shape.layers_inLists_object]
    exact ⟨fun found => Iff.rfl, rfl⟩
  · intro hnone
    have hinner := Shape.inLists_innermost s
    rw [rootFields, rootLayersOf]
    cases hkind : s.innermost with
    | object fields =>
      -- then the shape would be this object in its lists
      rw [hkind] at hinner
      exact absurd hinner.symm (hnone s.layers fields)
    | _ => exact ⟨fun found => Iff.rfl, rfl⟩

/-- The objects that clash come back from under their changed names. -/
theorem expand_root_and_layers_clashing :
    (Shape.array clashing).KeysDistinct ∧
      ExpandsMembers (ofShape C.reserved "X" (.array clashing)).table
        (ofShape C.reserved "X" (.array clashing)).root.slots (rootFields clashing) ∧
      (ofShape C.reserved "X" (.array clashing)).rootLayers = 1 :=
  have hlists := (expand_root_and_layers (Or.inr ⟨.c, rfl⟩) (s := .array clashing) (by decide)
    "X").1 1 _ rfl
  ⟨by decide, (hlists.1 _).mpr rfl, hlists.2⟩

end Shapewright.Plan
