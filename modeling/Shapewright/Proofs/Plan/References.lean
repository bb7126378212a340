import Shapewright.Proofs.Plan.Collecting
import Shapewright.Proofs.Shape.Structure

/-!
# What declarations refer to

A slot refers to a type by the name that is kept for its key, and to the plain
name if none is kept. A declaration of a plan keeps a name for every member that
needs one, because it was put around the very run over its fields; and since no
two members have the same key, the name that is found is the member's own.

Main definitions:

* `Slot.target?` — the type that a slot refers to, in lists or not.
* `Declaration.references` — the types that the members refer to.
* `Declaration.IsComplete` — it keeps the names that the run over its fields yields.

Main results:

* `Declaration.IsComplete.references_eq` — the references of such a declaration
  are the names that it keeps.
* `collectFields_found_fields` — the types found are the objects inside, in order.
* `isComplete_of_mem_types` — all declarations of a plan are complete.
-/

namespace Shapewright

/-- The type that a slot refers to, in lists or not; none if it names a kind. -/
def Slot.target? : Slot → Option String
  | .list item => item.target?
  | .named name => some name
  | _ => none

namespace Declaration

/-- The types that the members refer to, once for each reference. -/
def references (d : Declaration) : List String :=
  d.slots.filterMap fun member => member.2.target?

/-- The names that the declaration keeps for its members. -/
def childNames (d : Declaration) : List String := d.children.map Prod.snd

/-- Every one of the given names is found by its key among those kept. -/
def Keeps (d : Declaration) (children : List (String × String)) : Prop :=
  ∀ child ∈ children, d.children.lookup child.1 = some child.2

/-- Names that are kept may be looked at in two portions. -/
theorem keeps_append {d : Declaration} {xs ys : List (String × String)} :
    d.Keeps (xs ++ ys) ↔ d.Keeps xs ∧ d.Keeps ys := List.forall_mem_append

/-- What members with the given fields refer to; the slots for its own fields. -/
def resolveFields (d : Declaration) (fields : Fields) : List (String × Slot) :=
  fields.map fun field => (field.1, d.resolve field.1 false field.2)

/-- The slots of a declaration are what it refers to with its own fields. -/
theorem slots_eq (d : Declaration) : d.slots = d.resolveFields d.fields := rfl

/-- A name that is kept is the one that is referred to. -/
theorem childName_of_lookup {d : Declaration} {key name : String}
    (h : d.children.lookup key = some name) (inList : Bool) : d.childName key inList = name := by
  rw [childName, h, Option.getD_some]

end Declaration

/-- With distinct keys, every entry is found by its key. -/
theorem lookup_of_mem {β : Type} {entries : List (String × β)}
    (hkeys : (entries.map Prod.fst).Nodup) :
    ∀ entry ∈ entries, entries.lookup entry.1 = some entry.2 := by
  induction entries with
  | nil => exact fun entry hmem => absurd hmem List.not_mem_nil
  | cons first rest ih =>
    intro entry hmem
    rw [List.map_cons, List.nodup_cons] at hkeys
    rcases List.mem_cons.mp hmem with rfl | hrest
    · exact List.lookup_cons_self
    · have hne : entry.1 ≠ first.1 := fun heq =>
        hkeys.1 (heq ▸ List.mem_map_of_mem hrest)
      rw [List.lookup_cons, beq_false_of_ne hne]
      exact ih hkeys.2 entry hrest

namespace Plan

open Collected

/-! ## One member -/

/-- A member yields a name for its key exactly when it refers to a type, be it by itself or by
the items of its lists. -/
theorem collectShape_children (r : Reserved) (taken : List String) (parent key : String)
    (d : Declaration) (s : Shape) : ∀ inList resolvedInList : Bool,
    d.Keeps (collectShape r taken parent key inList s).children →
    (collectShape r taken parent key inList s).children =
      ((d.resolve key resolvedInList s).target?.map fun name => (key, name)).toList := by
  -- lists are gone through to what is inside, and inside the induction ends
  induction s using Shape.innermost.induct with
  | case1 item ih =>
    intro inList resolvedInList h
    rw [collectShape_array] at h ⊢
    exact ih true true h
  | case2 s hs =>
    intro inList resolvedInList h
    cases s with
    | array item => exact absurd rfl (hs item)
    | object fields =>
      -- the one child of an object is its own declaration, under the name found there
      have hkept := h (key, _) (List.mem_singleton_self _)
      show [(key, _)] = [(key, d.childName key resolvedInList)]
      rw [Declaration.childName_of_lookup hkept]
    | _ => rfl

/-- A member yields a name under its own key, or none at all. -/
theorem collectShape_children_keys (r : Reserved) (taken : List String) (parent key : String)
    (s : Shape) : ∀ inList : Bool,
    ((collectShape r taken parent key inList s).children.map Prod.fst).Sublist [key] := by
  induction s using Shape.innermost.induct with
  | case1 item ih =>
    intro inList
    rw [collectShape_array]
    exact ih true
  | case2 s hs =>
    intro inList
    cases s with
    | array item => exact absurd rfl (hs item)
    | object fields => exact List.Sublist.refl [key]
    | _ => exact List.nil_sublist [key]

/-! ## All members -/

/-- The members that yield names are some of the members, in their order. So no key gets two
names if no member has the key of another. -/
theorem collectFields_children_keys (r : Reserved) (parent : String) (fields : Fields) :
    ∀ taken, ((collectFields r taken parent fields).children.map Prod.fst).Sublist
      (fields.map Prod.fst) := by
  induction fields with
  | nil => exact fun taken => List.Sublist.slnil
  | cons field rest ih =>
    intro taken
    obtain ⟨key, s⟩ := field
    have hrest := ih (collectShape r taken parent key false s).taken
    have hfirst := collectShape_children_keys r taken parent key s false
    rw [collectFields_cons, followedBy, List.map_append]
    exact hfirst.append hrest

/-- The names for the members are those that they refer to, in the same order. -/
theorem collectFields_childNames (r : Reserved) (parent : String) (d : Declaration)
    (fields : Fields) : ∀ taken,
    d.Keeps (collectFields r taken parent fields).children →
    (d.resolveFields fields).filterMap (fun member => member.2.target?) =
      (collectFields r taken parent fields).children.map Prod.snd := by
  induction fields with
  | nil => exact fun taken _ => rfl
  | cons field rest ih =>
    intro taken h
    obtain ⟨key, s⟩ := field
    rw [collectFields_cons, followedBy, Declaration.keeps_append] at h
    rw [collectFields_cons, followedBy, List.map_append, ← ih _ h.2,
      collectShape_children r taken parent key d s false false h.1, Declaration.resolveFields,
      List.map_cons, List.filterMap_cons]
    -- the member refers to one type or to none
    cases (d.resolve key false s).target? with
    | none => rfl
    | some name => rfl

end Plan

namespace Declaration

/-- The declaration keeps the names that a run over its fields yields, and no two
of its members have the same key. -/
structure IsComplete (r : Reserved) (d : Declaration) : Prop where
  children : ∃ taken, d.children = (Plan.collectFields r taken d.name d.fields).children
  keys     : (d.fields.map Prod.fst).Nodup

variable {r : Reserved} {d : Declaration}

/-- Every name that is kept is found by its key. -/
theorem IsComplete.keeps (h : d.IsComplete r) : d.Keeps d.children := by
  obtain ⟨taken, hchildren⟩ := h.children
  apply lookup_of_mem
  rw [hchildren]
  exact (Plan.collectFields_children_keys r d.name d.fields taken).nodup h.keys

/-- A declaration refers to the types whose names it keeps, in order. -/
theorem IsComplete.references_eq (h : d.IsComplete r) : d.references = d.childNames := by
  obtain ⟨taken, hchildren⟩ := h.children
  have hkeeps := h.keeps
  rw [hchildren] at hkeeps
  rw [references, slots_eq, Plan.collectFields_childNames r d.name d d.fields taken hkeeps,
    childNames, hchildren]

end Declaration

/-! ## All declarations -/

namespace Plan

open Collected

/-- The type `name` around the members `fields`, as a run over them declares it. -/
def declared (r : Reserved) (taken : List String) (name : String) (fields : Fields) :
    Declaration :=
  ⟨name, fields, (collectFields r taken name fields).children⟩

/-- What is declared for an object keeps the names that the run over its fields has just
given. -/
theorem isComplete_declared {fields : Fields} (h : (fields.map Prod.fst).Nodup) (r : Reserved)
    (taken : List String) (name : String) : (declared r taken name fields).IsComplete r :=
  ⟨⟨taken, rfl⟩, h⟩

/-- **The types found are the objects inside the shape**, each after those that it contains.
Both lists are made by one recursion, so that their order is the same without sorting. -/
theorem collectFields_found_fields (r : Reserved) (taken : List String) (parent : String)
    (fields : Fields) :
    (collectFields r taken parent fields).found.map Declaration.fields =
      Shape.objectsBelow fields := by
  -- the recursion is that of the run, and the objects are listed by the same one
  apply (collectShape.mutual_induct r
    (fun taken parent key inList s =>
      (collectShape r taken parent key inList s).found.map Declaration.fields = s.objects)
    (fun taken parent fields =>
      (collectFields r taken parent fields).found.map Declaration.fields =
        Shape.objectsBelow fields) ?_ ?_ ?_ ?_ ?_).2 taken parent fields
  · intro taken parent key inList item ih
    rw [collectShape_array, Shape.objects]
    exact ih
  · intro taken parent key inList fields name ih
    rw [collectShape_object, declare, List.map_append, Shape.objects, ← ih]
    rfl
  · intro s taken parent key inList harray hobject
    cases s with
    | array item => exact absurd rfl (harray item)
    | object fields => exact absurd rfl (hobject fields)
    | _ => rfl
  · intro taken parent
    rfl
  · intro taken parent key s rest first hfirst hothers
    rw [collectFields_cons, followedBy, List.map_append, Shape.objectsBelow, hfirst, hothers]

/-- Every type found keeps what the run over its fields yields, and nothing that was found
around it or beside it. -/
theorem collectFields_found_children (r : Reserved) (taken : List String) (parent : String)
    (fields : Fields) :
    ∀ d ∈ (collectFields r taken parent fields).found,
      ∃ taken, d.children = (collectFields r taken d.name d.fields).children := by
  refine (collect_induction (P := fun _ _ c => ∀ d ∈ c.found,
    ∃ taken, d.children = (collectFields r taken d.name d.fields).children)
    ?_ ?_ ?_).2 taken parent fields
  · intro taken parent d hd
    exact absurd hd List.not_mem_nil
  · intro taken parent key inList fields name hname ih d hd
    rcases List.mem_append.mp hd with hinner | hself
    · exact ih d hinner
    · -- the type that has just been declared keeps what its own run has yielded
      rw [List.mem_singleton] at hself
      subst hself
      exact ⟨name :: taken, rfl⟩
  · intro taken parent first others hfirst hothers d hd
    rcases List.mem_append.mp hd with hd | hd
    · exact hfirst d hd
    · exact hothers d hd

/-- Every declaration of a plan is complete: the root was put around the run as a whole, and
each nested type around the part of it that is inside the type. -/
theorem isComplete_of_mem_types {s : Shape} (h : s.KeysDistinct) (r : Reserved)
    (rootName : String) : ∀ d ∈ (ofShape r rootName s).types, d.IsComplete r := by
  intro d hd
  rcases List.mem_append.mp hd with hnested | hroot
  · refine ⟨collectFields_found_children r _ _ _ d hnested, ?_⟩
    have hobject : d.fields ∈ Shape.objectsBelow (rootFields s) := by
      rw [← collectFields_found_fields r _ _ (rootFields s)]
      exact List.mem_map_of_mem hnested
    exact Shape.nodup_of_mem_objectsBelow _ h.rootFields.2 _ hobject
  · rw [List.mem_singleton] at hroot
    subst hroot
    exact ⟨⟨_, rfl⟩, h.rootFields.1⟩

/-- There is always a type, that of the root, even if there is no object to declare. -/
theorem types_map_ne_nil {β : Type} (p : Plan) (f : Declaration → β) : p.types.map f ≠ [] := by
  rw [types, List.map_append]
  exact List.append_ne_nil_of_right_ne_nil _ (List.cons_ne_nil _ _)

/-- A type stands for one of the objects; the root may stand for none, and has no fields then. -/
theorem mem_objects_of_mem_types {s : Shape} {r : Reserved} {rootName : String} {d : Declaration}
    (hd : d ∈ (ofShape r rootName s).types) {field : String × Shape} (hfield : field ∈ d.fields) :
    d.fields ∈ s.objects := by
  have hfields : (ofShape r rootName s).types.map Declaration.fields =
      (Shape.object (rootFields s)).objects := by
    rw [types, List.map_append, Shape.objects]
    exact congrArg (· ++ [rootFields s]) (collectFields_found_fields r _ _ (rootFields s))
  have hmem : d.fields ∈ (Shape.object (rootFields s)).objects := by
    rw [← hfields]
    exact List.mem_map_of_mem hd
  rw [← Shape.objects_innermost]
  unfold rootFields at hmem
  split at hmem
  · -- the root stands for the object inside the outer lists, or for none if there is none
    next fields hinner =>
    rw [hinner]
    exact hmem
  · rw [List.mem_singleton.mp hmem] at hfield
    exact absurd hfield List.not_mem_nil

end Plan
end Shapewright
