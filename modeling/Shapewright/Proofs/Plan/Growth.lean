import Shapewright.Proofs.Plan.References
import Shapewright.Proofs.Plan.UniqueNames

/-!
# Growing objects

Samples grow: members are added at the end of a document, and new declarations
have to go with the old ones. They do, for names are claimed in the order of the
members. What is collected from the members that were there before is the first
part of what is collected from all of them, and where two members want one name
it is the added one that yields.

Main results:

* `collectFields_append` — collecting members in two parts, the second from the
  names that the first leaves.
* `resolveFields_eq_of_keeps` — two declarations that keep the names of some
  members refer to the same with these members.
* `appended_fields_keep_declarations` — the plan of a grown object begins with the
  plan of the object.
-/

namespace Shapewright.Plan

open Collected

/-! ## Collecting in two parts -/

/-- What has been collected may be put together in any grouping. -/
theorem followedBy_assoc (first second third : Collected) :
    (first.followedBy second).followedBy third = first.followedBy (second.followedBy third) := by
  simp only [followedBy, List.append_assoc]

/-- The second part starts from the names that the first one leaves, and only
adds to what has been found. -/
theorem collectFields_append (r : Reserved) (parent : String) (fields more : Fields) :
    ∀ taken, collectFields r taken parent (fields ++ more) =
      (collectFields r taken parent fields).followedBy
        (collectFields r (collectFields r taken parent fields).taken parent more) := by
  induction fields with
  | nil => exact fun taken => rfl
  | cons field rest ih =>
    intro taken
    obtain ⟨key, s⟩ := field
    -- a member, then the rest of the first part and the second: the same in any grouping
    rw [List.cons_append, collectFields_cons, collectFields_cons, ih, followedBy_assoc]
    rfl

/-! ## Slots of the members that were there before -/

variable {r : Reserved} {parent : String} {d e : Declaration}

/-- Two declarations that keep the name for a member refer to the same with it. What a member
refers to depends on the name that is kept and on nothing else of the declaration. -/
theorem resolve_eq_of_keeps {taken : List String} {key : String} (s : Shape) :
    ∀ inList resolvedInList : Bool,
      d.Keeps (collectShape r taken parent key inList s).children →
      e.Keeps (collectShape r taken parent key inList s).children →
      d.resolve key resolvedInList s = e.resolve key resolvedInList s := by
  induction s using Shape.innermost.induct with
  | case1 item ih =>
    intro inList resolvedInList hd he
    have hitem : d.resolve key true item = e.resolve key true item := ih true true hd he
    rw [Declaration.resolve, Declaration.resolve, hitem]
  | case2 s hs =>
    intro inList resolvedInList hd he
    cases s with
    | array item => exact absurd rfl (hs item)
    | object fields =>
      -- the only slot that depends on the names that are kept
      have hdname := hd (key, _) (List.mem_singleton_self _)
      have hename := he (key, _) (List.mem_singleton_self _)
      rw [Declaration.resolve, Declaration.resolve, Declaration.childName_of_lookup hdname,
        Declaration.childName_of_lookup hename]
    | _ => rfl

/-- Two types that keep what the run over these members yields resolve them alike, whatever
else they have. -/
theorem resolveFields_eq_of_keeps (fields : Fields) : ∀ taken : List String,
    d.Keeps (collectFields r taken parent fields).children →
    e.Keeps (collectFields r taken parent fields).children →
    d.resolveFields fields = e.resolveFields fields := by
  induction fields with
  | nil => exact fun taken _ _ => rfl
  | cons field rest ih =>
    intro taken hd he
    obtain ⟨key, s⟩ := field
    rw [collectFields_cons, followedBy, Declaration.keeps_append] at hd he
    have hfirst : d.resolve key false s = e.resolve key false s :=
      resolve_eq_of_keeps s false false hd.1 he.1
    have hrest : d.resolveFields rest = e.resolveFields rest := ih _ hd.2 he.2
    rw [Declaration.resolveFields, Declaration.resolveFields, List.map_cons, List.map_cons, hfirst]
    exact congrArg _ hrest

theorem resolveFields_append (d : Declaration) (fields more : Fields) :
    d.resolveFields (fields ++ more) = d.resolveFields fields ++ d.resolveFields more :=
  List.map_append

/-- With more members a type refers to the same with those that it had. New members come later
in the run, and the names that they take are none that the old ones could have had. -/
theorem prefix_slots_declared {fields more : Fields} (h : ((fields ++ more).map Prod.fst).Nodup)
    (r : Reserved) (taken : List String) (name : String) :
    (declared r taken name fields).slots <+: (declared r taken name (fields ++ more)).slots := by
  have hfields : (fields.map Prod.fst).Nodup := by
    rw [List.map_append] at h
    exact (List.nodup_append.mp h).1
  have hbefore := (isComplete_declared hfields r taken name).keeps
  -- the grown type keeps the names for all members, and those for the first ones among them
  have hall := (isComplete_declared h r taken name).keeps
  have hchildren : (declared r taken name (fields ++ more)).children =
      (declared r taken name fields).children ++
        (collectFields r (collectFields r taken name fields).taken name more).children :=
    congrArg Collected.children (collectFields_append r name fields more taken)
  rw [hchildren, Declaration.keeps_append] at hall
  have hsame : (declared r taken name fields).resolveFields fields =
      (declared r taken name (fields ++ more)).resolveFields fields :=
    resolveFields_eq_of_keeps fields taken hbefore hall.1
  have hslots : (declared r taken name (fields ++ more)).slots =
      (declared r taken name (fields ++ more)).resolveFields fields ++
        (declared r taken name (fields ++ more)).resolveFields more :=
    resolveFields_append _ fields more
  rw [hslots, ← hsame]
  exact List.prefix_append _ _

/-! ## Plans -/

/-- The types that were there before come first, since what is appended starts from the names
that they leave. -/
theorem prefix_nested (r : Reserved) (rootName : String) (fields more : Fields) :
    (ofShape r rootName (.object fields)).nested <+:
      (ofShape r rootName (.object (fields ++ more))).nested := by
  have hnested : (ofShape r rootName (.object (fields ++ more))).nested =
      ((collectFields r [rootNameOf r rootName] (rootNameOf r rootName) fields).followedBy
        (collectFields r _ (rootNameOf r rootName) more)).found :=
    congrArg Collected.found (collectFields_append r _ fields more _)
  rw [hnested]
  exact List.prefix_append _ _

/-- **Appending data renames nothing.** Let an object, in lists or not, get more
members with new keys behind those that it has. Then the nested types of its plan
begin with those from before, each with its name and its members as they were; the
root is called the same; and the slots of the root begin with those from before. -/
theorem appended_fields_keep_declarations (r : Reserved) (rootName : String) (n : Nat)
    {fields more : Fields} (h : (Shape.object (fields ++ more)).KeysDistinct) :
    let before := ofShape r rootName (Shape.inLists n (.object fields))
    let after := ofShape r rootName (Shape.inLists n (.object (fields ++ more)))
    before.nested <+: after.nested ∧ after.root.name = before.root.name ∧
      before.root.slots <+: after.root.slots := by
  rw [ofShape_inLists, ofShape_inLists]
  exact ⟨prefix_nested r rootName fields more, rfl, prefix_slots_declared h.1 r _ _⟩

/-- An object with a type `B` in a type `A`. -/
def parcel : Fields := [("a", .object [("b", .object [("x", .integer)])])]

/-- A member that is added would be a `B` too, and another one a `Root`. The `B`
inside `A` keeps its name. -/
theorem appended_fields_keep_declarations_parcel :
    let added : Fields := [("b", .object []), ("root", .object [])]
    let before := ofShape Rust.reserved "root" (.array (.object parcel))
    let after := ofShape Rust.reserved "root" (.array (.object (parcel ++ added)))
    (Shape.object (parcel ++ added)).KeysDistinct ∧
      before.types.map Declaration.name = ["B", "A", "Root"] ∧
      after.types.map Declaration.name = ["B", "A", "RootB", "RootRoot", "Root"] ∧
      before.nested <+: after.nested ∧ after.root.name = before.root.name ∧
      before.root.slots <+: after.root.slots := by
  intro added before after
  have hkeys : (Shape.object (parcel ++ added)).KeysDistinct := by decide
  refine ⟨hkeys, by decide +kernel, by decide +kernel, ?_⟩
  exact appended_fields_keep_declarations Rust.reserved "root" 1 hkeys

end Shapewright.Plan
