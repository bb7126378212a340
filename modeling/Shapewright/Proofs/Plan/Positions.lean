import Shapewright.Proofs.Plan.References
import Shapewright.Proofs.Plan.UniqueNames

/-!
# Names by position

A type is called after its place: the key that it stands under, and whether there
are lists in between. Only where that name is reserved or already gone does it get
another one, which begins with the name of the containing type.

Which names are gone is a matter of order. Types are declared containers last, but
named containers first. So a walk through the plan, from the root along the slots,
each type before the types of its members, meets the types in the order in which
their names were claimed, and each name was claimed from the root's and those met
before.

Main definitions:

* `Visit`, `visits` — a type where the walk meets it, and the whole walk.
* `ClaimedInTurn` — every name in a walk was claimed from those before it.
* `IsPositional` — the name that a type gets for its place, given the names in use.

Main results:

* `collectFields_retraces` — a walk over what a run finds retraces the run.
* `positional_names_are_kept` — all names in a plan are positional.
-/

namespace Shapewright

namespace Naming

/-! ## The name for a place -/

/-- What the type with the plain name `base` in the type `container` is called
where the names in `used` are gone: by its plain name if it is free; or else by
that behind the name of the container; or else by this with a number behind it,
the least one from two on that makes the name free. -/
structure IsPositional (r : Reserved) (used : List String) (container base name : String) :
    Prop where
  plain    : isFree r used base = true → name = base
  prefixed : isFree r used base = false → isFree r used (container ++ base) = true →
    name = container ++ base
  numbered : isFree r used base = false → isFree r used (container ++ base) = false →
    ∃ n, 2 ≤ n ∧ name = container ++ base ++ toString n ∧ isFree r used name = true ∧
      ∀ m, 2 ≤ m → m < n → isFree r used (container ++ base ++ toString m) = false

variable {r : Reserved} {taken : List String}

/-- The order in which names were given does not matter for whether one is free. -/
theorem isFree_perm {used : List String} (h : taken.Perm used) (name : String) :
    isFree r taken name = isFree r used name := by
  rw [Bool.eq_iff_iff, isFree_iff, isFree_iff, h.mem_iff]

/-- **A claimed name is the one for its place.** The three cases of the claim are those of the
place: the plain name, the one behind that of the container, and a number behind this. -/
theorem claim_isPositional (hr : r.Escapable) (base parent : String) :
    IsPositional r taken parent (declarable r base) (claim r taken base parent) := by
  obtain ⟨i, hfirst, hfree, hbusy⟩ := firstFree_eq hr taken (parent ++ declarable r base)
  -- only if the plain name is taken are there candidates at all
  have hsearched : isFree r taken (declarable r base) = false →
      claim r taken base parent = candidate (parent ++ declarable r base) i := by
    intro hplain
    rw [claim, hplain, if_neg Bool.false_ne_true, hfirst]
  refine ⟨fun hplain => ?_, fun hplain hprefixed => ?_, fun hplain hprefixed => ?_⟩
  · rw [claim, if_pos hplain]
  · -- the first candidate is the one without a number
    obtain rfl : i = 0 := by
      refine Nat.eq_zero_of_not_pos fun hpos => ?_
      exact Bool.false_ne_true ((hbusy 0 hpos).symm.trans hprefixed)
    exact hsearched hplain
  · cases i with
    | zero => exact absurd (hprefixed.symm.trans hfree) Bool.false_ne_true
    -- the numbers begin with two, one more than the candidates count
    | succ i =>
      have hname := hsearched hplain
      rw [hname]
      refine ⟨i + 2, Nat.le_add_left 2 i, rfl, hfree, fun m hlow hhigh => ?_⟩
      obtain ⟨j, rfl⟩ : ∃ j, m = j + 2 := ⟨m - 2, by omega⟩
      exact hbusy (j + 1) (by omega)

/-- The names in use may be listed in any order. -/
theorem IsPositional.of_perm {used : List String} {container base name : String}
    (h : IsPositional r taken container base name) (hperm : taken.Perm used) :
    IsPositional r used container base name := by
  refine ⟨?_, ?_, ?_⟩
  · rw [← isFree_perm hperm]
    exact h.plain
  · rw [← isFree_perm hperm, ← isFree_perm hperm]
    exact h.prefixed
  · simp only [← isFree_perm hperm]
    exact h.numbered

end Naming

namespace Plan

open Naming Collected

/-! ## Walking through a plan -/

/-- A type where a walk meets it: the containing type, the key of the member that
refers to it and whether through lists, and the type. -/
structure Visit where
  container : Declaration
  key : String
  inList : Bool
  type : Declaration

/-- The name of the type that is met. -/
def Visit.name (v : Visit) : String := v.type.name

/-- The declaration that a slot refers to. -/
def declarationOf? (types : List Declaration) (slot : Slot) : Option Declaration :=
  slot.target?.bind fun name => types.find? fun d => d.name == name

mutual

/-- The walk through the members of the type `d`, in their order: a type first,
then the types inside it. -/
def visitsAt (types : List Declaration) (d : Declaration) : Fields → List Visit
  | [] => []
  | (key, s) :: rest =>
    (match declarationOf? types (d.resolve key false s) with
      | some e => ⟨d, key, (d.resolve key false s).isList, e⟩ :: visitsInside types e s
      | none => []) ++ visitsAt types d rest

/-- The walk through the type `e`, which stands for the object in the shape. -/
def visitsInside (types : List Declaration) (e : Declaration) : Shape → List Visit
  | .array item => visitsInside types e item
  | .object fields => visitsAt types e fields
  | _ => []

end

/-- The walk through all nested types, from the root. -/
def visits (p : Plan) : List Visit := visitsAt p.types p.root p.root.fields

/-- The walk from one member on that `slot` is the slot of. -/
def visitsOf (types : List Declaration) (d : Declaration) (key : String) (inList : Bool)
    (slot : Slot) (s : Shape) : List Visit :=
  match declarationOf? types slot with
  | some e => ⟨d, key, inList, e⟩ :: visitsInside types e s
  | none => []

variable {types : List Declaration}

/-- The walk through some members is the one from the first, then that through the others. -/
theorem visitsAt_cons (d : Declaration) (key : String) (s : Shape) (rest : Fields) :
    visitsAt types d ((key, s) :: rest) =
      visitsOf types d key (d.resolve key false s).isList (d.resolve key false s) s ++
        visitsAt types d rest := rfl

/-! ## Names in their order -/

/-- Every name was claimed from those in `taken` and those before it. -/
def ClaimedInTurn (r : Reserved) : List String → List Visit → Prop
  | _, [] => True
  | taken, v :: rest =>
    v.name = claim r taken (plainName v.key v.inList) v.container.name ∧
      ClaimedInTurn r (v.name :: taken) rest

/-- A walk in two parts is claimed in turn if the first part is, and the second from the names
that the first one leaves. The names met last stand in front. -/
theorem claimedInTurn_append {r : Reserved} {xs ys : List Visit} : ∀ {taken : List String},
    ClaimedInTurn r taken (xs ++ ys) ↔
      ClaimedInTurn r taken xs ∧ ClaimedInTurn r ((xs.map Visit.name).reverse ++ taken) ys := by
  induction xs with
  | nil => exact (and_iff_right trivial).symm
  | cons v rest ih =>
    intro taken
    rw [List.cons_append, ClaimedInTurn, ClaimedInTurn, ih, List.map_cons, List.reverse_cons,
      List.append_assoc, and_assoc]
    rfl

/-- The slot of the member refers to the type, through lists if there are any. -/
def Visit.IsReferred (v : Visit) : Prop :=
  ∃ slot, (v.key, slot) ∈ v.container.slots ∧ slot.target? = some v.name ∧ slot.isList = v.inList

/-- A walk through the members of `d` retraces a run that started with the names
in `taken`: it meets the types in the order in which the run named them, and no
others, each in a type that it has come to. -/
structure Retraces (r : Reserved) (taken : List String) (d : Declaration) (c : Collected)
    (walk : List Visit) : Prop where
  taken_eq  : c.taken = (walk.map Visit.name).reverse ++ taken
  claimed   : ClaimedInTurn r taken walk
  found     : (walk.map Visit.type).Perm c.found
  container : ∀ v ∈ walk, v.container = d ∨ v.container ∈ walk.map Visit.type
  referred  : ∀ v ∈ walk, v.IsReferred

variable {r : Reserved} {taken : List String} {d : Declaration}

/-- A member that is no object is met nowhere and names nothing. -/
theorem retraces_nothing : Retraces r taken d (nothing taken) [] where
  taken_eq := rfl
  claimed := trivial
  found := List.Perm.refl []
  container := fun _ hv => absurd hv List.not_mem_nil
  referred := fun _ hv => absurd hv List.not_mem_nil

/-- A member that is an object is met first, and then the types inside it, in a walk of their
own that starts with its name taken. -/
theorem Retraces.declare {key name : String} {inList : Bool} {fields : Fields}
    {inner : Collected} {walk : List Visit}
    (h : Retraces r (name :: taken) ⟨name, fields, inner.children⟩ inner walk)
    (hname : name = claim r taken (plainName key inList) d.name)
    (hreferred : Visit.IsReferred ⟨d, key, inList, ⟨name, fields, inner.children⟩⟩) :
    Retraces r taken d (declare key name fields inner)
      (⟨d, key, inList, ⟨name, fields, inner.children⟩⟩ :: walk) where
  taken_eq := by
    rw [List.map_cons, List.reverse_cons, List.append_assoc]
    exact h.taken_eq
  claimed := ⟨hname, h.claimed⟩
  found := by
    -- met before the types inside it, and found after them
    exact (h.found.cons _).trans (List.perm_append_singleton _ inner.found).symm
  container := by
    refine List.forall_mem_cons.mpr ⟨Or.inl rfl, fun v hv => Or.inr ?_⟩
    rcases h.container v hv with hself | hinside
    · rw [hself]
      exact List.mem_cons_self
    · exact List.mem_cons_of_mem _ hinside
  referred := List.forall_mem_cons.mpr ⟨hreferred, h.referred⟩

/-- Two walks through members of one type make one. -/
theorem Retraces.followedBy {first others : Collected} {xs ys : List Visit}
    (hfirst : Retraces r taken d first xs) (hothers : Retraces r first.taken d others ys) :
    Retraces r taken d (first.followedBy others) (xs ++ ys) where
  -- the second walk starts with the names that the first one leaves in use
  taken_eq := by
    rw [List.map_append, List.reverse_append, List.append_assoc, ← hfirst.taken_eq]
    exact hothers.taken_eq
  claimed := by
    rw [claimedInTurn_append, ← hfirst.taken_eq]
    exact ⟨hfirst.claimed, hothers.claimed⟩
  found := by
    rw [List.map_append]
    exact hfirst.found.append hothers.found
  container := by
    rw [List.map_append]
    refine List.forall_mem_append.mpr ⟨fun v hv => ?_, fun v hv => ?_⟩
    · exact (hfirst.container v hv).imp_right (List.mem_append_left _)
    · exact (hothers.container v hv).imp_right (List.mem_append_right _)
  referred := List.forall_mem_append.mpr ⟨hfirst.referred, hothers.referred⟩

/-! ## A walk retraces the run -/

/-- Every declaration in the list is the one that its name leads to. -/
def Finds (types found : List Declaration) : Prop :=
  ∀ d ∈ found, (types.find? fun e => e.name == d.name) = some d

/-- Where no two declarations have one name, each is found by its own. -/
theorem finds_of_nodup (h : (types.map Declaration.name).Nodup) : Finds types types := by
  intro d hd
  -- nothing in front of the declaration may have its name
  obtain ⟨before, after, rfl⟩ := List.append_of_mem hd
  rw [List.map_append, List.map_cons] at h
  rw [List.find?_eq_some_iff_append]
  refine ⟨beq_self_eq_true d.name, before, after, rfl, fun e he => ?_⟩
  have hne : e.name ≠ d.name := fun hname =>
    (List.nodup_append.mp h).2.2 _ (List.mem_map_of_mem he) _ List.mem_cons_self hname
  rw [beq_false_of_ne hne]
  rfl

/-- The types of a run over members of `d` are all found in the list, and `d`
keeps the names of those that its members refer to. -/
structure Covers (types : List Declaration) (d : Declaration) (c : Collected) : Prop where
  finds : Finds types c.found
  keeps : d.Keeps c.children

/-- A list covers what two runs have found if it covers each. -/
theorem covers_followedBy {first others : Collected} :
    Covers types d (first.followedBy others) ↔ Covers types d first ∧ Covers types d others := by
  constructor
  · intro h
    obtain ⟨hfirst, hothers⟩ := List.forall_mem_append.mp h.finds
    obtain ⟨hkeepsFirst, hkeepsOthers⟩ := Declaration.keeps_append.mp h.keeps
    exact ⟨⟨hfirst, hkeepsFirst⟩, ⟨hothers, hkeepsOthers⟩⟩
  · rintro ⟨hfirst, hothers⟩
    exact ⟨List.forall_mem_append.mpr ⟨hfirst.finds, hothers.finds⟩,
      Declaration.keeps_append.mpr ⟨hfirst.keeps, hothers.keeps⟩⟩

/-- What a member that is an object refers to is the type declared for it, and the
list covers what is inside. -/
theorem Covers.declare {key name : String} {fields : Fields}
    (hkeys : (fields.map Prod.fst).Nodup)
    (h : Covers types d (declare key name fields (collectFields r taken name fields))) :
    d.childName key = (fun _ => name) ∧
      (types.find? fun e => e.name == name) = some (declared r taken name fields) ∧
      Covers types (declared r taken name fields) (collectFields r taken name fields) := by
  obtain ⟨hinner, hself⟩ := List.forall_mem_append.mp h.finds
  refine ⟨?_, hself _ (List.mem_singleton_self _), hinner, ?_⟩
  · funext inList
    exact Declaration.childName_of_lookup (h.keeps (key, name) (List.mem_singleton_self _)) inList
  · exact (isComplete_declared hkeys r taken name).keeps

/-- The walk from a member that is an object: its type, and then the types inside. -/
theorem visitsOf_named {e : Declaration} {key name : String} {inList : Bool} {fields : Fields}
    (h : (types.find? fun e => e.name == name) = some e) :
    visitsOf types d key inList (.named name) (.object fields) =
      ⟨d, key, inList, e⟩ :: visitsAt types e fields := by
  rw [visitsOf, declarationOf?, Slot.target?, Option.bind_some, h]
  rfl

/-- A walk through the members of a type retraces the run over them, if it can find
the types of the run. The slots followed are those of the type. -/
theorem collectFields_retraces (r : Reserved) (taken : List String) (parent : String)
    (fields : Fields) : ∀ d : Declaration, Shape.MembersDistinct fields → d.name = parent →
    Covers types d (collectFields r taken parent fields) →
    d.resolveFields fields ⊆ d.slots →
    Retraces r taken d (collectFields r taken parent fields) (visitsAt types d fields) := by
  -- by the recursion of the run. Inside lists the walk still refers to the slot of
  -- the whole member, so the statement for a member speaks of that one
  apply (collectShape.mutual_induct r
    (fun taken parent key inList s => ∀ (d : Declaration) (resolvedInList : Bool),
      s.KeysDistinct → d.name = parent →
      Covers types d (collectShape r taken parent key inList s) →
      (∃ whole, (key, whole) ∈ d.slots ∧
        whole.target? = (d.resolve key resolvedInList s).target? ∧
        whole.isList = (inList || (d.resolve key resolvedInList s).isList)) →
      Retraces r taken d (collectShape r taken parent key inList s)
        (visitsOf types d key (inList || (d.resolve key resolvedInList s).isList)
          (d.resolve key resolvedInList s) s))
    (fun taken parent fields => ∀ d : Declaration, Shape.MembersDistinct fields →
      d.name = parent → Covers types d (collectFields r taken parent fields) →
      d.resolveFields fields ⊆ d.slots →
      Retraces r taken d (collectFields r taken parent fields) (visitsAt types d fields))
    ?_ ?_ ?_ ?_ ?_).2 taken parent fields
  · intro taken parent key inList item ih d resolvedInList hdistinct hname hcovers hslot
    rw [collectShape_array] at hcovers ⊢
    -- the slot of the whole member is a list around that of its items
    have hlist : (inList || (Slot.list (d.resolve key true item)).isList) =
        (true || (d.resolve key true item).isList) := Bool.or_true inList
    rw [Declaration.resolve, hlist] at hslot ⊢
    exact ih d true hdistinct hname hcovers hslot
  · -- an object: the name is claimed, and then those inside
    intro taken parent key inList fields name ih d resolvedInList hdistinct hname hcovers hslot
    rw [collectShape_object] at hcovers ⊢
    obtain ⟨hchild, hfound, hinner⟩ := hcovers.declare hdistinct.1
    have hplain : (inList || (Slot.named name).isList) = inList := Bool.or_false inList
    rw [Declaration.resolve, hchild, hplain] at hslot ⊢
    rw [visitsOf_named hfound]
    have hretraces := ih _ hdistinct.2 rfl hinner (List.Subset.refl _)
    exact hretraces.declare (by rw [hname]) hslot
  · intro s taken parent key inList harray hobject d resolvedInList _ _ _ _
    cases s with
    | array item => exact absurd rfl (harray item)
    | object fields => exact absurd rfl (hobject fields)
    | _ => exact retraces_nothing
  · intro taken parent d _ _ _ _
    exact retraces_nothing
  · -- the other members start from the names that the first one leaves
    intro taken parent key s rest first hfirst hothers d hdistinct hname hcovers hslots
    rw [collectFields_cons, covers_followedBy] at hcovers
    obtain ⟨hself, hrest⟩ := List.cons_subset.mp hslots
    rw [collectFields_cons, visitsAt_cons]
    have hwalkFirst := hfirst d false hdistinct.1 hname hcovers.1 ⟨_, hself, rfl, rfl⟩
    have hwalkOthers := hothers d hdistinct.2 hname hcovers.2 hrest
    exact hwalkFirst.followedBy hwalkOthers

/-! ## Plans -/

/-- **The walk through a plan retraces the run that made it.** The plan's own types cover the
run, since their names are distinct and every declaration keeps the names of its members. -/
theorem visits_retraces (hr : r.Escapable) {s : Shape} (hs : s.KeysDistinct)
    (rootName : String) :
    Retraces r [rootNameOf r rootName] (ofShape r rootName s).root (collectedOf r rootName s)
      (ofShape r rootName s).visits := by
  have hroot : (ofShape r rootName s).root ∈ (ofShape r rootName s).types :=
    List.mem_append_right _ (List.mem_singleton_self _)
  have hfinds := finds_of_nodup (isSupply_declaredNames hr rootName s).nodup
  have hcovers : Covers (ofShape r rootName s).types (ofShape r rootName s).root
      (collectedOf r rootName s) :=
    ⟨(List.forall_mem_append.mp hfinds).1, (isComplete_of_mem_types hs r rootName _ hroot).keeps⟩
  exact collectFields_retraces r _ _ _ _ hs.rootFields.2 rfl hcovers (List.Subset.refl _)

/-- **Positional names are kept wherever they are free.** What the root is called
depends on the given name and the reserved ones alone. A walk from the root meets
every nested type once, each under the key of a member that refers to it. The type
is called after its place, unless that name is reserved or already the name of the
root or of a type met before; then it is called so behind the name of the
containing type, with the least number that makes the name free if it needs one. -/
theorem positional_names_are_kept (hr : r.Admitted) {s : Shape} (hs : s.KeysDistinct)
    (rootName : String) :
    let p := ofShape r rootName s
    (∀ t : Shape, (ofShape r rootName t).root.name = p.root.name) ∧
      (p.visits.map Visit.type).Perm p.nested ∧
      ∀ before v after, p.visits = before ++ v :: after →
        v.container ∈ p.types ∧ v.IsReferred ∧
          IsPositional r (p.root.name :: before.map Visit.name) v.container.name
            (declarable r (plainName v.key v.inList)) v.name := by
  intro p
  have hretraces : Retraces r [p.root.name] p.root (collectedOf r rootName s) p.visits :=
    visits_retraces hr.escapable hs rootName
  refine ⟨fun t => rfl, hretraces.found, fun before v after hsplit => ?_⟩
  have hmem : v ∈ p.visits := by
    rw [hsplit]
    exact List.mem_append_right before List.mem_cons_self
  refine ⟨?_, hretraces.referred v hmem, ?_⟩
  · rcases hretraces.container v hmem with hroot | hmet
    · rw [hroot]
      exact List.mem_append_right p.nested (List.mem_singleton_self p.root)
    · exact List.mem_append_left [p.root] (hretraces.found.mem_iff.mp hmet)
  · have hclaimed := hretraces.claimed
    rw [hsplit, claimedInTurn_append] at hclaimed
    obtain ⟨-, hname, -⟩ := hclaimed
    rw [hname]
    -- the names in use are those of the types met, the last one first
    have hused : ((before.map Visit.name).reverse ++ [p.root.name]).Perm
        (p.root.name :: before.map Visit.name) :=
      (List.perm_append_singleton _ _).trans ((List.reverse_perm _).cons _)
    exact (claim_isPositional hr.escapable _ _).of_perm hused

/-- The walk through clashing objects: the second `X` comes after the root and an
`XX`, so it is numbered; the list of sizes lies in it. -/
theorem positional_names_are_kept_clashing :
    C.reserved.Admitted ∧ clashing.KeysDistinct ∧
      (ofShape C.reserved "X" clashing).visits.map
          (fun v => (v.container.name, v.key, v.inList, v.name)) =
        [("X", "XX", false, "XX"), ("X", "X", false, "XX2"), ("XX2", "size", true, "SizeItem"),
          ("X", "size", false, "SizeType")] ∧
      ∀ before v after, (ofShape C.reserved "X" clashing).visits = before ++ v :: after →
        IsPositional C.reserved ("X" :: before.map Visit.name) v.container.name
          (declarable C.reserved (plainName v.key v.inList)) v.name :=
  have hall := positional_names_are_kept (Or.inr ⟨.c, rfl⟩) (s := clashing) (by decide) "X"
  ⟨Or.inr ⟨.c, rfl⟩, by decide, by decide +kernel, fun before v after h =>
    (hall.2.2 before v after h).2.2⟩

end Plan
end Shapewright
