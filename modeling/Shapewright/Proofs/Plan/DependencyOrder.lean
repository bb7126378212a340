import Shapewright.Proofs.Plan.References
import Shapewright.Proofs.Plan.UniqueNames

/-!
# The order of declarations

Names are claimed on the way down and types declared on the way up, so that the
members of a type are declared before it although it was named before them. Three
things follow for the types of a plan, whatever names the search ends with.

* The nested types are the objects below the root, one each, in post-order.
* A slot only refers to a type that is declared earlier.
* Of all slots of all types, exactly one refers to a nested type, and none to the
  root.

Main result: `declared_in_order_and_referenced_once`.
-/

namespace Shapewright.Plan

open Naming Collected

/-! ## Dependencies first -/

/-- Every type comes after those whose names it keeps. -/
def DependenciesFirst (types : List Declaration) : Prop :=
  ∀ before d after, types = before ++ d :: after →
    ∀ name ∈ d.childNames, name ∈ before.map Declaration.name

/-- Nothing depends on anything. -/
theorem dependenciesFirst_nil : DependenciesFirst [] := by
  intro before d after h
  exact absurd h.symm (List.append_ne_nil_of_right_ne_nil before (List.cons_ne_nil d after))

/-- Two lists in such an order make one: those in front are at hand for those behind, which
may refer to them or not. -/
theorem DependenciesFirst.append {xs ys : List Declaration} (hx : DependenciesFirst xs)
    (hy : DependenciesFirst ys) : DependenciesFirst (xs ++ ys) := by
  intro before d after h name hname
  rcases List.append_eq_append_iff.mp h with ⟨more, rfl, htail⟩ | ⟨more, hhead, htail⟩
  · -- `d` is one of `ys`
    have hmem := hy more d after htail name hname
    rw [List.map_append]
    exact List.mem_append_right _ hmem
  · cases more with
    | nil =>
      rw [List.nil_append] at htail
      exact absurd (hy [] d after htail.symm name hname) List.not_mem_nil
    | cons first rest =>
      obtain ⟨rfl, -⟩ := List.cons.inj htail
      exact hx before d rest hhead name hname

/-- One more type may be put behind those that its members refer to. -/
theorem DependenciesFirst.concat {types : List Declaration} (h : DependenciesFirst types)
    {d : Declaration} (hd : ∀ name ∈ d.childNames, name ∈ types.map Declaration.name) :
    DependenciesFirst (types ++ [d]) := by
  intro before e after heq name hname
  -- either it is the new type, in front of which are all the others, or one of the old ones
  rcases List.append_eq_append_iff.mp heq with ⟨more, rfl, htail⟩ | ⟨more, hhead, htail⟩
  · cases more with
    | nil =>
      obtain ⟨rfl, -⟩ := List.cons.inj htail
      rw [List.append_nil]
      exact hd name hname
    | cons first rest => exact absurd (List.cons.inj htail).2.symm (by simp)
  · cases more with
    | nil =>
      obtain ⟨rfl, -⟩ := List.cons.inj htail
      rw [List.append_nil] at hhead
      rw [← hhead]
      exact hd name hname
    | cons first rest =>
      obtain ⟨rfl, -⟩ := List.cons.inj htail
      exact h before e rest hhead name hname

/-! ## One reference each -/

/-- The names that a result refers to: those kept by the types found, and those
handed to the containing type. -/
def Collected.referred (c : Collected) : List String :=
  c.found.flatMap Declaration.childNames ++ c.children.map Prod.snd

/-- Every type that a run finds is referred to once: by the member that it was found at. It is
a permutation only, as a type refers to others that stand in front of it. -/
theorem collectFields_referred_perm (r : Reserved) (taken : List String) (parent : String)
    (fields : Fields) :
    (collectFields r taken parent fields).referred.Perm
      (collectFields r taken parent fields).names := by
  refine (collect_induction (P := fun _ _ c => c.referred.Perm c.names)
    ?_ ?_ ?_).2 taken parent fields
  · intro taken parent
    exact List.Perm.refl []
  · intro taken parent key inList fields name hname ih
    -- the new type takes over what the run handed up, and hands up itself
    rw [names_declare]
    have hreferred : ∀ inner : Collected,
        (declare key name fields inner).referred = inner.referred ++ [name] := by
      intro inner
      rw [referred, referred, declare, List.flatMap_append, List.flatMap_singleton]
      rfl
    rw [hreferred]
    exact ih.append_right [name]
  · intro taken parent first others hfirst hothers
    have hboth := hfirst.append hothers
    rw [names_followedBy]
    -- only the order differs: types found before names handed up
    refine List.Perm.trans ?_ hboth
    rw [referred, referred, referred, followedBy, List.flatMap_append, List.map_append,
      List.append_assoc, List.append_assoc]
    refine List.Perm.append_left _ ?_
    rw [← List.append_assoc, ← List.append_assoc]
    exact List.perm_append_comm.append_right _

/-- What is handed to the containing type is the name of a type found. -/
theorem collectFields_children_mem (r : Reserved) (taken : List String) (parent : String)
    (fields : Fields) :
    ∀ name ∈ (collectFields r taken parent fields).children.map Prod.snd,
      name ∈ (collectFields r taken parent fields).names := by
  intro name hname
  have hperm := collectFields_referred_perm r taken parent fields
  exact hperm.mem_iff.mp (List.mem_append_right _ hname)

/-- The types found are in such an order, as each object comes behind those inside it. -/
theorem collectFields_dependenciesFirst (r : Reserved) (taken : List String) (parent : String)
    (fields : Fields) : DependenciesFirst (collectFields r taken parent fields).found := by
  refine (collect_induction (P := fun _ _ c => DependenciesFirst c.found)
    ?_ ?_ ?_).2 taken parent fields
  · intro taken parent
    exact dependenciesFirst_nil
  · intro taken parent key inList fields name hname ih
    exact ih.concat (collectFields_children_mem r (name :: taken) name fields)
  · intro taken parent first others hfirst hothers
    exact hfirst.append hothers

/-! ## Plans -/

/-- All types of a plan are, the root being the last of them. -/
theorem dependenciesFirst_types (r : Reserved) (rootName : String) (s : Shape) :
    DependenciesFirst (ofShape r rootName s).types :=
  (collectFields_dependenciesFirst r _ _ _).concat (collectFields_children_mem r _ _ _)

/-- Every name that a slot refers to is that of a type at an earlier position, in a list in
which dependencies come first. -/
theorem exists_earlier_of_mem_references {types : List Declaration}
    (h : DependenciesFirst types) (hrefs : ∀ d ∈ types, d.references = d.childNames)
    {i : Nat} {d : Declaration} (hi : types[i]? = some d) :
    ∀ name ∈ d.references, ∃ j < i, ∃ e, types[j]? = some e ∧ e.name = name := by
  intro name hname
  obtain ⟨hlt, hd⟩ := List.getElem?_eq_some_iff.mp hi
  have hsplit : types = types.take i ++ d :: types.drop (i + 1) := by
    rw [← hd, ← List.drop_eq_getElem_cons, List.take_append_drop]
  rw [hrefs d (List.mem_of_getElem? hi)] at hname
  obtain ⟨e, he, rfl⟩ := List.mem_map.mp (h _ d _ hsplit name hname)
  -- a type among the first `i` stands at a position below `i`
  obtain ⟨j, hj⟩ := List.mem_iff_getElem?.mp he
  have hji : j < i := by
    have hlen := (List.getElem?_eq_some_iff.mp hj).1
    rw [List.length_take] at hlen
    omega
  rw [List.getElem?_take_of_lt hji] at hj
  exact ⟨j, hji, e, hj, rfl⟩

/-- All slots of all types. -/
def slots (p : Plan) : List (String × Slot) := p.types.flatMap Declaration.slots

/-- How many slots of a plan refer to a name can be counted type by type. -/
theorem countP_slots (p : Plan) (name : String) :
    p.slots.countP (fun member => member.2.target? == some name) =
      (p.types.flatMap Declaration.references).count name := by
  have htargets : p.types.flatMap Declaration.references =
      p.slots.filterMap fun member => member.2.target? := by
    rw [slots, List.filterMap_flatMap]
    rfl
  rw [htargets, List.count, List.countP_filterMap]
  apply List.countP_congr
  intro member _
  cases member.2.target? <;> simp

/-- The references of all types are the names of the nested types, once each. -/
theorem references_perm {s : Shape} (h : s.KeysDistinct) (r : Reserved) (rootName : String) :
    ((ofShape r rootName s).types.flatMap Declaration.references).Perm
      ((ofShape r rootName s).nested.map Declaration.name) := by
  have hrefs : (ofShape r rootName s).types.flatMap Declaration.references =
      (ofShape r rootName s).types.flatMap Declaration.childNames :=
    List.flatMap_congr fun d hd => (isComplete_of_mem_types h r rootName d hd).references_eq
  rw [hrefs, types, List.flatMap_append, List.flatMap_singleton]
  exact collectFields_referred_perm r _ _ _

/-- A slot refers to a declared type, if to any. -/
theorem mem_declaredNames_of_target {s : Shape} (h : s.KeysDistinct) {r : Reserved}
    {rootName : String} {d : Declaration} (hd : d ∈ (ofShape r rootName s).types)
    {member : String × Slot} (hmember : member ∈ d.slots) {name : String}
    (hname : member.2.target? = some name) : name ∈ (ofShape r rootName s).declaredNames := by
  have hreference : name ∈ d.references := List.mem_filterMap.mpr ⟨member, hmember, hname⟩
  have hall := List.mem_flatMap.mpr ⟨d, hd, hreference⟩
  rw [declaredNames, types, List.map_append]
  exact List.mem_append_left _ ((references_perm h r rootName).mem_iff.mp hall)

/-- **Dependency order without sharing or loss.** The nested types are the
objects below the root in post-order; every slot refers to a type at an earlier
position; and of all slots of all types, one refers to each nested type, and none
to the root. -/
theorem declared_in_order_and_referenced_once {r : Reserved} (hr : r.Admitted) {s : Shape}
    (hs : s.KeysDistinct) (rootName : String) :
    (ofShape r rootName s).nested.map Declaration.fields = Shape.objectsBelow (rootFields s) ∧
      (∀ (i : Nat) (d : Declaration), (ofShape r rootName s).types[i]? = some d →
        ∀ name ∈ d.references, ∃ j < i, ∃ e : Declaration,
          (ofShape r rootName s).types[j]? = some e ∧ e.name = name) ∧
      (∀ d ∈ (ofShape r rootName s).nested,
        (ofShape r rootName s).slots.countP (fun member => member.2.target? == some d.name) = 1) ∧
      (ofShape r rootName s).slots.countP
        (fun member => member.2.target? == some (ofShape r rootName s).root.name) = 0 := by
  have hnodup : ((ofShape r rootName s).nested.map Declaration.name ++
      [(ofShape r rootName s).root.name]).Nodup := by
    have hall := (isSupply_declaredNames hr.escapable rootName s).nodup
    rwa [declaredNames, types, List.map_append] at hall
  -- the references of all slots are the names of the nested types, each once
  have hperm := references_perm hs r rootName
  refine ⟨collectFields_found_fields r _ _ _, ?_, ?_, ?_⟩
  · intro i d hi
    exact exists_earlier_of_mem_references (dependenciesFirst_types r rootName s)
      (fun e he => (isComplete_of_mem_types hs r rootName e he).references_eq) hi
  · intro d hd
    rw [countP_slots, hperm.count_eq]
    exact List.count_eq_one_of_mem (List.nodup_append.mp hnodup).1 (List.mem_map_of_mem hd)
  · -- a reference to the root would be one to a nested type of its name
    rw [countP_slots, hperm.count_eq, List.count_eq_zero]
    exact fun hmem => (List.nodup_append.mp hnodup).2.2 _ hmem _ (List.mem_singleton_self _) rfl

/-- The second type of clashing objects is referred to once, from the third. -/
theorem declared_in_order_and_referenced_once_clashing :
    clashing.KeysDistinct ∧
      (ofShape C.reserved "X" clashing).types.map Declaration.references =
        [[], [], ["SizeItem"], [], ["XX", "XX2", "SizeType"]] ∧
      ∀ d ∈ (ofShape C.reserved "X" clashing).nested,
        (ofShape C.reserved "X" clashing).slots.countP
          (fun member => member.2.target? == some d.name) = 1 :=
  ⟨by decide, by decide +kernel,
    (declared_in_order_and_referenced_once (Or.inr ⟨.c, rfl⟩) (by decide) "X").2.2.1⟩

end Shapewright.Plan
