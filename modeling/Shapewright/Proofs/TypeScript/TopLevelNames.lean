import Shapewright.Generate
import Shapewright.Proofs.Plan.NameForms
import Shapewright.Proofs.Shape.Structure

/-!
# Names at the top level

Besides the types of the plan, TypeScript and JavaScript output declares the list type of
a root in lists, under the name of the root with `Array` behind it. The plan keeps its own
names apart and has no part in this one, which a type inside the root can have as well:
one that stands under a key ending in `Array`. A suffix, a number or the name of a
containing type never makes a name end like that.

Main definitions:

* `TypeScript.Declares`, `JavaScript.Declares` — the text declares the name.
* `Plan.ArrayKeyed` — an object stands directly under a key that ends like an alias.

Main results:

* `Plan.arrayKeyed_of_endsInArray` — where names that end like an alias come from.
* `top_level_names_distinct_iff` — when all names at the top level are different.
-/

namespace Shapewright

open Name Naming Plan

/-! ## Declarations -/

namespace TypeScript

/-- The text declares the interface or the alias `name`. -/
inductive Declares : String → String → Prop where
  | interface (name members : String) :
      Declares ("interface " ++ name ++ " \x7b\n" ++ members ++ "\x7d") name
  | alias (name type : String) : Declares ("type " ++ name ++ " = " ++ type ++ ";") name

/-- An interface declares the name of its type, and the alias that of the list type. -/
theorem declares_renderInterface (d : Declaration) : Declares (renderInterface d) d.name := by
  have htext : renderInterface d = "interface " ++ d.name ++ " \x7b\n" ++
      ((if d.isEmpty then "  [key: string]: unknown;\n" else "") ++
        String.join (d.slots.map renderMember)) ++ "\x7d" := by
    unfold renderInterface
    simp only [String.append_assoc]
  rw [htext]
  exact .interface d.name _

theorem declares_renderAlias (root : String) (layers : Nat) :
    Declares (renderAlias root layers) (aliasName root) := by
  have htext : renderAlias root layers = "type " ++ aliasName root ++ " = " ++
      (root ++ String.join (List.replicate layers "[]")) ++ ";" := by
    unfold renderAlias
    simp only [String.append_assoc]
  rw [htext]
  exact .alias (aliasName root) _

end TypeScript

namespace JavaScript

/-- The text declares the class or the list type `name`. -/
inductive Declares : String → String → Prop where
  | class (name members : String) :
      Declares ("class " ++ name ++ " \x7b\n" ++ members ++ "\x7d") name
  | typedef (name type : String) :
      Declares ("/**\n * @typedef \x7b" ++ type ++ "\x7d " ++ name ++ "\n */") name

/-- A class declares the name of its type, and the comment below the classes that of the list
type. -/
theorem declares_renderClass (d : Declaration) : Declares (renderClass d) d.name := by
  have hclose : "  \x7d\n\x7d" = "  \x7d\n" ++ "\x7d" := rfl
  have htext : renderClass d = "class " ++ d.name ++ " \x7b\n" ++
      ("  /**\n   * @param \x7bObject\x7d " ++ parameterName ++ "\n   */\n" ++
        "  constructor(" ++ parameterName ++ ") \x7b\n" ++
        (if d.isEmpty then "    // no fields\n" else "") ++
        String.join (d.slots.map renderField) ++ "  \x7d\n") ++ "\x7d" := by
    unfold renderClass
    rw [hclose]
    simp only [String.append_assoc]
  rw [htext]
  exact .class d.name _

theorem declares_renderAlias (root : String) (layers : Nat) :
    Declares (renderAlias root layers) (TypeScript.aliasName root) := by
  unfold renderAlias
  exact .typedef (TypeScript.aliasName root) (listType root layers)

end JavaScript

/-- Blocks for all types and for the alias declare what the plan calls for, one name each and
in the same order. -/
theorem forall₂_declaredNames {declares : String → String → Prop} {type : Declaration → String}
    {listType : String → Nat → String} (htype : ∀ d, declares (type d) d.name)
    (hlist : ∀ root layers, declares (listType root layers) (TypeScript.aliasName root))
    (p : Plan) :
    List.Forall₂ declares
      (p.types.map type ++ if p.rootLayers = 0 then [] else [listType p.root.name p.rootLayers])
      (TypeScript.declaredNames p) := by
  unfold TypeScript.declaredNames
  apply List.rel_append
  · rw [List.forall₂_map_left_iff, List.forall₂_map_right_iff, List.forall₂_same]
    exact fun d _ => htype d
  · split
    · exact .nil
    · exact .cons (hlist _ _) .nil

/-! ## Names that end like an alias -/

/-- The name ends like that of an alias. -/
def EndsInArray (name : String) : Prop := ['A', 'r', 'r', 'a', 'y'] <:+ name.toList

/-- The name of the list type ends in the word that is put behind the root's. -/
theorem endsInArray_aliasName (root : String) : EndsInArray (TypeScript.aliasName root) := by
  rw [EndsInArray, TypeScript.aliasName, String.toList_append]
  exact List.suffix_append _ _

/-- What ends in a text with another last character does not. -/
theorem EndsInArray.last_eq {front : List Char} {name : String} (h : EndsInArray name)
    {ending : List Char} (hname : name.toList = front ++ ending) {c : Char}
    (hc : ending.getLast? = some c) : c = 'y' := by
  obtain ⟨rest, hrest⟩ := h
  have hlast : (front ++ ending).getLast? = some 'y' := by
    rw [← hname, ← hrest, List.getLast?_append]
    rfl
  rw [List.getLast?_append, hc] at hlast
  exact Option.some.inj hlast

/-- A plain name that ends in this word is that of a key whose Pascal case does: the items of
a list are called by another one. -/
theorem endsInArray_of_plainName {key : String} {inList : Bool}
    (h : EndsInArray (plainName key inList)) :
    inList = false ∧ EndsInArray (pascalCase key) := by
  cases inList with
  | false => exact ⟨rfl, h⟩
  | true =>
    have hlast := h.last_eq (c := 'm') String.toList_append rfl
    exact absurd hlast (by decide)

/-- So does the name that was made declarable, since the suffix of reserved names is another
word. -/
theorem endsInArray_of_declarable {r : Reserved} {base : String}
    (h : EndsInArray (declarable r base)) : EndsInArray base := by
  unfold declarable at h
  split at h
  · have hlast := h.last_eq (c := 'e') String.toList_append rfl
    exact absurd hlast (by decide)
  · exact h

/-- And so does a candidate: a number at the end is no letter. -/
theorem endsInArray_of_candidate {stem : String} {i : Nat} (h : EndsInArray (candidate stem i)) :
    EndsInArray stem := by
  cases hlast : (suffixDigits i).getLast? with
  | none =>
    have hplain : (candidate stem i).toList = stem.toList := by
      rw [toList_candidate, List.getLast?_eq_none_iff.mp hlast, List.append_nil]
    rwa [EndsInArray, hplain] at h
  | some c =>
    have hdigit := isDigit_suffixDigits i c (List.mem_of_getLast? hlast)
    rw [h.last_eq (toList_candidate stem i) hlast] at hdigit
    exact absurd hdigit (by decide)

/-- A name in front does not complete the ending: what is left of it begins in lower case. -/
theorem endsInArray_of_append {parent base : String} (hbase : isDeclaredForm base.toList = true)
    (h : EndsInArray (parent ++ base)) : EndsInArray base := by
  rw [EndsInArray, String.toList_append] at h
  rcases List.suffix_or_suffix_of_suffix h (List.suffix_append _ _) with hlong | hshort
  · exact hlong
  · rcases List.suffix_cons_iff.mp hshort with hwhole | hpart
    · exact ⟨[], hwhole.symm⟩
    · simp only [List.suffix_cons_iff, List.suffix_nil] at hpart
      rcases hpart with hpart | hpart | hpart | hpart | hpart <;>
        exact absurd (hpart ▸ hbase) (by decide)

/-- A claimed name ends like an alias only if the plain name does. -/
theorem endsInArray_of_claim {r : Reserved} (hr : r.Escapable) {taken : List String}
    {base parent : String} (hbase : isDeclaredForm base.toList = true)
    (h : EndsInArray (claim r taken base parent)) : EndsInArray base := by
  unfold claim at h
  dsimp only at h
  split at h
  · exact endsInArray_of_declarable h
  · obtain ⟨i, hi, -⟩ := firstFree_eq hr taken (parent ++ declarable r base)
    rw [hi] at h
    have hstem := endsInArray_of_candidate h
    exact endsInArray_of_declarable (endsInArray_of_append (declarable_isDeclaredForm hbase) hstem)

/-! ## Where such names come from -/

namespace Plan

open Shape Collected

/-- In one of the objects, another one stands directly under a key that ends like an alias. -/
def ArrayKeyed (objects : List Fields) : Prop :=
  ∃ members ∈ objects, ∃ field ∈ members,
    field.2.isObject = true ∧ EndsInArray (pascalCase field.1)

/-- A key stays one if there are more members. -/
theorem ArrayKeyed.mono {objects others : List Fields}
    (h : ∀ members ∈ objects, ∃ more ∈ others, members ⊆ more) :
    ArrayKeyed objects → ArrayKeyed others := by
  rintro ⟨members, hmembers, field, hfield, hkey⟩
  obtain ⟨more, hmore, hsubset⟩ := h members hmembers
  exact ⟨more, hmore, field, hsubset hfield, hkey⟩

/-- A name that ends like an alias is that of an object directly under such a key: the one
that is collected, or one inside what is collected. -/
theorem arrayKeyed_of_endsInArray {r : Reserved} (hr : r.Escapable) :
    (∀ taken parent key inList s, ∀ name ∈ (collectShape r taken parent key inList s).names,
      EndsInArray name →
        (inList = false ∧ s.isObject = true ∧ EndsInArray (pascalCase key)) ∨
          ArrayKeyed s.objects) ∧
      ∀ taken parent fields, ∀ name ∈ (collectFields r taken parent fields).names,
        EndsInArray name → ArrayKeyed (fields :: objectsBelow fields) := by
  apply collectShape.mutual_induct r
    (fun taken parent key inList s =>
      ∀ name ∈ (collectShape r taken parent key inList s).names, EndsInArray name →
        (inList = false ∧ s.isObject = true ∧ EndsInArray (pascalCase key)) ∨
          ArrayKeyed s.objects)
    (fun taken parent fields =>
      ∀ name ∈ (collectFields r taken parent fields).names, EndsInArray name →
        ArrayKeyed (fields :: objectsBelow fields))
  · -- whatever is in a list gets a name that ends otherwise
    intro taken parent key inList item ih name hname hends
    rw [collectShape_array] at hname
    rcases ih name hname hends with ⟨hdirect, -⟩ | hinside
    · exact absurd hdirect (by decide)
    · exact Or.inr hinside
  · -- the name is one from inside the object, or the one claimed for the object itself
    intro taken parent key inList fields claimed ih name hname hends
    rw [collectShape_object, names_declare] at hname
    rcases List.mem_append.mp hname with hinner | hself
    · have hinside : ArrayKeyed (fields :: objectsBelow fields) := ih name hinner hends
      refine Or.inr (hinside.mono fun members hmembers => ⟨members, ?_, List.Subset.refl _⟩)
      rw [objects, List.mem_append, List.mem_singleton]
      exact (List.mem_cons.mp hmembers).symm
    · rw [List.mem_singleton.mp hself] at hends
      have hplain := endsInArray_of_claim hr (plainName_isDeclaredForm key inList) hends
      obtain ⟨hdirect, hkey⟩ := endsInArray_of_plainName hplain
      exact Or.inl ⟨hdirect, rfl, hkey⟩
  · -- neither a list nor an object
    intro s taken parent key inList harray hobject name hname _
    cases s with
    | array item => exact absurd rfl (harray item)
    | object fields => exact absurd rfl (hobject fields)
    | _ => exact absurd hname List.not_mem_nil
  · intro taken parent name hname _
    exact absurd hname List.not_mem_nil
  · intro taken parent key s rest first hfirst hothers name hname hends
    rw [collectFields_cons, names_followedBy] at hname
    -- the objects looked at are those of the whole in either case
    rcases List.mem_append.mp hname with hname | hname
    · rcases hfirst name hname hends with ⟨-, hobject, hkey⟩ | hinside
      · exact ⟨_, List.mem_cons_self, (key, s), List.mem_cons_self, hobject, hkey⟩
      · refine hinside.mono fun members hmembers => ⟨members, ?_, List.Subset.refl _⟩
        exact List.mem_cons_of_mem _ (List.mem_append_left _ hmembers)
    · refine (hothers name hname hends).mono fun members hmembers => ?_
      rcases List.mem_cons.mp hmembers with rfl | hbelow
      · exact ⟨_, List.mem_cons_self, List.subset_cons_self _ _⟩
      · refine ⟨members, ?_, List.Subset.refl _⟩
        exact List.mem_cons_of_mem _ (List.mem_append_right _ hbelow)

/-- **A nested type is called like a list type only for a key that asks for it.** Its name
begins with whatever leads out of a clash, and ends as its plain name does. -/
theorem arrayKeyed_of_mem_nested {r : Reserved} (hr : r.Escapable) {rootName : String} {s : Shape}
    {d : Declaration} (hd : d ∈ (ofShape r rootName s).nested) (hends : EndsInArray d.name) :
    ArrayKeyed s.objects := by
  have hname : d.name ∈ (collectedOf r rootName s).names := List.mem_map_of_mem hd
  -- what is under the root is below one of the objects of the shape
  have hroot : ArrayKeyed (rootFields s :: objectsBelow (rootFields s)) :=
    (arrayKeyed_of_endsInArray hr).2 _ _ _ d.name hname hends
  rw [← objects_innermost]
  unfold rootFields at hroot
  split at hroot
  · next fields hinner =>
    rw [hinner]
    refine hroot.mono fun members hmembers => ⟨members, ?_, List.Subset.refl _⟩
    rw [objects, List.mem_append, List.mem_singleton]
    exact (List.mem_cons.mp hmembers).symm
  · -- nothing is declared but the root
    obtain ⟨members, hmembers, field, hfield, -⟩ := hroot
    rw [List.mem_singleton.mp hmembers] at hfield
    exact absurd hfield List.not_mem_nil

end Plan

/-! ## Distinct names -/

/-- The list type is not called like the root. -/
theorem aliasName_ne_self (root : String) : TypeScript.aliasName root ≠ root := by
  intro h
  have hlength := congrArg String.length h
  rw [TypeScript.aliasName, String.length_append] at hlength
  have hending : "Array".length = 5 := rfl
  omega

/-- `Array` is the only global name that ends like an alias. -/
theorem aliasName_not_mem_globalTypes {root : String} (h : isDeclaredForm root.toList = true) :
    TypeScript.aliasName root ∉ TypeScript.globalTypes := by
  intro hmem
  have hglobal : ∀ name ∈ TypeScript.globalTypes, EndsInArray name → name = "Array" := by
    unfold EndsInArray
    decide
  have hname := hglobal _ hmem (endsInArray_aliasName root)
  have hlist : root.toList ++ "Array".toList = [] ++ "Array".toList := by
    rw [← String.toList_append]
    exact congrArg String.toList hname
  rw [List.append_cancel_right hlist] at h
  exact absurd h (by decide)

/-- **TypeScript and JavaScript declare a name twice exactly if the root is in lists and a
type inside it is called like the list type.** Then an object stands directly under a key
that ends in `Array`. Whatever the names, none is that of a global type. -/
theorem top_level_names_distinct_iff (rootName : String) (s : Shape) :
    let p := planFor .typeScript rootName s
    planFor .javaScript rootName s = p ∧
    (∃ blocks, TypeScript.render p = .single (stack "" blocks "\n\n") .typeScript ∧
      List.Forall₂ TypeScript.Declares blocks (TypeScript.declaredNames p)) ∧
    (∃ blocks, JavaScript.render p = .single (stack "" blocks "\n\n") .javaScript ∧
      List.Forall₂ JavaScript.Declares blocks (JavaScript.declaredNames p)) ∧
    JavaScript.declaredNames p = TypeScript.declaredNames p ∧
    (∀ name ∈ TypeScript.declaredNames p, name ∉ TypeScript.globalTypes) ∧
    ((TypeScript.declaredNames p).Nodup ↔
      p.rootLayers = 0 ∨ ∀ d ∈ p.nested, d.name ≠ TypeScript.aliasName p.root.name) ∧
    (¬ ArrayKeyed s.objects → (TypeScript.declaredNames p).Nodup) := by
  intro p
  have hr : TypeScript.reserved.Escapable := Reserved.escapable_ofList TypeScript.globalTypes
  have hsupply : IsSupply TypeScript.reserved p.declaredNames :=
    isSupply_declaredNames hr rootName s
  have hroot : isDeclaredForm p.root.name.toList = true :=
    (isDeclarable_of_mem_declaredNames hr p.root.name
      (List.mem_map_of_mem (List.mem_append_right _ List.mem_cons_self))).form
  -- the names of the types are distinct, so that only the alias can repeat one
  have hiff : (TypeScript.declaredNames p).Nodup ↔
      p.rootLayers = 0 ∨ ∀ d ∈ p.nested, d.name ≠ TypeScript.aliasName p.root.name := by
    have htypes : (p.types.map Declaration.name).Nodup := hsupply.nodup
    unfold TypeScript.declaredNames
    split
    · next hlayers =>
      rw [List.append_nil]
      exact iff_of_true htypes (Or.inl hlayers)
    · next hlayers =>
      rw [List.nodup_append_comm, List.singleton_append, List.nodup_cons, or_iff_right hlayers,
        and_iff_left htypes, types, List.map_append, List.mem_append, not_or, List.mem_map,
        List.map_singleton, List.mem_singleton, and_iff_left (aliasName_ne_self p.root.name)]
      simp only [not_exists, not_and, ne_eq]
  refine ⟨rfl, ⟨_, rfl, ?_⟩, ⟨_, rfl, ?_⟩, rfl, ?_, hiff, ?_⟩
  · exact forall₂_declaredNames TypeScript.declares_renderInterface
      TypeScript.declares_renderAlias p
  · exact forall₂_declaredNames JavaScript.declares_renderClass JavaScript.declares_renderAlias p
  · intro name hname
    unfold TypeScript.declaredNames at hname
    rcases List.mem_append.mp hname with htype | halias
    · intro hglobal
      have hholds : TypeScript.reserved.holds name = true := List.contains_iff_mem.mpr hglobal
      exact absurd ((hsupply.declarable name htype).symm.trans hholds) Bool.false_ne_true
    · split at halias
      · exact absurd halias List.not_mem_nil
      · rw [List.mem_singleton.mp halias]
        exact aliasName_not_mem_globalTypes hroot
  · intro hkeys
    rw [hiff]
    refine Or.inr fun d hd hname => hkeys ?_
    have hends : EndsInArray d.name := hname ▸ endsInArray_aliasName p.root.name
    exact arrayKeyed_of_mem_nested hr hd hends

/-- A list of objects with an object under a key that is called like the list type. -/
def listLike : Shape := .array (.object [("rootArray", .object [("a", .integer)])])

/-- A type inside the root and the list type have one name, in both targets. -/
theorem top_level_names_clash :
    listLike.KeysDistinct ∧
      TypeScript.declaredNames (planFor .typeScript "Root" listLike) =
        ["RootArray", "Root", "RootArray"] ∧
      ¬ (TypeScript.declaredNames (planFor .typeScript "Root" listLike)).Nodup ∧
      JavaScript.declaredNames (planFor .javaScript "Root" listLike) =
        ["RootArray", "Root", "RootArray"] ∧
      ¬ (JavaScript.declaredNames (planFor .javaScript "Root" listLike)).Nodup := by
  decide +kernel

end Shapewright
