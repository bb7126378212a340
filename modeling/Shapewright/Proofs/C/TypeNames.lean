import Shapewright.Generate
import Shapewright.Proofs.Name.Humps
import Shapewright.Proofs.Plan.UniqueNames
import Shapewright.Proofs.Shape.Structure

/-!
# Names of C types

A plan keeps the names of its types apart as they are, but C writes them in snake case.
No name is written like a type of the headers, for that is looked at in snake case as
well. Two names are written alike if they have the same humps, so that a plan whose
names differ in case alone can declare a type twice.

Main definitions:

* `C.typedefNames` — the names of the types of a plan as they are written.
* `C.Declares` — the text declares a type of the name.

Main results:

* `typeName_eq_iff` — names with the same humps are written alike, and no others.
* `typedef_names_distinct_iff` — when all types have different names.
-/

namespace Shapewright.C

open Name Plan

/-- The names of the types of a plan as they are written, in order of declaration. -/
def typedefNames (p : Plan) : List String := p.declaredNames.map typeName

/-! ## Declarations -/

/-- The text declares the type `name`. -/
inductive Declares : String → String → Prop where
  | struct (members name : String) :
      Declares ("typedef struct \x7b\n" ++ members ++ "\x7d " ++ name ++ ";") name

/-- A struct that is printed declares the type under its name in C. -/
theorem declares_renderStruct (d : Declaration) : Declares (renderStruct d) (typeName d.name) := by
  have htext : renderStruct d = "typedef struct \x7b\n" ++
      ((if d.isEmpty then "    int dummy; /* empty struct placeholder */\n" else "") ++
        String.join (d.slots.map renderField)) ++ "\x7d " ++ typeName d.name ++ ";" := by
    unfold renderStruct
    simp only [String.append_assoc]
  rw [htext]
  exact .struct _ (typeName d.name)

/-- The output consists of the header and the declarations of these types. -/
theorem exists_declares_typedefNames (p : Plan) :
    ∃ blocks, render p = .single (stack header blocks "\n\n") .c ∧
      List.Forall₂ Declares blocks (typedefNames p) := by
  refine ⟨p.types.map renderStruct, rfl, ?_⟩
  rw [typedefNames, declaredNames, List.map_map, List.forall₂_map_left_iff,
    List.forall₂_map_right_iff, List.forall₂_same]
  exact fun d _ => declares_renderStruct d

/-! ## Distinct names -/

/-- Two names are one type name exactly if they have the same humps: the suffix is the same
for all, and snake case tells the humps. -/
theorem typeName_eq_iff {name other : String} :
    typeName name = typeName other ↔ allHumps name.toList = allHumps other.toList := by
  rw [typeName, typeName, String.append_left_inj]
  exact snakeCase_eq_iff name other

/-- What is not reserved is no type of the headers. -/
theorem not_mem_headerTypes {name : String} (h : reserved.holds name = false) :
    typeName name ∉ headerTypes := by
  intro hmem
  rw [Bool.eq_false_iff, ne_eq, Reserved.holds_iff] at h
  exact h hmem

/-- **C types have names of their own exactly if no two names of the plan have the same
humps.** That is so if they differ in more than case and underscores. Whatever the names,
none is written like a type of the headers. -/
theorem typedef_names_distinct_iff (rootName : String) (s : Shape) :
    let p := planFor .c rootName s
    (∃ blocks, render p = .single (stack header blocks "\n\n") .c ∧
      List.Forall₂ Declares blocks (typedefNames p)) ∧
    (∀ name ∈ typedefNames p, name ∉ headerTypes) ∧
    ((typedefNames p).Nodup ↔
      ∀ name ∈ p.declaredNames, ∀ other ∈ p.declaredNames,
        allHumps name.toList = allHumps other.toList → name = other) ∧
    ((∀ name ∈ p.declaredNames, ∀ other ∈ p.declaredNames,
        letters name.toList = letters other.toList → name = other) →
      (typedefNames p).Nodup) := by
  intro p
  have hsupply : IsSupply reserved p.declaredNames :=
    isSupply_declaredNames Reserved.escapable_c rootName s
  -- the names of the plan are distinct, so that only the spelling can make them equal
  have hiff : (typedefNames p).Nodup ↔
      ∀ name ∈ p.declaredNames, ∀ other ∈ p.declaredNames,
        allHumps name.toList = allHumps other.toList → name = other := by
    rw [typedefNames, List.nodup_map_iff_inj_on hsupply.nodup]
    simp only [typeName_eq_iff]
  refine ⟨exists_declares_typedefNames p, ?_, hiff, ?_⟩
  · intro name hname
    obtain ⟨plain, hplain, rfl⟩ := List.mem_map.mp hname
    exact not_mem_headerTypes (hsupply.declarable plain hplain)
  · intro hletters
    rw [hiff]
    intro name hname other hother hhumps
    exact hletters name hname other hother (letters_eq_of_allHumps_eq hhumps)

/-- An object with two objects under keys that differ in case alone. -/
def likeKeys : Shape :=
  .object [("userID", .object [("a", .integer)]), ("userId", .object [("b", .integer)])]

/-- Two keys that differ in case declare one type twice. -/
theorem typedef_names_clash :
    likeKeys.KeysDistinct ∧
      (planFor .c "Root" likeKeys).declaredNames = ["UserID", "UserId", "Root"] ∧
      typedefNames (planFor .c "Root" likeKeys) = ["user_id_t", "user_id_t", "root_t"] ∧
      ¬ (typedefNames (planFor .c "Root" likeKeys)).Nodup := by
  decide +kernel

end Shapewright.C
