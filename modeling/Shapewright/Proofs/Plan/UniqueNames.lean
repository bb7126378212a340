import Shapewright.Proofs.Plan.Search

/-!
# Declared names

All types of a plan, the root among them, have names of their own, and the
target can declare each of them. The names are those that the collection leaves
in use, which start out distinct and are only ever joined by free ones.

Main results:

* `types_names_perm` — the declared names are the names in use at the end.
* `names_distinct_and_declarable` — the search for each name ends, the declared
  names are distinct and none is reserved.
-/

namespace Shapewright.Plan

open Naming

/-- The name of the root. -/
def rootNameOf (r : Reserved) (rootName : String) : String :=
  claim r [] (Name.pascalCase rootName) ""

/-- What the members of the root yield. -/
def collectedOf (r : Reserved) (rootName : String) (s : Shape) : Collected :=
  collectFields r [rootNameOf r rootName] (rootNameOf r rootName) (rootFields s)

/-- The declared names, in order of declaration. -/
def declaredNames (p : Plan) : List String := p.types.map Declaration.name

/-- The nested types are declared in the order in which they were found, the root behind them
all. -/
theorem declaredNames_ofShape (r : Reserved) (rootName : String) (s : Shape) :
    (ofShape r rootName s).declaredNames =
      (collectedOf r rootName s).names ++ [rootNameOf r rootName] := by
  rw [declaredNames, types, List.map_append]
  rfl

/-- The declared names are those that the run took, and that of the root with them. -/
theorem types_names_perm (r : Reserved) (rootName : String) (s : Shape) :
    (ofShape r rootName s).declaredNames.Perm (collectedOf r rootName s).taken := by
  rw [declaredNames_ofShape]
  exact (collectFields_taken_perm r _ _ _).symm

/-- **No two types of a plan have one name, and none has a reserved one.** The nested types
get theirs in turn, each kept off all earlier ones, and the root has claimed its own before
any of them. -/
theorem isSupply_declaredNames {r : Reserved} (hr : r.Escapable) (rootName : String) (s : Shape) :
    IsSupply r (ofShape r rootName s).declaredNames := by
  have hroot : IsSupply r [rootNameOf r rootName] := (isSupply_nil r).claim hr _ _
  have hall := collectFields_isSupply hr hroot (rootNameOf r rootName) (rootFields s)
  have hperm := types_names_perm r rootName s
  exact ⟨hperm.nodup_iff.mpr hall.nodup,
    fun name hname => hall.declarable name (hperm.mem_iff.mp hname)⟩

/-- **Names are always found, and are distinct and declarable.** Whatever names
are in use, the unbounded search for another one ends, with the name that is given
out, and so planning ends; no two types of a plan have the same name, nor any type
a reserved one. -/
theorem names_distinct_and_declarable {r : Reserved} (hr : r.Admitted) (rootName : String)
    (s : Shape) :
    (∀ taken base parent name,
        Claims r taken base parent name ↔ name = claim r taken base parent) ∧
      (∀ p, Plans r rootName s p ↔ p = ofShape r rootName s) ∧
      ((ofShape r rootName s).types.map Declaration.name).Nodup ∧
      ∀ d ∈ (ofShape r rootName s).types, r.holds d.name = false := by
  have hends := hr.escapable
  -- the names were given out one after the other, each of them free when it was
  have hsupply := isSupply_declaredNames hends rootName s
  refine ⟨?_, ?_, hsupply.nodup, ?_⟩
  · intro taken base parent name
    exact claims_iff hends
  · intro p
    exact plans_iff hends
  · intro d hd
    exact hsupply.declarable d.name (List.mem_map_of_mem hd)

/-- Objects whose plain names clash: two keys are spelled alike, and C has a name
of its own for sizes. -/
def clashing : Shape :=
  .object [("XX", .object []),
    ("X", .object [("size", .array (.array (.object [("a", .integer)])))]), ("size", .object [])]

/-- As C reserves them, the names of clashing objects are changed in every way. -/
theorem names_distinct_and_declarable_clashing :
    C.reserved.Admitted ∧
      Plans C.reserved "X" clashing (ofShape C.reserved "X" clashing) ∧
      (ofShape C.reserved "X" clashing).types.map Declaration.name =
        ["XX", "SizeItem", "XX2", "SizeType", "X"] ∧
      ((ofShape C.reserved "X" clashing).types.map Declaration.name).Nodup ∧
      ∀ d ∈ (ofShape C.reserved "X" clashing).types, C.reserved.holds d.name = false :=
  have hall := names_distinct_and_declarable (Or.inr ⟨.c, rfl⟩) "X" clashing
  ⟨Or.inr ⟨.c, rfl⟩, (hall.2.1 _).mpr rfl, by decide +kernel, hall.2.2⟩

end Shapewright.Plan
