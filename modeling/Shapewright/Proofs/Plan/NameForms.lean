import Shapewright.Proofs.Name.Forms
import Shapewright.Proofs.Plan.DependencyOrder
import Shapewright.Proofs.Plan.UniqueNames

/-!
# The form of declared names

Every name that is tried for a type begins with a spelled name and goes on in
letters, digits and underscores: a suffix, another spelled name, a number. So all
declared names are upper-case letters or underscores followed by such characters,
which none of the texts is that the targets write for a kind or around a type.

Main definitions:

* `Plan.IsDeclarable` — the names that a type may be declared under.

Main results:

* `claim_isDeclaredForm` — a claimed name has the form.
* `isDeclarable_of_mem_declaredNames` — all declared names have it, and none is
  reserved.
* `isDeclarable_of_mem_types` — so it is with the names that slots refer to.
-/

namespace Shapewright

namespace Naming

open Name

/-- The number behind a name is made of digits. -/
theorem all_isNameChar_suffixDigits (i : Nat) : (suffixDigits i).all isNameChar = true := by
  rw [List.all_eq_true]
  intro c hc
  apply isNameChar_of_isAlphanum
  rw [Char.isAlphanum, isDigit_suffixDigits i c hc, Bool.or_true]

/-- So a number leads from a declared name to one of the same form. -/
theorem candidate_isDeclaredForm {stem : String} (h : isDeclaredForm stem.toList = true)
    (i : Nat) : isDeclaredForm (candidate stem i).toList = true := by
  rw [toList_candidate]
  exact isDeclaredForm_append h (all_isNameChar_suffixDigits i)

/-- The name that is chosen is one of those that were tried, or the stem itself. -/
theorem firstFree_isDeclaredForm {r : Reserved} {stem : String}
    (h : isDeclaredForm stem.toList = true) (taken : List String) :
    isDeclaredForm (firstFree r taken stem).toList = true := by
  rw [firstFree]
  cases hfind : (candidates stem (taken.length + r.words.length)).find? (isFree r taken) with
  | none => exact h
  | some name =>
    have hmem := List.mem_of_find?_eq_some hfind
    rw [candidates_eq] at hmem
    obtain ⟨i, -, rfl⟩ := List.mem_map.mp hmem
    exact candidate_isDeclaredForm h i

/-- The suffix that leads out of reserved names keeps the form. -/
theorem declarable_isDeclaredForm {r : Reserved} {base : String}
    (h : isDeclaredForm base.toList = true) :
    isDeclaredForm (declarable r base).toList = true := by
  rw [declarable]
  split
  · rw [String.toList_append]
    exact isDeclaredForm_append h (by decide)
  · exact h

/-- A claimed name has the form, if the plain name and that of the containing type have it:
what leads out of a clash is the second in front of the first, or a number behind. -/
theorem claim_isDeclaredForm {r : Reserved} {base parent : String}
    (hbase : isDeclaredForm base.toList = true)
    (hparent : parent = "" ∨ isDeclaredForm parent.toList = true) (taken : List String) :
    isDeclaredForm (claim r taken base parent).toList = true := by
  have hplain := declarable_isDeclaredForm (r := r) hbase
  rw [claim]
  split
  · exact hplain
  · apply firstFree_isDeclaredForm
    rw [String.toList_append]
    rcases hparent with rfl | hparent
    · exact hplain
    · exact isDeclaredForm_append hparent
        (List.all_eq_true.mpr (isNameChar_of_isDeclaredForm hplain))

end Naming

open Naming Name

/-- Every key has a plain name of this form, be it empty or full of blanks. -/
theorem plainName_isDeclaredForm (key : String) (inList : Bool) :
    isDeclaredForm (plainName key inList).toList = true := by
  have hpascal : isDeclaredForm (pascalCase key).toList = true := by
    rw [pascalCase, String.toList_ofList]
    exact isDeclaredForm_pascal key.toList
  rw [plainName]
  split
  · rw [String.toList_append]
    exact isDeclaredForm_append hpascal (by decide)
  · exact hpascal

namespace Plan

open Collected

/-- All names that a run gives have the form, if the name of the type around it has: the run
puts nothing in front of a name but that of the containing type. -/
theorem collectFields_isDeclaredForm {parent : String}
    (hparent : isDeclaredForm parent.toList = true) (r : Reserved) (taken : List String)
    (fields : Fields) :
    ∀ name ∈ (collectFields r taken parent fields).names, isDeclaredForm name.toList = true := by
  refine (collect_induction (P := fun _ parent c => isDeclaredForm parent.toList = true →
    ∀ name ∈ c.names, isDeclaredForm name.toList = true) ?_ ?_ ?_).2 taken parent fields hparent
  · intro taken parent _ name hname
    exact absurd hname List.not_mem_nil
  · intro taken parent key inList fields name hclaim ih hparent
    -- the name that is claimed becomes the containing type of what is inside
    have hself : isDeclaredForm name.toList = true := by
      rw [hclaim]
      exact claim_isDeclaredForm (plainName_isDeclaredForm key inList) (Or.inr hparent) taken
    rw [names_declare]
    intro other hother
    rcases List.mem_append.mp hother with hinner | hlast
    · exact ih hself other hinner
    · rw [List.mem_singleton] at hlast
      rw [hlast]
      exact hself
  · intro taken parent first others hfirst hothers hparent
    rw [names_followedBy]
    intro name hname
    rcases List.mem_append.mp hname with hname | hname
    · exact hfirst hparent name hname
    · exact hothers hparent name hname

/-- The names that a type may be declared under in a target with the reserved
names `r`. -/
structure IsDeclarable (r : Reserved) (name : String) : Prop where
  form : isDeclaredForm name.toList = true
  free : r.holds name = false

/-- What may stand in no name stands in none that a type is declared under. This is how
brackets, quotes and blanks end a name. -/
theorem IsDeclarable.not_mem {r : Reserved} {name : String} (h : IsDeclarable r name) {c : Char}
    (hc : isNameChar c = false) : c ∉ name.toList := by
  intro hmem
  have hchar := isNameChar_of_isDeclaredForm h.form c hmem
  exact absurd (hc.symm.trans hchar) Bool.false_ne_true

/-- **All declared names are declarable**: they have the form of type names, and the target
reserves none of them. -/
theorem isDeclarable_of_mem_declaredNames {r : Reserved} (hr : r.Escapable) {rootName : String}
    {s : Shape} : ∀ name ∈ (ofShape r rootName s).declaredNames, IsDeclarable r name := by
  intro name hname
  have hroot : isDeclaredForm (rootNameOf r rootName).toList = true :=
    claim_isDeclaredForm (plainName_isDeclaredForm rootName false) (Or.inl rfl) []
  refine ⟨?_, (isSupply_declaredNames hr rootName s).declarable name hname⟩
  rw [declaredNames_ofShape] at hname
  rcases List.mem_append.mp hname with hnested | hlast
  · exact collectFields_isDeclaredForm hroot r _ _ name hnested
  · rw [List.mem_singleton] at hlast
    rw [hlast]
    exact hroot

/-- A plan declares and refers to such names alone. -/
theorem isDeclarable_of_mem_types {r : Reserved} (hr : r.Escapable) {s : Shape}
    (hs : s.KeysDistinct) {rootName : String} : ∀ d ∈ (ofShape r rootName s).types,
      IsDeclarable r d.name ∧
        ∀ member ∈ d.slots, ∀ name, member.2.target? = some name → IsDeclarable r name := by
  intro d hd
  constructor
  · exact isDeclarable_of_mem_declaredNames hr d.name (List.mem_map_of_mem hd)
  · intro member hmember name hname
    exact isDeclarable_of_mem_declaredNames hr name
      (mem_declaredNames_of_target hs hd hmember hname)

end Plan
end Shapewright
