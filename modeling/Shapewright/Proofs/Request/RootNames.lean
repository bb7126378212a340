import Shapewright.Generate
import Shapewright.Proofs.Name.Identifiers
import Shapewright.Proofs.Plan.UniqueNames
import Shapewright.Proofs.Text.Trimming

/-!
# Names for the root

The name that a user chooses for the root is trimmed and then held against four rules in a
fixed order: it must not be empty, nor begin with a digit, nor contain anything but
letters, digits and underscores, nor be a reserved word in any case. The first rule that
it breaks is the one that is reported. The root is declared under the name in Pascal case;
where a target reserves that, `Type` stands behind it, and no target reserves a name that
it reserves once more with `Type` behind it.

Main definitions:

* `Name.Fits` — a letter or an underscore, then letters, digits and underscores.
* `Name.Avoided` — a reserved word, as it is or in lower case.
* `Name.BreaksRule` — the first rule that a trimmed name breaks.
* `Reserved.YieldsToSuffix` — no reserved name is reserved with `Type` behind it.

Main results:

* `Name.validate_eq_ok_iff`, `Name.validate_eq_error_iff` — what is accepted, and what is
  reported.
* `Target.root_name_planFor` — what the root is declared under.
* `root_names_are_checked_in_order` — both at once.
-/

namespace Shapewright

namespace Name

/-! ## Rules -/

/-- A letter or an underscore, then letters, digits and underscores, all of ASCII. -/
def Fits (t : String) : Prop :=
  ∃ c rest, t.toList = c :: rest ∧ (c.isAlpha = true ∨ c = '_') ∧
    ∀ d ∈ rest, d.isAlphanum = true ∨ d = '_'

/-- The name, or the name in lower case, is a reserved word. Names that fit are of ASCII,
so lower case is that of ASCII. -/
def Avoided (t : String) : Prop := t ∈ reservedWords ∨ t.toLower ∈ reservedWords

def BeginsWithDigit (t : String) : Prop := ∃ c rest, t.toList = c :: rest ∧ c.isDigit = true

/-- The first rule that a trimmed name breaks. -/
inductive BreaksRule (t : String) : Refusal → Prop where
  | empty (hempty : t = "") : BreaksRule t .empty
  | leadingDigit (hdigit : BeginsWithDigit t) : BreaksRule t .leadingDigit
  | invalidCharacters (hempty : t ≠ "") (hdigit : ¬ BeginsWithDigit t) (hfits : ¬ Fits t) :
      BreaksRule t .invalidCharacters
  | reserved (hfits : Fits t) (havoided : Avoided t) : BreaksRule t (.reserved t)

/-- The check of characters is the rule for them. -/
theorem isTypeName_iff_fits {t : String} : isTypeName t.toList = true ↔ Fits t := by
  rw [Fits]
  cases t.toList with
  | nil => simp [isTypeName]
  | cons c rest => simp [isTypeName, isNameStart, isNameChar]

/-- The check for reserved words asks the name as it is and in lower case. -/
theorem isReserved_iff {t : String} : isReserved t = true ↔ Avoided t := by
  rw [isReserved, Bool.or_eq_true, List.contains_iff_mem, List.contains_iff_mem, Avoided]

/-- What fits is not empty, and does not begin with a digit. -/
theorem Fits.exists_cons {t : String} (h : Fits t) :
    ∃ c rest, t.toList = c :: rest ∧ c.isDigit = false := by
  obtain ⟨-, c, hhead, hdigit⟩ := Name.isTypeName_iff.mp (isTypeName_iff_fits.mpr h)
  obtain ⟨rest, hcons⟩ := List.head?_eq_some_iff.mp hhead
  exact ⟨c, rest, hcons, hdigit⟩

/-- A name breaks some rule, or fits and is not avoided. -/
theorem breaksRule_or_fits (t : String) :
    (∃ refusal, BreaksRule t refusal) ∨ Fits t ∧ ¬ Avoided t := by
  by_cases hempty : t = ""
  · exact Or.inl ⟨_, .empty hempty⟩
  by_cases hdigit : BeginsWithDigit t
  · exact Or.inl ⟨_, .leadingDigit hdigit⟩
  by_cases hfits : Fits t
  · by_cases havoided : Avoided t
    · exact Or.inl ⟨_, .reserved hfits havoided⟩
    · exact Or.inr ⟨hfits, havoided⟩
  · exact Or.inl ⟨_, .invalidCharacters hempty hdigit hfits⟩

/-! ## The check -/

section Validation

variable {name t : String}

/-- The check of a name whose first character is known. -/
theorem validate_of_cons {c : Char} {rest : List Char} (h : Text.IsTrimmed t.toList name.toList)
    (ht : t.toList = c :: rest) :
    validate name =
      if c.isDigit then .error .leadingDigit
      else if !isTypeName t.toList then .error .invalidCharacters
      else if isReserved t then .error (.reserved t)
      else .ok t := by
  have htrim : Text.trim name.toList = c :: rest := (Text.isTrimmed_iff.mp h).symm.trans ht
  rw [validate, htrim, ← ht, String.ofList_toList, ht]

/-- A name that breaks a rule is refused by it. Of several broken rules it is the first, since
each rule but the first supposes that those before it are kept. -/
theorem validate_of_breaksRule {refusal : Refusal} (h : Text.IsTrimmed t.toList name.toList)
    (hbreaks : BreaksRule t refusal) : validate name = .error refusal := by
  -- the rules are tested in the order in which they are listed here
  cases hbreaks with
  | empty hempty =>
    have htrim : Text.trim name.toList = [] := by
      rw [← Text.isTrimmed_iff.mp h, hempty]
      rfl
    rw [validate, htrim]
  | leadingDigit hdigit =>
    obtain ⟨c, rest, ht, hc⟩ := hdigit
    rw [validate_of_cons h ht, if_pos hc]
  -- there is a first character, and it is no digit
  | invalidCharacters hempty hdigit hfits =>
    obtain ⟨c, rest, ht⟩ := List.exists_cons_of_ne_nil fun hnil =>
      hempty (String.toList_eq_nil_iff.mp hnil)
    rw [validate_of_cons h ht, if_neg fun hc => hdigit ⟨c, rest, ht, hc⟩, if_pos]
    rw [← isTypeName_iff_fits, Bool.not_eq_true] at hfits
    rw [hfits]
    rfl
  | reserved hfits havoided =>
    obtain ⟨c, rest, ht, hc⟩ := hfits.exists_cons
    rw [validate_of_cons h ht, hc, isTypeName_iff_fits.mpr hfits, isReserved_iff.mpr havoided]
    rfl

/-- A name that breaks none is accepted, trimmed. -/
theorem validate_of_fits (h : Text.IsTrimmed t.toList name.toList) (hfits : Fits t)
    (havoided : ¬ Avoided t) : validate name = .ok t := by
  obtain ⟨c, rest, ht, hc⟩ := hfits.exists_cons
  rw [← isReserved_iff, Bool.not_eq_true] at havoided
  rw [validate_of_cons h ht, hc, isTypeName_iff_fits.mpr hfits, havoided]
  rfl

/-- A name is accepted exactly if it fits, trimmed, and is no reserved word. -/
theorem validate_eq_ok_iff (h : Text.IsTrimmed t.toList name.toList) {accepted : String} :
    validate name = .ok accepted ↔ accepted = t ∧ Fits t ∧ ¬ Avoided t := by
  constructor
  · intro hok
    rcases breaksRule_or_fits t with ⟨refusal, hbreaks⟩ | ⟨hfits, havoided⟩
    · cases (validate_of_breaksRule h hbreaks).symm.trans hok
    · cases (validate_of_fits h hfits havoided).symm.trans hok
      exact ⟨rfl, hfits, havoided⟩
  · rintro ⟨rfl, hfits, havoided⟩
    exact validate_of_fits h hfits havoided

/-- The refusal is the first rule that is broken. -/
theorem validate_eq_error_iff (h : Text.IsTrimmed t.toList name.toList) {refusal : Refusal} :
    validate name = .error refusal ↔ BreaksRule t refusal := by
  constructor
  · intro herror
    rcases breaksRule_or_fits t with ⟨other, hbreaks⟩ | ⟨hfits, havoided⟩
    · cases (validate_of_breaksRule h hbreaks).symm.trans herror
      exact hbreaks
    · cases (validate_of_fits h hfits havoided).symm.trans herror
  · exact validate_of_breaksRule h

end Validation

end Name

/-! ## The name of the root -/

open Naming Plan

/-- `Type` behind a name is not reserved once more. -/
def Reserved.YieldsToSuffix (r : Reserved) : Prop :=
  ∀ base, r.holds base = true → r.holds (base ++ "Type") = false

/-- For a list of reserved names it is enough to look at the names of the list. -/
theorem Reserved.yieldsToSuffix_ofList {words : List String}
    (hwords : ∀ word ∈ words, word ++ "Type" ∉ words) : (ofList words).YieldsToSuffix := by
  intro base hbase
  rw [Bool.eq_false_iff]
  exact fun h => hwords base (holds_iff.mp hbase) (holds_iff.mp h)

/-- In C no type of the headers ends in the letters of `Type` and the suffix of types, so that
a name that gives way by its suffix is free. -/
theorem Reserved.yieldsToSuffix_c : C.reserved.YieldsToSuffix := by
  intro base _
  rw [Bool.eq_false_iff]
  intro h
  rw [holds_iff] at h
  -- the spelled name has the letters of the base and of both suffixes
  have hletters : Name.letters (C.typeName (base ++ "Type")).toList =
      Name.letters base.toList ++ "typet".toList := by
    rw [C.typeName, Name.snakeCase, String.toList_append, String.toList_ofList,
      Name.letters_append, Name.letters_snake, String.toList_append, Name.letters_append,
      List.append_assoc]
    rfl
  have hheaders : ∀ word ∈ C.headerTypes,
      ¬ "typet".toList.isSuffixOf (Name.letters word.toList) = true := by decide
  apply hheaders (C.typeName (base ++ "Type")) h
  rw [hletters, List.isSuffixOf_iff_suffix]
  exact List.suffix_append _ _

/-- In every target, `Type` behind a reserved name leads to one that is free. -/
theorem Target.yieldsToSuffix (t : Target) : t.reserved.YieldsToSuffix := by
  cases t with
  | c => exact Reserved.yieldsToSuffix_c
  | _ => exact Reserved.yieldsToSuffix_ofList (by decide)

/-- So a name that is made declarable is not reserved, be it by the suffix or as it was. -/
theorem Reserved.YieldsToSuffix.holds_declarable {r : Reserved} (hr : r.YieldsToSuffix)
    (base : String) : r.holds (declarable r base) = false := by
  rw [declarable]
  split
  · next hholds => exact hr _ hholds
  · next hholds => exact Bool.eq_false_iff.mpr hholds

/-- No name is in use before that of the root, so nothing has to be put before it. -/
theorem Plan.rootNameOf_eq {r : Reserved} (hr : r.YieldsToSuffix) (rootName : String) :
    rootNameOf r rootName = declarable r (Name.pascalCase rootName) := by
  have hfree : isFree r [] (declarable r (Name.pascalCase rootName)) = true :=
    isFree_iff.mpr ⟨hr.holds_declarable _, List.not_mem_nil⟩
  rw [rootNameOf, claim, if_pos hfree]

/-- The root is the first to be named, so it gets the name it asks for. That it is not
reserved follows from how the suffix is chosen. -/
theorem Target.root_name_planFor (t : Target) (rootName : String) (s : Shape) :
    (planFor t rootName s).root.name = declarable t.reserved (Name.pascalCase rootName) ∧
      t.reserved.holds (planFor t rootName s).root.name = false := by
  have hroot : (planFor t rootName s).root.name = rootNameOf t.reserved rootName := rfl
  rw [hroot, rootNameOf_eq t.yieldsToSuffix]
  exact ⟨rfl, t.yieldsToSuffix.holds_declarable _⟩

/-- **Root names are checked in a fixed order, and declared as they are spelled.** Of a name
one part is left when it is trimmed. It is accepted exactly if it is a letter or an
underscore with letters, digits and underscores behind, and no reserved word in any case;
otherwise the first rule that it breaks is reported. In every target the root is declared
under its Pascal case, with `Type` behind it where the target reserves that, and this is
not reserved. -/
theorem root_names_are_checked_in_order (name : String) :
    ∃ t : String, Text.IsTrimmed t.toList name.toList ∧
      (∀ accepted, Name.validate name = .ok accepted ↔
        accepted = t ∧ Name.Fits t ∧ ¬ Name.Avoided t) ∧
      (∀ refusal, Name.validate name = .error refusal ↔ Name.BreaksRule t refusal) ∧
      ∀ (target : Target) (s : Shape),
        (planFor target t s).root.name =
          (if target.reserved.holds (Name.pascalCase t) then Name.pascalCase t ++ "Type"
            else Name.pascalCase t) ∧
        target.reserved.holds (planFor target t s).root.name = false := by
  have htrimmed : Text.IsTrimmed (String.ofList (Text.trim name.toList)).toList name.toList := by
    rw [String.toList_ofList]
    exact Text.isTrimmed_trim name.toList
  exact ⟨_, htrimmed, fun _ => Name.validate_eq_ok_iff htrimmed,
    fun _ => Name.validate_eq_error_iff htrimmed, fun target s => target.root_name_planFor _ s⟩

end Shapewright
