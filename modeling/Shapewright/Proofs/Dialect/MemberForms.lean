import Shapewright.Proofs.Dialect.MemberLayouts
import Shapewright.Proofs.Name.Identifiers

/-!
# The form of members

Whatever a key is, the member that stands for it has a name that the target accepts: an
identifier that is no keyword, or one between marks that take its meaning as a keyword
away. Keywords that marks do not help, and a name of an underscore alone where that
declares nothing, are never used.

Main definitions:

* `MemberRules` — which names the members of a target may have.
* `MemberRules.Allows` — a name, as it is written, is such a name.
* `MemberTarget.rules` — the rules of each target.

Main results:

* `MemberTarget.allows_memberName` — every key gets such a name.
* `member_names_well_formed` — and it is this name that is written.
-/

namespace Shapewright

open Name

/-- Which names members may have. -/
structure MemberRules where
  /-- What stands around a name that is not to be taken for a keyword. -/
  marks : Option (String × String)
  keywords : List String
  /-- What is no name of a member even between marks. -/
  never : List String

namespace MemberRules

/-- A name of a member as it is written: an identifier, which is a keyword only between
marks. -/
inductive Allows (rules : MemberRules) : String → Prop where
  | plain {name : String} (form : isTypeName name.toList = true) (possible : name ∉ rules.never)
      (free : name ∉ rules.keywords) : Allows rules name
  | marked {front name back : String} (form : isTypeName name.toList = true)
      (possible : name ∉ rules.never) (marks : rules.marks = some (front, back)) :
      Allows rules (front ++ name ++ back)

variable {rules : MemberRules} {text : String}

/-- Where an underscore is never a name, a member is not written as one: marks have
characters that are in no name. -/
theorem Allows.ne_underscore (h : rules.Allows text) (hnever : "_" ∈ rules.never)
    (hmarks : ∀ front back, rules.marks = some (front, back) →
      ∃ c ∈ front.toList, isNameChar c = false) : text ≠ "_" := by
  cases h with
  | plain form possible free =>
    rintro rfl
    exact possible hnever
  | @marked front name back form possible marks =>
    intro h
    obtain ⟨c, hc, hforeign⟩ := hmarks front back marks
    -- some character of the mark in front would be the underscore
    have hmem : c ∈ "_".toList := by
      rw [← h, String.toList_append, String.toList_append, List.mem_append, List.mem_append]
      exact Or.inl (Or.inl hc)
    obtain rfl : c = '_' := List.mem_singleton.mp hmem
    exact absurd hforeign (by decide)

/-- Where there are no marks, keywords are suffixed: the name stays an identifier, and no
keyword ends in an underscore. -/
theorem allows_suffixIfReserved {name : String} (form : isTypeName name.toList = true)
    (hnever : ∀ word ∈ rules.never, word ∈ rules.keywords)
    (hkeywords : NoneSuffixed rules.keywords) :
    rules.Allows (suffixIfReserved name rules.keywords) := by
  have hfree := suffixIfReserved_not_mem hkeywords name
  -- what is never a name is a keyword, so that it is suffixed as well
  exact .plain (isTypeName_suffixIfReserved form _) (fun hmem => hfree (hnever _ hmem)) hfree

end MemberRules

/-! ## The targets -/

/-- A raw identifier may be a keyword, but not each of them. -/
def Rust.memberRules : MemberRules := ⟨some ("r#", ""), keywords, notRaw⟩

def Python.memberRules : MemberRules := ⟨none, keywords, []⟩

/-- No keyword has to be looked at, since all are in lower case. -/
def Go.memberRules : MemberRules := ⟨none, [], ["_"]⟩

def C.memberRules : MemberRules := ⟨none, keywords, []⟩

def CPlusPlus.memberRules : MemberRules := ⟨none, keywords, []⟩

def Java.memberRules : MemberRules := ⟨none, keywords, ["_"]⟩

/-- A name between backticks may be a keyword, but not an underscore. -/
def Kotlin.memberRules : MemberRules := ⟨some ("`", "`"), keywords, ["_"]⟩

/-- Names without a raw form get a suffix, which makes neither another such name nor a keyword
of them; all other keywords are raw identifiers, and any other name stands as it is. -/
theorem Rust.allows_text (key : String) : memberRules.Allows (fieldName key).text := by
  -- the suffix could have made a keyword of it, or another name that has no raw form
  have hsuffixed : ∀ word ∈ notRaw, word ++ "_" ∉ notRaw ∧ word ++ "_" ∉ keywords := by decide
  have hform := isTypeName_snakeCase key
  unfold fieldName
  dsimp only
  split
  · next hraw =>
    obtain ⟨hnever, hfree⟩ := hsuffixed _ (List.contains_iff_mem.mp hraw)
    refine .plain ?_ hnever hfree
    show isTypeName (snakeCase key ++ "_").toList = true
    rw [String.toList_append]
    exact isTypeName_append hform (List.all_eq_true.mp (by decide))
  · -- every other name has a raw form, so a keyword is marked
    next hraw =>
    have hnever : snakeCase key ∉ notRaw := fun hmem => hraw (List.contains_iff_mem.mpr hmem)
    cases hkeyword : keywords.contains (snakeCase key) with
    | true =>
      have hmarked : memberRules.Allows ("r#" ++ snakeCase key ++ "") := .marked hform hnever rfl
      rw [String.append_empty] at hmarked
      exact hmarked
    | false =>
      have hfree : snakeCase key ∉ keywords := fun hmem =>
        absurd (hkeyword.symm.trans (List.contains_iff_mem.mpr hmem)) (by decide)
      exact .plain hform hnever hfree

/-- Pascal case begins with an upper-case letter or with the underscore that is replaced, and
has digits and letters only behind it. -/
theorem Go.exported_pascal (cs : List Char) :
    ∃ c rest, exported (pascal cs) = c :: rest ∧ c.isUpper = true ∧
      ∀ d ∈ rest, isNameChar d = true := by
  obtain ⟨c, rest, hcs, hfirst, hrest⟩ := exists_cons_of_isDeclaredForm (isDeclaredForm_pascal cs)
  rw [hcs]
  -- the underscore is replaced, and any other first character is in upper case
  by_cases hc : c = '_'
  · subst hc
    exact ⟨'X', rest, rfl, by decide, hrest⟩
  · refine ⟨c, rest, ?_, hfirst.resolve_right hc, hrest⟩
    unfold exported
    split
    · next heq => exact absurd (List.cons.inj heq).1 hc
    · rfl

/-- An identifier in Go is exported: where the Pascal case of the key begins with an
underscore, an `X` takes its place. -/
theorem Go.isUpper_fieldName (key : String) :
    ∃ c, (fieldName key).toList.head? = some c ∧ c.isUpper = true := by
  obtain ⟨c, rest, hname, hupper, -⟩ := exported_pascal key.toList
  refine ⟨c, ?_, hupper⟩
  rw [fieldName, String.toList_ofList, hname, List.head?_cons]

/-- So it is an identifier, and no keyword, as these are in lower case. -/
theorem Go.allows_fieldName (key : String) : memberRules.Allows (fieldName key) := by
  obtain ⟨c, rest, hname, hupper, hrest⟩ := exported_pascal key.toList
  have htext : (fieldName key).toList = c :: rest := by
    rw [fieldName, String.toList_ofList, hname]
  have hform : isDeclaredForm (c :: rest) = true := by
    rw [isDeclaredForm, hupper, List.all_eq_true.mpr hrest]
    rfl
  refine .plain (htext ▸ isTypeName_of_isDeclaredForm hform) ?_ List.not_mem_nil
  -- an upper-case letter is no underscore
  intro hmem
  rw [List.mem_singleton.mp hmem] at htext
  obtain rfl : '_' = c := (List.cons.inj htext).1
  exact absurd hupper (by decide)

/-- A property is called by an identifier that is more than an underscore, which names nothing
in the language. -/
theorem Kotlin.isTypeName_propertyName (key : String) :
    isTypeName (propertyName key).toList = true ∧ propertyName key ≠ "_" := by
  unfold propertyName
  dsimp only
  split
  · exact ⟨by decide, by decide⟩
  · next hne => exact ⟨isTypeName_camelCase key, hne⟩

/-- A keyword is put between backticks, and everything else stands as it is. -/
theorem Kotlin.allows_propertyText (key : String) : memberRules.Allows (propertyText key) := by
  obtain ⟨hform, hne⟩ := isTypeName_propertyName key
  have hnever : propertyName key ∉ memberRules.never := fun hmem => hne (List.mem_singleton.mp hmem)
  unfold propertyText
  dsimp only
  split
  · exact .marked hform hnever rfl
  · next hkeyword =>
    exact .plain hform hnever fun hmem => hkeyword (List.contains_iff_mem.mpr hmem)

/-! ## All members -/

/-- The rules of each target. -/
def MemberTarget.rules : MemberTarget → MemberRules
  | .rust => Rust.memberRules
  | .python => Python.memberRules
  | .go => Go.memberRules
  | .c => C.memberRules
  | .cPlusPlus => CPlusPlus.memberRules
  | .java _ _ => Java.memberRules
  | .kotlin _ => Kotlin.memberRules

/-- **Every key gets a name that its target accepts.** Four targets only suffix their
keywords; the others mark them, have none to look at, or have names that are never used. -/
theorem MemberTarget.allows_memberName (t : MemberTarget) (key : String) :
    t.rules.Allows (t.memberName key) := by
  cases t with
  -- these three have arguments of their own
  | rust => exact Rust.allows_text key
  | go => exact Go.allows_fieldName key
  | kotlin options => exact Kotlin.allows_propertyText key
  | python =>
    have hpython : Python.memberRules.Allows (Python.fieldName key) :=
      MemberRules.allows_suffixIfReserved (isTypeName_snakeCase key) nofun (by decide)
    exact hpython
  | c =>
    have hc : C.memberRules.Allows (C.fieldName key) :=
      MemberRules.allows_suffixIfReserved (isTypeName_snakeCase key) nofun (by decide)
    exact hc
  | cPlusPlus =>
    have hcpp : CPlusPlus.memberRules.Allows (CPlusPlus.fieldName key) :=
      MemberRules.allows_suffixIfReserved (isTypeName_snakeCase key) nofun (by decide)
    exact hcpp
  | java options modifier =>
    have hjava : Java.memberRules.Allows (Java.fieldName key) :=
      MemberRules.allows_suffixIfReserved (isTypeName_camelCase key) (by decide) (by decide)
    exact hjava

/-- **Members have names that their targets accept, whatever the key.** What is written
for a type is its layout with these names in it. Each is an identifier, perhaps a raw one
or one between backticks, and a keyword only if it is marked like that. None is an
underscore alone where that is no name, and all fields are exported where the first
letter decides on that. -/
theorem member_names_well_formed (key : String) :
    (∀ (t : MemberTarget) (d : Declaration), t.typeText d = t.layout.text t.memberName d) ∧
    (∀ t : MemberTarget, t.rules.Allows (t.memberName key)) ∧
    (Rust.fieldName key).text ≠ "_" ∧ Java.fieldName key ≠ "_" ∧
    Kotlin.propertyText key ≠ "_" ∧ Go.fieldName key ≠ "_" ∧
    ∃ c, (Go.fieldName key).toList.head? = some c ∧ c.isUpper = true := by
  have hallows (t : MemberTarget) := t.allows_memberName key
  refine ⟨MemberTarget.typeText_eq, hallows, ?_, ?_, ?_, ?_, Go.isUpper_fieldName key⟩
  · -- a name between marks is longer than an underscore, since the marks are in it
    refine (hallows .rust).ne_underscore (by decide) fun front back hmarks => ?_
    obtain ⟨rfl, -⟩ := Prod.mk.inj (Option.some.inj hmarks)
    exact ⟨'#', by decide, by decide⟩
  · exact (hallows (.java {} "")).ne_underscore (by decide) nofun
  · refine (hallows (.kotlin {})).ne_underscore (by decide) fun front back hmarks => ?_
    obtain ⟨rfl, -⟩ := Prod.mk.inj (Option.some.inj hmarks)
    exact ⟨'\x60', by decide, by decide⟩
  · exact (hallows .go).ne_underscore (by decide) nofun

end Shapewright
