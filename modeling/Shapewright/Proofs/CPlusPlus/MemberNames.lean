import Shapewright.Generate
import Shapewright.Proofs.Dialect.MemberNames
import Shapewright.Proofs.Name.Breaks
import Shapewright.Proofs.Name.Identifiers
import Shapewright.Proofs.Plan.NameForms

/-!
# Names of C++ members and types

A member of a C++ class must not be called like the class, nor like a type that members of
the class are declared with. Types are in Pascal case and members in snake case, and no name
is reserved, so that only the casing keeps them apart. It does unless a name is in both: that
of a type whose key has no letters or digits or begins with a digit, since an underscore is
put in front of it either way.

Main definitions:

* `CPlusPlus.members` — the members of a class, each with its type.
* `CPlusPlus.AvoidsTypeNames` — no member is called like the class or a type that it uses.
* `Name.BeginsWithLetter` — the first letter or digit of a key is a letter.

Main results:

* `fieldName_eq_iff_of_isDeclaredForm` — which members are called like a type.
* `members_avoid_type_names_iff` — when the members of a class are called otherwise.
-/

namespace Shapewright

/-! ## Keys that begin with a letter -/

/-- The first letter or digit of the text is a letter. -/
def Name.BeginsWithLetter (s : String) : Prop :=
  ∃ c ∈ s.toList.find? Char.isAlphanum, c.isDigit = false

/-- Snake case then begins with that letter, and with no underscore. -/
theorem Name.head?_snakeCase_of_beginsWithLetter {s : String} (h : BeginsWithLetter s) :
    ∃ c, (snakeCase s).toList.head? = some c ∧ c.isAlphanum = true := by
  obtain ⟨c, hfind, hdigit⟩ := h
  obtain ⟨hc, front, rest, htext, hfront⟩ := List.find?_eq_some_iff_append.mp hfind
  obtain ⟨after, hsnake, -⟩ :=
    exists_snake_first htext (fun e he => by simpa using hfront e he) hc
  refine ⟨c.toLower, ?_, (isAlphanum_toLower c).trans hc⟩
  rw [snakeCase, String.toList_ofList, hsnake, if_neg (by rw [hdigit]; decide)]
  rfl

namespace CPlusPlus

open Name Plan

/-! ## Members -/

/-- The members of a class in order, each with its type. -/
def members (d : Declaration) : List (String × String) :=
  d.slots.map fun member => (typeExpr member.2, fieldName member.1)

/-- A member as it is written. -/
def memberText (m : String × String) : String := "    " ++ m.1 ++ " " ++ m.2 ++ ";\n"

/-- A field is printed as one member. -/
theorem renderField_eq (member : String × Slot) :
    renderField member = memberText (typeExpr member.2, fieldName member.1) := by
  rw [renderField, memberText]

/-- The class that is written: its members, and a constructor. -/
theorem renderStruct_eq (d : Declaration) :
    renderStruct d = "struct " ++ d.name ++ " \x7b\n" ++
      (if d.isEmpty then "    // no fields observed\n" else "") ++
      String.join ((members d).map memberText) ++ "\n" ++
      "    " ++ d.name ++ "() = default;\n\x7d;" := by
  have hfields : d.slots.map renderField = (members d).map memberText := by
    rw [members, List.map_map]
    exact List.map_congr_left fun member _ => renderField_eq member
  unfold renderStruct
  rw [hfields]

/-- The names of all members, field by field and in the order of the text. -/
theorem map_snd_members (d : Declaration) :
    (members d).map Prod.snd = d.spelled fieldName := by
  simp only [members, Declaration.spelled_eq, List.map_map, Function.comp_def]

/-- No member is called like the class, or like a type that members refer to. -/
def AvoidsTypeNames (d : Declaration) : Prop :=
  ∀ name ∈ (members d).map Prod.snd, name ≠ d.name ∧ name ∉ d.references

instance (d : Declaration) : Decidable (AvoidsTypeNames d) :=
  inferInstanceAs (Decidable (∀ name ∈ (members d).map Prod.snd, _ ∧ _))

/-! ## Members and types of one name -/

/-- The types of a class and of its members: what no member of it may be called. -/
theorem avoidsTypeNames_iff (d : Declaration) :
    AvoidsTypeNames d ↔
      ∀ name ∈ d.name :: d.references, ∀ field ∈ d.fields, fieldName field.1 ≠ name := by
  unfold AvoidsTypeNames
  rw [map_snd_members, Declaration.spelled, List.forall_mem_map]
  constructor
  · rintro h name hname field hfield rfl
    rcases List.mem_cons.mp hname with hself | hreference
    · exact (h field hfield).1 hself
    · exact (h field hfield).2 hreference
  · intro h field hfield
    exact ⟨h _ List.mem_cons_self field hfield,
      fun hreference => h _ (List.mem_cons_of_mem _ hreference) field hfield rfl⟩

/-- No type is called by a keyword, with whatever behind it: all keywords begin in lower
case. -/
theorem append_ne_of_mem_keywords {name : String} (hname : isDeclaredForm name.toList = true)
    {word : String} (hword : word ∈ keywords) (back : String) : word ++ back ≠ name := by
  have hlower : ∀ word ∈ keywords, word.toList.head?.any Char.isLower = true := by decide +kernel
  obtain ⟨c, hc, hcase⟩ := (Option.any_eq_true _ _).mp (hlower word hword)
  obtain ⟨first, rest, hchars, hfirst, -⟩ := exists_cons_of_isDeclaredForm hname
  rintro rfl
  have hhead : (word ++ back).toList.head? = some c := by
    rw [String.toList_append, List.head?_append, hc, Option.some_or]
  rw [hchars] at hhead
  obtain rfl : first = c := Option.some.inj hhead
  -- the first letter of a declared name is in upper case, or it is an underscore
  rcases hfirst with hupper | rfl
  · have hnone := not_isUpper_of_isLower_or_isDigit (Or.inl hcase)
    exact absurd (hupper.symm.trans hnone) (by decide)
  · exact absurd hcase (by decide)

/-- A field is called like a declared type exactly if its key is spelled like it. The suffix
of keywords has no part in that, since declared names do not begin in lower case. -/
theorem fieldName_eq_iff_snakeCase_eq {name : String} (hname : isDeclaredForm name.toList = true)
    (key : String) : fieldName key = name ↔ snakeCase key = name := by
  by_cases hmem : snakeCase key ∈ keywords
  · -- neither with the suffix nor without it is a keyword the name of a type
    have hsuffixed := append_ne_of_mem_keywords hname hmem "_"
    have hplain := append_ne_of_mem_keywords hname hmem ""
    rw [String.append_empty] at hplain
    rw [fieldName, suffixIfReserved_of_mem hmem]
    exact ⟨fun h => absurd h hsuffixed, fun h => absurd h hplain⟩
  · rw [fieldName, suffixIfReserved_of_not_mem hmem]

/-- **A member is called like a type exactly if the name of the type is in snake case as it
stands, and the key has the humps of it.** -/
theorem fieldName_eq_iff_of_isDeclaredForm {name : String}
    (hname : isDeclaredForm name.toList = true) (key : String) :
    fieldName key = name ↔ snakeCase name = name ∧ allHumps key.toList = allHumps name.toList := by
  rw [fieldName_eq_iff_snakeCase_eq hname]
  constructor
  · rintro rfl
    have htwice : snakeCase (snakeCase key) = snakeCase key :=
      (snakeCase_eq_self_iff _).mpr (parted_snakeCase key)
    exact ⟨htwice, (snakeCase_eq_iff _ _).mp htwice.symm⟩
  · rintro ⟨hself, hhumps⟩
    exact ((snakeCase_eq_iff _ _).mpr hhumps).trans hself

/-- Such a type is called by an underscore with whatever behind it. -/
theorem head?_eq_underscore {name : String} (hname : isDeclaredForm name.toList = true)
    (hsnake : snakeCase name = name) : name.toList.head? = some '_' := by
  have hparted := (snakeCase_eq_self_iff name).mp hsnake
  obtain ⟨c, rest, hchars, hfirst, -⟩ := exists_cons_of_isDeclaredForm hname
  rw [hchars] at hparted ⊢
  rcases hfirst with hupper | rfl
  · have hnone := hparted.isUpper c List.mem_cons_self
    exact absurd (hupper.symm.trans hnone) (by decide)
  · rfl

/-- The class and the types that its members refer to have names of one form: an upper-case
letter or an underscore comes first. -/
theorem isDeclaredForm_of_mem_types {s : Shape} (hs : s.KeysDistinct) {rootName : String}
    {d : Declaration} (hd : d ∈ (planFor .cPlusPlus rootName s).types) :
    ∀ name ∈ d.name :: d.references, isDeclaredForm name.toList = true := by
  have hr : Target.cPlusPlus.reserved.Escapable :=
    Reserved.Admitted.escapable (Or.inr ⟨.cPlusPlus, rfl⟩)
  obtain ⟨hself, htargets⟩ := isDeclarable_of_mem_types hr hs d hd
  rw [List.forall_mem_cons]
  refine ⟨hself.form, fun name hname => ?_⟩
  obtain ⟨member, hmember, htarget⟩ := List.mem_filterMap.mp hname
  exact (htargets member hmember name htarget).form

/-- **The members of a class are called otherwise than the class and the types they refer to,
exactly if none of these types has a name that is in snake case as it stands and whose humps
are those of a key.** So it is whenever all keys begin with a letter, and whenever all these
types do. -/
theorem members_avoid_type_names_iff {s : Shape} (hs : s.KeysDistinct) {rootName : String}
    {d : Declaration} (hd : d ∈ (planFor .cPlusPlus rootName s).types) :
    renderStruct d = "struct " ++ d.name ++ " \x7b\n" ++
      (if d.isEmpty then "    // no fields observed\n" else "") ++
      String.join ((members d).map memberText) ++ "\n" ++
      "    " ++ d.name ++ "() = default;\n\x7d;" ∧
    (AvoidsTypeNames d ↔
      ∀ name ∈ d.name :: d.references, snakeCase name = name →
        ∀ field ∈ d.fields, allHumps field.1.toList ≠ allHumps name.toList) ∧
    ((∀ field ∈ d.fields, BeginsWithLetter field.1) → AvoidsTypeNames d) ∧
    ((∀ name ∈ d.name :: d.references, name.toList.head? ≠ some '_') → AvoidsTypeNames d) := by
  have hform := isDeclaredForm_of_mem_types hs hd
  refine ⟨renderStruct_eq d, ?_, fun hkeys => ?_, fun hnames => ?_⟩
  · rw [avoidsTypeNames_iff]
    constructor
    · intro h name hname hsnake field hfield hhumps
      exact h name hname field hfield
        ((fieldName_eq_iff_of_isDeclaredForm (hform name hname) field.1).mpr ⟨hsnake, hhumps⟩)
    · intro h name hname field hfield hcalled
      obtain ⟨hsnake, hhumps⟩ :=
        (fieldName_eq_iff_of_isDeclaredForm (hform name hname) field.1).mp hcalled
      exact h name hname hsnake field hfield hhumps
  · rw [avoidsTypeNames_iff]
    intro name hname field hfield hcalled
    -- the name would begin with the letter of the key
    have hspelled := (fieldName_eq_iff_snakeCase_eq (hform name hname) field.1).mp hcalled
    have hsnake := ((fieldName_eq_iff_of_isDeclaredForm (hform name hname) field.1).mp hcalled).1
    obtain ⟨c, hhead, hletter⟩ := head?_snakeCase_of_beginsWithLetter (hkeys field hfield)
    rw [hspelled, head?_eq_underscore (hform name hname) hsnake] at hhead
    obtain rfl : '_' = c := Option.some.inj hhead
    exact absurd hletter (by decide)
  · rw [avoidsTypeNames_iff]
    intro name hname field hfield hcalled
    have hsnake := ((fieldName_eq_iff_of_isDeclaredForm (hform name hname) field.1).mp hcalled).1
    exact hnames name hname (head?_eq_underscore (hform name hname) hsnake)

/-- An object under a key that begins with a digit. -/
def secondFactor : Shape := .object [("2fa", .object [("code", .integer)])]

/-- A flag under that key, beside another object that has the first one inside. -/
def flaggedLogin : Shape := .object [("2fa", .boolean), ("login", secondFactor)]

/-- A member may be called like a type that its class does not use. -/
theorem members_avoid_type_names_iff_flaggedLogin :
    let p := planFor .cPlusPlus "Root" flaggedLogin
    flaggedLogin.KeysDistinct ∧ p.root ∈ p.types ∧ p.declaredNames = ["_2fa", "Login", "Root"] ∧
      members p.root = [("bool", "_2fa"), ("Login", "login")] ∧ AvoidsTypeNames p.root := by
  intro p
  have hdistinct : flaggedLogin.KeysDistinct := by decide
  have hroot : p.root ∈ p.types := List.mem_append_right _ List.mem_cons_self
  have havoids : AvoidsTypeNames p.root :=
    (members_avoid_type_names_iff hdistinct hroot).2.2.2 (by decide +kernel)
  exact ⟨hdistinct, hroot, by decide +kernel, by decide +kernel, havoids⟩

/-- A class refers to a type by a member of its name; and a class is called like its own
member. -/
theorem members_called_like_types :
    let factor := (planFor .cPlusPlus "Root" secondFactor).root
    let blank := (planFor .cPlusPlus "_" (integersUnder ["$"])).root
    secondFactor.KeysDistinct ∧ factor.references = ["_2fa"] ∧
      members factor = [("_2fa", "_2fa")] ∧ ¬ AvoidsTypeNames factor ∧
      (integersUnder ["$"]).KeysDistinct ∧ blank.name = "_" ∧
      members blank = [("std::int64_t", "_")] ∧ ¬ AvoidsTypeNames blank := by
  decide +kernel

end CPlusPlus
end Shapewright
