import Shapewright.Proofs.Dialect.MemberNames
import Shapewright.Proofs.Name.Grammars
import Shapewright.Proofs.Name.Identifiers
import Shapewright.Proofs.Java.Methods

/-!
# Accessors of Java classes

A getter and a setter are called after their field, with its first letter in upper case. No
field begins in upper case, so nothing is lost by that: accessors have one name only where
fields have. The method `getClass`, which every object has and no class may declare, would be
the getter of a field `class`; but that word is a keyword, and fields are kept off keywords.

Main results:

* `Name.lowerFirst_upperFirst` — where a name does not begin in upper case, nothing is lost.
* `Java.accessors_never_clash` — the methods of a class.
-/

namespace Shapewright

open Name

/-! ## First letters -/

/-- A first letter that was put in upper case is put back. -/
theorem Name.lowerFirst_upperFirst {cs : List Char} (h : ∀ c ∈ cs.head?, c.isUpper = false) :
    lowerFirst (upperFirst cs) = cs := by
  cases cs with
  | nil => rfl
  | cons c rest =>
    have hc : c.isUpper = false := h c rfl
    rw [upperFirst, lowerFirst, toLower_toUpper, toLower_of_not_isUpper hc]

/-- A name in camel case does not begin in upper case. -/
theorem Name.Joined.exists_cons {cs : List Char} (h : Joined Char.isLower cs) :
    ∃ c rest, cs = c :: rest ∧ c.isUpper = false := by
  cases h with
  | blank => exact ⟨'_', _, rfl, by decide⟩
  | digit => exact ⟨'_', _, rfl, by decide⟩
  | @letter c rest hc =>
    exact ⟨c, rest, rfl, not_isUpper_of_isLower_or_isDigit (Or.inl hc)⟩

namespace Java

/-- Nor does the name of a field, whether a suffix stands behind it or not. -/
theorem not_isUpper_head?_fieldName (key : String) :
    ∀ c ∈ (fieldName key).toList.head?, c.isUpper = false := by
  obtain ⟨c, rest, hcamel, hc⟩ := (joined_camelCase key).exists_cons
  -- a suffix stands at the end, so the first character is that of the spelled key
  have hhead : (fieldName key).toList.head? = some c := by
    rw [fieldName, suffixIfReserved]
    split
    · rw [String.toList_append, hcamel]
      rfl
    · rw [hcamel]
      rfl
  rw [hhead]
  rintro d ⟨⟩
  exact hc

/-- No field is called by a keyword: the suffix leads out of these. -/
theorem fieldName_not_mem_keywords (key : String) : fieldName key ∉ keywords :=
  suffixIfReserved_not_mem (by decide +kernel) _

/-! ## Accessors -/

namespace Field

/-- The field of a member is called by its identifier, and has the type of its slot. -/
theorem name_ofMember (member : String × Slot) :
    (ofMember member).name = fieldName member.1 := by
  rw [ofMember]

theorem type_ofMember (member : String × Slot) :
    (ofMember member).type = typeExpr member.2 := by
  rw [ofMember]

/-- A field is called by what its accessors are called by. -/
theorem toList_name (member : String × Slot) :
    (ofMember member).name.toList = lowerFirst (ofMember member).accessorSuffix.toList := by
  rw [accessorSuffix, String.toList_ofList, name_ofMember]
  exact (lowerFirst_upperFirst (not_isUpper_head?_fieldName member.1)).symm

/-- **Accessors are told apart by what their fields are called.** Capitalizing loses nothing
of an identifier, since all of them begin in lower case or with an underscore. -/
theorem accessorSuffix_eq_iff (member other : String × Slot) :
    (ofMember member).accessorSuffix = (ofMember other).accessorSuffix ↔
      (ofMember member).name = (ofMember other).name := by
  constructor
  · intro h
    rw [← String.toList_inj, toList_name, toList_name, h]
  · intro h
    rw [accessorSuffix, accessorSuffix, h]

/-- No accessor asks for the class: an identifier that would lead there is a keyword, and has
its suffix. -/
theorem accessorSuffix_ne_class (member : String × Slot) :
    (ofMember member).accessorSuffix ≠ "Class" := by
  intro h
  -- the field of such an accessor would be called by a keyword
  have hname : fieldName member.1 = "class" := by
    have hlower : lowerFirst "Class".toList = "class".toList := by decide
    have hlist := toList_name member
    rw [name_ofMember, h, hlower] at hlist
    exact String.toList_inj.mp hlist
  have hfree := fieldName_not_mem_keywords member.1
  rw [hname] at hfree
  exact hfree (by decide)

/-- Getters and setters differ in their first letters. -/
theorem get_append_ne_set_append (suffix other : String) : "get" ++ suffix ≠ "set" ++ other := by
  intro h
  have hlist := congrArg String.toList h
  rw [String.toList_append, String.toList_append] at hlist
  exact absurd (List.cons.inj hlist).1 (by decide)

/-- One prefix stands in front of all getters and another one in front of all setters, so that
they are told apart by what is behind. -/
theorem getterName_eq_iff (f g : Field) :
    f.getterName = g.getterName ↔ f.accessorSuffix = g.accessorSuffix :=
  String.append_right_inj "get"

theorem setterName_eq_iff (f g : Field) :
    f.setterName = g.setterName ↔ f.accessorSuffix = g.accessorSuffix :=
  String.append_right_inj "set"

/-- The method that every object has is no accessor of a field. -/
theorem accessorName_ne_getClass (member : String × Slot) :
    (ofMember member).getterName ≠ "getClass" ∧ (ofMember member).setterName ≠ "getClass" := by
  have hparts : "getClass" = "get" ++ "Class" := by decide
  rw [hparts, getterName, setterName]
  constructor
  · intro h
    exact accessorSuffix_ne_class member ((String.append_right_inj "get").mp h)
  · exact (get_append_ne_set_append _ _).symm

end Field

/-! ## Classes -/

/-- The types of a plan are written without anything that could be taken for a method. -/
theorem isPlain_of_mem_types {s : Shape} (hs : s.KeysDistinct) {rootName : String} :
    ∀ d ∈ (planFor .java rootName s).types, isDeclaredForm d.name.toList = true ∧
      ∀ f ∈ d.slots.map Field.ofMember, f.IsPlain := by
  intro d hd
  have hr : Java.reserved.Escapable := Reserved.Admitted.escapable (Or.inr ⟨.java, rfl⟩)
  obtain ⟨hname, htargets⟩ := Plan.isDeclarable_of_mem_types hr hs d hd
  refine ⟨hname.form, List.forall_mem_map.mpr fun member hmember => ?_⟩
  constructor
  · rw [Field.name_ofMember]
    exact isNameChar_fieldName member.1
  · rw [Field.type_ofMember]
    exact isWord_typeExpr fun name htarget => (htargets member hmember name htarget).form

/-- **Accessors never clash by themselves.** The methods of a class are a getter and a setter for
each field, in order. None of them is `getClass`, which no class may declare; and the accessors of
two fields have the same names exactly if the fields have the same name, whatever their keys. -/
theorem accessors_never_clash {s : Shape} (hs : s.KeysDistinct) {rootName : String}
    {d : Declaration} (hd : d ∈ (planFor .java rootName s).types) {options : JavaOptions}
    (hlombok : options.useLombok = false) (haccessors : options.includeGetterSetter = true)
    {modifier : String} (hmodifier : modifier ∈ ["", "public ", "public static "]) :
    methodNames (renderClass options modifier d) =
        (d.slots.map Field.ofMember).flatMap (fun f => [f.getterName, f.setterName]) ∧
      "getClass" ∉ methodNames (renderClass options modifier d) ∧
      ∀ f ∈ d.slots.map Field.ofMember, ∀ g ∈ d.slots.map Field.ofMember,
        (f.getterName = g.getterName ↔ f.name = g.name) ∧
        (f.setterName = g.setterName ↔ f.name = g.name) ∧
        f.getterName ≠ g.setterName := by
  have hquiet : ∀ modifier ∈ ["", "public ", "public static "], IsQuiet modifier.toList := by
    decide
  -- what a plan says of its names is all the reader of the methods needs
  obtain ⟨hname, hfields⟩ := isPlain_of_mem_types hs d hd
  have hmethods := methodNames_renderClass hlombok haccessors (hquiet modifier hmodifier) hname
    hfields
  refine ⟨hmethods, ?_, ?_⟩
  · rw [hmethods]
    -- a getter or a setter of some field would have that name
    intro hmem
    obtain ⟨f, hf, hclass⟩ := List.mem_flatMap.mp hmem
    obtain ⟨member, -, rfl⟩ := List.mem_map.mp hf
    obtain ⟨hgetter, hsetter⟩ := Field.accessorName_ne_getClass member
    rcases List.mem_pair.mp hclass with heq | heq
    · exact hgetter heq.symm
    · exact hsetter heq.symm
  · rw [List.forall_mem_map]
    intro member _
    rw [List.forall_mem_map]
    intro other _
    -- both names put three fixed letters in front of one suffix, which the field name
    -- determines
    have hsuffix := Field.accessorSuffix_eq_iff member other
    exact ⟨(Field.getterName_eq_iff _ _).trans hsuffix, (Field.setterName_eq_iff _ _).trans hsuffix,
      Field.get_append_ne_set_append _ _⟩

/-- Keys that are spelled `class`, keys that are spelled alike, one that begins with a digit, and
one that would begin a method if it did not stand in a literal. -/
def reflectiveKeys : Shape :=
  integersUnder ["class", "Class", "user_id", "userId", "2nd",
    "\"\n    public Object getClass() \x7b"]

/-- A key `class` beside one that is spelled like its accessor: four methods, of which none is
`getClass`. -/
theorem accessors_never_clash_reflectiveKeys :
    let d := (planFor .java "Root" reflectiveKeys).root
    let options : JavaOptions := { useJsonProperty := true, includeConstructor := true }
    reflectiveKeys.KeysDistinct ∧ d ∈ (planFor .java "Root" reflectiveKeys).types ∧
      options.useLombok = false ∧ options.includeGetterSetter = true ∧
      "public " ∈ ["", "public ", "public static "] ∧
      methodNames (renderClass options "public " d) =
        ["getClass_", "setClass_", "getClass_", "setClass_", "getUserId", "setUserId",
          "getUserId", "setUserId", "get_2nd", "set_2nd", "getPublicObjectGetClass",
          "setPublicObjectGetClass"] ∧
      "getClass" ∉ methodNames (renderClass options "public " d) ∧
      ∀ f ∈ d.slots.map Field.ofMember, ∀ g ∈ d.slots.map Field.ofMember,
        (f.getterName = g.getterName ↔ f.name = g.name) ∧
        (f.setterName = g.setterName ↔ f.name = g.name) ∧
        f.getterName ≠ g.setterName := by
  intro d options
  have hdistinct : reflectiveKeys.KeysDistinct := by decide
  have hroot : d ∈ (planFor .java "Root" reflectiveKeys).types :=
    List.mem_append_right _ List.mem_cons_self
  have haccessors : options.includeGetterSetter = true := rfl
  have hmodifier : "public " ∈ ["", "public ", "public static "] := by decide
  obtain ⟨hmethods, hclass, hnames⟩ :=
    accessors_never_clash hdistinct hroot rfl haccessors hmodifier
  exact ⟨hdistinct, hroot, rfl, haccessors, hmodifier, hmethods.trans (by decide +kernel), hclass,
    hnames⟩

end Java
end Shapewright
