import Shapewright.Proofs.Dialect.MemberLayouts
import Shapewright.Proofs.Name.Endings
import Shapewright.Proofs.Rust.Schema

/-!
# Names of members

A member is called after its key, in the casing of the target, and then kept off the
keywords of the target. Casing makes some keys one; whether keeping off keywords makes
more of them one is another question for each target. Suffixes, raw identifiers and
backticks never do. In Go a field must not begin with an underscore, and `X` in its
place is what another name may begin with; Kotlin has no property `_`, and `_0` in its
place is the name of the key `0`.

Main definitions:

* `Declaration.spelled` — the keys of a type in a spelling.

Main results:

* `Rust.text_eq_iff`, `Kotlin.propertyText_eq_iff`, `Go.exported_eq_iff` — which names
  of members are the same.
* `member_names_distinct_iff` — when the members of a type have different names.
-/

namespace Shapewright

open Name

/-- The keys of a type in a spelling, in source order. -/
def Declaration.spelled (spell : String → String) (d : Declaration) : List String :=
  d.fields.map fun field => spell field.1

theorem Declaration.spelled_eq (d : Declaration) (spell : String → String) :
    d.spelled spell = (d.slots.map Prod.fst).map spell := by
  rw [slots, List.map_map, List.map_map]
  rfl

/-- What is done to spelled keys keeps them apart if it makes no two of them one. This is
asked of the spellings that there are and not of all names, since it need not be injective. -/
theorem Declaration.nodup_spelled_comp (d : Declaration) (spell escape : String → String) :
    (d.spelled fun key => escape (spell key)).Nodup ↔
      (d.spelled spell).Nodup ∧
        ∀ name ∈ d.spelled spell, ∀ other ∈ d.spelled spell,
          escape name = escape other → name = other := by
  have hmap : (d.spelled fun key => escape (spell key)) = (d.spelled spell).map escape := by
    rw [spelled, spelled, List.map_map]
    rfl
  rw [hmap]
  constructor
  · -- equal spellings would give equal names
    intro h
    have hspelled : (d.spelled spell).Nodup := h.of_map
    exact ⟨hspelled, (List.nodup_map_iff_inj_on hspelled).mp h⟩
  · rintro ⟨hspelled, hescape⟩
    exact (List.nodup_map_iff_inj_on hspelled).mpr hescape

/-- Where names of members are the same only for keys that are spelled alike. -/
theorem Declaration.nodup_spelled_iff (d : Declaration) {spell name : String → String}
    (h : ∀ key other, name key = name other ↔ spell key = spell other) :
    (d.spelled name).Nodup ↔ (d.spelled spell).Nodup := by
  unfold spelled List.Nodup
  rw [List.pairwise_map, List.pairwise_map]
  simp only [ne_eq, h]

/-! ## Suffixes -/

/-- In each target identifiers are told apart by what is spelled, and getting out of the way
of keywords makes no two of them one. In Python and in C++ they are spelled in snake case, in
Java in camel case. -/
theorem Python.fieldName_eq_iff (key other : String) :
    fieldName key = fieldName other ↔ snakeCase key = snakeCase other :=
  suffixIfReserved_eq_iff (by decide) (endsClean_snakeCase key) (endsClean_snakeCase other)

theorem CPlusPlus.fieldName_eq_iff (key other : String) :
    fieldName key = fieldName other ↔ snakeCase key = snakeCase other :=
  suffixIfReserved_eq_iff (by decide) (endsClean_snakeCase key) (endsClean_snakeCase other)

theorem Java.fieldName_eq_iff (key other : String) :
    fieldName key = fieldName other ↔ camelCase key = camelCase other :=
  suffixIfReserved_eq_iff (by decide) (endsClean_camelCase key) (endsClean_camelCase other)

/-! ## Raw identifiers -/

/-- A name as a Rust field. -/
def Rust.escaped (name : String) : String :=
  if notRaw.contains name then name ++ "_"
  else if keywords.contains name then "r#" ++ name
  else name

/-- A name in Rust is its snake case, or that made raw or suffixed if it is a keyword. -/
theorem Rust.text_fieldName (key : String) :
    (fieldName key).text = escaped (snakeCase key) := by
  unfold fieldName escaped
  dsimp only
  split
  · rfl
  · simp only [FieldName.text]

/-- The mark of a raw identifier is in no name. -/
theorem Rust.raw_ne {name other : String} (h : ∀ c ∈ other.toList, isNameChar c = true) :
    "r#" ++ name ≠ other := by
  rintro rfl
  exact absurd (h '#' (by simp)) (by decide)

/-- Two ways of escaping never meet: what is suffixed cannot be raw, and neither is snake
case. -/
theorem Rust.text_eq_iff (key other : String) :
    (fieldName key).text = (fieldName other).text ↔ snakeCase key = snakeCase other := by
  rw [text_fieldName, text_fieldName]
  constructor
  · intro h
    -- a suffixed name is neither raw nor plain, and a raw one is not plain
    have hsuffixed {name : String} (hname : notRaw.contains name = true) (plain : String) :
        name ++ "_" ≠ snakeCase plain := by
      intro h
      rw [endsClean_snakeCase plain name h.symm] at hname
      exact absurd hname (by decide)
    have hchars (name : String) :
        ∀ c ∈ (snakeCase name ++ "_").toList, isNameChar c = true := by
      intro c hc
      rw [String.toList_append, List.mem_append] at hc
      rcases hc with hc | hc
      · exact isNameChar_snakeCase name c hc
      · obtain rfl : c = '_' := List.mem_singleton.mp hc
        decide
    unfold escaped at h
    split at h
    · next hkey =>
      split at h
      · exact (String.append_left_inj "_").mp h
      · split at h
        · exact absurd h.symm (raw_ne (hchars key))
        · exact absurd h (hsuffixed hkey other)
    · split at h
      · split at h
        · exact absurd h (raw_ne (hchars other))
        · split at h
          · exact (String.append_right_inj "r#").mp h
          · exact absurd h (raw_ne (isNameChar_snakeCase other))
      · split at h
        · next hother => exact absurd h.symm (hsuffixed hother key)
        · split at h
          · exact absurd h.symm (raw_ne (isNameChar_snakeCase key))
          · exact h
  · intro h
    rw [h]

/-! ## Names that must not begin with an underscore -/

/-- A name as a Go field. -/
def Go.exportedName (name : String) : String := String.ofList (exported name.toList)

/-- The name of a field in Go is the Pascal case of its key, exported. -/
theorem Go.fieldName_eq (key : String) : fieldName key = exportedName (pascalCase key) := by
  rw [fieldName, exportedName, pascalCase, String.toList_ofList]

/-- Names are exported alike only if one has `X` in the place of the other's underscore: the
first character is all that may be replaced. -/
theorem Go.exported_eq_iff (cs ds : List Char) :
    exported cs = exported ds ↔
      cs = ds ∨ ∃ rest, (cs = '_' :: rest ∧ ds = 'X' :: rest) ∨
        (cs = 'X' :: rest ∧ ds = '_' :: rest) := by
  constructor
  · -- each of the two names either begins with the underscore or stays as it is
    intro h
    unfold exported at h
    split at h
    · split at h
      · rw [(List.cons.inj h).2]
        exact Or.inl rfl
      · exact Or.inr ⟨_, Or.inl ⟨rfl, h.symm⟩⟩
    · split at h
      · exact Or.inr ⟨_, Or.inr ⟨h, rfl⟩⟩
      · exact Or.inl h
  · rintro (rfl | ⟨rest, ⟨rfl, rfl⟩ | ⟨rfl, rfl⟩⟩) <;> rfl

/-- **Exporting makes one name of two exactly where an underscore meets an `X`**: the letter
takes the place of a leading underscore, and another name may have begun with it anyway. -/
theorem Go.exportedName_eq_iff (name other : String) :
    exportedName name = exportedName other ↔
      name = other ∨ ∃ rest, (name = "_" ++ rest ∧ other = "X" ++ rest) ∨
        (name = "X" ++ rest ∧ other = "_" ++ rest) := by
  -- the same statement on texts, where a first letter is put in front of the rest
  have hcons (c : Char) (text : String) (rest : List Char) :
      text.toList = c :: rest ↔ text = String.singleton c ++ String.ofList rest := by
    rw [← String.toList_inj, String.toList_append, String.toList_singleton, String.toList_ofList,
      List.singleton_append]
  rw [exportedName, exportedName, String.ofList_inj, exported_eq_iff, String.toList_inj]
  constructor
  · rintro (h | ⟨rest, h⟩)
    · exact Or.inl h
    · simp only [hcons] at h
      exact Or.inr ⟨String.ofList rest, h⟩
  · rintro (h | ⟨rest, h⟩)
    · exact Or.inl h
    · refine Or.inr ⟨rest.toList, ?_⟩
      simp only [hcons, String.ofList_toList]
      exact h

/-! ## Names between backticks -/

/-- A name as a Kotlin property: there is none called by an underscore alone. -/
def Kotlin.nameable (name : String) : String := if name = "_" then "_0" else name

/-- In Kotlin the camel case is made nameable. -/
theorem Kotlin.propertyName_eq (key : String) : propertyName key = nameable (camelCase key) := rfl

/-- An underscore alone gets a digit behind it, and meets only the name that is spelled like
that. -/
theorem Kotlin.nameable_eq_iff (name other : String) :
    nameable name = nameable other ↔
      name = other ∨ (name = "_" ∧ other = "_0") ∨ (name = "_0" ∧ other = "_") := by
  constructor
  · -- either name may be the one that is avoided
    intro h
    unfold nameable at h
    split at h
    · next hname =>
      split at h
      · next hother => exact Or.inl (hname.trans hother.symm)
      · exact Or.inr (Or.inl ⟨hname, h.symm⟩)
    · split at h
      · next hother => exact Or.inr (Or.inr ⟨h, hother⟩)
      · exact Or.inl h
  · rintro (rfl | ⟨rfl, rfl⟩ | ⟨rfl, rfl⟩) <;> rfl

/-- A property's name has the characters of names. -/
theorem Kotlin.isNameChar_propertyName (key : String) :
    ∀ c ∈ (propertyName key).toList, isNameChar c = true := by
  rw [propertyName_eq, nameable]
  split
  · intro c hc
    have hzero : c = '_' ∨ c = '0' := by simpa using hc
    rcases hzero with rfl | rfl <;> decide
  · exact isNameChar_camelCase key

/-- Backticks around a keyword make it like no other name, as no name has a backtick in it. -/
theorem Kotlin.propertyText_eq_iff (key other : String) :
    propertyText key = propertyText other ↔ propertyName key = propertyName other := by
  have hquoted (plain text : String) : "`" ++ text ++ "`" ≠ propertyName plain := by
    intro h
    have hchar := isNameChar_propertyName plain '`' (by rw [← h]; simp)
    exact absurd hchar (by decide)
  constructor
  · intro h
    unfold propertyText at h
    dsimp only at h
    -- backticks stand around both names or around neither
    split at h <;> split at h
    · exact (String.append_right_inj "`").mp ((String.append_left_inj "`").mp h)
    · exact absurd h (hquoted other _)
    · exact absurd h.symm (hquoted key _)
    · exact h
  · intro h
    unfold propertyText
    rw [h]

/-! ## Distinct members -/

/-- Exported names are distinct unless one has `X` in the place of another's underscore. Such
names are made of a key that begins with a digit, and of one with an X in front of it. -/
theorem Go.nodup_fieldNames_iff (d : Declaration) :
    (d.spelled fieldName).Nodup ↔
      (d.spelled pascalCase).Nodup ∧
        ∀ rest, "_" ++ rest ∈ d.spelled pascalCase → "X" ++ rest ∉ d.spelled pascalCase := by
  have hfield : fieldName = fun key => exportedName (pascalCase key) := funext fieldName_eq
  rw [hfield, d.nodup_spelled_comp pascalCase exportedName]
  refine and_congr_right fun _ => ?_
  constructor
  · -- two names that are exported alike would be one
    intro h rest hunderscore hx
    have hname := h _ hunderscore _ hx
      ((exportedName_eq_iff _ _).mpr (Or.inr ⟨rest, Or.inl ⟨rfl, rfl⟩⟩))
    have hfirst : '_' :: rest.toList = 'X' :: rest.toList := by
      simpa using congrArg String.toList hname
    exact absurd (List.cons.inj hfirst).1 (by decide)
  · intro h name hname other hother hexported
    rcases (exportedName_eq_iff name other).mp hexported with heq | ⟨rest, ⟨rfl, rfl⟩ | ⟨rfl, rfl⟩⟩
    · exact heq
    · exact absurd hother (h rest hname)
    · exact absurd hname (h rest hother)

/-- Properties are distinct unless one is called by an underscore and one by `_0`, which is
what takes the underscore's place. -/
theorem Kotlin.nodup_propertyTexts_iff (d : Declaration) :
    (d.spelled propertyText).Nodup ↔
      (d.spelled camelCase).Nodup ∧
        ¬ ("_" ∈ d.spelled camelCase ∧ "_0" ∈ d.spelled camelCase) := by
  rw [d.nodup_spelled_iff propertyText_eq_iff]
  have hproperty : propertyName = fun key => nameable (camelCase key) := funext propertyName_eq
  rw [hproperty, d.nodup_spelled_comp camelCase nameable]
  refine and_congr_right fun _ => ?_
  constructor
  · -- the two names are nameable alike
    rintro h ⟨hunderscore, hzero⟩
    exact absurd (h _ hunderscore _ hzero rfl) (by decide)
  · intro h name hname other hother hnameable
    rcases (nameable_eq_iff name other).mp hnameable with heq | ⟨rfl, rfl⟩ | ⟨rfl, rfl⟩
    · exact heq
    · exact absurd ⟨hname, hother⟩ h
    · exact absurd ⟨hother, hname⟩ h

/-- **The members of a type have different names exactly if its keys are spelled
differently,** in snake case or in camel case as the target has it. The names are those
that stand in the text of the type, one for each key. Keeping off keywords
makes no further names equal, but in two targets something else does: in Go a key that
begins with a digit and one that has an X in front of the same digits, and in Kotlin a
key without letters and digits and the key of a zero. -/
theorem member_names_distinct_iff (d : Declaration) :
    (∀ t : MemberTarget, t.typeText d = t.layout.text t.memberName d) ∧
    ((d.spelled fun key => (Rust.fieldName key).text).Nodup ↔ (d.spelled snakeCase).Nodup) ∧
    ((d.spelled Python.fieldName).Nodup ↔ (d.spelled snakeCase).Nodup) ∧
    ((d.spelled CPlusPlus.fieldName).Nodup ↔ (d.spelled snakeCase).Nodup) ∧
    ((d.spelled Java.fieldName).Nodup ↔ (d.spelled camelCase).Nodup) ∧
    ((d.spelled Go.fieldName).Nodup ↔
      (d.spelled pascalCase).Nodup ∧
        ∀ rest, "_" ++ rest ∈ d.spelled pascalCase → "X" ++ rest ∉ d.spelled pascalCase) ∧
    ((d.spelled Kotlin.propertyText).Nodup ↔
      (d.spelled camelCase).Nodup ∧
        ¬ ("_" ∈ d.spelled camelCase ∧ "_0" ∈ d.spelled camelCase)) := by
  refine ⟨fun t => t.typeText_eq d, ?_, ?_, ?_, ?_, ?_, ?_⟩
  · -- in four targets keeping off keywords is injective on the spellings
    exact d.nodup_spelled_iff Rust.text_eq_iff
  · exact d.nodup_spelled_iff Python.fieldName_eq_iff
  · exact d.nodup_spelled_iff CPlusPlus.fieldName_eq_iff
  · exact d.nodup_spelled_iff Java.fieldName_eq_iff
  · exact Go.nodup_fieldNames_iff d
  · exact Kotlin.nodup_propertyTexts_iff d

/-- An object of integers under the given keys. -/
def integersUnder (keys : List String) : Shape := .object (keys.map fun key => (key, .integer))

/-- The names of the members of the root type, when it has the given keys. -/
def rootMembers (t : Target) (name : String → String) (keys : List String) : List String :=
  (planFor t "Root" (integersUnder keys)).root.spelled name

/-- Two keys that differ in case and underscores alone are one member in every target.
The last two lists are of keys that are spelled differently. -/
theorem member_names_clash :
    let members :=
      [rootMembers .rust (fun key => (Rust.fieldName key).text) ["a_b", "aB"],
        rootMembers .python Python.fieldName ["a_b", "aB"],
        rootMembers .cPlusPlus CPlusPlus.fieldName ["a_b", "aB"],
        rootMembers .java Java.fieldName ["a_b", "aB"],
        rootMembers .go Go.fieldName ["a_b", "aB"],
        rootMembers .kotlin Kotlin.propertyText ["a_b", "aB"],
        rootMembers .go Go.fieldName ["2fa", "x2fa"],
        rootMembers .kotlin Kotlin.propertyText ["$", "0"]]
    (∀ keys ∈ [["a_b", "aB"], ["2fa", "x2fa"], ["$", "0"]], (integersUnder keys).KeysDistinct) ∧
    Rust.renderStruct (planFor .rust "Root" (integersUnder ["a_b", "aB"])).root =
      "#[derive(Debug, Clone, Serialize, Deserialize)]\npub struct Root \x7b\n" ++
        "    pub a_b: i64,\n    #[serde(rename = \"aB\")]\n    pub a_b: i64,\n\x7d" ∧
    members =
      [["a_b", "a_b"], ["a_b", "a_b"], ["a_b", "a_b"], ["aB", "aB"], ["AB", "AB"], ["aB", "aB"],
        ["X2fa", "X2fa"], ["_0", "_0"]] ∧
    ∀ names ∈ members, ¬ names.Nodup := by
  decide +kernel

end Shapewright
