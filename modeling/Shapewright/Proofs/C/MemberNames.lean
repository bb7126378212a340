import Mathlib.Data.List.Perm.Basic
import Shapewright.Proofs.Dialect.MemberNames
import Shapewright.Proofs.Name.Identifiers
import Shapewright.Proofs.Name.Underscores

/-!
# Names of C members

A list takes two members of a struct: the pointer, which is called after the key, and a
companion for the number of items, which is called after the pointer with `_count` behind
it. No other key is looked at for that, so a companion can have the name of another
member. It can only be that of a key, never that of another companion: it is the name of
each key that is spelled like the key of the list with `_count` behind it.

Main definitions:

* `C.members` — the members of a struct, each with its type.
* `C.listKeys` — the keys that have companions.
* `C.IsPlain` — the field under a key is called as the key is spelled.

Main results:

* `fieldName_eq_countName_iff` — which companions are called like which fields.
* `struct_members_distinct_iff` — when all members of a struct have different names.
-/

namespace Shapewright.C

open Name

/-! ## Members -/

/-- The companion of a member, if there is one, with its type. -/
def companions (member : String × Slot) : List (String × String) :=
  if member.2.isList then [("size_t", countName (fieldName member.1))] else []

/-- The members of a struct in order, each with its type. -/
def members (d : Declaration) : List (String × String) :=
  d.slots.flatMap fun member => (typeExpr member.2, fieldName member.1) :: companions member

/-- A member as it is written. -/
def memberText (m : String × String) : String := "    " ++ m.1 ++ " " ++ m.2 ++ ";\n"

/-- The keys of lists, which have companions. -/
def listKeys (d : Declaration) : List String :=
  (d.slots.filter fun member => member.2.isList).map Prod.fst

/-- A field is printed as one member, or as two if a count goes with it. -/
theorem renderField_eq (member : String × Slot) :
    renderField member =
      String.join (((typeExpr member.2, fieldName member.1) :: companions member).map
        memberText) := by
  have hsize : "    size_t " = "    " ++ ("size_t" ++ " ") := rfl
  unfold renderField companions memberText
  dsimp only
  split
  · -- a companion follows on a line of its own
    simp only [List.map_cons, List.map_nil, String.join_cons, String.join_nil,
      String.append_empty, String.append_assoc, hsize]
  · simp only [List.map_cons, List.map_nil, String.join_cons, String.join_nil,
      String.append_empty]

/-- So the printed fields of a struct are its members, in their order, each with its own line. -/
theorem join_renderField (slots : List (String × Slot)) :
    String.join (slots.map renderField) =
      String.join ((slots.flatMap fun member =>
        (typeExpr member.2, fieldName member.1) :: companions member).map memberText) := by
  induction slots with
  | nil => rfl
  | cons member rest ih =>
    rw [List.map_cons, String.join_cons, List.flatMap_cons, List.map_append, String.join_append,
      ih, renderField_eq]

/-- The members of the struct that is written. -/
theorem renderStruct_eq (d : Declaration) :
    renderStruct d = "typedef struct \x7b\n" ++
      (if d.isEmpty then "    int dummy; /* empty struct placeholder */\n" else "") ++
      String.join ((members d).map memberText) ++ "\x7d " ++ typeName d.name ++ ";" := by
  unfold renderStruct members
  rw [join_renderField]

/-- The names of all members, field by field. -/
theorem map_snd_members (d : Declaration) :
    (members d).map Prod.snd = d.slots.flatMap memberNames := by
  rw [members, List.map_flatMap]
  apply List.flatMap_congr
  intro member _
  unfold memberNames companions
  dsimp only
  split
  · rw [List.map_cons, List.map_singleton]
  · rw [List.map_singleton]

/-- A count goes with the fields that are lists, and with no others. -/
theorem flatMap_companions (slots : List (String × Slot)) :
    (slots.flatMap companions).map Prod.snd =
      ((slots.filter fun member => member.2.isList).map Prod.fst).map fun key =>
        countName (fieldName key) := by
  induction slots with
  | nil => rfl
  | cons member rest ih =>
    rw [List.flatMap_cons, List.map_append, ih, companions, List.filter_cons]
    split <;> rfl

/-- The names are those of the fields and those of the companions. -/
theorem memberNames_perm (d : Declaration) :
    (d.slots.flatMap memberNames).Perm
      (d.spelled fieldName ++ (listKeys d).map fun key => countName (fieldName key)) := by
  have hmembers : (members d).Perm
      (d.slots.map (fun member => (typeExpr member.2, fieldName member.1)) ++
        d.slots.flatMap companions) :=
    (List.map_append_flatMap_perm _ _ _).symm
  have hnames := hmembers.map Prod.snd
  simp only [map_snd_members, List.map_append, flatMap_companions, List.map_map,
    Function.comp_def] at hnames
  simp only [Declaration.spelled_eq, List.map_map, listKeys, Function.comp_def]
  exact hnames

/-! ## Companions -/

/-- The field under a key is called as the key is spelled, which is neither a keyword nor
an underscore alone. -/
def IsPlain (key : String) : Prop := snakeCase key ∉ keywords ∧ snakeCase key ≠ "_"

/-- A key that is spelled like a keyword gets an underscore; any other is called by its
spelling. -/
theorem fieldName_of_mem {key : String} (h : snakeCase key ∈ keywords) :
    fieldName key = snakeCase key ++ "_" := by
  rw [fieldName, suffixIfReserved_of_mem h]

theorem fieldName_of_not_mem {key : String} (h : snakeCase key ∉ keywords) :
    fieldName key = snakeCase key := by
  rw [fieldName, suffixIfReserved_of_not_mem h]

/-- No companion is called like a keyword with its suffix. -/
theorem append_underscore_ne_countName (name field : String) : name ++ "_" ≠ countName field := by
  have hsuffixed : (name ++ "_").toList.getLast? = some '_' := by
    rw [String.toList_append]
    exact List.getLast?_concat
  have hcount : (countName field).toList.getLast? = some 't' := by
    rw [countName, String.toList_append, List.getLast?_append]
    rfl
  intro h
  rw [h, hcount] at hsuffixed
  exact absurd hsuffixed (by decide)

/-- **A companion is called like the field under another key exactly if that key is
spelled like the list's with `_count` behind it.** The suffix of a keyword would leave two
underscores in the name, and so would an underscore alone, and no spelling has these. -/
theorem fieldName_eq_countName_iff (other key : String) :
    fieldName other = countName (fieldName key) ↔
      IsPlain key ∧ snakeCase other = snakeCase key ++ "_count" := by
  -- nor is the list called by one, as the companion would then have two underscores in a row
  have hkeywords : ∀ word ∈ keywords, ¬ "_count".toList <:+ word.toList := by decide
  have hunderscores : "_" ++ "_count" = "__" ++ "count" := rfl
  constructor
  · intro h
    -- a field that is called by a keyword ends in an underscore, and no companion does
    have hother : snakeCase other ∉ keywords := by
      intro hmem
      rw [fieldName_of_mem hmem] at h
      exact append_underscore_ne_countName _ _ h
    rw [fieldName_of_not_mem hother, countName] at h
    have hkey : snakeCase key ∉ keywords := by
      intro hmem
      rw [fieldName_of_mem hmem] at h
      refine snakeCase_ne_append_underscores other (snakeCase key) "count" ?_
      rw [h, String.append_assoc, String.append_assoc, hunderscores]
    rw [fieldName_of_not_mem hkey] at h
    refine ⟨⟨hkey, fun halone => ?_⟩, h⟩
    rw [halone, hunderscores] at h
    exact snakeCase_ne_append_underscores other "" "count" h
  · rintro ⟨⟨hkey, -⟩, h⟩
    -- no keyword ends in the suffix of a companion
    have hother : snakeCase other ∉ keywords := by
      intro hmem
      refine hkeywords _ hmem ⟨(snakeCase key).toList, ?_⟩
      rw [h, String.toList_append]
    rw [fieldName_of_not_mem hother, fieldName_of_not_mem hkey, countName, h]

/-! ## Distinct members -/

/-- Companions are as different as the fields that they belong to, so a struct has two members
of one name exactly if two of its fields do, or if some companion is called like a field. -/
theorem nodup_memberNames_iff (d : Declaration) :
    (d.slots.flatMap memberNames).Nodup ↔
      (d.spelled fieldName).Nodup ∧
        ∀ key ∈ listKeys d, countName (fieldName key) ∉ d.spelled fieldName := by
  rw [(memberNames_perm d).nodup_iff, List.nodup_append']
  refine and_congr_right fun hfields => ?_
  -- the lists are some of the members, so their names are distinct if those of all are
  have hsublist : ((listKeys d).map fieldName).Sublist (d.spelled fieldName) := by
    have hkeys : (listKeys d).Sublist (d.slots.map Prod.fst) := List.filter_sublist.map _
    rw [Declaration.spelled_eq]
    exact hkeys.map fieldName
  -- one suffix behind distinct names leaves them distinct
  have hcounts : ((listKeys d).map fun key => countName (fieldName key)).Nodup := by
    have hinjective : Function.Injective countName := fun _ _ h =>
      (String.append_left_inj "_count").mp h
    have hmapped := (hsublist.nodup hfields).map hinjective
    rwa [List.map_map] at hmapped
  constructor
  · rintro ⟨-, hdisjoint⟩ key hkey hmem
    exact hdisjoint hmem (List.mem_map_of_mem hkey)
  · intro h
    refine ⟨hcounts, fun name hfield hcount => ?_⟩
    obtain ⟨key, hkey, rfl⟩ := List.mem_map.mp hcount
    exact h key hkey hfield

/-- **The members of a struct have different names exactly if its fields do and there is
no list with a companion that is called like a field.** The field then stands under a key
that is spelled like that of the list with `_count` behind it; the list's own key must be
neither a keyword nor without letters and digits. -/
theorem struct_members_distinct_iff (d : Declaration) :
    renderStruct d = "typedef struct \x7b\n" ++
      (if d.isEmpty then "    int dummy; /* empty struct placeholder */\n" else "") ++
      String.join ((members d).map memberText) ++ "\x7d " ++ typeName d.name ++ ";" ∧
    (members d).map Prod.snd = d.slots.flatMap memberNames ∧
    ((d.slots.flatMap memberNames).Nodup ↔
      (d.spelled fieldName).Nodup ∧
        ∀ key ∈ listKeys d, IsPlain key → snakeCase key ++ "_count" ∉ d.spelled snakeCase) := by
  refine ⟨renderStruct_eq d, map_snd_members d,
    (nodup_memberNames_iff d).trans (and_congr_right fun _ => ?_)⟩
  constructor
  · -- the spellings that agree are those of a field and of the list, so the names agree too
    intro h key hkey hplain hmem
    obtain ⟨field, hfield, hspelled⟩ := List.mem_map.mp hmem
    refine h key hkey (List.mem_map.mpr ⟨field, hfield, ?_⟩)
    exact (fieldName_eq_countName_iff field.1 key).mpr ⟨hplain, hspelled⟩
  · intro h key hkey hmem
    obtain ⟨field, hfield, hcalled⟩ := List.mem_map.mp hmem
    obtain ⟨hplain, hspelled⟩ := (fieldName_eq_countName_iff field.1 key).mp hcalled
    exact h key hkey hplain (List.mem_map.mpr ⟨field, hfield, hspelled⟩)

/-- A list, and a number under its key with `_count` behind it. -/
def countedTags : Shape := .object [("tags", .array .string), ("tags_count", .integer)]

/-- The companion of the list and the number are one member, although the keys are
different and so are the fields. -/
theorem struct_members_clash :
    let d := (planFor .c "Root" countedTags).root
    countedTags.KeysDistinct ∧ d.spelled fieldName = ["tags", "tags_count"] ∧
      (d.spelled fieldName).Nodup ∧
      d.slots.flatMap memberNames = ["tags", "tags_count", "tags_count"] ∧
      ¬ (d.slots.flatMap memberNames).Nodup := by
  decide +kernel

end Shapewright.C
