import Shapewright.Generate
import Shapewright.Proofs.Plan.Expansion
import Shapewright.Proofs.Rust.Reading

/-!
# From Rust output back to the shape

The lines of the output are read from the last to the first, with the fields of
the struct around them at hand. What comes out is the table of the plan, and a
table can be expanded to the object that the plan was made for.

Main definitions:

* `readTable` — the table of types in some lines.

Main results:

* `readTable_planLines` — the lines of a plan say what its table says.
* `output_determines_schema` — plans with one output stand for the same object,
  and declare the same names.
-/

namespace Shapewright.Rust

open Name Plan

/-! ## Names of fields -/

/-- The three ways to call a field: suffixed and then renamed, or by its snake case, raw or
plain, and renamed only if that is not the key. -/
theorem fieldName_cases (key : String) :
    fieldName key = ⟨snakeCase key ++ "_", false, true⟩ ∨
      ∃ raw, fieldName key = ⟨snakeCase key, raw, snakeCase key != key⟩ := by
  rw [fieldName]
  split
  · exact Or.inl rfl
  · exact Or.inr ⟨_, rfl⟩

/-- A plain identifier is written as it is, and a raw one behind its mark. -/
theorem toList_text_plain (identifier : String) (renamed : Bool) :
    (FieldName.mk identifier false renamed).text.toList = identifier.toList := rfl

theorem toList_text_raw (identifier : String) (renamed : Bool) :
    (FieldName.mk identifier true renamed).text.toList = 'r' :: '#' :: identifier.toList :=
  String.toList_append

/-- Besides the mark of a raw identifier there are only letters, digits and
underscores. -/
theorem isNameChar_text_fieldName (key : String) :
    ∀ c ∈ (fieldName key).text.toList, isNameChar c = true ∨ c = '#' := by
  have hsnake := isNameChar_snakeCase key
  intro c hc
  -- only a name that is marked has a mark in it; a suffix is an underscore
  rcases fieldName_cases key with hname | ⟨raw, hname⟩
  · rw [hname, toList_text_plain, String.toList_append, List.mem_append] at hc
    rcases hc with hc | hc
    · exact Or.inl (hsnake c hc)
    · have hunderscore : c = '_' := List.mem_singleton.mp hc
      exact Or.inl (isNameChar_iff.mpr (Or.inr hunderscore))
  · rw [hname] at hc
    cases raw with
    | false => exact Or.inl (hsnake c hc)
    | true =>
      rw [toList_text_raw, List.mem_cons, List.mem_cons] at hc
      rcases hc with rfl | rfl | hc
      · exact Or.inl (by decide)
      · exact Or.inr rfl
      · exact Or.inl (hsnake c hc)

/-- The identifier without the mark of a raw one. -/
def bare (identifier : String) : String :=
  match identifier.toList.dropPrefix? ['r', '#'] with
  | some cs => String.ofList cs
  | none => identifier

/-- An identifier without the mark is its own bare name. -/
theorem bare_of_not_mem {identifier : String} (h : '#' ∉ identifier.toList) :
    bare identifier = identifier := by
  have hnone : identifier.toList.dropPrefix? ['r', '#'] = none := by
    rw [Option.eq_none_iff_forall_ne_some]
    intro cs hcs
    obtain ⟨mark, hsplit, hmark⟩ := List.dropPrefix?_eq_some_iff.mp hcs
    rw [hsplit, beq_iff_eq.mp hmark] at h
    exact h (by simp)
  rw [bare, hnone]

/-- Where the name of a field says its key, the key is what is left without the mark of a raw
identifier. -/
theorem bare_text_fieldName {key : String} (h : (fieldName key).renamed = false) :
    bare (fieldName key).text = key := by
  rcases fieldName_cases key with hname | ⟨raw, hname⟩
  · rw [hname] at h
    exact absurd h (by simp)
  · rw [hname] at h ⊢
    -- the key says itself, so it is its own snake case
    have hkey : snakeCase key = key := by simpa using h
    rw [hkey]
    cases raw with
    | false =>
      apply bare_of_not_mem
      intro hmem
      rw [toList_text_plain, ← hkey] at hmem
      exact absurd (isNameChar_snakeCase key '#' hmem) (by decide)
    | true =>
      have hmark : ('r' :: '#' :: key.toList).dropPrefix? ['r', '#'] = some key.toList :=
        List.dropPrefix?_append_of_beq key.toList (beq_self_eq_true ['r', '#'])
      rw [bare, toList_text_raw, hmark]
      exact String.ofList_toList

/-! ## The table of types -/

/-- What has been read from the lines behind: the members of the struct that is
still open, and the types that are complete. -/
structure Reading where
  members : List (String × Slot)
  types : Table

namespace Reading

/-- A key belongs to the field behind it. -/
def rename (key : String) : List (String × Slot) → List (String × Slot)
  | [] => []
  | (_, slot) :: rest => (key, slot) :: rest

/-- Go on with the line in front. -/
def step (line : Line) (r : Reading) : Reading :=
  match line with
  | .closing => ⟨[], r.types⟩
  | .field identifier slot => ⟨(bare identifier, slot) :: r.members, r.types⟩
  | .rename key => ⟨rename key r.members, r.types⟩
  | .opening name => ⟨[], (name, r.members) :: r.types⟩
  | _ => r

end Reading

def readLines (lines : List Line) (r : Reading) : Reading := lines.foldr Reading.step r

/-- The table of types in the lines. -/
def readTable (lines : List Line) : Table := (readLines lines ⟨[], []⟩).types

/-- Lines are read from the last one on, so those behind are read before those in front. -/
theorem readLines_append (xs ys : List Line) (r : Reading) :
    readLines (xs ++ ys) r = readLines xs (readLines ys r) := List.foldr_append

/-- **A member is read back from its lines**: its key from the attribute, or from the
identifier if there is none. -/
theorem readLines_memberLines (member : String × Slot) (r : Reading) :
    readLines (memberLines member) r = ⟨member :: r.members, r.types⟩ := by
  rw [memberLines, readLines_append]
  by_cases h : (fieldName member.1).renamed = true
  · rw [if_pos h]
    rfl
  · -- without an attribute the key is in the identifier
    rw [if_neg h]
    show Reading.mk ((bare (fieldName member.1).text, member.2) :: r.members) r.types = _
    rw [bare_text_fieldName (Bool.not_eq_true _ ▸ h)]

/-- So are all members of a type, in front of those that were there. -/
theorem readLines_flatMap_memberLines (members : List (String × Slot)) (r : Reading) :
    readLines (members.flatMap memberLines) r = ⟨members ++ r.members, r.types⟩ := by
  induction members with
  | nil => rfl
  | cons member rest ih =>
    rw [List.flatMap_cons, readLines_append, ih, readLines_memberLines, List.cons_append]

/-- A type takes the members that were read behind its opening. -/
theorem readLines_structLines (d : Declaration) (r : Reading) :
    readLines (structLines d) r = ⟨[], (d.name, d.slots) :: r.types⟩ := by
  have hremark : ∀ r, readLines (if d.isEmpty then [.nothing] else []) r = r := by
    intro r
    split <;> rfl
  have hclosing : readLines [.closing] r = ⟨[], r.types⟩ := rfl
  rw [structLines, readLines_append, readLines_append, readLines_append, hclosing,
    readLines_flatMap_memberLines, hremark, List.append_nil]
  rfl

/-- All types are read back with their members. -/
theorem readLines_blocksLines (types : List Declaration) :
    readLines (blocksLines types) ⟨[], []⟩ = ⟨[], types.map fun d => (d.name, d.slots)⟩ := by
  induction types using blocksLines.induct with
  | case1 => rfl
  | case2 d => rw [blocksLines, readLines_structLines]; rfl
  | case3 d next more ih =>
    rw [blocksLines, readLines_append, readLines_structLines]
    show Reading.mk [] ((d.name, d.slots) :: (readLines (blocksLines (next :: more)) _).types) = _
    rw [ih]
    rfl

/-- The lines of a plan say what its table says. -/
theorem readTable_planLines (p : Plan) : readTable (planLines p) = p.table := by
  show (readLines (blocksLines p.types) ⟨[], []⟩).types = _
  rw [readLines_blocksLines]
  rfl

/-! ## The names in the lines -/

/-- The declaration has a name that it may have, and so have all types that its
members refer to. -/
structure IsSound (d : Declaration) : Prop where
  name   : IsDeclarable reserved d.name
  target : ∀ member ∈ d.slots, ∀ name, member.2.target? = some name → IsDeclarable reserved name

/-- The names in a type's lines are such as a plan has, and so are those of several types and
of the whole text. -/
theorem IsSound.structLines {d : Declaration} (h : IsSound d) :
    ∀ line ∈ structLines d, line.Sound := by
  intro line hline
  simp only [Rust.structLines, List.mem_append, List.mem_cons, List.not_mem_nil, or_false,
    List.mem_flatMap] at hline
  -- the two lines in front, the remark in place of fields, those of the fields, and the brace
  rcases hline with (((rfl | rfl) | hremark) | ⟨member, hmember, hline⟩) | rfl
  · trivial
  · exact h.name
  · split at hremark
    · rw [List.mem_singleton.mp hremark]
      trivial
    · exact absurd hremark List.not_mem_nil
  · rw [memberLines, List.mem_append, List.mem_singleton] at hline
    rcases hline with hrename | rfl
    · split at hrename
      · rw [List.mem_singleton.mp hrename]
        trivial
      · exact absurd hrename List.not_mem_nil
    · exact ⟨isNameChar_text_fieldName member.1, h.target member hmember⟩
  · trivial

theorem sound_of_mem_blocksLines {types : List Declaration} (h : ∀ d ∈ types, IsSound d) :
    ∀ line ∈ blocksLines types, line.Sound := by
  induction types using blocksLines.induct with
  | case1 => exact fun line hline => absurd hline List.not_mem_nil
  | case2 d => exact (h d List.mem_cons_self).structLines
  | case3 d next more ih =>
    intro line hline
    rw [blocksLines, List.mem_append, List.mem_cons] at hline
    rcases hline with hline | rfl | hline
    · exact (h d List.mem_cons_self).structLines line hline
    · trivial
    · exact ih (fun e he => h e (List.mem_cons_of_mem d he)) line hline

theorem sound_of_mem_planLines {p : Plan} (h : ∀ d ∈ p.types, IsSound d) :
    ∀ line ∈ planLines p, line.Sound := by
  intro line hline
  rw [planLines, List.mem_cons, List.mem_cons] at hline
  rcases hline with rfl | rfl | hline
  · trivial
  · trivial
  · exact sound_of_mem_blocksLines h line hline

/-- The plan of a shape declares and refers to such names alone. -/
theorem isSound_of_mem_types {s : Shape} (hs : s.KeysDistinct) (rootName : String) :
    ∀ d ∈ (planFor .rust rootName s).types, IsSound d := by
  intro d hd
  have hr : reserved.Escapable := Reserved.Admitted.escapable (Or.inr ⟨.rust, rfl⟩)
  obtain ⟨hname, htarget⟩ := isDeclarable_of_mem_types hr hs d hd
  exact ⟨hname, htarget⟩

/-! ## Output -/

/-- Without options there is output, and it is the lines of the plan. -/
theorem emit_null (s : Shape) (rootName : String) :
    emit .rust s rootName .null =
      .ok (.single (textOf (planLines (planFor .rust rootName s))) .rust) := by
  rw [← content_eq]
  rfl

/-- **Equal texts have equal tables of types.** The text is cut into lines, the lines are
read, and the table is gathered from them; each step is undone by a reader. -/
theorem table_eq_of_emit_eq {s₁ s₂ : Shape} (h₁ : s₁.KeysDistinct) (h₂ : s₂.KeysDistinct)
    {rootName₁ rootName₂ : String}
    (h : emit .rust s₁ rootName₁ .null = emit .rust s₂ rootName₂ .null) :
    (planFor .rust rootName₁ s₁).table = (planFor .rust rootName₂ s₂).table := by
  rw [emit_null, emit_null] at h
  obtain ⟨htext, -⟩ := Rendered.single.inj (Except.ok.inj h)
  -- the text has these lines, and the lines have this table
  have hlines := textOf_injective (sound_of_mem_planLines (isSound_of_mem_types h₁ rootName₁))
    (sound_of_mem_planLines (isSound_of_mem_types h₂ rootName₂)) htext
  rw [← readTable_planLines, ← readTable_planLines, hlines]

/-- **The output determines the shape.** Where two shapes have the same output,
whatever their roots are called, they have the same object inside all lists, with
the same keys in the same order and the same kinds at every depth, and their types
have the same names in the same order. -/
theorem output_determines_schema {s₁ s₂ : Shape} (h₁ : s₁.KeysDistinct) (h₂ : s₂.KeysDistinct)
    (rootName₁ rootName₂ : String)
    (h : emit .rust s₁ rootName₁ .null = emit .rust s₂ rootName₂ .null) :
    rootFields s₁ = rootFields s₂ ∧
      (planFor .rust rootName₁ s₁).types.map Declaration.name =
        (planFor .rust rootName₂ s₂).types.map Declaration.name := by
  have hr : reserved.Escapable := Reserved.Admitted.escapable (Or.inr ⟨.rust, rfl⟩)
  have htable := table_eq_of_emit_eq h₁ h₂ h
  constructor
  · have hlast := getLast?_table (planFor .rust rootName₁ s₁)
    rw [htable, getLast?_table] at hlast
    have hslots : (planFor .rust rootName₂ s₂).root.slots =
        (planFor .rust rootName₁ s₁).root.slots := congrArg Prod.snd (Option.some.inj hlast)
    -- one root in one table expands to one object
    have hroot : ExpandsMembers (planFor .rust rootName₁ s₁).table
        (planFor .rust rootName₁ s₁).root.slots (rootFields s₁) :=
      (expandsMembers_root_iff hr h₁ rootName₁).mpr rfl
    have hother : ExpandsMembers (planFor .rust rootName₂ s₂).table
        (planFor .rust rootName₂ s₂).root.slots (rootFields s₂) :=
      (expandsMembers_root_iff hr h₂ rootName₂).mpr rfl
    rw [htable, ← hslots] at hroot
    exact hroot.unique hother
  · have hnames := congrArg (List.map Prod.fst) htable
    rw [table, table, List.map_map, List.map_map] at hnames
    exact hnames

/-- An object with a keyword, a blank and a letter beyond ASCII in its keys. -/
def orderLine : Shape :=
  .object [("type", .integer), ("unit price", .array .number), ("größe", .object [])]

/-- A list around the object and another spelling of the name leave no trace. -/
theorem output_determines_schema_orderLine :
    emit .rust orderLine "order line" .null = emit .rust (.array orderLine) "OrderLine" .null ∧
      rootFields orderLine = rootFields (.array orderLine) ∧
      (planFor .rust "order line" orderLine).types.map Declaration.name =
        (planFor .rust "OrderLine" (.array orderLine)).types.map Declaration.name := by
  have h : emit .rust orderLine "order line" .null =
      emit .rust (.array orderLine) "OrderLine" .null := by
    have hlines : planLines (planFor .rust "order line" orderLine) =
        planLines (planFor .rust "OrderLine" (.array orderLine)) := by decide +kernel
    rw [emit_null, emit_null, hlines]
  exact ⟨h, output_determines_schema (by decide) (by decide) _ _ h⟩

end Shapewright.Rust
